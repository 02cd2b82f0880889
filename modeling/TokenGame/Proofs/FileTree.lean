import TokenGame.Command.Plan
import TokenGame.Proofs.Path

/-! A file that was written holds what was written, unless the path leads to the null device,
which keeps nothing. Writing another name of the same directory leaves it as it is, so after many
writes into one directory every file holds the last text that was written to it. -/
namespace TokenGame

namespace FileTree

/-- Steps start at directories only, so they lead to the same place whatever is put where no
directory is. -/
theorem follow_set {t : FileTree} {steps names target place : List String} (node : FileNode)
    (below : target ≠ []) (file : t.node? target ≠ some .directory)
    (followed : t.follow names steps = .ok place) :
    (t.set target node).follow names steps = .ok place := by
  induction steps generalizing names with
  | nil => exact followed
  | cons name steps ih =>
    unfold follow at followed
    split at followed
    · rename_i directory
      have apart : target ≠ names := by
        rintro rfl
        exact file directory
      have kept : (t.set target node).node? names = some .directory := by
        rw [node?_set t node names below, if_neg apart, directory]
      rw [follow, kept]
      exact ih followed
    · cases followed
    · cases followed
    · cases followed

theorem follow_append (t : FileTree) (names first later : List String) :
    t.follow names (first ++ later) = t.follow names first >>= (t.follow · later) := by
  induction first generalizing names with
  | nil => rfl
  | cons name first ih =>
    rw [List.cons_append, follow, follow]
    split
    · exact ih _
    · rfl
    · rfl
    · rfl

theorem locate_eq_ok_iff {t : FileTree} {p : Path} {names : List String} :
    t.locate p = .ok names ↔ check p = .ok () ∧ t.follow (t.start p) p.steps = .ok names := by
  cases checked : check p <;> simp [locate, checked, bind, Except.bind]

theorem locate_set {t : FileTree} {p : Path} {names target : List String} (node : FileNode)
    (below : target ≠ []) (file : t.node? target ≠ some .directory)
    (located : t.locate p = .ok names) : (t.set target node).locate p = .ok names := by
  obtain ⟨checked, followed⟩ := locate_eq_ok_iff.mp located
  exact locate_eq_ok_iff.mpr ⟨checked, follow_set node below file followed⟩

theorem lookup_eq_ok_iff {t : FileTree} {p : Path} {node : FileNode} :
    t.lookup p = .ok node ↔ ∃ names, t.locate p = .ok names ∧ t.node? names = some node := by
  cases located : t.locate p with
  | error e => simp [lookup, located, bind, Except.bind]
  | ok names =>
    cases found : t.node? names <;>
      simp [lookup, located, found, bind, Except.bind, pure, Except.pure, throw, throwThe,
        MonadExceptOf.throw]

/-- What is read is the text of a file, or nothing from the null device. -/
theorem read_eq_ok_iff {t : FileTree} {p : Path} {text : String} :
    t.read p = .ok text ↔
      t.lookup p = .ok (.file text) ∨ t.lookup p = .ok .null ∧ text = "" := by
  rcases found : t.lookup p with e | (held | _ | _) <;>
    simp [read, found, bind, Except.bind, pure, Except.pure, throw, throwThe, MonadExceptOf.throw,
      eq_comm]

theorem node?_root (t : FileTree) : t.node? [] = some .directory := rfl

/-- A write changes nothing but the place its path leads to, and not even that on the null
device. -/
theorem write_cases {t next : FileTree} {p : Path} {text : String}
    (written : t.write p text = .ok next) : ∃ names, t.locate p = .ok names ∧
      (t.node? names = some .null ∧ next = t ∨
        names ≠ [] ∧ t.node? names ≠ some .directory ∧ next = t.set names (.file text)) := by
  cases located : t.locate p with
  | error e => simp [write, located, bind, Except.bind] at written
  | ok names =>
    refine ⟨names, rfl, ?_⟩
    have below (file : t.node? names ≠ some .directory) : names ≠ [] := by
      rintro rfl
      exact file t.node?_root
    simp only [write, located, bind, Except.bind] at written
    split at written
    · cases written
    · rename_i null
      cases written
      exact .inl ⟨null, rfl⟩
    · rename_i found
      cases written
      have file : t.node? names ≠ some .directory := by simp [found]
      exact .inr ⟨below file, file, rfl⟩
    · rename_i absent
      cases written
      have file : t.node? names ≠ some .directory := by simp [absent]
      exact .inr ⟨below file, file, rfl⟩

/-- Whether a path leads to the null device. -/
def isNull (t : FileTree) (p : Path) : Bool :=
  match t.lookup p with
  | .ok .null => true
  | _ => false

/-- The file at a path holds a text, unless the path leads to the null device. -/
def Keeps (t : FileTree) (p : Path) (text : String) : Prop :=
  t.lookup p = .ok (.file text) ∨ t.lookup p = .ok .null

theorem Keeps.read {t : FileTree} {p : Path} {text : String} (kept : t.Keeps p text) :
    t.read p = .ok text ∨ t.isNull p = true := by
  rcases kept with found | null
  · exact .inl (read_eq_ok_iff.mpr (.inl found))
  · simp [isNull, null]

/-- What was written is kept. -/
theorem keeps_write {t next : FileTree} {p : Path} {text : String}
    (written : t.write p text = .ok next) : next.Keeps p text := by
  obtain ⟨names, located, ⟨null, rfl⟩ | ⟨below, file, rfl⟩⟩ := write_cases written
  · exact .inr (lookup_eq_ok_iff.mpr ⟨names, located, null⟩)
  · refine .inl (lookup_eq_ok_iff.mpr ⟨names, locate_set _ below file located, ?_⟩)
    rw [node?_set t _ names below, if_pos rfl]

/-- A write changes no node at another place. -/
theorem lookup_write {t next : FileTree} {p q : Path} {text : String} {node : FileNode}
    (written : t.write p text = .ok next) (found : t.lookup q = .ok node)
    (apart : ∀ names other, t.locate p = .ok names → t.locate q = .ok other → names ≠ other) :
    next.lookup q = .ok node := by
  obtain ⟨other, there, holds⟩ := lookup_eq_ok_iff.mp found
  obtain ⟨names, located, ⟨_, rfl⟩ | ⟨below, file, rfl⟩⟩ := write_cases written
  · exact found
  · refine lookup_eq_ok_iff.mpr ⟨other, locate_set _ below file there, ?_⟩
    rw [node?_set t _ other below, if_neg (apart names other located there), holds]

/-! ### Names in one directory -/

theorem step_name {name : String} (named : Path.IsName name) (names : List String) :
    step names name = names ++ [name] := by
  obtain ⟨notEmpty, notStay, notUp⟩ := named.leads
  simp [step, notEmpty, notStay, notUp]

/-- A name in a directory stands right below the place of the directory. -/
theorem locate_child {t : FileTree} {dir : Path} {name : String} {names : List String}
    (named : Path.IsName name) (located : t.locate (dir.child name) = .ok names) :
    ∃ place, t.follow (t.start (dir.child name)) dir.approach = .ok place ∧
      names = place ++ [name] := by
  obtain ⟨_, followed⟩ := locate_eq_ok_iff.mp located
  rw [dir.steps_child named.noSlash, follow_append] at followed
  cases approached : t.follow (t.start (dir.child name)) dir.approach with
  | error e =>
    rw [approached] at followed
    cases followed
  | ok place =>
    refine ⟨place, rfl, ?_⟩
    simp only [approached, bind, Except.bind, follow, step_name named] at followed
    split at followed
    · exact (Except.ok.inj followed).symm
    · cases followed
    · cases followed
    · cases followed

/-- Two names in one directory are two places. -/
theorem locate_child_ne {t : FileTree} {dir : Path} {name other : String}
    {names places : List String} (named : Path.IsName name) (named' : Path.IsName other)
    (located : t.locate (dir.child name) = .ok names)
    (located' : t.locate (dir.child other) = .ok places) (apart : name ≠ other) :
    names ≠ places := by
  obtain ⟨place, approached, rfl⟩ := locate_child named located
  obtain ⟨same, approached', rfl⟩ := locate_child named' located'
  have start : t.start (dir.child name) = t.start (dir.child other) := by
    rw [FileTree.start, FileTree.start, dir.isAbsolute_child named.noSlash,
      dir.isAbsolute_child named'.noSlash]
  rw [start, approached'] at approached
  cases approached
  simpa using apart

theorem Keeps.write_other {t next : FileTree} {dir : Path} {name other text written : String}
    (kept : t.Keeps (dir.child name) text) (named : Path.IsName name)
    (named' : Path.IsName other) (apart : other ≠ name)
    (done : t.write (dir.child other) written = .ok next) : next.Keeps (dir.child name) text :=
  kept.imp
    (lookup_write done · fun _ _ there here => locate_child_ne named' named there here apart)
    (lookup_write done · fun _ _ there here => locate_child_ne named' named there here apart)

end FileTree

/-! ### Actions -/

namespace Action

/-- An action that changes no file, or only one with another name in the directory. -/
def Spares (dir : Path) (name : String) : Action → Prop
  | .print _ => True
  | .warn _ => True
  | .makeDirectories .. => False
  | .write p _ _ => ∃ other, Path.IsName other ∧ other ≠ name ∧ p = dir.child other

variable {o next : Outcome} {dir p : Path} {name text : String}

/-- Actions that all succeed are taken one list after the other. -/
theorem performAll_append {first later : List Action}
    (done : (performAll o (first ++ later)).succeeds = true) :
    performAll o (first ++ later) = performAll (performAll o first) later := by
  induction first generalizing o with
  | nil => rfl
  | cons action first ih =>
    cases performed : action.perform o with
    | error e => simp [performAll, performed, Outcome.succeeds] at done
    | ok next =>
      simp only [List.cons_append, performAll, performed] at done ⊢
      exact ih done

theorem keeps_perform {action : Action} (performed : action.perform o = .ok next)
    (named : Path.IsName name) (spared : action.Spares dir name)
    (kept : o.files.Keeps (dir.child name) text) : next.files.Keeps (dir.child name) text := by
  cases action with
  | print line =>
    cases performed
    exact kept
  | warn line =>
    cases performed
    exact kept
  | makeDirectories => exact spared.elim
  | write p written failure =>
    obtain ⟨other, named', apart, rfl⟩ := spared
    cases changed : o.files.write (dir.child other) written with
    | error e => simp [perform, perform.change, changed] at performed
    | ok files =>
      simp only [perform, perform.change, changed] at performed
      cases performed
      exact kept.write_other named named' apart changed

theorem keeps_performAll {actions : List Action} (named : Path.IsName name)
    (spared : ∀ action ∈ actions, action.Spares dir name)
    (kept : o.files.Keeps (dir.child name) text)
    (done : (performAll o actions).succeeds = true) :
    (performAll o actions).files.Keeps (dir.child name) text := by
  induction actions generalizing o with
  | nil => exact kept
  | cons action actions ih =>
    cases performed : action.perform o with
    | error e => simp [performAll, performed, Outcome.succeeds] at done
    | ok next =>
      simp only [performAll, performed] at done ⊢
      exact ih (fun later member => spared later (.tail action member))
        (keeps_perform performed named (spared action (.head actions)) kept) done

/-- If actions begin with a write and none fails, the file is written. -/
theorem performAll_write {failure : FileError → Failure} {later : List Action}
    (done : (performAll o (.write p text failure :: later)).succeeds = true) :
    ∃ next : Outcome, next.files.Keeps p text ∧
      performAll o (.write p text failure :: later) = performAll next later := by
  cases written : o.files.write p text with
  | error e => simp [performAll, perform, perform.change, written, Outcome.succeeds] at done
  | ok files =>
    refine ⟨{ o with files }, FileTree.keeps_write written, ?_⟩
    simp [performAll, perform, perform.change, written]

/-- If actions that all succeed write a file and spare it afterwards, it holds what was written. -/
theorem keeps_last_write {first later : List Action} {failure : FileError → Failure}
    (named : Path.IsName name) (spared : ∀ action ∈ later, action.Spares dir name)
    (done : (performAll o
      (first ++ .write (dir.child name) text failure :: later)).succeeds = true) :
    (performAll o (first ++ .write (dir.child name) text failure :: later)).files.Keeps
      (dir.child name) text := by
  have parts := performAll_append done
  rw [parts] at done ⊢
  obtain ⟨next, kept, same⟩ := performAll_write done
  rw [same] at done ⊢
  exact keeps_performAll named spared kept done

/-- If actions end with a write and none fails, the file holds what was written, unless it is the
null device. -/
theorem read_performAll {actions : List Action} {failure : FileError → Failure}
    (last : actions.getLast? = some (.write p text failure))
    (done : (performAll o actions).succeeds = true) :
    (performAll o actions).files.read p = .ok text ∨
      (performAll o actions).files.isNull p = true := by
  obtain ⟨earlier, rfl⟩ := List.getLast?_eq_some_iff.mp last
  have parts := performAll_append done
  rw [parts] at done ⊢
  obtain ⟨next, kept, same⟩ := performAll_write done
  rw [same]
  exact kept.read

end Action

end TokenGame
