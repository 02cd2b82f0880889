import TokenGame.Path

/-! Names in directories. A name without a slash is the last step of its path in any directory, and
the steps before it depend on the directory only; the stem of a path is such a name. -/
namespace TokenGame

namespace Path

theorem pieces_ne_nil (cs : List Char) : pieces cs ≠ [] := by
  cases cs with
  | nil => simp [pieces]
  | cons c rest =>
    unfold pieces
    split
    · simp
    · split <;> simp

theorem pieces_append_slash (front back : List Char) :
    pieces (front ++ '/' :: back) = pieces front ++ pieces back := by
  induction front with
  | nil => simp [pieces]
  | cons c front ih =>
    rw [List.cons_append, pieces, pieces, ih]
    split
    · simp
    · obtain ⟨piece, more, split⟩ := List.exists_cons_of_ne_nil (pieces_ne_nil front)
      simp [split]

theorem pieces_of_noSlash {cs : List Char} (plain : '/' ∉ cs) : pieces cs = [cs] := by
  induction cs with
  | nil => rfl
  | cons c cs ih =>
    simp only [List.mem_cons, not_or] at plain
    rw [pieces, if_neg (Ne.symm plain.1), ih plain.2]

theorem noSlash_of_mem_pieces {cs piece : List Char} (member : piece ∈ pieces cs) :
    '/' ∉ piece := by
  induction cs generalizing piece with
  | nil => simp_all [pieces]
  | cons c cs ih =>
    obtain ⟨first, more, split⟩ := List.exists_cons_of_ne_nil (pieces_ne_nil cs)
    rw [pieces, split] at member
    rw [split] at ih
    by_cases slash : c = '/'
    · rw [if_pos slash] at member
      rcases List.mem_cons.mp member with rfl | later
      · simp
      · exact ih later
    · rw [if_neg slash] at member
      rcases List.mem_cons.mp member with rfl | later
      · simp [Ne.symm slash, ih (.head more)]
      · exact ih (.tail first later)

/-- The steps to a directory, without the empty one at the end of an open text. -/
def approach (dir : Path) : List String := if dir.isOpen then dir.steps.dropLast else dir.steps

/-- The text of an open directory is empty or ends with a slash. -/
theorem toList_of_isOpen {dir : Path} (opened : dir.isOpen = true) :
    dir.text.toList = [] ∨ ∃ front, dir.text.toList = front ++ ['/'] := by
  simpa [isOpen, List.getLast?_eq_some_iff] using opened

theorem steps_child (dir : Path) {name : String} (plain : '/' ∉ name.toList) :
    (dir.child name).steps = dir.approach ++ [name] := by
  unfold child approach
  by_cases opened : dir.isOpen = true
  · rw [if_pos opened, if_pos opened]
    rcases toList_of_isOpen opened with text | ⟨front, text⟩
    · simp [steps, text, pieces_of_noSlash plain, pieces]
    · simp [steps, text, pieces_append_slash, pieces_of_noSlash plain, pieces]
  · rw [if_neg opened, if_neg opened]
    simp [steps, pieces_append_slash, pieces_of_noSlash plain]

theorem not_isAbsolute_of_noSlash {name : String} (plain : '/' ∉ name.toList) :
    (⟨name⟩ : Path).isAbsolute = false := by
  simp only [isAbsolute, decide_eq_false_iff_not]
  exact fun first => plain (List.mem_of_head? first)

theorem isAbsolute_child (dir : Path) {name : String} (plain : '/' ∉ name.toList) :
    (dir.child name).isAbsolute = dir.isAbsolute := by
  unfold child
  by_cases opened : dir.isOpen = true
  · rw [if_pos opened]
    rcases toList_of_isOpen opened with text | ⟨front, text⟩
    · have relative := not_isAbsolute_of_noSlash plain
      simpa [isAbsolute, text] using relative
    · cases front <;> simp [isAbsolute, text]
  · rw [if_neg opened]
    have nonempty : dir.text.toList ≠ [] := fun text =>
      opened (by simp [isOpen, String.toList_eq_nil_iff.mp text])
    obtain ⟨c, rest, text⟩ := List.exists_cons_of_ne_nil nonempty
    simp [isAbsolute, text]

theorem extend_child (dir : Path) (name more : String) :
    (dir.child name).extend more = dir.child (name ++ more) := by
  unfold child extend
  split <;> simp [String.append_assoc]

/-- A name that leads one step down, whatever directory it is in. -/
structure IsName (name : String) : Prop where
  noSlash : '/' ∉ name.toList
  leads : name ≠ "" ∧ name ≠ "." ∧ name ≠ ".."

theorem noSlash_fileName {p : Path} {name : String} (named : p.fileName? = some name) :
    '/' ∉ name.toList := by
  have last : p.components.getLast? = some name := by
    unfold fileName? at named
    split at named
    · cases named
    · cases named
    · rename_i last
      rw [last, named]
  have step : name ∈ p.steps := (List.mem_filter.mp (List.mem_of_getLast? last)).1
  obtain ⟨piece, written, rfl⟩ := List.mem_map.mp step
  simpa using noSlash_of_mem_pieces written

theorem noSlash_stem {p : Path} {stem : String} (stemmed : p.stem? = some stem) :
    '/' ∉ stem.toList := by
  obtain ⟨name, named, rfl⟩ := Option.map_eq_some_iff.mp stemmed
  have plain := noSlash_fileName named
  unfold splitName
  dsimp only
  split
  · simpa using plain
  · rw [String.toList_ofList]
    exact fun member => plain (List.mem_of_mem_take member)

end Path

end TokenGame
