import TokenGame.Analysis.Search
import TokenGame.Proofs.Net.Firing

/-! One step of a search. The events fall into three exact lists: the states that
were visited, the transitions that were followed and the states that enable
nothing. Following a transition ends in one of four ways, and on compiled nets in
no other: later modules argue over these ways and never open `follow`. What each way
preserves, a run preserves. -/
namespace TokenGame

/-- A state as the search reports it when it is found. -/
structure Visit where
  index : Nat
  marking : Marking
  depth : Nat
  deriving DecidableEq, Repr

namespace Event

def visit? : Event → Option Visit
  | .state index marking depth => some ⟨index, marking, depth⟩
  | _ => none

/-- The state and the transition that were followed. -/
def step? : Event → Option (Nat × Nat)
  | .edge source transition _ => some (source, transition)
  | .overflow source transition _ => some (source, transition)
  | .cut source transition => some (source, transition)
  | .state .. => none
  | .deadlock _ => none

def deadlock? : Event → Option Nat
  | .deadlock index => some index
  | _ => none

/-- What an event about a transition says of the states found so far. A cut is for
good: its marking is none of them. -/
def Holds (net : Net) (c : SearchConfig) (states : Array State) : Event → Prop
  | .edge source transition target => ∃ a b, states[source]? = some a ∧
      states[target]? = some b ∧ net.fireTransition a.marking transition = .ok b.marking ∧
      b.depth ≤ a.depth + 1
  | .overflow source transition place => ∃ a, states[source]? = some a ∧
      net.isEnabled a.marking transition = true ∧
      net.fireTransition a.marking transition = .error (.tokenOverflow place)
  | .cut source transition => ∃ a next, states[source]? = some a ∧
      net.fireTransition a.marking transition = .ok next ∧
      (∀ (j : Nat) (b : State), states[j]? = some b → b.marking ≠ next) ∧
      (c.maxDepth ≤ a.depth ∨ c.maxStates ≤ states.size)
  | .state .. => True
  | .deadlock _ => True

end Event

namespace Search

/-- The state with this index. -/
abbrev At (s : Search) (i : Nat) (a : State) : Prop := s.states[i]? = some a

theorem At.lt {s : Search} {i : Nat} {a : State} (found : s.At i a) : i < s.states.size :=
  (Array.getElem?_eq_some_iff.mp found).1

theorem At.det {s : Search} {i : Nat} {a b : State} (left : s.At i a) (right : s.At i b) :
    a = b := Option.some.inj (left.symm.trans right)

def visits (s : Search) : List Visit := s.events.toList.filterMap Event.visit?

def steps (s : Search) : List (Nat × Nat) := s.events.toList.filterMap Event.step?

def deadlocks (s : Search) : List Nat := s.events.toList.filterMap Event.deadlock?

theorem hitLimits_iff {s : Search} :
    s.hitLimits = true ↔ ∃ e ∈ s.events, e.isLoss = true := by
  rw [hitLimits, ← Array.any_toList, List.any_eq_true]
  simp only [Array.mem_toList_iff]

@[simp] theorem states_note (s : Search) (e : Event) : (s.note e).states = s.states := rfl
@[simp] theorem known_note (s : Search) (e : Event) : (s.note e).known = s.known := rfl

@[simp] theorem mem_events_note {s : Search} {e d : Event} :
    d ∈ (s.note e).events ↔ d ∈ s.events ∨ d = e := by simp [note]

@[simp] theorem visits_note (s : Search) (e : Event) :
    (s.note e).visits = s.visits ++ e.visit?.toList := by
  cases seen : e.visit? <;> simp [visits, note, seen]

@[simp] theorem steps_note (s : Search) (e : Event) :
    (s.note e).steps = s.steps ++ e.step?.toList := by
  cases followed : e.step? <;> simp [steps, note, followed]

@[simp] theorem deadlocks_note (s : Search) (e : Event) :
    (s.note e).deadlocks = s.deadlocks ++ e.deadlock?.toList := by
  cases dead : e.deadlock? <;> simp [deadlocks, note, dead]

@[simp] theorem states_discover (s : Search) (a : State) :
    (s.discover a).states = s.states.push a := rfl

@[simp] theorem mem_events_discover {s : Search} {a : State} {d : Event} :
    d ∈ (s.discover a).events ↔
      d ∈ s.events ∨ d = .state s.states.size a.marking a.depth := by simp [discover]

@[simp] theorem visits_discover (s : Search) (a : State) :
    (s.discover a).visits = s.visits ++ [⟨s.states.size, a.marking, a.depth⟩] := by
  simp [visits, discover, Event.visit?]

@[simp] theorem steps_discover (s : Search) (a : State) : (s.discover a).steps = s.steps := by
  simp [steps, discover, Event.step?]

@[simp] theorem deadlocks_discover (s : Search) (a : State) :
    (s.discover a).deadlocks = s.deadlocks := by
  simp [deadlocks, discover, Event.deadlock?]

theorem getElem?_known_discover (s : Search) (a : State) (x : Marking) :
    (s.discover a).known[x]? = if a.marking = x then some s.states.size else s.known[x]? := by
  simp [discover, Std.HashMap.getElem?_insert]

theorem getElem?_states_discover {s : Search} {i : Nat} (before : i < s.states.size) (a : State) :
    (s.discover a).states[i]? = s.states[i]? := by
  rw [states_discover, Array.getElem?_push, if_neg (Nat.ne_of_lt before)]

/-- A state of the grown search is the new one or an old one. -/
theorem discover_cases {s : Search} {a b : State} {i : Nat}
    (found : (s.discover a).At i b) :
    (i = s.states.size ∧ b = a) ∨ (i < s.states.size ∧ s.At i b) := by
  rw [At, states_discover, Array.getElem?_push] at found
  split at found
  · rename_i last
    exact .inl ⟨last, (Option.some.inj found).symm⟩
  · exact .inr ⟨At.lt found, found⟩

theorem discover_old {s : Search} {b : State} {i : Nat} (a : State)
    (found : s.At i b) : (s.discover a).At i b := by
  rw [At, getElem?_states_discover found.lt, found]

theorem discover_new (s : Search) (a : State) :
    (s.discover a).At s.states.size a := by simp [At]

/-- The ways in which following transition `t` of state `source` ends. -/
inductive Step (net : Net) (c : SearchConfig) (source : Nat) (origin : State) (t : Nat)
    (s : Search) : Search → Prop where
  | overflow {place : String} :
      net.fireTransition origin.marking t = .error (.tokenOverflow place) →
      Step net c source origin t s (s.note (.overflow source t place))
  | old {next : Marking} {target : Nat} : net.fireTransition origin.marking t = .ok next →
      s.known[next]? = some target →
      Step net c source origin t s (s.note (.edge source t target))
  | cut {next : Marking} : net.fireTransition origin.marking t = .ok next →
      s.known[next]? = none → c.maxDepth ≤ origin.depth ∨ c.maxStates ≤ s.states.size →
      Step net c source origin t s (s.note (.cut source t))
  | new {next : Marking} : net.fireTransition origin.marking t = .ok next →
      s.known[next]? = none → origin.depth < c.maxDepth → s.states.size < c.maxStates →
      Step net c source origin t s
        ((s.discover ⟨next, origin.depth + 1, some (source, t)⟩).note
          (.edge source t s.states.size))

section Runs

variable {net : Net} {c : SearchConfig} {s s' : Search} {origin : State} {source t : Nat}

/-- The ways are all that following a transition can do, on any net. -/
theorem follow_ok_iff :
    follow net c source origin s t = .ok s' ↔ Step net c source origin t s s' := by
  constructor
  · intro done
    unfold follow at done
    split at done
    · rename_i fired
      cases done
      exact .overflow fired
    · cases done
    · rename_i next fired
      split at done
      · rename_i target seen
        cases done
        exact .old fired seen
      · rename_i fresh
        split at done
        · rename_i full
          cases done
          exact .cut fired fresh full
        · rename_i room
          cases done
          exact .new fired fresh (by omega) (by omega)
  · intro way
    cases way with
    | overflow fired => simp only [follow, fired]
    | old fired seen => simp only [follow, fired, seen]
    | cut fired fresh full => simp only [follow, fired, fresh, if_pos full]
    | new fired fresh shallow room =>
      have loose : ¬ (c.maxDepth ≤ origin.depth ∨ c.maxStates ≤ s.states.size) := by omega
      simp only [follow, fired, fresh, if_neg loose]

/-- On a compiled net, following an enabled transition always ends in one of these ways. -/
theorem follow_step (wellFormed : net.WellFormed) (c : SearchConfig) (source : Nat)
    (size : origin.marking.size = net.places.length)
    (enabled : net.isEnabled origin.marking t = true) (s : Search) :
    ∃ s', follow net c source origin s t = .ok s' ∧ Step net c source origin t s s' := by
  suffices ∃ s', Step net c source origin t s s' by
    obtain ⟨s', way⟩ := this
    exact ⟨s', follow_ok_iff.mpr way, way⟩
  cases fired : net.fireTransition origin.marking t with
  | error cause =>
    obtain ⟨place, _, rfl, _⟩ := wellFormed.fireTransition_overflow size enabled fired
    exact ⟨_, .overflow fired⟩
  | ok next =>
    cases seen : s.known[next]? with
    | some target => exact ⟨_, .old fired seen⟩
    | none =>
      by_cases limit : c.maxDepth ≤ origin.depth ∨ c.maxStates ≤ s.states.size
      · exact ⟨_, .cut fired seen limit⟩
      · exact ⟨_, .new fired seen (by omega) (by omega)⟩

/-- States keep their indices. -/
theorem Step.keeps (way : Step net c source origin t s s') {i : Nat} {a : State}
    (found : s.At i a) : s'.At i a := by
  cases way with
  | overflow | old | cut => exact found
  | new => exact discover_old _ found

/-- Following several transitions follows the first and then the others. -/
theorem foldlM_follow_cons {ts : List Nat} :
    (t :: ts).foldlM (follow net c source origin) s = .ok s' ↔
      ∃ middle, Step net c source origin t s middle ∧
        ts.foldlM (follow net c source origin) middle = .ok s' := by
  simp only [← follow_ok_iff, List.foldlM_cons, bind, Except.bind]
  cases follow net c source origin s t <;> simp

variable {index rounds : Nat}

theorem expand_eq (current : s.At index origin) : s.expand net c index =
    if net.enabledTransitions origin.marking = [] then .ok (s.note (.deadlock index))
    else (net.enabledTransitions origin.marking).foldlM (follow net c index origin) s := by
  simp only [expand, current]
  cases net.enabledTransitions origin.marking <;> simp

theorem run_waiting (waiting : index < s.states.size) :
    run net c (rounds + 1) index s = .ok s' ↔
      ∃ middle, s.expand net c index = .ok middle ∧
        run net c rounds (index + 1) middle = .ok s' := by
  simp only [run, if_pos waiting, bind, Except.bind]
  cases s.expand net c index <;> simp

theorem run_done (expanded : ¬ index < s.states.size) : run net c rounds index s = .ok s := by
  cases rounds with
  | zero => rfl
  | succ => rw [run, if_neg expanded]

variable {property : Search → Prop}

/-- What every way of following a transition preserves, following several preserves. -/
theorem foldlM_follow_preserves
    (step : ∀ {t s s'}, s.At source origin → Step net c source origin t s s' →
      property s → property s')
    {ts : List Nat} (current : s.At source origin)
    (done : ts.foldlM (follow net c source origin) s = .ok s') (initial : property s) :
    property s' := by
  induction ts generalizing s with
  | nil =>
    cases done
    exact initial
  | cons t rest ih =>
    obtain ⟨middle, way, later⟩ := foldlM_follow_cons.mp done
    exact ih (way.keeps current) later (step current way initial)

/-- What every way of following a transition and every deadlock preserve holds
after a run. -/
theorem run_preserves
    (step : ∀ {index origin t s s'}, s.At index origin → Step net c index origin t s s' →
      property s → property s')
    (dead : ∀ {index origin s}, s.At index origin → property s →
      property (s.note (.deadlock index)))
    (ran : run net c rounds index s = .ok s') (initial : property s) : property s' := by
  induction rounds generalizing index s with
  | zero =>
    cases ran
    exact initial
  | succ rounds ih =>
    by_cases waiting : index < s.states.size
    · obtain ⟨middle, expanded, later⟩ := (run_waiting waiting).mp ran
      have current : s.At index s.states[index] := Array.getElem?_eq_getElem waiting
      refine ih later ?_
      rw [expand_eq current] at expanded
      split at expanded
      · cases expanded
        exact dead current initial
      · exact foldlM_follow_preserves step current expanded initial
    · rw [run_done waiting] at ran
      cases ran
      exact initial

end Runs

end Search

namespace Net

variable {net : Net} {c : SearchConfig} {m : Marking}

/-- A search answers where its limits are valid and its start has the right length. -/
theorem search_ok_iff {s : Search} : net.search c m = .ok s ↔
    c.validate = .ok () ∧ m.size = net.places.length ∧
      Search.run net c c.maxStates 0 (.start m) = .ok s := by
  cases config : c.validate with
  | error cause => simp [search, config, bind, Except.bind]
  | ok =>
    by_cases size : m.size = net.places.length
    · cases ran : Search.run net c c.maxStates 0 (.start m) <;>
        simp [search, config, size, ran, bind, Except.bind, pure, Except.pure, throw,
          throwThe, MonadExceptOf.throw]
    · simp [search, config, size, bind, Except.bind, throw, throwThe, MonadExceptOf.throw]

theorem search_foreign (config : c.validate = .ok ()) (size : m.size ≠ net.places.length) :
    net.search c m = .error (.foreignMarking net.places.length m.size) := by
  simp [search, config, size, bind, Except.bind, throw, throwThe, MonadExceptOf.throw]

end Net

end TokenGame
