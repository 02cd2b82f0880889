import Mathlib.Data.List.Basic
import TokenGame.Proofs.Search.Step

/-! The invariant of breadth-first search. Depths do not decrease in the order of
discovery and the waiting states span at most two layers; a layer that has states
has every marking that lies nearer to the start. Both limits and dropped overflow
keep the invariant, because a search that has cut a successor finds no new state. -/
namespace TokenGame

namespace Search

/-- The transitions that the states before `index` enable, state by state. -/
def trail (net : Net) (s : Search) (index : Nat) : List (Nat × Nat) :=
  (List.range index).flatMap fun i =>
    ((s.states[i]?).map fun a => (net.enabledTransitions a.marking).map (i, ·)).getD []

/-- Whether the state with an index enables nothing. -/
def deadAt (net : Net) (s : Search) (i : Nat) : Bool :=
  (s.states[i]?).any fun a => net.isDeadlocked a.marking

/-- The states before `index` that enable nothing. -/
def ends (net : Net) (s : Search) (index : Nat) : List Nat :=
  (List.range index).filter (s.deadAt net)

/-- Holds of a search from `m` that has expanded the states before `index` and has
followed the transitions in `followed` of state `index`. -/
structure Invariant (net : Net) (c : SearchConfig) (m : Marking) (index : Nat)
    (followed : List Nat) (s : Search) : Prop where
  start : s.At 0 ⟨m, 0, none⟩
  known : ∀ x i, s.known[x]? = some i ↔ ∃ a, s.At i a ∧ a.marking = x
  parent : ∀ i a, s.At (i + 1) a → ∃ j t b, a.parent = some (j, t) ∧ j ≤ i ∧
    s.At j b ∧ a.depth = b.depth + 1 ∧
    net.fireTransition b.marking t = .ok a.marking
  ordered : ∀ i j a b, i ≤ j → s.At i a → s.At j b → a.depth ≤ b.depth
  near : ∀ i j a b, index ≤ i → s.At i a → s.At j b →
    b.depth ≤ a.depth + 1
  depth : ∀ i a, s.At i a → a.depth ≤ c.maxDepth
  count : s.states.size ≤ c.maxStates
  /-- Whatever lies nearer to the start than some state has been found. -/
  layers : ∀ i a n x, s.At i a → n < a.depth → net.ReachesIn m n x →
    ∃ j b, s.At j b ∧ b.marking = x ∧ b.depth ≤ n
  visited : s.visits = s.states.toList.mapIdx fun i a => ⟨i, a.marking, a.depth⟩
  trailed : s.steps = s.trail net index ++ followed.map (index, ·)
  ended : s.deadlocks = s.ends net index
  holds : ∀ e ∈ s.events, e.Holds net c s.states

/-- What became of transition `t` of state `i`. -/
inductive Outcome (net : Net) (c : SearchConfig) (s : Search) (i : Nat) (a : State)
    (t : Nat) : Prop where
  | edge {j : Nat} {b : State} : .edge i t j ∈ s.events → s.At j b →
      net.fireTransition a.marking t = .ok b.marking → b.depth ≤ a.depth + 1 →
      Outcome net c s i a t
  | overflow {place : String} : .overflow i t place ∈ s.events →
      net.fireTransition a.marking t = .error (.tokenOverflow place) → Outcome net c s i a t
  | cut {next : Marking} : .cut i t ∈ s.events → net.fireTransition a.marking t = .ok next →
      (∀ j b, s.At j b → b.marking ≠ next) →
      c.maxDepth ≤ a.depth ∨ c.maxStates ≤ s.states.size → Outcome net c s i a t

variable {net : Net} {c : SearchConfig} {m : Marking} {index : Nat} {followed : List Nat}
  {s : Search}

theorem mem_trail {i t : Nat} : (i, t) ∈ s.trail net index ↔
    i < index ∧ ∃ a, s.At i a ∧ net.isEnabled a.marking t = true := by
  simp only [trail, List.mem_flatMap, List.mem_range]
  constructor
  · rintro ⟨j, before, member⟩
    cases found : s.states[j]? with
    | none => simp [found] at member
    | some a =>
      simp only [found, Option.map_some, Option.getD_some, List.mem_map, Prod.mk.injEq] at member
      obtain ⟨u, enabled, rfl, rfl⟩ := member
      exact ⟨before, a, found, Net.mem_enabledTransitions.mp enabled⟩
  · rintro ⟨before, a, found, enabled⟩
    exact ⟨i, before, by simp [found, enabled]⟩

theorem deadAt_iff {i : Nat} : s.deadAt net i = true ↔
    ∃ a, s.At i a ∧ net.enabledTransitions a.marking = [] := by
  unfold deadAt At
  cases s.states[i]? <;> simp [Net.isDeadlocked]

@[simp] theorem trail_note (e : Event) : (s.note e).trail net index = s.trail net index := rfl
@[simp] theorem ends_note (e : Event) : (s.note e).ends net index = s.ends net index := rfl

theorem trail_discover (bound : index ≤ s.states.size) (a : State) :
    (s.discover a).trail net index = s.trail net index := by
  apply List.flatMap_congr
  intro i member
  have before := List.mem_range.mp member
  rw [getElem?_states_discover (by omega)]

theorem ends_discover (bound : index ≤ s.states.size) (a : State) :
    (s.discover a).ends net index = s.ends net index := by
  apply List.filter_congr
  intro i member
  have before := List.mem_range.mp member
  rw [deadAt, getElem?_states_discover (by omega), deadAt]

theorem trail_succ {a : State} (found : s.At index a) :
    s.trail net (index + 1) =
      s.trail net index ++ (net.enabledTransitions a.marking).map (index, ·) := by
  simp [trail, List.range_succ, found]

theorem ends_succ {a : State} (found : s.At index a) :
    s.ends net (index + 1) =
      s.ends net index ++ if net.isDeadlocked a.marking then [index] else [] := by
  by_cases dead : net.isDeadlocked a.marking <;>
    simp [ends, deadAt, List.range_succ, List.filter_append, found, dead]

/-- The index of markings stays exact when a state with a new marking is found. -/
theorem known_discover {a : State}
    (known : ∀ x i, s.known[x]? = some i ↔ ∃ b, s.At i b ∧ b.marking = x)
    (fresh : s.known[a.marking]? = none) (x : Marking) (i : Nat) :
    (s.discover a).known[x]? = some i ↔ ∃ b, (s.discover a).At i b ∧ b.marking = x := by
  rw [getElem?_known_discover]
  split
  · rename_i same
    subst same
    constructor
    · intro size
      cases size
      exact ⟨a, discover_new s a, rfl⟩
    · rintro ⟨b, found, same⟩
      rcases discover_cases found with ⟨rfl, _⟩ | ⟨_, old⟩
      · rfl
      · rw [(known _ i).mpr ⟨b, old, same⟩] at fresh
        cases fresh
  · rename_i other
    rw [known]
    constructor
    · rintro ⟨b, found, same⟩
      exact ⟨b, discover_old a found, same⟩
    · rintro ⟨b, found, same⟩
      rcases discover_cases found with ⟨_, rfl⟩ | ⟨_, old⟩
      · exact absurd same other
      · exact ⟨b, old, same⟩

/-- Events about transitions stay true as states are found, cuts apart. -/
theorem holds_discover {e : Event} (a : State) (truth : e.Holds net c s.states)
    (kept : ∀ i t, e ≠ .cut i t) : e.Holds net c (s.discover a).states := by
  cases e with
  | edge i t j =>
    obtain ⟨b, d, source, target, fired, close⟩ := truth
    exact ⟨b, d, discover_old a source, discover_old a target, fired, close⟩
  | overflow i t place =>
    obtain ⟨b, source, enabled, failed⟩ := truth
    exact ⟨b, discover_old a source, enabled, failed⟩
  | cut i t => exact absurd rfl (kept i t)
  | state => trivial
  | deadlock => trivial

namespace Invariant

variable (valid : Invariant net c m index followed s)
include valid

theorem sized (wellFormed : net.WellFormed) (size : m.size = net.places.length) {i : Nat}
    {a : State} (found : s.At i a) : a.marking.size = net.places.length := by
  cases i with
  | zero =>
    obtain rfl := At.det valid.start found
    exact size
  | succ i =>
    obtain ⟨_, _, _, _, _, _, _, fired⟩ := valid.parent i a found
    exact (wellFormed.fireTransition_counts fired).1

/-- No marking has two states. -/
theorem unique {i j : Nat} {a b : State} (left : s.At i a)
    (right : s.At j b) (same : a.marking = b.marking) : i = j := by
  have first := (valid.known b.marking i).mpr ⟨a, left, same⟩
  have second := (valid.known b.marking j).mpr ⟨b, right, rfl⟩
  exact Option.some.inj (first.symm.trans second)

theorem absent_of_known {x : Marking} (fresh : s.known[x]? = none) {i : Nat} {a : State}
    (found : s.At i a) : a.marking ≠ x := by
  intro same
  have seen := (valid.known x i).mpr ⟨a, found, same⟩
  rw [fresh] at seen
  cases seen

/-- Every enabled transition of an expanded state has left its event, and the event
is true. -/
theorem outcome {i t : Nat} {a : State} (before : i < index) (found : s.At i a)
    (enabled : net.isEnabled a.marking t = true) : s.Outcome net c i a t := by
  have step : (i, t) ∈ s.steps := by
    rw [valid.trailed]
    exact List.mem_append_left _ (mem_trail.mpr ⟨before, a, found, enabled⟩)
  obtain ⟨e, recorded, step⟩ := List.mem_filterMap.mp step
  have recorded := Array.mem_toList_iff.mp recorded
  have truth := valid.holds e recorded
  cases e with
  | edge =>
    cases step
    obtain ⟨_, b, source, target, fired, close⟩ := truth
    obtain rfl := At.det found source
    exact .edge recorded target fired close
  | overflow =>
    cases step
    obtain ⟨_, source, _, failed⟩ := truth
    obtain rfl := At.det found source
    exact .overflow recorded failed
  | cut =>
    cases step
    obtain ⟨_, next, source, fired, absent, full⟩ := truth
    obtain rfl := At.det found source
    exact .cut recorded fired absent full
  | state => cases step
  | deadlock => cases step

theorem source_le {e : Event} (member : e ∈ s.events) {i t : Nat}
    (source : e.step? = some (i, t)) : i ≤ index := by
  have step : (i, t) ∈ s.steps := List.mem_filterMap.mpr ⟨e, by simpa using member, source⟩
  rw [valid.trailed] at step
  rcases List.mem_append.mp step with old | current
  · exact Nat.le_of_lt (mem_trail.mp old).1
  · obtain ⟨u, _, same⟩ := List.mem_map.mp current
    exact Nat.le_of_eq (Prod.mk.inj same).1.symm

/-- A successor of an expanded state is among the states, one layer on at most,
unless a limit stopped it. -/
theorem successor {i t : Nat} {a : State} {x : Marking} (before : i < index)
    (found : s.At i a) (fired : net.fireTransition a.marking t = .ok x) :
    (∃ j b, s.At j b ∧ b.marking = x ∧ b.depth ≤ a.depth + 1) ∨
      c.maxDepth ≤ a.depth ∨ c.maxStates ≤ s.states.size := by
  cases valid.outcome before found (Net.fireTransition_ok fired).2 with
  | edge _ target same close =>
    exact .inl ⟨_, _, target, Except.ok.inj (same.symm.trans fired), close⟩
  | overflow _ failed => cases failed.symm.trans fired
  | cut _ _ _ full => exact .inr full

/-- If all states above some depth are expanded and nothing is full, whatever lies
no farther than that depth has been found. -/
theorem within {limit n : Nat} {x : Marking}
    (expanded : ∀ i a, s.At i a → a.depth < limit → i < index) (shallow : limit ≤ c.maxDepth)
    (room : s.states.size < c.maxStates) (close : n ≤ limit) (reached : net.ReachesIn m n x) :
    ∃ j b, s.At j b ∧ b.marking = x ∧ b.depth ≤ n := by
  induction n generalizing x with
  | zero => exact ⟨0, _, valid.start, (Net.reachesIn_zero.mp reached).symm, Nat.le_refl 0⟩
  | succ n ih =>
    obtain ⟨y, t, path, fired⟩ := Net.reachesIn_succ.mp reached
    obtain ⟨i, a, found, rfl, depth⟩ := ih (by omega) path
    have before := expanded i a found (by omega)
    rcases valid.successor before found fired with ⟨j, b, target, same, next⟩ | full | full
    · exact ⟨j, b, target, same, by omega⟩
    · omega
    · omega

/-- A state that is nearer to the start than another was found before it. -/
theorem found_before {i j : Nat} {a b : State} (left : s.At i a) (right : s.At j b)
    (nearer : a.depth < b.depth) : i < j := by
  apply Nat.lt_of_not_le
  intro late
  have := valid.ordered j i b a late right left
  omega

/-- A search that can still grow has cut nothing. -/
theorem no_cut {origin : State} (current : s.At index origin)
    (shallow : origin.depth < c.maxDepth) (room : s.states.size < c.maxStates)
    {e : Event} (member : e ∈ s.events) (i t : Nat) : e ≠ .cut i t := by
  rintro rfl
  -- the cut left a state no deeper than this one, and neither limit has loosened since
  obtain ⟨a, _, found, _, _, full⟩ := valid.holds _ member
  have := valid.ordered i index a origin (valid.source_le member rfl) found current
  omega

theorem note {e : Event} {t : Nat} (truth : e.Holds net c s.states)
    (step : e.step? = some (index, t)) :
    Invariant net c m index (followed ++ [t]) (s.note e) := by
  have noVisit : e.visit? = none := by cases e <;> simp_all [Event.step?, Event.visit?]
  have noEnd : e.deadlock? = none := by cases e <;> simp_all [Event.step?, Event.deadlock?]
  exact
    { valid with
      visited := by simpa [noVisit] using valid.visited
      trailed := by
        rw [steps_note, step, valid.trailed, trail_note]
        simp
      ended := by
        rw [deadlocks_note, noEnd, valid.ended, ends_note]
        simp
      holds := by
        intro d member
        rcases mem_events_note.mp member with old | rfl
        · exact valid.holds d old
        · exact truth }

/-- A new successor of the state under expansion becomes the last state. -/
theorem discover {origin : State} {t : Nat} {next : Marking} (current : s.At index origin)
    (fired : net.fireTransition origin.marking t = .ok next) (fresh : s.known[next]? = none)
    (shallow : origin.depth < c.maxDepth) (room : s.states.size < c.maxStates) :
    Invariant net c m index followed
      (s.discover ⟨next, origin.depth + 1, some (index, t)⟩) := by
  have inside := current.lt
  have farthest : ∀ j b, s.At j b → b.depth ≤ origin.depth + 1 := fun j b found =>
    valid.near index j origin b (Nat.le_refl index) current found
  constructor
  case start => exact discover_old _ valid.start
  case known => exact known_discover valid.known fresh
  case parent =>
    intro i a found
    rcases discover_cases found with ⟨last, rfl⟩ | ⟨_, old⟩
    · exact ⟨index, t, origin, rfl, by omega, discover_old _ current, rfl, fired⟩
    · obtain ⟨j, u, b, parent, before, source, depth, fire⟩ := valid.parent i a old
      exact ⟨j, u, b, parent, before, discover_old _ source, depth, fire⟩
  case ordered =>
    intro i j a b before left right
    rcases discover_cases left with ⟨rfl, rfl⟩ | ⟨_, oldLeft⟩ <;>
      rcases discover_cases right with ⟨rfl, rfl⟩ | ⟨bound, oldRight⟩
    · exact Nat.le_refl _
    · omega
    · exact farthest i a oldLeft
    · exact valid.ordered i j a b before oldLeft oldRight
  case near =>
    intro i j a b after left right
    rcases discover_cases left with ⟨_, rfl⟩ | ⟨_, oldLeft⟩ <;>
      rcases discover_cases right with ⟨_, rfl⟩ | ⟨_, oldRight⟩
    · exact Nat.le_succ _
    · exact Nat.le_succ_of_le (farthest j b oldRight)
    · exact Nat.succ_le_succ (valid.ordered index i origin a after current oldLeft)
    · exact valid.near i j a b after oldLeft oldRight
  case depth =>
    intro i a found
    rcases discover_cases found with ⟨_, rfl⟩ | ⟨_, old⟩
    · exact shallow
    · exact valid.depth i a old
  case count =>
    rw [states_discover, Array.size_push]
    exact room
  case layers =>
    intro i a n x found nearer reached
    -- the new state is one layer on, so its layer needs all that the current one reaches
    have earlier : ∃ j b, s.At j b ∧ b.marking = x ∧ b.depth ≤ n := by
      rcases discover_cases found with ⟨_, rfl⟩ | ⟨_, old⟩
      · exact valid.within (fun _ _ found => valid.found_before found current)
          (Nat.le_of_lt shallow) room (Nat.le_of_lt_succ nearer) reached
      · exact valid.layers i a n x old nearer reached
    obtain ⟨j, b, old, same, depth⟩ := earlier
    exact ⟨j, b, discover_old _ old, same, depth⟩
  case visited =>
    rw [visits_discover, valid.visited, states_discover, Array.toList_push, List.mapIdx_concat,
      Array.length_toList]
  case trailed =>
    rw [steps_discover, trail_discover (Nat.le_of_lt inside), valid.trailed]
  case ended =>
    rw [deadlocks_discover, ends_discover (Nat.le_of_lt inside), valid.ended]
  case holds =>
    intro e member
    rcases mem_events_discover.mp member with old | rfl
    · exact holds_discover _ (valid.holds e old) (valid.no_cut current shallow room old)
    · trivial

/-- Each way in which following a transition can end keeps the invariant. -/
theorem step {origin : State} {t : Nat} {s' : Search} (current : s.At index origin)
    (enabled : net.isEnabled origin.marking t = true)
    (way : Step net c index origin t s s') :
    s'.At index origin ∧ Invariant net c m index (followed ++ [t]) s' := by
  cases way with
  | overflow failed => exact ⟨current, valid.note ⟨origin, current, enabled, failed⟩ rfl⟩
  | @old next target fired seen =>
    obtain ⟨b, found, rfl⟩ := (valid.known next target).mp seen
    have close := valid.near index target origin b (Nat.le_refl index) current found
    exact ⟨current, valid.note ⟨origin, b, current, found, fired, close⟩ rfl⟩
  | @cut next fired fresh full =>
    have absent : ∀ j b, s.At j b → b.marking ≠ next := fun _ _ found =>
      valid.absent_of_known fresh found
    exact ⟨current, valid.note ⟨origin, next, current, fired, absent, full⟩ rfl⟩
  | new fired fresh shallow room =>
    have grown := valid.discover current fired fresh shallow room
    refine ⟨discover_old _ current, grown.note ?_ rfl⟩
    exact ⟨origin, _, discover_old _ current, discover_new s _, fired, Nat.le_refl _⟩

/-- Following enabled transitions one after the other never fails. -/
theorem follow_all (wellFormed : net.WellFormed) (size : m.size = net.places.length)
    {origin : State} (current : s.At index origin) {ts : List Nat}
    (enabled : ∀ t ∈ ts, net.isEnabled origin.marking t = true) :
    ∃ s', ts.foldlM (follow net c index origin) s = .ok s' ∧ s'.At index origin ∧
      Invariant net c m index (followed ++ ts) s' := by
  induction ts generalizing s followed with
  | nil => exact ⟨s, rfl, current, by simpa using valid⟩
  | cons t rest ih =>
    have first := enabled t (.head rest)
    obtain ⟨s₁, followed₁, way⟩ :=
      follow_step wellFormed c index (valid.sized wellFormed size current) first s
    obtain ⟨current₁, valid₁⟩ := valid.step current first way
    obtain ⟨s₂, done, current₂, valid₂⟩ :=
      ih valid₁ current₁ fun u member => enabled u (.tail t member)
    refine ⟨s₂, ?_, current₂, by simpa using valid₂⟩
    simpa only [List.foldlM_cons, followed₁, bind, Except.bind] using done

theorem deadlock {origin : State} (current : s.At index origin)
    (none : net.enabledTransitions origin.marking = []) (begun : followed = []) :
    Invariant net c m (index + 1) [] (s.note (.deadlock index)) :=
  { valid with
    near := fun i j a b after => valid.near i j a b (Nat.le_of_succ_le after)
    visited := by simpa [Event.visit?] using valid.visited
    trailed := by
      rw [steps_note, valid.trailed, begun, trail_note, trail_succ current, none]
      simp [Event.step?]
    ended := by
      rw [deadlocks_note, valid.ended, ends_note, ends_succ current]
      simp [Net.isDeadlocked, none, Event.deadlock?]
    holds := by
      intro e member
      rcases mem_events_note.mp member with old | rfl
      · exact valid.holds e old
      · trivial }

end Invariant

/-- A state whose enabled transitions have all been followed is expanded. -/
theorem Invariant.advance {origin : State}
    (valid : Invariant net c m index (net.enabledTransitions origin.marking) s)
    (current : s.At index origin) (alive : net.enabledTransitions origin.marking ≠ []) :
    Invariant net c m (index + 1) [] s :=
  { valid with
    near := fun i j a b after => valid.near i j a b (Nat.le_of_succ_le after)
    trailed := by
      rw [valid.trailed, trail_succ current]
      simp
    ended := by
      rw [valid.ended, ends_succ current]
      simp [Net.isDeadlocked, alive] }

theorem start_invariant (c : SearchConfig) (m : Marking) (room : 1 ≤ c.maxStates) :
    Invariant net c m 0 [] (start m) := by
  have only : ∀ i a, (start m).At i a → i = 0 ∧ a = ⟨m, 0, none⟩ := by
    intro i a found
    rcases discover_cases found with new | ⟨impossible, _⟩
    · exact new
    · cases impossible
  constructor
  case start => rfl
  case known => exact known_discover (by simp [At]) (by simp)
  case parent =>
    intro i a found
    cases (only _ a found).1
  case ordered =>
    intro i j a b _ left right
    obtain ⟨_, rfl⟩ := only i a left
    obtain ⟨_, rfl⟩ := only j b right
    exact Nat.le_refl 0
  case near =>
    intro i j a b _ left right
    obtain ⟨_, rfl⟩ := only i a left
    obtain ⟨_, rfl⟩ := only j b right
    exact Nat.le_succ 0
  case depth =>
    intro i a found
    obtain ⟨_, rfl⟩ := only i a found
    exact Nat.zero_le _
  case count => exact room
  case layers =>
    intro i a n x found nearer
    obtain ⟨_, rfl⟩ := only i a found
    cases nearer
  case visited => rfl
  case trailed => rfl
  case ended => rfl
  case holds =>
    intro e member
    rcases mem_events_discover.mp member with impossible | rfl
    · simp at impossible
    · trivial

/-- Expanding a state moves the invariant on to the next one. -/
theorem expand_invariant (wellFormed : net.WellFormed) (size : m.size = net.places.length)
    (valid : Invariant net c m index [] s) (waiting : index < s.states.size) :
    ∃ s', s.expand net c index = .ok s' ∧ index < s'.states.size ∧
      Invariant net c m (index + 1) [] s' := by
  obtain ⟨origin, current⟩ : ∃ origin, s.At index origin :=
    ⟨_, Array.getElem?_eq_getElem waiting⟩
  cases enabled : net.enabledTransitions origin.marking with
  | nil =>
    refine ⟨s.note (.deadlock index), ?_, waiting, valid.deadlock current enabled rfl⟩
    simp only [expand, current, enabled]
  | cons t ts =>
    have all : ∀ u ∈ net.enabledTransitions origin.marking,
        net.isEnabled origin.marking u = true := fun u => Net.mem_enabledTransitions.mp
    obtain ⟨s', done, current', valid'⟩ := valid.follow_all wellFormed size current all
    have alive : net.enabledTransitions origin.marking ≠ [] := by simp [enabled]
    refine ⟨s', ?_, current'.lt, Invariant.advance (by simpa using valid') current' alive⟩
    rw [enabled] at done
    simpa only [expand, current, enabled] using done

/-- As many rounds as there may be states finish the search. -/
theorem run_invariant (wellFormed : net.WellFormed) (size : m.size = net.places.length)
    {rounds : Nat} (enough : c.maxStates ≤ index + rounds)
    (valid : Invariant net c m index [] s) (expanded : index ≤ s.states.size) :
    ∃ s', run net c rounds index s = .ok s' ∧ Invariant net c m s'.states.size [] s' := by
  induction rounds generalizing index s with
  | zero =>
    -- every round expanded one state, and there are no more than `maxStates`
    have finished : index = s.states.size := by
      have := valid.count
      omega
    exact ⟨s, rfl, finished ▸ valid⟩
  | succ rounds ih =>
    unfold run
    by_cases waiting : index < s.states.size
    · obtain ⟨s₁, done, bound, valid₁⟩ := expand_invariant wellFormed size valid waiting
      obtain ⟨s₂, ran, valid₂⟩ := ih (by omega) valid₁ bound
      refine ⟨s₂, ?_, valid₂⟩
      simpa only [if_pos waiting, done, bind, Except.bind] using ran
    · have finished : index = s.states.size := by omega
      exact ⟨s, by rw [if_neg waiting], finished ▸ valid⟩

end Search

end TokenGame
