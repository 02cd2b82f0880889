import TokenGame.Proofs.Search.Worklist
import TokenGame.Proofs.Service.Errors

/-! What the loop over a queue keeps, and what it reports. The invariant of the search says what the
containers of the loop have in common, that no access misses, and when the loop ends; the report
that is made from them is that of the search. -/
namespace TokenGame

namespace Worklist

open Search

variable {net : Net} {c : SearchConfig} {m : Marking} {index : Nat} {followed : List Nat}
  {s : Search}

/-- What holds of the containers after a number of rounds. -/
structure Sound (net : Net) (c : SearchConfig) (rounds : Nat) (w : Worklist) : Prop where
  lengths : w.found.size = w.visited.size
  nonempty : 1 ≤ w.visited.size
  room : w.visited.size ≤ c.maxStates
  distinct : w.visited.toList.Nodup
  sized : ∀ x ∈ w.visited, x.size = net.places.length
  maxima : w.maxima.size = net.places.length
  expanded : rounds ≤ w.visited.size
  /-- The states that wait are those that are not expanded, in the order of their indices. -/
  frontier : w.frontier = List.range' rounds (w.visited.size - rounds)
  ordered : ∀ i j a b, i ∈ w.frontier → j ∈ w.frontier → i ≤ j → w.found[i]? = some a →
    w.found[j]? = some b → a.depth ≤ b.depth ∧ b.depth ≤ a.depth + 1
  depth : ∀ a ∈ w.found, a.depth ≤ c.maxDepth
  root : ∀ a, w.found[0]? = some a → a = ⟨0, none⟩
  parent : ∀ i a, w.found[i + 1]? = some a → ∃ j t b, a.parent = some (j, t) ∧ j ≤ i ∧
    w.found[j]? = some b ∧ a.depth = b.depth + 1

theorem found_ofSearch {i : Nat} {a : Provenance} : (ofSearch net c index s).found[i]? = some a ↔
    ∃ state, s.At i state ∧ ⟨state.depth, state.parent⟩ = a := by
  simp [ofSearch]

theorem Round.sound (round : Round net c m index s) (wellFormed : net.WellFormed)
    (size : m.size = net.places.length) : (ofSearch net c index s).Sound net c index := by
  have valid := round.valid
  constructor
  case lengths => simp [ofSearch]
  case nonempty =>
    rw [size_visited_ofSearch]
    exact valid.start.lt
  case room =>
    rw [size_visited_ofSearch]
    exact valid.count
  case distinct =>
    have listed : (ofSearch net c index s).visited.toList = s.states.toList.map (·.marking) := by
      simp [ofSearch]
    rw [listed, List.Nodup, List.pairwise_map, List.pairwise_iff_getElem]
    intro i j left right before same
    have foundLeft : s.At i s.states[i] := Array.getElem?_eq_getElem left
    have foundRight : s.At j s.states[j] := Array.getElem?_eq_getElem right
    exact Nat.ne_of_lt before (valid.unique foundLeft foundRight same)
  case sized =>
    intro x member
    obtain ⟨a, state, rfl⟩ := Array.mem_map.mp member
    obtain ⟨i, found⟩ := Array.getElem?_of_mem state
    exact valid.sized wellFormed size found
  case maxima => simp [ofSearch]
  case expanded =>
    rw [size_visited_ofSearch]
    exact round.bound
  case frontier =>
    rw [size_visited_ofSearch]
    rfl
  case ordered =>
    intro i j a b waits _ before here there
    obtain ⟨_, left, rfl⟩ := found_ofSearch.mp here
    obtain ⟨_, right, rfl⟩ := found_ofSearch.mp there
    have first : index ≤ i := (List.mem_range'_1.mp waits).1
    exact ⟨valid.ordered i j _ _ before left right, valid.near i j _ _ first left right⟩
  case depth =>
    intro a member
    obtain ⟨i, here⟩ := Array.getElem?_of_mem member
    obtain ⟨state, found, rfl⟩ := found_ofSearch.mp here
    exact valid.depth i state found
  case root =>
    intro a here
    obtain ⟨state, found, rfl⟩ := found_ofSearch.mp here
    rw [At.det found valid.start]
  case parent =>
    intro i a here
    obtain ⟨state, found, rfl⟩ := found_ofSearch.mp here
    obtain ⟨j, t, b, parent, before, source, depth, _⟩ := valid.parent i state found
    exact ⟨j, t, _, parent, before, found_ofSearch.mpr ⟨b, source, rfl⟩, depth⟩

/-- The walk from a state to the start along the parents, with the transitions on the way. It is
stuck where there is no record, and without an end where the parents go round. -/
inductive Traced (found : Array Provenance) : Nat → List Nat → Prop where
  | start {i : Nat} {a : Provenance} (here : found[i]? = some a) (root : a.parent = none) :
    Traced found i []
  | up {i j t : Nat} {a : Provenance} {path : List Nat} (here : found[i]? = some a)
    (parent : a.parent = some (j, t)) (above : Traced found j path) : Traced found i (path ++ [t])

/-- Since parents come before their children, the walk from every state ends. -/
theorem Sound.traced {w : Worklist} (sound : w.Sound net c index) {i : Nat} {a : Provenance}
    (here : w.found[i]? = some a) :
    ∃ path, Traced w.found i path ∧ path.length = a.depth ∧ path.length ≤ i := by
  induction i using Nat.strongRecOn generalizing a with
  | ind i ih =>
    cases i with
    | zero =>
      obtain rfl := sound.root a here
      exact ⟨[], .start here rfl, rfl, Nat.le_refl 0⟩
    | succ i =>
      obtain ⟨j, t, b, parent, before, there, depth⟩ := sound.parent i a here
      obtain ⟨path, above, length, early⟩ := ih j (by omega) there
      refine ⟨path ++ [t], .up here parent above, by simp [length, depth], ?_⟩
      rw [List.length_append, List.length_singleton]
      omega

theorem walk_of_traced (valid : Invariant net c m index followed s) {first i steps : Nat}
    {path : List Nat} (walked : Traced (ofSearch net c first s).found i path) (bound : i ≤ steps)
    (later : List Nat) : pathTo.walk s steps i later = path ++ later := by
  induction walked generalizing steps later with
  | @start i _ here root =>
    obtain ⟨state, found, rfl⟩ := found_ofSearch.mp here
    have none : state.parent = none := root
    cases steps with
    | zero => rfl
    | succ steps => simp [pathTo.walk, found, none]
  | @up i j t _ path here parent above ih =>
    obtain ⟨state, found, rfl⟩ := found_ofSearch.mp here
    have parent : state.parent = some (j, t) := parent
    cases i with
    | zero =>
      obtain rfl := At.det valid.start found
      cases parent
    | succ i =>
      obtain ⟨_, _, _, same, before, _⟩ := valid.parent i state found
      obtain ⟨rfl, rfl⟩ := Prod.mk.inj (Option.some.inj (parent.symm.trans same))
      obtain ⟨steps, rfl⟩ : ∃ n, steps = n + 1 := Nat.exists_eq_add_one.mpr (by omega)
      have above : pathTo.walk s steps j (t :: later) = path ++ t :: later := ih (by omega) _
      simp [pathTo.walk, found, parent, above]

/-! ### The report -/

/-- The transitions on the way to a state, if the walk along the parents ends in as many steps. -/
def walk? (found : Array Provenance) : (steps cursor : Nat) → List Nat → Option (List Nat)
  | 0, _, _ => none
  | steps + 1, cursor, later => do
    let a ← found[cursor]?
    match a.parent with
    | none => some later
    | some (source, transition) => walk? found steps source (transition :: later)

theorem walk?_of_traced {found : Array Provenance} {i steps : Nat} {path : List Nat}
    (walked : Traced found i path) (enough : path.length < steps) (later : List Nat) :
    walk? found steps i later = some (path ++ later) := by
  induction walked generalizing steps later with
  | start here root =>
    obtain ⟨steps, rfl⟩ := Nat.exists_eq_add_one.mpr enough
    simp [walk?, here, root]
  | @up i j t a path here parent _ ih =>
    obtain ⟨steps, rfl⟩ : ∃ n, steps = n + 1 := Nat.exists_eq_add_one.mpr (by omega)
    rw [List.length_append, List.length_singleton] at enough
    simp [walk?, here, parent, ih (Nat.lt_of_succ_lt_succ enough)]

/-- A state with the firings that lead to it. Parents come before their children, so the index
bounds the steps of the walk. -/
def witness? (net : Net) (w : Worklist) (state : Nat) : Option Witness := do
  let m ← w.visited[state]?
  let path ← walk? w.found (state + 1) state []
  let a ← w.found[state]?
  return { marking := net.markingToMap m, depth := a.depth, trace := path.map net.transitionName }

/-- The report that is made from what the loop holds at its end. -/
def findings (net : Net) (c : SearchConfig) (w : Worklist) : Findings :=
  let summary := Boundedness.summarize net w.maxima.toList c.k (!w.hitLimits)
  { deadlocked := w.deadlock.isSome
    isKBounded := summary.isKBounded
    isSafe := summary.isSafe
    bound := summary.bound
    perPlaceMax := .ofList (net.places.mapIdx fun index p => (p.id, w.maxima.getD index 0))
    placeVerdicts := summary.places
    minimalKObserved := summary.minimalK
    exploredStates := w.visited.size
    depthReached := w.depthReached
    hitLimits := w.hitLimits
    k := c.k
    deadlockWitness := w.deadlock.bind (w.witness? net)
    kWitness := w.tracker.exceeding.bind (w.witness? net)
    unsafeWitness := w.tracker.unsafeState.bind (w.witness? net) }

/-- The walk finds the path that the search has recorded. -/
theorem Round.traced (round : Round net c m index s) (wellFormed : net.WellFormed)
    (size : m.size = net.places.length) {i : Nat} {state : State} (found : s.At i state) :
    Traced (ofSearch net c index s).found i (s.pathTo i) ∧ (s.pathTo i).length = state.depth ∧
      walk? (ofSearch net c index s).found (i + 1) i [] = some (s.pathTo i) := by
  obtain ⟨path, walked, length, early⟩ :=
    (round.sound wellFormed size).traced (found_ofSearch.mpr ⟨state, found, rfl⟩)
  have same : s.pathTo i = path := by
    rw [pathTo, walk_of_traced round.valid walked (Nat.le_refl i), List.append_nil]
  rw [same]
  refine ⟨walked, length, ?_⟩
  rw [walk?_of_traced walked (Nat.lt_succ_of_le early), List.append_nil]

theorem Round.witness?_eq (round : Round net c m index s) (wellFormed : net.WellFormed)
    (size : m.size = net.places.length) (i : Nat) :
    (ofSearch net c index s).witness? net i = s.witness? net i := by
  cases found : s.states[i]? with
  | none => simp [witness?, Search.witness?, ofSearch, found]
  | some state =>
    obtain ⟨_, _, walked⟩ := round.traced wellFormed size found
    simp only [ofSearch] at walked
    simp [witness?, Search.witness?, ofSearch, found, walked]

/-- What the loop has counted as it went is what the search answers at its end. -/
theorem Round.findings_eq (round : Round net c m s.states.size s) (wellFormed : net.WellFormed)
    (size : m.size = net.places.length) :
    (ofSearch net c s.states.size s).findings net c = s.findings net c.k := by
  have maxima : (ofSearch net c s.states.size s).maxima.toList =
      (List.range net.places.length).map s.maximumAt := by
    apply List.ext_getElem <;> simp [ofSearch]
  have perPlace : (net.places.mapIdx fun index p =>
      (p.id, (ofSearch net c s.states.size s).maxima.getD index 0)) =
      net.places.mapIdx fun index p => (p.id, s.maximumAt index) := by
    apply List.ext_getElem
    · simp
    · intro i _ inside
      rw [List.length_mapIdx] at inside
      simp [ofSearch, inside]
  have depth : (ofSearch net c s.states.size s).depthReached = s.depthReached :=
    s.depthBefore_size
  have witness : (ofSearch net c s.states.size s).witness? net = s.witness? net :=
    funext (round.witness?_eq wellFormed size)
  simp only [findings, Search.findings, maxima, perPlace, depth, witness, size_visited_ofSearch]
  rfl

end Worklist

namespace Net

open Search Worklist

/-- The search is a loop over a queue. In each round the state with the next index is taken, no
access misses, and the containers are sound; the loop ends after as many rounds as there are
states, whatever the limits are, and what it has counted by then is the report. Firing what is
enabled fails at most by an overflow, and from each state the walk along the parents ends at the
start. -/
theorem search_loop_sound {model : Model} {net : Net} (compiled : ofModel model = .ok net)
    {c : SearchConfig} (config : c.validate = .ok ()) (word : c.maxDepth < Count.limit)
    {m : Marking} (size : m.size = net.places.length) :
    ∃ s f last, net.search c m = .ok s ∧ net.explore c m = .ok f ∧
      (∀ n, n < f.exploredStates → ∃ current w,
        Search.run net c n 0 (Search.start m) = .ok current ∧ w = ofSearch net c n current ∧
        after net c m n = .ok w ∧ w.Sound net c n ∧ w.frontier.head? = some n) ∧
      last = ofSearch net c f.exploredStates s ∧ after net c m f.exploredStates = .ok last ∧
      last.Sound net c f.exploredStates ∧ last.frontier = [] ∧ f = last.findings net c ∧
      (∀ x ∈ last.visited, net.InRange x ∧
        ∀ t ∈ net.enabledTransitions x, ∀ cause, net.fireTransition x t = .error cause →
          ∃ place, cause = .tokenOverflow place) ∧
      ∀ i, i < f.exploredStates → ∃ witness path, s.witness? net i = some witness ∧
        Traced last.found i path ∧ path.length = witness.depth ∧
        witness.trace = path.map net.transitionName := by
  have wellFormed := wellFormed_of_ofModel compiled
  obtain ⟨s, searched, _, explored⟩ := search_finishes wellFormed config size
  obtain ⟨final, ran, round, between⟩ := Round.run wellFormed word size
    (Nat.le_add_left c.maxStates 0) (round_start config size)
  obtain rfl : final = s := by
    simpa [search, config, size, ran, bind, Except.bind, pure, Except.pure] using searched
  have sound := round.sound wellFormed size
  refine ⟨final, _, _, searched, explored, ?_, rfl, round.same, sound, frontier_ofSearch_size,
    (round.findings_eq wellFormed size).symm, ?_, ?_⟩
  · intro n before
    obtain ⟨current, here, waiting⟩ := between n (Nat.zero_le n) before
    refine ⟨current, _, here.ran, rfl, here.same, here.sound wellFormed size, ?_⟩
    rw [frontier_ofSearch waiting, List.head?_cons]
  · intro x member
    have sized := sound.sized x member
    refine ⟨inRange_of_ofModel compiled sized, fun t enabled cause failed => ?_⟩
    obtain ⟨place, _, rfl, _⟩ := wellFormed.fireTransition_overflow sized
      (mem_enabledTransitions.mp enabled) failed
    exact ⟨_, rfl⟩
  · intro i inside
    obtain ⟨state, found⟩ : ∃ state, final.At i state := ⟨_, Array.getElem?_eq_getElem inside⟩
    obtain ⟨walked, length, _⟩ := round.traced wellFormed size found
    exact ⟨_, final.pathTo i, congrArg (Option.map _) found, walked, length, rfl⟩

theorem search_loop_sound_transfer :
    ∃ s f last, transfer.search { maxDepth := 2, maxStates := 2 } (.ofList [2, 0]) = .ok s ∧
      transfer.explore { maxDepth := 2, maxStates := 2 } (.ofList [2, 0]) = .ok f ∧
      last = ofSearch transfer { maxDepth := 2, maxStates := 2 } f.exploredStates s ∧
      after transfer { maxDepth := 2, maxStates := 2 } (.ofList [2, 0]) f.exploredStates =
        .ok last ∧ last.frontier = [] ∧
      f = last.findings transfer { maxDepth := 2, maxStates := 2 } := by
  obtain ⟨s, f, last, searched, explored, _, same, looped, _, empty, reported, _⟩ :=
    search_loop_sound (c := { maxDepth := 2, maxStates := 2 }) ofModel_transfer rfl (by decide)
      (m := .ofList [2, 0]) rfl
  exact ⟨s, f, last, searched, explored, same, looped, empty, reported⟩

end Net

end TokenGame
