import TokenGame.Proofs.Search.BreadthFirst

/-! The search as a loop over a queue. The loop keeps the visited markings, how each was found and
the states that wait in containers of their own, where an access can miss, and it keeps its answers
as it goes: the most tokens, the first defects, the depth reached and whether something was lost.
The search keeps one array of states and a list of events, and is asked afterwards. Round by round
the two are equal. -/
namespace TokenGame

/-- How a marking was found: its depth, and the state and the transition that led to it. -/
structure Provenance where
  depth : Nat
  parent : Option (Nat × Nat)
  deriving DecidableEq, Repr

/-- The first states with more tokens on a place than the bound asked for, and than a safe place
holds. -/
structure Tracker where
  exceeding : Option Nat := none
  unsafeState : Option Nat := none
  deriving DecidableEq, Repr

namespace Tracker

/-- Takes a state over if it is the first one with more tokens on a place than a threshold. -/
def first (threshold : Count) (before : Option Nat) (state : Nat) (m : Marking) : Option Nat :=
  if before.isNone && threshold < m.maximum then some state else before

def observe (k : Option Count) (t : Tracker) (state : Nat) (m : Marking) : Tracker where
  exceeding := match k with
    | some k => first k t.exceeding state m
    | none => t.exceeding
  unsafeState := first Boundedness.safeThreshold t.unsafeState state m

end Tracker

/-- A search with its containers apart. -/
structure Worklist where
  /-- The visited markings in the order of discovery. -/
  visited : Array Marking
  found : Array Provenance
  /-- The indices of the states that wait, in the order in which they came. -/
  frontier : List Nat
  /-- The most tokens seen on each place. -/
  maxima : Array Count
  tracker : Tracker
  /-- The first state taken from the queue that enables nothing. -/
  deadlock : Option Nat
  /-- The largest depth of a state taken from the queue. -/
  depthReached : Nat
  hitLimits : Bool
  events : Array Event

namespace Worklist

/-- What stops the loop before its end. -/
inductive Fault where
  /-- There is nothing at an index. -/
  | index
  /-- A state that waits has no marking and would be passed over. -/
  | passed
  /-- A depth is no word. -/
  | depth
  | fire (cause : FireError)
  deriving DecidableEq, Repr

def note (w : Worklist) (e : Event) : Worklist := { w with events := w.events.push e }

/-- Drops a successor. -/
def lose (w : Worklist) (e : Event) : Worklist := { w.note e with hitLimits := true }

def die (w : Worklist) (state : Nat) : Worklist :=
  { w.note (.deadlock state) with deadlock := w.deadlock.or (some state) }

/-- Raises the most tokens seen on a place to those of a marking. -/
def raiseAt (m : Marking) (maxima : Array Count) (place : Nat) : Except Fault (Array Count) :=
  match maxima[place]? with
  | some most => .ok (maxima.setIfInBounds place (max most (m.tokens place)))
  | none => .error .index

def raise (maxima : Array Count) (m : Marking) : Except Fault (Array Count) :=
  (List.range m.size).foldlM (raiseAt m) maxima

/-- Adds a new state, which waits behind all others. -/
def discover (c : SearchConfig) (w : Worklist) (m : Marking) (provenance : Provenance) :
    Except Fault Worklist := do
  let maxima ← raise w.maxima m
  let target := w.visited.size
  return { w with
    visited := w.visited.push m
    found := w.found.push provenance
    frontier := w.frontier ++ [target]
    maxima
    tracker := w.tracker.observe c.k target m
    events := w.events.push (.state target m provenance.depth) }

def start (c : SearchConfig) (m : Marking) : Worklist where
  visited := #[m]
  found := #[⟨0, none⟩]
  frontier := [0]
  maxima := m.counts
  tracker := ({} : Tracker).observe c.k 0 m
  deadlock := none
  depthReached := 0
  hitLimits := false
  events := #[.state 0 m 0]

/-- Follows one enabled transition of the state that was taken from the queue. -/
def follow (net : Net) (c : SearchConfig) (current : Nat) (m : Marking) (depth : Nat)
    (w : Worklist) (transition : Nat) : Except Fault Worklist :=
  match net.fireTransition m transition with
  | .error (.tokenOverflow place) => .ok (w.lose (.overflow current transition place))
  | .error cause => .error (.fire cause)
  | .ok next =>
    match w.visited.findIdx? (· == next) with
    | some target => .ok (w.note (.edge current transition target))
    | none =>
      if c.maxDepth ≤ depth ∨ c.maxStates ≤ w.visited.size then
        .ok (w.lose (.cut current transition))
      else if Count.limit ≤ depth + 1 then .error .depth
      else do
        let target := w.visited.size
        let found ← w.discover c next ⟨depth + 1, some (current, transition)⟩
        return found.note (.edge current transition target)

/-- One round: takes a state from the queue and follows all that it enables. Without a state the
loop is at its end. -/
def step (net : Net) (c : SearchConfig) (w : Worklist) : Except Fault Worklist :=
  match w.frontier with
  | [] => .ok w
  | current :: rest =>
    match w.found[current]? with
    | none => .error .index
    | some provenance =>
      let w := { w with frontier := rest, depthReached := max w.depthReached provenance.depth }
      match w.visited[current]? with
      | none => .error .passed
      | some m =>
        match net.enabledTransitions m with
        | [] => .ok (w.die current)
        | enabled => enabled.foldlM (follow net c current m provenance.depth) w

/-- The loop after a number of rounds. -/
def after (net : Net) (c : SearchConfig) (m : Marking) : Nat → Except Fault Worklist
  | 0 => .ok (start c m)
  | rounds + 1 => do step net c (← after net c m rounds)

end Worklist

/-- The largest depth of a state before an index. -/
def Search.depthBefore (s : Search) (index : Nat) : Nat :=
  (s.states.toList.take index).foldl (fun d a => max d a.depth) 0

def Search.tracker (k : Option Count) (s : Search) : Tracker :=
  ⟨k.bind s.exceeding?, s.exceeding? Boundedness.safeThreshold⟩

namespace Worklist

/-- The containers and the answers of a search that has expanded the states before an index. -/
def ofSearch (net : Net) (c : SearchConfig) (index : Nat) (s : Search) : Worklist where
  visited := s.states.map (·.marking)
  found := s.states.map fun a => ⟨a.depth, a.parent⟩
  frontier := List.range' index (s.states.size - index)
  maxima := Array.ofFn fun place : Fin net.places.length => s.maximumAt place
  tracker := s.tracker c.k
  deadlock := s.deadlock?
  depthReached := s.depthBefore index
  hitLimits := s.hitLimits
  events := s.events

end Worklist

namespace Search

theorem maximumAt_discover (s : Search) (a : State) (place : Nat) :
    (s.discover a).maximumAt place = max (s.maximumAt place) (a.marking.tokens place) := by
  simp [maximumAt]

theorem hitLimits_note (s : Search) (e : Event) :
    (s.note e).hitLimits = (s.hitLimits || e.isLoss) := by
  simp [hitLimits, note]

theorem hitLimits_discover (s : Search) (a : State) : (s.discover a).hitLimits = s.hitLimits := by
  simp [hitLimits, discover, Event.isLoss]

theorem deadlock?_note (s : Search) (e : Event) :
    (s.note e).deadlock? = s.deadlock?.or e.deadlock? :=
  Array.findSome?_push

theorem deadlock?_discover (s : Search) (a : State) : (s.discover a).deadlock? = s.deadlock? := by
  simp [deadlock?, discover, Array.findSome?_push]

theorem exceeding?_discover (s : Search) (a : State) (threshold : Count) :
    (s.discover a).exceeding? threshold =
      Tracker.first threshold (s.exceeding? threshold) s.states.size a.marking := by
  rw [exceeding?, states_discover, Array.findIdx?_push, ← exceeding?, Tracker.first]
  cases s.exceeding? threshold <;> simp

theorem tracker_discover (k : Option Count) (s : Search) (a : State) :
    (s.discover a).tracker k = (s.tracker k).observe k s.states.size a.marking := by
  cases k <;> simp [tracker, Tracker.observe, exceeding?_discover]

theorem depthBefore_succ {s : Search} {index : Nat} {a : State} (found : s.At index a) :
    s.depthBefore (index + 1) = max (s.depthBefore index) a.depth := by
  have last : s.states.toList[index]? = some a := by simpa using found
  simp [depthBefore, List.take_add_one, last]

theorem depthBefore_discover {s : Search} {index : Nat} (inside : index ≤ s.states.size)
    (a : State) : (s.discover a).depthBefore index = s.depthBefore index := by
  rw [depthBefore, states_discover, Array.toList_push,
    List.take_append_of_le_length (by simpa using inside), depthBefore]

theorem depthBefore_size (s : Search) : s.depthBefore s.states.size = s.depthReached := by
  rw [depthBefore, List.take_of_length_le (by simp), Array.foldl_toList, depthReached]

/-- One more round expands the next state, if there is one. -/
theorem run_succ {net : Net} {c : SearchConfig} {rounds index : Nat} {s middle : Search}
    (ran : run net c rounds index s = .ok middle) (waiting : index + rounds < middle.states.size) :
    run net c (rounds + 1) index s = middle.expand net c (index + rounds) := by
  induction rounds generalizing index s with
  | zero =>
    cases ran
    rw [Nat.add_zero] at waiting ⊢
    rw [run, if_pos waiting]
    cases middle.expand net c index <;> rfl
  | succ rounds ih =>
    by_cases here : index < s.states.size
    · obtain ⟨s', expanded, later⟩ := (run_waiting here).mp ran
      have next := ih later (by omega)
      rw [run, if_pos here, expanded]
      rw [Nat.add_right_comm, Nat.add_assoc] at next
      exact next
    · rw [run_done here] at ran
      cases ran
      omega

end Search

namespace Worklist

open Search

/-- Raising goes place by place; those from `places` on are as they were. -/
theorem foldlM_raiseAt {n places : Nat} (most : Nat → Count) (m : Marking) (inside : places ≤ n) :
    (List.range places).foldlM (raiseAt m) (Array.ofFn fun place : Fin n => most place) =
      .ok (Array.ofFn fun place : Fin n =>
        if place < places then max (most place) (m.tokens place) else most place) := by
  induction places with
  | zero => simp [pure, Except.pure]
  | succ places ih =>
    have bound : places < n := by omega
    rw [List.range_succ, List.foldlM_append, ih (by omega)]
    simp only [bind, Except.bind, List.foldlM_cons, List.foldlM_nil, raiseAt, pure, Except.pure]
    rw [Array.getElem?_eq_getElem (by simpa using bound)]
    simp only [Array.getElem_ofFn, Nat.lt_irrefl, if_false]
    congr 1
    apply Array.ext
    · simp
    · intro place _ valid
      rw [Array.size_ofFn] at valid
      by_cases here : places = place
      · simp [here]
      · have later : place < places + 1 ↔ place < places := by omega
        rw [Array.getElem_setIfInBounds_ne (by simpa using valid) here]
        simp only [Array.getElem_ofFn, later]

theorem raise_ofFn {n : Nat} (most : Nat → Count) {m : Marking} (size : m.size = n) :
    raise (Array.ofFn fun place : Fin n => most place) m =
      .ok (Array.ofFn fun place : Fin n => max (most place) (m.tokens place)) := by
  rw [raise, size, foldlM_raiseAt most m (Nat.le_refl n)]
  simp

variable {net : Net} {c : SearchConfig} {m : Marking} {index : Nat} {followed : List Nat}
  {s s' : Search} {origin : State}

@[simp] theorem size_visited_ofSearch : (ofSearch net c index s).visited.size = s.states.size := by
  simp [ofSearch]

theorem note_ofSearch {e : Event} (kept : e.isLoss = false) (alive : e.deadlock? = none) :
    (ofSearch net c index s).note e = ofSearch net c index (s.note e) := by
  simp only [ofSearch, hitLimits_note, deadlock?_note, kept, alive, Bool.or_false, Option.or_none]
  rfl

theorem lose_ofSearch {e : Event} (lost : e.isLoss = true) (alive : e.deadlock? = none) :
    (ofSearch net c index s).lose e = ofSearch net c index (s.note e) := by
  simp only [ofSearch, hitLimits_note, deadlock?_note, lost, alive, Bool.or_true, Option.or_none]
  rfl

theorem die_ofSearch (state : Nat) :
    (ofSearch net c index s).die state = ofSearch net c index (s.note (.deadlock state)) := by
  simp only [ofSearch, hitLimits_note, deadlock?_note, Event.isLoss, Bool.or_false]
  rfl

/-- The queue is the list of the states from an index on; its front is the index itself. -/
theorem frontier_ofSearch (waiting : index < s.states.size) :
    (ofSearch net c index s).frontier = index :: (ofSearch net c (index + 1) s).frontier := by
  have one : s.states.size - index = s.states.size - (index + 1) + 1 := by omega
  rw [ofSearch, ofSearch, one, List.range'_succ]

theorem frontier_ofSearch_size : (ofSearch net c s.states.size s).frontier = [] := by
  simp [ofSearch]

theorem frontier_discover (waiting : index ≤ s.states.size) (a : State) :
    (ofSearch net c index (s.discover a)).frontier =
      (ofSearch net c index s).frontier ++ [s.states.size] := by
  have one : s.states.size + 1 - index = s.states.size - index + 1 := by omega
  have last : index + 1 * (s.states.size - index) = s.states.size := by omega
  simp only [ofSearch, states_discover, Array.size_push, one, List.range'_concat, last]

/-- The loop starts where the search starts. -/
theorem start_eq (size : m.size = net.places.length) :
    start c m = ofSearch net c 0 (Search.start m) := by
  have maxima : m.counts =
      Array.ofFn fun place : Fin net.places.length => (Search.start m).maximumAt place := by
    apply Array.ext
    · rw [Array.size_ofFn]
      exact size
    · intro place inside _
      have seen : (Search.start m).maximumAt place = max 0 (m.tokens place) :=
        maximumAt_discover _ _ place
      have least : max 0 (m.tokens place) = m.tokens place := by
        apply UInt64.toNat_inj.mp
        rw [UInt64.toNat_max]
        simp
      rw [Array.getElem_ofFn, seen, least]
      simp [Marking.tokens, inside]
  have tracker : (Search.start m).tracker c.k = ({} : Tracker).observe c.k 0 m := by
    rw [Search.start, tracker_discover]
    cases c.k <;> simp [Search.tracker, Search.exceeding?]
  have deadlock : (Search.start m).deadlock? = none := by
    rw [Search.start, deadlock?_discover]
    simp [Search.deadlock?]
  have lossless : (Search.start m).hitLimits = false := by
    rw [Search.start, hitLimits_discover]
    simp [Search.hitLimits]
  rw [start, ofSearch, ← maxima, tracker, deadlock, lossless]
  simp [Search.start, Search.discover, Search.depthBefore]

/-- Looking for a marking among those visited finds the index that is known for it. -/
theorem findIdx?_visited (valid : Invariant net c m index followed s) (next : Marking)
    (first : Nat) : (ofSearch net c first s).visited.findIdx? (· == next) = s.known[next]? := by
  cases seen : s.known[next]? with
  | none =>
    rw [Array.findIdx?_eq_none_iff]
    intro x member
    obtain ⟨a, state, rfl⟩ := Array.mem_map.mp member
    obtain ⟨i, found⟩ := Array.getElem?_of_mem state
    simpa using valid.absent_of_known seen found
  | some target =>
    obtain ⟨a, found, rfl⟩ := (valid.known next target).mp seen
    rw [Array.findIdx?_eq_some_iff_getElem]
    refine ⟨by simpa using found.lt, ?_, fun i before => ?_⟩
    · obtain ⟨_, rfl⟩ := Array.getElem?_eq_some_iff.mp found
      simp [ofSearch]
    · have inside : i < s.states.size := Nat.lt_trans before found.lt
      have other : s.At i s.states[i] := Array.getElem?_eq_getElem inside
      have apart : s.states[i].marking ≠ a.marking := fun same =>
        Nat.ne_of_lt before (valid.unique other found same)
      simpa [ofSearch] using apart

/-- Another state is found by the loop as by the search. -/
theorem discover_ofSearch (waiting : index ≤ s.states.size) {a : State}
    (sized : a.marking.size = net.places.length) :
    (ofSearch net c index s).discover c a.marking ⟨a.depth, a.parent⟩ =
      .ok (ofSearch net c index (s.discover a)) := by
  have raised := raise_ofFn s.maximumAt sized
  have queue : (ofSearch net c index (s.discover a)).frontier = _ := frontier_discover waiting a
  simp only [ofSearch, hitLimits_discover, deadlock?_discover, tracker_discover,
    depthBefore_discover waiting, maximumAt_discover, states_discover, Array.map_push] at queue ⊢
  simp only [discover, raised, queue, bind, Except.bind, pure, Except.pure, Array.size_map]
  rfl

/-- Following a transition does the same to the loop as to the search. -/
theorem follow_ofSearch (wellFormed : net.WellFormed) (word : c.maxDepth < Count.limit)
    (valid : Invariant net c m index followed s) (current : s.At index origin) {t : Nat}
    (way : Step net c index origin t s s') :
    follow net c index origin.marking origin.depth (ofSearch net c (index + 1) s) t =
      .ok (ofSearch net c (index + 1) s') := by
  cases way with
  | overflow failed =>
    simp only [follow, failed]
    rw [lose_ofSearch rfl rfl]
  | old fired seen =>
    simp only [follow, fired, findIdx?_visited valid, seen]
    rw [note_ofSearch rfl rfl]
  | cut fired fresh full =>
    simp only [follow, fired, findIdx?_visited valid, fresh, size_visited_ofSearch, if_pos full]
    rw [lose_ofSearch rfl rfl]
  | @new next fired fresh shallow room =>
    have loose : ¬ (c.maxDepth ≤ origin.depth ∨ c.maxStates ≤ s.states.size) := by omega
    have counted : ¬ Count.limit ≤ origin.depth + 1 := by omega
    have sized : next.size = net.places.length := (wellFormed.fireTransition_counts fired).1
    have found := discover_ofSearch (c := c) (s := s) current.lt
      (a := ⟨next, origin.depth + 1, some (index, t)⟩) sized
    simp only [follow, fired, findIdx?_visited valid, fresh, size_visited_ofSearch, if_neg loose,
      if_neg counted, found, bind, Except.bind, pure, Except.pure]
    rw [note_ofSearch rfl rfl]

theorem foldlM_follow_ofSearch (wellFormed : net.WellFormed) (word : c.maxDepth < Count.limit)
    (valid : Invariant net c m index followed s) (current : s.At index origin) {ts : List Nat}
    (enabled : ∀ t ∈ ts, net.isEnabled origin.marking t = true)
    (done : ts.foldlM (Search.follow net c index origin) s = .ok s') :
    ts.foldlM (follow net c index origin.marking origin.depth) (ofSearch net c (index + 1) s) =
      .ok (ofSearch net c (index + 1) s') := by
  induction ts generalizing s followed with
  | nil =>
    cases done
    rfl
  | cons t rest ih =>
    obtain ⟨middle, way, later⟩ := foldlM_follow_cons.mp done
    obtain ⟨current', valid'⟩ := valid.step current (enabled t (.head rest)) way
    rw [List.foldlM_cons, follow_ofSearch wellFormed word valid current way]
    exact ih valid' current' (fun u member => enabled u (.tail t member)) later

/-- A round of the loop expands the state with the next index. -/
theorem step_ofSearch (wellFormed : net.WellFormed) (word : c.maxDepth < Count.limit)
    (valid : Invariant net c m index [] s) (waiting : index < s.states.size)
    (expanded : s.expand net c index = .ok s') :
    step net c (ofSearch net c index s) = .ok (ofSearch net c (index + 1) s') := by
  obtain ⟨origin, current⟩ : ∃ origin, s.At index origin :=
    ⟨_, Array.getElem?_eq_getElem waiting⟩
  have found : (ofSearch net c index s).found[index]? = some ⟨origin.depth, origin.parent⟩ := by
    simp [ofSearch, current]
  have visited : (ofSearch net c index s).visited[index]? = some origin.marking := by
    simp [ofSearch, current]
  have popped : { ofSearch net c index s with
      frontier := (ofSearch net c (index + 1) s).frontier,
      depthReached := max (ofSearch net c index s).depthReached origin.depth } =
      ofSearch net c (index + 1) s := by
    simp only [ofSearch, depthBefore_succ current]
  rw [expand_eq current] at expanded
  simp only [step, frontier_ofSearch waiting, found, visited, popped]
  split at expanded
  · rename_i dead
    cases expanded
    simp only [dead]
    rw [die_ofSearch]
  · rename_i alive
    have all : ∀ t ∈ net.enabledTransitions origin.marking,
        net.isEnabled origin.marking t = true := fun t => Net.mem_enabledTransitions.mp
    rw [← foldlM_follow_ofSearch wellFormed word valid current all expanded]
    split
    · rename_i dead
      exact absurd dead alive
    · rfl

/-- After so many rounds the loop is where the search is. -/
structure Round (net : Net) (c : SearchConfig) (m : Marking) (rounds : Nat) (s : Search) :
    Prop where
  ran : Search.run net c rounds 0 (Search.start m) = .ok s
  valid : Invariant net c m rounds [] s
  bound : rounds ≤ s.states.size
  same : after net c m rounds = .ok (ofSearch net c rounds s)

theorem round_start (config : c.validate = .ok ()) (size : m.size = net.places.length) :
    Round net c m 0 (Search.start m) where
  ran := rfl
  valid := start_invariant c m (SearchConfig.validate_ok_iff.mp config).2
  bound := Nat.zero_le _
  same := congrArg Except.ok (start_eq size)

theorem Round.next (round : Round net c m index s) (wellFormed : net.WellFormed)
    (word : c.maxDepth < Count.limit) (size : m.size = net.places.length)
    (waiting : index < s.states.size) :
    ∃ s', s.expand net c index = .ok s' ∧ Round net c m (index + 1) s' := by
  obtain ⟨s', expanded, bound, valid⟩ := expand_invariant wellFormed size round.valid waiting
  refine ⟨s', expanded, ?_, valid, bound, ?_⟩
  · rw [run_succ round.ran (by simpa using waiting), Nat.zero_add, expanded]
  · rw [after, round.same]
    exact step_ofSearch wellFormed word round.valid waiting expanded

/-- The search goes through one round for each of its states, and in each of them a state waits. -/
theorem Round.run (wellFormed : net.WellFormed) (word : c.maxDepth < Count.limit)
    (size : m.size = net.places.length) {rounds : Nat} (enough : c.maxStates ≤ index + rounds)
    (round : Round net c m index s) : ∃ last, Search.run net c rounds index s = .ok last ∧
      Round net c m last.states.size last ∧
      ∀ n, index ≤ n → n < last.states.size → ∃ s, Round net c m n s ∧ n < s.states.size := by
  induction rounds generalizing index s with
  | zero =>
    have finished : index = s.states.size := by
      have := round.valid.count
      have := round.bound
      omega
    exact ⟨s, rfl, finished ▸ round, fun n from_ before => by omega⟩
  | succ rounds ih =>
    by_cases waiting : index < s.states.size
    · obtain ⟨s', expanded, next⟩ := round.next wellFormed word size waiting
      obtain ⟨last, ran, finished, between⟩ := ih (by omega) next
      refine ⟨last, (run_waiting waiting).mpr ⟨s', expanded, ran⟩, finished, ?_⟩
      intro n from_ before
      rcases Nat.eq_or_lt_of_le from_ with rfl | later
      · exact ⟨s, round, waiting⟩
      · exact between n later before
    · have finished : index = s.states.size := by
        have := round.bound
        omega
      exact ⟨s, run_done waiting, finished ▸ round, fun n from_ before => by omega⟩

end Worklist

end TokenGame
