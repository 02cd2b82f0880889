import TokenGame.Proofs.Net.TokensById

/-! Maps of counts as sparse markings. A map may leave places out, and then they are empty; it
may not name anything else. What a map loses on its way to a marking and back is therefore only
the difference between an empty place and one that is left out, and a marking loses nothing. -/
namespace TokenGame

namespace TokenMap

variable {m : TokenMap} {id : String}

/-- The ids that a map gives a count for, in increasing order. -/
def keys (m : TokenMap) : List String := m.entries.map (·.1)

theorem mem_keys_iff : id ∈ m.keys ↔ ∃ count, m.get? id = some count := by
  rw [keys, List.mem_map]
  constructor
  · rintro ⟨e, member, rfl⟩
    exact ⟨e.2, mem_entries_iff.mp member⟩
  · rintro ⟨count, found⟩
    exact ⟨(id, count), mem_entries_iff.mpr found, rfl⟩

theorem not_mem_keys_iff : id ∉ m.keys ↔ m.get? id = none := by
  rw [mem_keys_iff, ← Option.isSome_iff_exists]
  simp

/-- The map with a count of zero for those of some ids that it leaves out. -/
def completed (m : TokenMap) (ids : List String) : TokenMap :=
  ids.foldl (fun m id => if id ∈ m.keys then m else m.insert id 0) m

theorem get?_complete_one (m : TokenMap) (new id : String) :
    (if new ∈ m.keys then m else m.insert new 0).get? id =
      if new = id then some (m.tokens id) else m.get? id := by
  by_cases known : new ∈ m.keys
  · obtain ⟨count, found⟩ := mem_keys_iff.mp known
    rw [if_pos known]
    split
    · rename_i same
      rw [tokens, ← same, found]
      rfl
    · rfl
  · have absent := not_mem_keys_iff.mp known
    rw [if_neg known, get?_insert]
    split
    · rename_i same
      rw [tokens, ← same, absent]
      rfl
    · rfl

theorem get?_completed (m : TokenMap) (ids : List String) (id : String) :
    (m.completed ids).get? id = if id ∈ ids then some (m.tokens id) else m.get? id := by
  unfold completed
  induction ids generalizing m with
  | nil => rfl
  | cons new rest ih =>
    have first := get?_complete_one m new id
    have same : (if new ∈ m.keys then m else m.insert new 0).tokens id = m.tokens id := by
      rw [tokens, first]
      split <;> rfl
    rw [List.foldl_cons, ih, same, first]
    by_cases here : new = id
    · simp [here]
    · simp [here, Ne.symm here]

end TokenMap

namespace Net

variable {net : Net} {m n : Marking} {map other : TokenMap}

def placeIds (net : Net) : List String := net.places.map (·.id)

/-- The least key of a map that names no place: all others are greater. -/
structure LeastStray (net : Net) (map : TokenMap) (id : String) : Prop where
  key : id ∈ map.keys
  stray : id ∉ net.placeIds
  least : ∀ other ∈ map.keys, other ∉ net.placeIds → other ≠ id → id < other

theorem placeIndex?_eq_none_iff {id : String} : net.placeIndex? id = none ↔ id ∉ net.placeIds := by
  simp [placeIndex?, placeIds]

theorem mem_placeIds_iff {id : String} : id ∈ net.placeIds ↔ ∃ p ∈ net.places, p.id = id := by
  rw [placeIds, List.mem_map]

theorem WellFormed.markingOfMap_ok_iff_keys (wellFormed : net.WellFormed) :
    (∃ m, net.markingOfMap map = .ok m) ↔ ∀ id ∈ map.keys, id ∈ net.placeIds := by
  simp only [wellFormed.markingOfMap_ok_iff, TokenMap.mem_keys_iff, mem_placeIds_iff]
  exact ⟨fun known id ⟨count, found⟩ => known id count found,
    fun known id count found => known id ⟨count, found⟩⟩

/-- Entries are placed one after the other, up to the first one without a place. -/
theorem foldlM_placed_error {entries : List TokenEntry} {cause : MarkingError}
    (failed : entries.foldlM net.placed m = .error cause) :
    ∃ before e after, entries = before ++ e :: after ∧ (∀ d ∈ before, d.1 ∈ net.placeIds) ∧
      e.1 ∉ net.placeIds ∧ cause = .unknownPlace e.1 := by
  induction entries generalizing m with
  | nil => cases failed
  | cons e rest ih =>
    simp only [List.foldlM_cons, placed, bind, Except.bind] at failed
    cases index : net.placeIndex? e.1 with
    | none =>
      simp only [index] at failed
      cases failed
      exact ⟨[], e, rest, rfl, by simp, placeIndex?_eq_none_iff.mp index, rfl⟩
    | some place =>
      simp only [index] at failed
      obtain ⟨before, d, after, rfl, known, stray, same⟩ := ih failed
      refine ⟨e :: before, d, after, rfl, ?_, stray, same⟩
      rw [List.forall_mem_cons]
      refine ⟨Decidable.not_not.mp fun absent => ?_, known⟩
      cases (placeIndex?_eq_none_iff.mpr absent).symm.trans index

/-- A map is refused for the least of its keys that names no place. -/
theorem markingOfMap_error {cause : MarkingError} (failed : net.markingOfMap map = .error cause) :
    ∃ id, net.LeastStray map id ∧ cause = .unknownPlace id := by
  rw [markingOfMap_eq] at failed
  obtain ⟨before, e, after, parts, known, stray, same⟩ := foldlM_placed_error failed
  have ordered := map.increasing
  rw [TokenEntry.Increasing, parts, List.pairwise_append, List.pairwise_cons] at ordered
  refine ⟨e.1, ⟨?_, stray, fun other member apart ne => ?_⟩, same⟩
  · simp [TokenMap.keys, parts]
  · -- a stray key stands behind the first one, and so it is greater
    rw [TokenMap.keys, parts] at member
    obtain ⟨d, listed, rfl⟩ := List.mem_map.mp member
    rcases List.mem_append.mp listed with early | late
    · exact absurd (known d early) apart
    · rcases List.mem_cons.mp late with rfl | late
      · exact absurd rfl ne
      · exact ordered.2.1.1 d late

theorem WellFormed.mem_keys_markingToMap (wellFormed : net.WellFormed) {id : String} :
    id ∈ (net.markingToMap m).keys ↔ id ∈ net.placeIds := by
  rw [TokenMap.mem_keys_iff, mem_placeIds_iff]
  constructor
  · rintro ⟨count, found⟩
    obtain ⟨i, p, declared, same, _⟩ := wellFormed.get?_ofPlaces_iff.mp found
    exact ⟨p, List.mem_of_getElem? declared, same⟩
  · rintro ⟨p, member, rfl⟩
    obtain ⟨i, declared⟩ := List.mem_iff_getElem?.mp member
    exact ⟨m.tokens i, wellFormed.get?_markingToMap declared⟩

/-- The map of the marking of a map is the map with all places in it. -/
theorem WellFormed.markingToMap_eq_completed (wellFormed : net.WellFormed)
    (placed : net.markingOfMap map = .ok m) :
    net.markingToMap m = map.completed net.placeIds := by
  have known := wellFormed.markingOfMap_ok_iff_keys.mp ⟨m, placed⟩
  obtain ⟨_, counts⟩ := wellFormed.markingOfMap_tokens placed
  apply TokenMap.ext_get?
  intro id
  rw [TokenMap.get?_completed]
  by_cases place : id ∈ net.placeIds
  · obtain ⟨p, member, rfl⟩ := mem_placeIds_iff.mp place
    obtain ⟨i, declared⟩ := List.mem_iff_getElem?.mp member
    rw [if_pos place, wellFormed.get?_markingToMap declared, counts i p declared]
  · have absent := mt (wellFormed.mem_keys_markingToMap (m := m)).mp place
    rw [if_neg place, TokenMap.not_mem_keys_iff.mp (mt (known id) place),
      TokenMap.not_mem_keys_iff.mp absent]

/-- A map counts for a marking only by what it gives for each place. -/
theorem WellFormed.markingOfMap_congr (wellFormed : net.WellFormed)
    (placed : net.markingOfMap map = .ok m) (placed' : net.markingOfMap other = .ok n)
    (agree : ∀ id ∈ net.placeIds, map.tokens id = other.tokens id) : m = n := by
  obtain ⟨size, counts⟩ := wellFormed.markingOfMap_tokens placed
  obtain ⟨size', counts'⟩ := wellFormed.markingOfMap_tokens placed'
  refine Marking.ext_tokens (size.trans size'.symm) fun i inside => ?_
  have bound : i < net.places.length := size ▸ inside
  have declared := List.getElem?_eq_getElem bound
  rw [counts i _ declared, counts' i _ declared]
  exact agree _ (List.mem_map_of_mem (List.getElem_mem bound))

/-- Markings and maps of counts convert into each other without loss: a marking comes back as it
was, and a map comes back with zero for the places that it leaves out. A map with a key that names
no place is refused for the least such key. -/
theorem markings_convert {model : Model} (compiled : ofModel model = .ok net) :
    (∀ m, m.size = net.places.length → net.markingOfMap (net.markingToMap m) = .ok m) ∧
    (∀ map, (∃ m, net.markingOfMap map = .ok m) ↔ ∀ id ∈ map.keys, id ∈ net.placeIds) ∧
    (∀ map m, net.markingOfMap map = .ok m → m.size = net.places.length ∧
      net.markingToMap m = map.completed net.placeIds ∧
      ∀ id, id ∈ (net.markingToMap m).keys ↔ id ∈ net.placeIds) ∧
    (∀ map, (¬ ∀ id ∈ map.keys, id ∈ net.placeIds) →
      ∃ id, net.LeastStray map id ∧ net.markingOfMap map = .error (.unknownPlace id)) ∧
    ∀ map other, (∀ id ∈ map.keys, id ∈ net.placeIds) → (∀ id ∈ other.keys, id ∈ net.placeIds) →
      (∀ id ∈ net.placeIds, map.tokens id = other.tokens id) →
      ∃ m, net.markingOfMap map = .ok m ∧ net.markingOfMap other = .ok m := by
  have wellFormed := wellFormed_of_ofModel compiled
  refine ⟨fun m => wellFormed.markingOfMap_markingToMap,
    fun map => wellFormed.markingOfMap_ok_iff_keys, ?_, ?_, ?_⟩
  · intro map m placed
    exact ⟨(wellFormed.markingOfMap_tokens placed).1, wellFormed.markingToMap_eq_completed placed,
      fun id => wellFormed.mem_keys_markingToMap⟩
  · intro map strays
    cases ended : net.markingOfMap map with
    | ok m => exact absurd (wellFormed.markingOfMap_ok_iff_keys.mp ⟨m, ended⟩) strays
    | error cause =>
      obtain ⟨id, least, rfl⟩ := markingOfMap_error ended
      exact ⟨id, least, rfl⟩
  · intro map other known known' agree
    obtain ⟨m, placed⟩ := wellFormed.markingOfMap_ok_iff_keys.mpr known
    obtain ⟨n, placed'⟩ := wellFormed.markingOfMap_ok_iff_keys.mpr known'
    exact ⟨m, placed, wellFormed.markingOfMap_congr placed placed' agree ▸ placed'⟩

theorem markingOfMap_astray :
    transfer.markingOfMap (.ofList [("full", 3), ("void", 1), ("gone", 0)]) =
      .error (.unknownPlace "gone") := by
  decide

/-- A sparse map comes back complete, and of two keys without a place the lesser one is named. -/
theorem markings_convert_transfer :
    (∃ m, transfer.markingOfMap (.ofList [("full", 3)]) = .ok m ∧
      transfer.markingToMap m = .ofList [("full", 3), ("empty", 0)]) ∧
    transfer.LeastStray (.ofList [("full", 3), ("void", 1), ("gone", 0)]) "gone" := by
  obtain ⟨_, accepts, comesBack, refuses, _⟩ := markings_convert ofModel_transfer
  obtain ⟨m, placed⟩ := (accepts (.ofList [("full", 3)])).mpr (by decide)
  obtain ⟨id, least, failed⟩ :=
    refuses (.ofList [("full", 3), ("void", 1), ("gone", 0)]) (by decide)
  refine ⟨⟨m, placed, (comesBack _ m placed).2.1.trans (by decide)⟩, ?_⟩
  cases markingOfMap_astray.symm.trans failed
  exact least

end Net

end TokenGame
