import Mathlib.Data.List.Nodup
import TokenGame.Proofs.Net.Arcs

/-! Markings by place id. A map of counts is determined by what it gives for each id, so
it does not remember in which order it was filled; a marking of the right length and its
map determine each other. -/
namespace TokenGame

namespace TokenMap

variable {m n : TokenMap} {entries : List TokenEntry} {id : String} {count : Count}

theorem keys_nodup (m : TokenMap) : (m.entries.map (·.1)).Nodup := by
  rw [List.Nodup, List.pairwise_map]
  refine m.increasing.imp ?_
  intro d e less same
  rw [same] at less
  exact String.lt_irrefl _ less

theorem mem_entries_iff {e : TokenEntry} : e ∈ m.entries ↔ m.get? e.1 = some e.2 := by
  constructor
  · intro member
    have distinct := List.pairwise_map.mp m.keys_nodup
    have found : m.entries.find? (·.1 == e.1) = some e := by
      obtain ⟨front, back, split⟩ := List.append_of_mem member
      rw [split, List.pairwise_append] at distinct
      have earlier : front.find? (·.1 == e.1) = none := by
        rw [List.find?_eq_none]
        intro d before
        simpa using distinct.2.2 d before e (.head back)
      simp [split, earlier]
    rw [get?, found]
    rfl
  · intro found
    obtain ⟨d, here, same⟩ := Option.map_eq_some_iff.mp found
    have key : d.1 = e.1 := by simpa using List.find?_some here
    obtain rfl : d = e := Prod.ext key same
    exact List.mem_of_find?_eq_some here

/-- Maps that give the same for every id are the same. -/
theorem ext_get? (same : ∀ id, m.get? id = n.get? id) : m = n := by
  have shuffled : m.entries.Perm n.entries := by
    rw [List.perm_ext_iff_of_nodup (.of_map _ m.keys_nodup) (.of_map _ n.keys_nodup)]
    intro e
    rw [mem_entries_iff, mem_entries_iff, same]
  have listed : m.entries = n.entries := by
    refine shuffled.eq_of_pairwise ?_ m.increasing n.increasing
    intro d e _ _ less more
    exact absurd less (String.lt_asymm more)
  cases m
  cases n
  cases listed
  rfl

theorem get?_ofList_iff (distinct : (entries.map (·.1)).Nodup) :
    (ofList entries).get? id = some count ↔ (id, count) ∈ entries := by
  refine ⟨fun found => ?_, fun member => get?_ofList distinct member⟩
  by_cases key : ∃ e ∈ entries, e.1 = id
  · obtain ⟨⟨_, other⟩, member, rfl⟩ := key
    have same := get?_ofList distinct member
    rw [found] at same
    cases same
    exact member
  · have absent : (ofList entries).get? id = none :=
      get?_foldl_absent (fun e member same => key ⟨e, member, same⟩) empty
    cases absent.symm.trans found

/-- A map is filled by its own entries. -/
theorem ofList_entries (m : TokenMap) : ofList m.entries = m := by
  apply ext_get?
  intro id
  apply Option.ext
  intro count
  rw [get?_ofList_iff m.keys_nodup, mem_entries_iff]

/-- The order of entries with distinct ids does not matter. -/
theorem ofList_eq_of_perm {others : List TokenEntry} (distinct : (entries.map (·.1)).Nodup)
    (shuffled : entries.Perm others) : ofList entries = ofList others := by
  apply ext_get?
  intro id
  apply Option.ext
  intro count
  rw [get?_ofList_iff distinct, get?_ofList_iff ((shuffled.map _).nodup_iff.mp distinct),
    shuffled.mem_iff]

end TokenMap

namespace Net

variable {net : Net} {m next : Marking}

theorem WellFormed.placeIndex?_iff (wellFormed : net.WellFormed) {id : String} {i : Nat} :
    net.placeIndex? id = some i ↔ ∃ p, net.places[i]? = some p ∧ p.id = id :=
  findIdx?_eq_some_iff_of_nodup (List.nodup_append.mp wellFormed.ids).1

theorem WellFormed.keys_nodup_ofPlaces (wellFormed : net.WellFormed) (value : Nat → Count) :
    ((net.places.mapIdx fun i p => (p.id, value i)).map (·.1)).Nodup := by
  have keys : (net.places.mapIdx fun i p => (p.id, value i)).map (·.1) =
      net.places.map (·.id) := by
    apply List.ext_getElem <;> simp
  exact keys ▸ (List.nodup_append.mp wellFormed.ids).1

/-- What a map filled place by place gives for an id. -/
theorem WellFormed.get?_ofPlaces_iff (wellFormed : net.WellFormed) {value : Nat → Count}
    {id : String} {count : Count} :
    (TokenMap.ofList (net.places.mapIdx fun i p => (p.id, value i))).get? id = some count ↔
      ∃ i p, net.places[i]? = some p ∧ p.id = id ∧ value i = count := by
  rw [TokenMap.get?_ofList_iff (wellFormed.keys_nodup_ofPlaces value), List.mem_mapIdx]
  constructor
  · rintro ⟨i, bound, same⟩
    exact ⟨i, net.places[i], List.getElem?_eq_getElem bound, congrArg Prod.fst same,
      congrArg Prod.snd same⟩
  · rintro ⟨i, p, found, rfl, rfl⟩
    obtain ⟨bound, rfl⟩ := List.getElem?_eq_some_iff.mp found
    exact ⟨i, bound, rfl⟩

theorem WellFormed.get?_markingToMap (wellFormed : net.WellFormed) {i : Nat} {p : Place}
    (place : net.places[i]? = some p) :
    (net.markingToMap m).get? p.id = some (m.tokens i) :=
  wellFormed.get?_ofPlaces_iff.mpr ⟨i, p, place, rfl, rfl⟩

theorem tokens_initialMarking {i : Nat} {p : Place} (declared : net.places[i]? = some p) :
    net.initialMarking.tokens i = p.tokens := by
  obtain ⟨bound, rfl⟩ := List.getElem?_eq_some_iff.mp declared
  simp [initialMarking, Marking.ofList, Marking.tokens, Array.getD_eq_getD_getElem?, bound]

@[simp] theorem size_initialMarking (net : Net) : net.initialMarking.size = net.places.length := by
  simp [initialMarking, Marking.ofList, Marking.size]

/-- The marking with one more entry of a map. -/
def placed (net : Net) (m : Marking) (e : TokenEntry) : Except MarkingError Marking :=
  match net.placeIndex? e.1 with
  | some place => .ok (m.set place e.2)
  | none => .error (.unknownPlace e.1)

theorem markingOfMap_eq (net : Net) (map : TokenMap) :
    net.markingOfMap map = map.entries.foldlM net.placed (.zero net.places.length) := rfl

theorem foldlM_placed_cons {e : TokenEntry} {rest : List TokenEntry} :
    (e :: rest).foldlM net.placed m = .ok next ↔
      ∃ place, net.placeIndex? e.1 = some place ∧
        rest.foldlM net.placed (m.set place e.2) = .ok next := by
  simp only [List.foldlM_cons, placed, bind, Except.bind]
  cases net.placeIndex? e.1 <;> simp

theorem placeIndex?_of_foldlM_placed {entries : List TokenEntry}
    (placed : entries.foldlM net.placed m = .ok next) {e : TokenEntry} (member : e ∈ entries) :
    ∃ place, net.placeIndex? e.1 = some place := by
  induction entries generalizing m with
  | nil => cases member
  | cons d rest ih =>
    obtain ⟨place, first, later⟩ := foldlM_placed_cons.mp placed
    rcases List.mem_cons.mp member with rfl | member
    · exact ⟨place, first⟩
    · exact ih later member

/-- Entries for places are all placed, each at its own position. -/
theorem WellFormed.foldlM_placed (wellFormed : net.WellFormed) {entries : List TokenEntry}
    (distinct : (entries.map (·.1)).Nodup) (size : m.size = net.places.length)
    (known : ∀ e ∈ entries, ∃ place, net.placeIndex? e.1 = some place) :
    ∃ next, entries.foldlM net.placed m = .ok next ∧ next.size = net.places.length ∧
      ∀ i p, net.places[i]? = some p →
        next.tokens i = ((entries.find? (·.1 == p.id)).map (·.2)).getD (m.tokens i) := by
  induction entries generalizing m with
  | nil => exact ⟨m, rfl, size, fun _ _ _ => rfl⟩
  | cons e rest ih =>
    obtain ⟨fresh, distinct⟩ := List.nodup_cons.mp distinct
    obtain ⟨place, here⟩ := known e (.head rest)
    obtain ⟨q, found, key⟩ := wellFormed.placeIndex?_iff.mp here
    have inside : place < m.size := size ▸ (List.getElem?_eq_some_iff.mp found).1
    obtain ⟨next, later, nextSize, counts⟩ := ih (m := m.set place e.2) distinct
      (by simpa using size) fun d member => known d (.tail e member)
    refine ⟨next, foldlM_placed_cons.mpr ⟨place, here, later⟩, nextSize, fun i p declared => ?_⟩
    rw [counts i p declared]
    by_cases same : e.1 = p.id
    · -- no later entry has the id, so this one stays
      obtain rfl : place = i := Option.some.inj <|
        here.symm.trans (wellFormed.placeIndex?_iff.mpr ⟨p, declared, same.symm⟩)
      have last : rest.find? (·.1 == p.id) = none := by
        rw [List.find?_eq_none]
        intro d member again
        exact fresh (List.mem_map.mpr ⟨d, member, by simpa [same] using again⟩)
      simp [same, last, Marking.tokens_set_same m _ _ inside]
    · have apart : place ≠ i := by
        rintro rfl
        obtain rfl := Option.some.inj (found.symm.trans declared)
        exact same key.symm
      rw [List.find?_cons_of_neg (by simpa using same), Marking.tokens_set_other m _ apart]

theorem tokens_zero (places i : Nat) : (Marking.zero places).tokens i = 0 := by
  by_cases inside : i < places <;>
    simp [Marking.zero, Marking.tokens, Array.getD_eq_getD_getElem?, inside]

/-- A map is a marking exactly if all its ids name places. -/
theorem WellFormed.markingOfMap_ok_iff (wellFormed : net.WellFormed) (map : TokenMap) :
    (∃ m, net.markingOfMap map = .ok m) ↔
      ∀ id count, map.get? id = some count → ∃ p ∈ net.places, p.id = id := by
  rw [markingOfMap_eq]
  constructor
  · rintro ⟨m, placed⟩ id count found
    obtain ⟨i, here⟩ := placeIndex?_of_foldlM_placed placed
      (TokenMap.mem_entries_iff (e := (id, count)).mpr found)
    obtain ⟨p, declared, same⟩ := wellFormed.placeIndex?_iff.mp here
    exact ⟨p, List.mem_of_getElem? declared, same⟩
  · intro known
    obtain ⟨m, placed, _⟩ := wellFormed.foldlM_placed map.keys_nodup
      (m := .zero net.places.length) (by simp [Marking.zero, Marking.size]) <| by
        intro e member
        obtain ⟨p, declared, same⟩ := known e.1 e.2 (TokenMap.mem_entries_iff.mp member)
        obtain ⟨i, here⟩ := List.mem_iff_getElem?.mp declared
        exact ⟨i, wellFormed.placeIndex?_iff.mpr ⟨p, here, same⟩⟩
    exact ⟨m, placed⟩

/-- The marking of a map has on each place what the map gives for it. -/
theorem WellFormed.markingOfMap_tokens (wellFormed : net.WellFormed) {map : TokenMap}
    (placed : net.markingOfMap map = .ok m) :
    m.size = net.places.length ∧
      ∀ i p, net.places[i]? = some p → m.tokens i = map.tokens p.id := by
  rw [markingOfMap_eq] at placed
  obtain ⟨next, done, size, counts⟩ := wellFormed.foldlM_placed map.keys_nodup
    (m := .zero net.places.length) (by simp [Marking.zero, Marking.size])
    fun e member => placeIndex?_of_foldlM_placed placed member
  obtain rfl : m = next := Except.ok.inj (placed.symm.trans done)
  refine ⟨size, fun i p declared => ?_⟩
  rw [counts i p declared, tokens_zero]
  rfl

/-- A marking of the right length is the marking of its map. -/
theorem WellFormed.markingOfMap_markingToMap (wellFormed : net.WellFormed)
    (size : m.size = net.places.length) :
    net.markingOfMap (net.markingToMap m) = .ok m := by
  obtain ⟨next, placed⟩ := (wellFormed.markingOfMap_ok_iff (net.markingToMap m)).mpr <| by
    intro id count found
    obtain ⟨i, p, declared, same, _⟩ := wellFormed.get?_ofPlaces_iff.mp found
    exact ⟨p, List.mem_of_getElem? declared, same⟩
  obtain ⟨nextSize, counts⟩ := wellFormed.markingOfMap_tokens placed
  rw [placed]
  congr 1
  apply Marking.ext_tokens (nextSize.trans size.symm)
  intro i inside
  have declared := List.getElem?_eq_getElem (nextSize ▸ inside)
  rw [counts i _ declared, TokenMap.tokens, wellFormed.get?_markingToMap declared]
  rfl

end Net

end TokenGame
