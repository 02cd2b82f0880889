import TokenGame.Count

/-! Token counts by place id, in increasing order of the ids, each id once. This
is the written form of a marking: the order is part of every text that shows it. -/
namespace TokenGame

abbrev TokenEntry := String × Count

namespace TokenEntry

/-- Replaces the count of an id, or adds it at its place in the order. -/
def insertSorted (id : String) (tokens : Count) : List TokenEntry → List TokenEntry
  | [] => [(id, tokens)]
  | e :: rest =>
    if id < e.1 then (id, tokens) :: e :: rest
    else if e.1 < id then e :: insertSorted id tokens rest
    else (id, tokens) :: rest

theorem mem_insertSorted {id : String} {tokens : Count} {e : TokenEntry} :
    ∀ {entries : List TokenEntry}, e ∈ insertSorted id tokens entries →
      e = (id, tokens) ∨ e ∈ entries
  | [], h => by simpa [insertSorted] using h
  | d :: rest, h => by
    unfold insertSorted at h
    split at h
    · simpa using h
    · split at h
      · rcases List.mem_cons.1 h with h | h
        · simp [h]
        · rcases mem_insertSorted h with h | h
          · simp [h]
          · simp [h]
      · rcases List.mem_cons.1 h with h | h
        · simp [h]
        · simp [h]

/-- Ids increase strictly along the list. -/
def Increasing (entries : List TokenEntry) : Prop := entries.Pairwise (·.1 < ·.1)

theorem eq_of_not_lt {a b : String} (hab : ¬ a < b) (hba : ¬ b < a) : a = b :=
  String.le_antisymm (String.not_lt.1 hba) (String.not_lt.1 hab)

theorem increasing_insertSorted {id : String} {tokens : Count} :
    ∀ {entries : List TokenEntry}, Increasing entries →
      Increasing (insertSorted id tokens entries)
  | [], _ => by simp [insertSorted, Increasing]
  | d :: rest, h => by
    have head := (List.pairwise_cons.1 h).1
    have tail := (List.pairwise_cons.1 h).2
    unfold insertSorted
    split
    · rename_i lt
      refine List.pairwise_cons.2 ⟨fun e he => ?_, h⟩
      rcases List.mem_cons.1 he with rfl | he
      · exact lt
      · exact String.lt_trans lt (head e he)
    · rename_i nlt
      split
      · rename_i gt
        refine List.pairwise_cons.2 ⟨fun e he => ?_, increasing_insertSorted tail⟩
        rcases mem_insertSorted he with rfl | he
        · exact gt
        · exact head e he
      · rename_i ngt
        refine List.pairwise_cons.2 ⟨fun e he => ?_, tail⟩
        have same : id = d.1 := eq_of_not_lt nlt ngt
        rw [same]
        exact head e he

theorem find?_insertSorted (id : String) (tokens : Count) (other : String) :
    ∀ entries : List TokenEntry, (insertSorted id tokens entries).find? (·.1 == other) =
      if id = other then some (id, tokens) else entries.find? (·.1 == other)
  | [] => by by_cases same : id = other <;> simp [insertSorted, same]
  | e :: rest => by
    have ih := find?_insertSorted id tokens other rest
    unfold insertSorted
    split
    · by_cases same : id = other <;> simp [List.find?_cons, same]
    · rename_i nlt
      split
      · rename_i gt
        have ne : e.1 ≠ id := fun h => String.lt_irrefl id (by rw [h] at gt; exact gt)
        by_cases same : id = other
        · subst same
          rw [List.find?_cons_of_neg (by simpa using ne), ih]
          simp
        · rw [List.find?_cons, List.find?_cons, ih]
          simp [same]
      · rename_i ngt
        have eq : id = e.1 := eq_of_not_lt nlt ngt
        by_cases same : id = other <;> simp [same, ← eq]

end TokenEntry

structure TokenMap where
  entries : List TokenEntry
  increasing : TokenEntry.Increasing entries
  deriving DecidableEq

namespace TokenMap

def empty : TokenMap := ⟨[], List.Pairwise.nil⟩

instance : Inhabited TokenMap := ⟨empty⟩

def insert (m : TokenMap) (id : String) (tokens : Count) : TokenMap :=
  ⟨TokenEntry.insertSorted id tokens m.entries, TokenEntry.increasing_insertSorted m.increasing⟩

/-- The last entry for an id wins. -/
def ofList (entries : List TokenEntry) : TokenMap :=
  entries.foldl (fun m e => m.insert e.1 e.2) empty

def get? (m : TokenMap) (id : String) : Option Count :=
  (m.entries.find? (·.1 == id)).map (·.2)

/-- The tokens of a place, none if the map leaves it out. -/
def tokens (m : TokenMap) (id : String) : Count := (m.get? id).getD 0

@[simp] theorem get?_insert (m : TokenMap) (id : String) (tokens : Count) (other : String) :
    (m.insert id tokens).get? other = if id = other then some tokens else m.get? other := by
  simp only [get?, insert, TokenEntry.find?_insertSorted]
  split <;> simp

end TokenMap

end TokenGame
