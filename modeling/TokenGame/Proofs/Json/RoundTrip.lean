import TokenGame.Json.Printer
import TokenGame.Proofs.Json.Grammar

/-! Documents read back from the texts they are written as, on one line or with one item to a
line: what is written is a text of the document by the grammar. -/
namespace TokenGame.Json

/-- Documents of words, numbers and texts, where every text denotes one. -/
inductive Plain : Json → Prop where
  | null : Plain .null
  | bool (b : Bool) : Plain (.bool b)
  | natural (n : Nat) : Plain (.natural n)
  | decimal {lexeme : String} : Number.Numeral lexeme.toList (.decimal lexeme) →
      Plain (.decimal lexeme)
  | text (s : String) : Plain (.text (some s))
  | list {items : List Json} : (∀ v ∈ items, Plain v) → Plain (.list items)
  | object {fields : List (Option String × Json)} : (∀ f ∈ fields, f.1.isSome) →
      (∀ f ∈ fields, Plain f.2) → Plain (.object fields)

theorem hexValue?_hexDigit (n : Nat) : Token.TextScan.hexValue? (hexDigit n) = some (n % 16) := by
  have each : ∀ k < 16, Token.TextScan.hexValue? (Nat.digitChar k) = some k := by decide
  exact each _ (Nat.mod_lt _ (by decide))

theorem stands_escapeChar (c : Char) : Token.Stands (escapeChar c) (.char c) := by
  fun_cases escapeChar c
  case case8 control =>
    have zero : Token.TextScan.hexValue? '0' = some 0 := rfl
    have unit := Token.Stands.unit zero zero (hexValue?_hexDigit (c.toNat / 16))
      (hexValue?_hexDigit c.toNat)
    have code : ((0 * 16 + 0) * 16 + c.toNat / 16 % 16) * 16 + c.toNat % 16 = c.toNat := by omega
    have whole : Token.CodeUnit.ofNat c.toNat = .char (Char.ofNat c.toNat) := by
      rw [Token.CodeUnit.ofNat, if_neg (by omega), if_neg (by omega)]
    rwa [code, whole, Char.ofNat_toNat] at unit
  case case9 quote backslash _ _ _ _ _ shown =>
    exact .plain quote backslash (Nat.not_lt.mp shown)
  all_goals
    subst c
    exact .escape rfl

theorem represents_quote (s : String) : Represents (quote s).toList (.text (some s)) := by
  have text := Represents.text (.flatMap stands_escapeChar s.toList)
  simpa [quote, Token.CodeUnit.denotes?_chars] using text

theorem represents_bool (b : Bool) :
    Represents (if b then "true" else "false").toList (.bool b) := by
  cases b with
  | false => simpa using Represents.isFalse
  | true => simpa using Represents.isTrue

theorem represents_natural (n : Nat) : Represents (Nat.repr n).toList (.natural n) := by
  simpa using Represents.number (Number.numeral_toDigits n)

/-- The items of a list are written one after the other. -/
theorem represents_list {items : List Json} {write : Json → List Char} {gap : List Char}
    (each : ∀ v ∈ items, Represents (write v) v) (blank : ∀ c ∈ gap, Token.isBlank c = true) :
    Represents ('[' :: [','].intercalate (items.map write) ++ gap ++ [']']) (.list items) := by
  have parts : ∀ p ∈ items.map fun v => (write v, v), Represents p.1 p.2 := by
    rw [List.forall_mem_map]
    exact each
  simpa [Function.comp_def] using Represents.list parts blank

theorem represents_object {fields : List (Option String × Json)}
    {key value : Option String × Json → List Char} {gap : List Char}
    (keys : ∀ f ∈ fields, Represents (key f) (.text f.1))
    (values : ∀ f ∈ fields, Represents (value f) f.2) (blank : ∀ c ∈ gap, Token.isBlank c = true) :
    Represents ('{' :: [','].intercalate (fields.map fun f => key f ++ ':' :: value f) ++ gap ++ ['}'])
      (.object fields) := by
  have names : ∀ p ∈ fields.map fun f => ((key f, f.1), (value f, f.2)),
      Represents p.1.1 (.text p.1.2) := by
    rw [List.forall_mem_map]
    exact keys
  have parts : ∀ p ∈ fields.map fun f => ((key f, f.1), (value f, f.2)),
      Represents p.2.1 p.2.2 := by
    rw [List.forall_mem_map]
    exact values
  simpa [Function.comp_def] using Represents.object names parts blank

/-! ### On one line -/

theorem toList_compactItems (items : List Json) :
    (compactItems items).toList = [','].intercalate (items.map fun v => v.compact.toList) := by
  induction items with
  | nil => simp [compactItems]
  | cons v items ih => cases items <;> simp_all [compactItems]

theorem toList_compactFields (fields : List (Option String × Json)) :
    (compactFields fields).toList = [','].intercalate
      (fields.map fun f => (quoteText f.1).toList ++ ':' :: f.2.compact.toList) := by
  induction fields with
  | nil => simp [compactFields]
  | cons f fields ih => cases fields <;> simp_all [compactFields]

theorem represents_key {key : Option String} (named : key.isSome) :
    Represents (quoteText key).toList (.text key) := by
  obtain ⟨s, rfl⟩ := Option.isSome_iff_exists.mp named
  exact represents_quote s

theorem Plain.represents_compact {v : Json} (plain : Plain v) : Represents v.compact.toList v := by
  induction plain with
  | null => simpa [compact] using Represents.null
  | bool b => simpa [compact] using represents_bool b
  | natural n => simpa [compact] using represents_natural n
  | decimal numeral => exact .number numeral
  | text s => exact represents_quote s
  | list _ ih =>
    have list := represents_list ih (List.forall_mem_nil _)
    simpa [compact, toList_compactItems] using list
  | object named _ ih =>
    have object := represents_object (fun f member => represents_key (named f member)) ih
      (List.forall_mem_nil _)
    simpa [compact, toList_compactFields] using object

/-! ### One item to a line -/

theorem blank_newline (depth : Nat) : ∀ c ∈ (newline depth).toList, Token.isBlank c = true := by
  simp [newline, Token.isBlank]

theorem Represents.gapBefore {gap chars : List Char} {v : Json}
    (blank : ∀ c ∈ gap, Token.isBlank c = true) (represents : Represents chars v) :
    Represents (gap ++ chars) v := by
  induction gap with
  | nil => exact represents
  | cons c gap ih =>
    obtain ⟨first, others⟩ := List.forall_mem_cons.mp blank
    exact .blankBefore first (ih others)

theorem toList_prettyItems (depth : Nat) (items : List Json) :
    (prettyItems depth items).toList = [','].intercalate
      (items.map fun v => (newline depth).toList ++ (v.prettyAt depth).toList) := by
  induction items with
  | nil => simp [prettyItems]
  | cons v items ih => cases items <;> simp_all [prettyItems]

theorem toList_prettyFields (depth : Nat) (fields : List (Option String × Json)) :
    (prettyFields depth fields).toList = [','].intercalate (fields.map fun f =>
      (newline depth).toList ++ (quoteText f.1).toList ++
        ':' :: ' ' :: (f.2.prettyAt depth).toList) := by
  induction fields with
  | nil => simp [prettyFields]
  | cons f fields ih => cases fields <;> simp_all [prettyFields]

theorem Plain.represents_pretty {v : Json} (plain : Plain v) (depth : Nat) :
    Represents (v.prettyAt depth).toList v := by
  induction plain generalizing depth with
  | null => simpa [prettyAt] using Represents.null
  | bool b => simpa [prettyAt] using represents_bool b
  | natural n => simpa [prettyAt] using represents_natural n
  | decimal numeral => exact .number numeral
  | text s => exact represents_quote s
  | @list items _ ih =>
    cases items with
    | nil =>
      have list := represents_list (fun v member => ih v member depth) (List.forall_mem_nil _)
      simpa [prettyAt] using list
    | cons v items =>
      have list := represents_list (fun v member => (ih v member (depth + 1)).gapBefore
        (blank_newline (depth + 1))) (blank_newline depth)
      simpa [prettyAt, toList_prettyItems] using list
  | @object fields named _ ih =>
    cases fields with
    | nil =>
      have object := represents_object (fun f member => represents_key (named f member))
        (fun f member => ih f member depth) (List.forall_mem_nil _)
      simpa [prettyAt] using object
    | cons f fields =>
      have object := represents_object
        (fun f member => (represents_key (named f member)).gapBefore (blank_newline (depth + 1)))
        (fun f member => .blankBefore (c := ' ') rfl (ih f member (depth + 1)))
        (blank_newline depth)
      simpa [prettyAt, toList_prettyFields] using object

/-- Every plain document is read back from its texts. -/
theorem parse?_pretty {v : Json} (plain : Plain v) : parse? v.pretty = some v :=
  (plain.represents_pretty 0).parse?_eq

theorem parse?_compact {v : Json} (plain : Plain v) : parse? v.compact = some v :=
  plain.represents_compact.parse?_eq

end TokenGame.Json
