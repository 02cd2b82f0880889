import TokenGame.Json.Parser
import TokenGame.Proofs.Json.Numeral
import TokenGame.Proofs.Json.Spelling

/-! JSON texts by their grammar. Blanks may stand around every value and every name. A document
has one sequence of tokens: each of its texts spells that sequence, and the parser reads the
document from it. -/
namespace TokenGame.Json

/-- The characters are a JSON text of the document. -/
inductive Represents : List Char → Json → Prop where
  | blankBefore {c : Char} {chars : List Char} {v : Json} : Token.isBlank c = true →
      Represents chars v → Represents (c :: chars) v
  | blankAfter {c : Char} {chars : List Char} {v : Json} : Token.isBlank c = true →
      Represents chars v → Represents (chars ++ [c]) v
  | null : Represents ['n', 'u', 'l', 'l'] .null
  | isTrue : Represents ['t', 'r', 'u', 'e'] (.bool true)
  | isFalse : Represents ['f', 'a', 'l', 's', 'e'] (.bool false)
  | number {chars : List Char} {v : Json} : Number.Numeral chars v → Represents chars v
  | text {body : List Char} {units : List Token.CodeUnit} : Piecewise Token.Stands body units →
      Represents ('"' :: body ++ ['"']) (.text ((Token.CodeUnit.denotes? units).map String.ofList))
  | list {parts : List (List Char × Json)} {gap : List Char} :
      (∀ p ∈ parts, Represents p.1 p.2) → (∀ c ∈ gap, Token.isBlank c = true) →
      Represents ('[' :: [','].intercalate (parts.map Prod.fst) ++ gap ++ [']'])
        (.list (parts.map Prod.snd))
  /-- A name and its value are parts of an object. -/
  | object {parts : List ((List Char × Option String) × (List Char × Json))} {gap : List Char} :
      (∀ p ∈ parts, Represents p.1.1 (.text p.1.2)) → (∀ p ∈ parts, Represents p.2.1 p.2.2) →
      (∀ c ∈ gap, Token.isBlank c = true) →
      Represents ('{' :: [','].intercalate (parts.map fun p => p.1.1 ++ ':' :: p.2.1) ++ gap ++ ['}'])
        (.object (parts.map fun p => (p.1.2, p.2.2)))

/-! ### Tokens -/

mutual

/-- The tokens of a document. -/
def tokens : Json → List Token
  | .text t => [.text t]
  | .list items => .openBracket :: itemTokens items
  | .object fields => .openBrace :: fieldTokens fields
  | v => [.scalar v]

/-- The tokens of a list after its opening bracket. -/
def itemTokens : List Json → List Token
  | [] => [.closeBracket]
  | [v] => v.tokens ++ [.closeBracket]
  | v :: rest => v.tokens ++ .comma :: itemTokens rest

/-- The tokens of an object after its opening brace. -/
def fieldTokens : List (Option String × Json) → List Token
  | [] => [.closeBrace]
  | [(key, v)] => .text key :: .colon :: v.tokens ++ [.closeBrace]
  | (key, v) :: rest => .text key :: .colon :: v.tokens ++ .comma :: fieldTokens rest

end

/-! ### Parsing -/

theorem parseValue_list {bound : Nat} {tokens rest : List Token} {items : List Json}
    (read : parseItems bound tokens = some (items, rest)) :
    parseValue (bound + 1) (.openBracket :: tokens) = some (.list items, rest) := by
  rw [parseValue]
  · simp [read]
  · rintro after rfl
    -- No value starts with a closing bracket.
    rcases bound with _ | _ | bound <;> simp [parseItems, parseValue] at read

theorem parseValue_object {bound : Nat} {tokens rest : List Token}
    {fields : List (Option String × Json)}
    (read : parseFields bound tokens = some (fields, rest)) :
    parseValue (bound + 1) (.openBrace :: tokens) = some (.object fields, rest) := by
  rw [parseValue]
  · simp [read]
  · rintro after rfl
    cases bound <;> simp [parseFields] at read

mutual

-- Every call of a parser by another uses up one from the bound, so the proofs recurse on it.
/-- The parser reads a document from its tokens, whatever follows them. -/
theorem parseValue_tokens (v : Json) (bound : Nat) (enough : 2 * v.tokens.length ≤ bound)
    (rest : List Token) : parseValue bound (v.tokens ++ rest) = some (v, rest) := by
  cases bound with
  | zero => cases v <;> simp [tokens] at enough
  | succ bound =>
    cases v with
    | list items =>
      simp only [tokens, List.length_cons] at enough
      cases items with
      | nil => simp [tokens, itemTokens, parseValue]
      | cons v items => exact parseValue_list (parseItems_tokens v items bound (by omega) rest)
    | object fields =>
      simp only [tokens, List.length_cons] at enough
      match fields with
      | [] => simp [tokens, fieldTokens, parseValue]
      | (key, v) :: fields =>
        exact parseValue_object (parseFields_tokens key v fields bound (by omega) rest)
    | _ => simp [tokens, parseValue]
termination_by bound

theorem parseItems_tokens (v : Json) (items : List Json) (bound : Nat)
    (enough : 2 * (itemTokens (v :: items)).length ≤ bound) (rest : List Token) :
    parseItems bound (itemTokens (v :: items) ++ rest) = some (v :: items, rest) := by
  cases items with
  | nil =>
    simp only [itemTokens, List.length_append, List.length_cons] at enough
    obtain ⟨bound, rfl⟩ : ∃ n, bound = n + 1 := ⟨bound - 1, by omega⟩
    have first := parseValue_tokens v bound (by omega) (.closeBracket :: rest)
    simp [itemTokens, parseItems, first]
  | cons w items =>
    simp only [itemTokens, List.length_append, List.length_cons] at enough
    obtain ⟨bound, rfl⟩ : ∃ n, bound = n + 1 := ⟨bound - 1, by omega⟩
    have first := parseValue_tokens v bound (by omega)
      (.comma :: (itemTokens (w :: items) ++ rest))
    have others := parseItems_tokens w items bound (by omega) rest
    simp [itemTokens, parseItems, first, others]
termination_by bound

theorem parseFields_tokens (key : Option String) (v : Json) (fields : List (Option String × Json))
    (bound : Nat) (enough : 2 * (fieldTokens ((key, v) :: fields)).length ≤ bound)
    (rest : List Token) :
    parseFields bound (fieldTokens ((key, v) :: fields) ++ rest) =
      some ((key, v) :: fields, rest) := by
  match fields with
  | [] =>
    simp only [fieldTokens, List.length_append, List.length_cons] at enough
    obtain ⟨bound, rfl⟩ : ∃ n, bound = n + 1 := ⟨bound - 1, by omega⟩
    have first := parseValue_tokens v bound (by omega) (.closeBrace :: rest)
    simp [fieldTokens, parseFields, first]
  | (other, w) :: fields =>
    simp only [fieldTokens, List.length_append, List.length_cons] at enough
    obtain ⟨bound, rfl⟩ : ∃ n, bound = n + 1 := ⟨bound - 1, by omega⟩
    have first := parseValue_tokens v bound (by omega)
      (.comma :: (fieldTokens ((other, w) :: fields) ++ rest))
    have others := parseFields_tokens other w fields bound (by omega) rest
    simp [fieldTokens, parseFields, first, others]
termination_by bound

end

theorem parse?_of_spells {text : String} {v : Json} (spells : Token.Spells text.toList v.tokens) :
    parse? text = some v := by
  have read := parseValue_tokens v (2 * v.tokens.length + 1) (by omega) []
  rw [List.append_nil] at read
  simp [parse?, Token.scan?_of_spells spells, read]

/-! ### Texts -/

theorem delimited_comma {rest : List Char} : Token.Delimited (',' :: rest) :=
  Token.delimited_cons.mpr (by decide)

theorem delimited_blank {c : Char} (blank : Token.isBlank c = true) (rest : List Char) :
    Token.Delimited (c :: rest) := by
  simp only [Token.isBlank, Bool.or_eq_true, decide_eq_true_eq] at blank
  rw [Token.delimited_cons]
  rcases blank with ((rfl | rfl) | rfl) | rfl <;> decide

theorem delimited_gap {gap rest : List Char} (blank : ∀ c ∈ gap, Token.isBlank c = true)
    (delimited : Token.Delimited rest) : Token.Delimited (gap ++ rest) := by
  cases gap with
  | nil => exact delimited
  | cons c gap => exact delimited_blank (blank c (.head gap)) _

theorem spells_gap {gap rest : List Char} {tokens : List Token}
    (blank : ∀ c ∈ gap, Token.isBlank c = true) (spells : Token.Spells rest tokens) :
    Token.Spells (gap ++ rest) tokens := by
  induction gap with
  | nil => exact spells
  | cons c gap ih =>
    obtain ⟨first, others⟩ := List.forall_mem_cons.mp blank
    exact .blank first (ih others)

/-- Whatever follows, the characters spell the tokens of the document. -/
def Spelled (chars : List Char) (v : Json) : Prop :=
  ∀ (rest : List Char) (tokens : List Token), Token.Delimited rest → Token.Spells rest tokens →
    Token.Spells (chars ++ rest) (v.tokens ++ tokens)

theorem spells_items {parts : List (List Char × Json)} (spelled : ∀ p ∈ parts, Spelled p.1 p.2)
    {gap rest : List Char} {tokens : List Token} (blank : ∀ c ∈ gap, Token.isBlank c = true)
    (spells : Token.Spells rest tokens) :
    Token.Spells ([','].intercalate (parts.map Prod.fst) ++ (gap ++ ']' :: rest))
      (itemTokens (parts.map Prod.snd) ++ tokens) := by
  have closes := spells_gap blank (.mark (c := ']') rfl spells)
  have apart : Token.Delimited (gap ++ ']' :: rest) :=
    delimited_gap blank (Token.delimited_cons.mpr (by decide))
  induction parts with
  | nil => exact closes
  | cons p parts ih =>
    obtain ⟨first, others⟩ := List.forall_mem_cons.mp spelled
    cases parts with
    | nil => simpa [itemTokens] using first _ _ apart closes
    | cons q parts =>
      have others := Token.Spells.mark (c := ',') rfl (ih others)
      simpa [itemTokens] using first _ _ delimited_comma others

theorem spells_fields {parts : List ((List Char × Option String) × (List Char × Json))}
    (keys : ∀ p ∈ parts, Spelled p.1.1 (.text p.1.2)) (values : ∀ p ∈ parts, Spelled p.2.1 p.2.2)
    {gap rest : List Char} {tokens : List Token} (blank : ∀ c ∈ gap, Token.isBlank c = true)
    (spells : Token.Spells rest tokens) :
    Token.Spells ([','].intercalate (parts.map fun p => p.1.1 ++ ':' :: p.2.1) ++
      (gap ++ '}' :: rest)) (fieldTokens (parts.map fun p => (p.1.2, p.2.2)) ++ tokens) := by
  have closes := spells_gap blank (.mark (c := '}') rfl spells)
  have apart : Token.Delimited (gap ++ '}' :: rest) :=
    delimited_gap blank (Token.delimited_cons.mpr (by decide))
  induction parts with
  | nil => exact closes
  | cons p parts ih =>
    obtain ⟨key, keys⟩ := List.forall_mem_cons.mp keys
    obtain ⟨value, values⟩ := List.forall_mem_cons.mp values
    have member {after : List Char} {others : List Token} (delimited : Token.Delimited after)
        (spells : Token.Spells after others) :
        Token.Spells (p.1.1 ++ ':' :: (p.2.1 ++ after))
          (.text p.1.2 :: .colon :: (p.2.2.tokens ++ others)) :=
      key _ _ (Token.delimited_cons.mpr (by decide))
        (.mark (c := ':') rfl (value _ _ delimited spells))
    cases parts with
    | nil => simpa [fieldTokens] using member apart closes
    | cons q parts =>
      have others := Token.Spells.mark (c := ',') rfl (ih keys values)
      simpa [fieldTokens] using member delimited_comma others

theorem tokens_eq_scalar {chars : List Char} {v : Json} (numeral : Number.Numeral chars v) :
    v.tokens = [.scalar v] := by
  cases numeral <;> simp [tokens]

theorem Represents.spelled {chars : List Char} {v : Json} (represents : Represents chars v) :
    Spelled chars v := by
  intro rest tokens delimited spells
  induction represents generalizing rest tokens with
  | blankBefore blank _ ih => exact .blank blank (ih rest tokens delimited spells)
  | blankAfter blank _ ih =>
    rw [List.append_assoc]
    exact ih _ _ (delimited_blank blank rest) (.blank blank spells)
  | null =>
    have word : Token.word? ['n', 'u', 'l', 'l'] = some (.scalar .null) := rfl
    exact .word word delimited spells
  | isTrue =>
    have word : Token.word? ['t', 'r', 'u', 'e'] = some (.scalar (.bool true)) := rfl
    exact .word word delimited spells
  | isFalse =>
    have word : Token.word? ['f', 'a', 'l', 's', 'e'] = some (.scalar (.bool false)) := rfl
    exact .word word delimited spells
  | number numeral =>
    have scalar := tokens_eq_scalar numeral
    have value := numeral.ofText?_eq
    obtain ⟨first, more, rfl, start, others⟩ := numeral.numberChars
    rw [scalar]
    exact .number start others value delimited spells
  | text holds => simpa [Json.tokens] using Token.Spells.text holds spells
  | list _ blank ih =>
    have inside := spells_items ih blank spells
    simpa [Json.tokens] using Token.Spells.mark (c := '[') rfl inside
  | object _ _ blank keys values =>
    have inside := spells_fields keys values blank spells
    simpa [Json.tokens] using Token.Spells.mark (c := '{') rfl inside

/-- A document is read from every text of it. -/
theorem Represents.parse?_eq {text : String} {v : Json} (represents : Represents text.toList v) :
    parse? text = some v := by
  apply parse?_of_spells
  simpa using represents.spelled [] [] Token.delimited_nil .nil

end TokenGame.Json
