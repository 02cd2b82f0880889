import Mathlib.Data.List.TakeDrop
import Mathlib.Data.List.TakeWhile
import TokenGame.Proofs.Ron.Spelling
import TokenGame.Ron.Parser
import TokenGame.Ron.Printer

/-! Documents read back from the texts they are written as. A text spells tokens in which every
item of a list or structure has a comma after it; the parser reads the document from them under
every nesting budget that its depth fits. -/
namespace TokenGame.Ron

/-! ### Numbers -/

namespace Number

theorem hexValue?_digitChar {k : Nat} (digit : k < 16) :
    hexValue? (Nat.digitChar k) = some k := by
  revert k
  decide

theorem digits?_concat {digits : List Char} {n k : Nat} (read : digits? 10 digits = some n)
    (digit : k < 10) : digits? 10 (digits ++ [Nat.digitChar k]) = some (n * 10 + k) := by
  have plain : Nat.digitChar k ≠ '_' := by
    revert k
    decide
  unfold digits? at read ⊢
  rw [List.foldlM_append, read]
  simp [plain, hexValue?_digitChar (show k < 16 by omega), digit]

theorem digits?_toDigits (n : Nat) : digits? 10 (Nat.toDigits 10 n) = some n := by
  refine toDigits_induction (by decide) (motive := fun n ds => digits? 10 ds = some n) ?_ ?_ n
  · intro n single
    have start : digits? 10 [] = some 0 := rfl
    simpa using digits?_concat start single
  · intro n _ quotient
    have all := digits?_concat quotient (Nat.mod_lt n (by decide))
    rwa [Nat.div_add_mod' n 10] at all

/-- A natural number is spelled in decimal, without a sign or a width. -/
theorem sign_toDigits (n : Nat) : sign (Nat.toDigits 10 n) = (false, Nat.toDigits 10 n) := by
  obtain ⟨first, more, spelled, digit, _⟩ := exists_toDigits n
  have unsigned : first ≠ '-' ∧ first ≠ '+' := by
    constructor <;> rintro rfl <;> cases digit
  simp [spelled, sign, unsigned]

theorem base_toDigits (n : Nat) : base (Nat.toDigits 10 n) = (10, Nat.toDigits 10 n) := by
  have each := forall_mem_toDigits (fun c digit => digit) n
  generalize Nat.toDigits 10 n = body at each ⊢
  fun_cases base body with
  | case1 rest => cases each 'b' (by simp)
  | case2 rest => cases each 'o' (by simp)
  | case3 rest => cases each 'x' (by simp)
  | case4 => rfl

theorem magnitude?_toDigits (n : Nat) : magnitude? (Nat.toDigits 10 n) = some n := by
  have read := digits?_toDigits n
  have decimal := base_toDigits n
  obtain ⟨first, more, spelled, digit, _⟩ := exists_toDigits n
  have start : first ≠ '_' := by
    rintro rfl
    cases digit
  rw [spelled] at read decimal ⊢
  simp [magnitude?, decimal, read, start]

theorem isIntegerChar_of_isDigit {c : Char} (digit : c.isDigit = true) :
    isIntegerChar c = true := by
  have range : '0' ≤ c ∧ c ≤ '9' := by
    simpa [Char.isDigit, Char.le_def] using digit
  simp [isIntegerChar, hexValue?, range]

theorem suffix_toDigits (n : Nat) : suffix (Nat.toDigits 10 n) = (Nat.toDigits 10 n, []) := by
  have each := forall_mem_toDigits (fun c => isIntegerChar_of_isDigit) n
  simp [suffix, List.dropWhile_eq_nil_iff.mpr each]

theorem word?_repr {n : Nat} (small : n < UInt64.size) : word? (Nat.repr n) = some n := by
  simp [word?, sign_toDigits, suffix_toDigits, magnitude?_toDigits, small]

theorem isNumber_toDigits {n : Nat} (small : n < UInt64.size) :
    isNumber (Nat.toDigits 10 n) = true := by
  have each := forall_mem_toDigits (fun c => isIntegerChar_of_isDigit) n
  have integer : isInteger (Nat.toDigits 10 n) = true := by
    have fits : n ≤ Nat.pow 2 64 - 1 := Nat.le_pred_of_lt small
    simp [isInteger, sign_toDigits, suffix_toDigits, magnitude?_toDigits, fits]
  have long := (List.takeWhile_prefix isFloatChar (l := Nat.toDigits 10 n)).length_le
  simp [isNumber, sign_toDigits, List.takeWhile_eq_self_iff.mpr each, integer, Nat.not_lt.mpr long]

end Number

/-! ### Parsing -/

theorem value_of_leaf {tokens : List Token} {result : Ron × List Token}
    (found : leaf tokens = some result) (e : Extensions) (budget : Nat) :
    value e budget tokens = some result := by
  rw [value.eq_def]
  cases budget <;> simp [found]

theorem value_list (budget : Nat) (rest : List Token) :
    value {} (budget + 2) (.mark '[' :: rest) =
      (items (value {} budget) ']' rest).map fun (vs, rest) => (.list vs, rest) := by
  rw [value.eq_def]
  rfl

theorem value_struct (budget : Nat) (after : List Char) (rest : List Token) :
    value {} (budget + 2) (.opening after :: rest) = content (value {} budget) none rest := by
  rw [value.eq_def]
  rfl

theorem value_some (budget : Nat) (after : List Char) (rest : List Token) :
    value {} (budget + 1) (.name "Some" false :: .opening after :: rest) =
      someBody (value {} budget) rest := by
  have noLeaf : leaf (.name "Some" false :: .opening after :: rest) = none := rfl
  rw [value.eq_def]
  simp [noLeaf]

/-- Of the marks, only opening ones begin a document. -/
theorem value_mark {c : Char} (list : c ≠ '[') (map : c ≠ '{') (budget : Nat)
    (rest : List Token) : value {} budget (.mark c :: rest) = none := by
  have noLeaf : leaf (.mark c :: rest) = none := rfl
  rw [value.eq_def]
  cases budget <;> simp [noLeaf, list, map]

/-- A text that begins with a document has no extension lines. -/
theorem extensions_of_value {budget : Nat} {tokens : List Token} {result : Ron × List Token}
    (read : value {} budget tokens = some result) (rounds : Nat) :
    extensions {} (rounds + 1) tokens = some ({}, tokens) := by
  rw [extensions]
  rintro after rest rfl
  simp [value_mark] at read

/-- Where an item is read and a comma follows, the other items are read after it. -/
theorem separated_item {item : Parser α} {close : Char}
    (refused : ∀ more, item (.mark close :: more) = none) {tokens rest : List Token} {a : α}
    (read : item tokens = some (a, .mark ',' :: rest)) (rounds : Nat) :
    separated item close (rounds + 1) tokens =
      (separated item close rounds rest).map fun (as, rest) => (a :: as, rest) := by
  rw [separated.eq_def]
  dsimp only
  split
  · rename_i c _
    -- The tokens start with a mark, and the item would not have been read from the closing one.
    have other : c ≠ close := by
      rintro rfl
      simp [refused] at read
    simp [other, read, separated.next]
  · simp [read, separated.next]

/-- The tokens hold the items, each with a comma after it. -/
inductive Listed (item : Parser α) : List α → List Token → Prop where
  | nil : Listed item [] []
  | cons {a : α} {as : List α} {tokens rest : List Token} :
      (∀ more, item (tokens ++ more) = some (a, more)) → Listed item as rest →
      Listed item (a :: as) (tokens ++ .mark ',' :: rest)

namespace Listed

variable {α : Type} {item : Parser α} {as : List α} {tokens : List Token}

theorem length_le (listed : Listed item as tokens) : as.length ≤ tokens.length := by
  induction listed with
  | nil => exact Nat.le_refl 0
  | cons _ _ ih =>
    simp only [List.length_append, List.length_cons]
    omega

theorem separated (listed : Listed item as tokens) {close : Char}
    (refused : ∀ more, item (.mark close :: more) = none) {rounds : Nat}
    (enough : as.length < rounds) (more : List Token) :
    separated item close rounds (tokens ++ .mark close :: more) = some (as, more) := by
  induction listed generalizing rounds with
  | nil =>
    obtain ⟨rounds, rfl⟩ : ∃ n, rounds = n + 1 := ⟨rounds - 1, by omega⟩
    simp [Ron.separated]
  | @cons a as tokens rest read _ ih =>
    obtain ⟨rounds, rfl⟩ : ∃ n, rounds = n + 1 := ⟨rounds - 1, by omega⟩
    have others := ih (Nat.lt_of_succ_lt_succ enough)
    have first := read (.mark ',' :: (rest ++ .mark close :: more))
    simp [separated_item refused first, others]

theorem items (listed : Listed item as tokens) {close : Char}
    (refused : ∀ more, item (.mark close :: more) = none) (more : List Token) :
    items item close (tokens ++ .mark close :: more) = some (as, more) := by
  have enough := listed.length_le
  apply listed.separated refused
  simp only [List.length_append, List.length_cons]
  omega

end Listed

theorem content_of_field {value : Parser Ron} {tokens : List Token}
    {result : (String × Ron) × List Token} (read : field value tokens = some result)
    (name : Option String) : content value name tokens =
      (items (field value) ')' tokens).map fun (fields, rest) => (.struct name fields, rest) := by
  unfold field at read
  split at read
  · rfl
  · cases read

/-- The tokens are read as a document, whatever follows them, under every budget from a depth
on. -/
def Reads (depth : Nat) (v : Ron) (tokens : List Token) : Prop :=
  ∀ budget, depth ≤ budget → ∀ more, value {} budget (tokens ++ more) = some (v, more)

namespace Reads

variable {depth : Nat} {tokens : List Token}

theorem of_leaf {v : Ron} (found : ∀ more, leaf (tokens ++ more) = some (v, more)) :
    Reads depth v tokens := fun budget _ more =>
  value_of_leaf (found more) {} budget

theorem option {v : Ron} (reads : Reads depth v tokens) (after : List Char) :
    Reads (depth + 1) (.option (some v))
      (.name "Some" false :: .opening after :: (tokens ++ [.mark ')'])) := by
  intro budget enough more
  obtain ⟨budget, rfl⟩ : ∃ n, budget = n + 1 := ⟨budget - 1, by omega⟩
  have inside := reads budget (by omega) (.mark ')' :: more)
  simp [value_some, someBody, inside]

theorem list {items : List Ron}
    (listed : ∀ budget, depth ≤ budget → Listed (value {} budget) items tokens) :
    Reads (depth + 2) (.list items) (.mark '[' :: (tokens ++ [.mark ']'])) := by
  intro budget enough more
  obtain ⟨budget, rfl⟩ : ∃ n, budget = n + 2 := ⟨budget - 2, by omega⟩
  have refused : ∀ more, value {} budget (.mark ']' :: more) = none :=
    value_mark (by decide) (by decide) budget
  have inside := (listed budget (by omega)).items refused more
  simp [value_list, inside]

theorem struct {fields : List (String × Ron)} (nonempty : fields ≠ [])
    (listed : ∀ budget, depth ≤ budget → Listed (field (value {} budget)) fields tokens)
    (after : List Char) :
    Reads (depth + 2) (.struct none fields) (.opening after :: (tokens ++ [.mark ')'])) := by
  intro budget enough more
  obtain ⟨budget, rfl⟩ : ∃ n, budget = n + 2 := ⟨budget - 2, by omega⟩
  have refused : ∀ more, field (value {} budget) (.mark ')' :: more) = none := fun _ => rfl
  have inside := (listed budget (by omega)).items refused more
  cases listed budget (by omega) with
  | nil => exact absurd rfl nonempty
  | @cons f fields tokens rest first others =>
    have start := first (.mark ',' :: (rest ++ .mark ')' :: more))
    simp only [List.append_assoc, List.cons_append] at inside
    simp [value_struct, content_of_field start, inside]

end Reads

/-! ### Printing -/

theorem hexNumber?_toDigits (n : Nat) : Token.hexNumber? 0 (Nat.toDigits 16 n) = some n := by
  refine toDigits_induction (by decide) (motive := fun n ds => Token.hexNumber? 0 ds = some n)
    ?_ ?_ n
  · intro n single
    simp [Token.hexNumber?, Number.hexValue?_digitChar single]
  · intro n _ quotient
    unfold Token.hexNumber? at quotient ⊢
    rw [List.foldlM_append, quotient]
    simp [Number.hexValue?_digitChar (Nat.mod_lt n (show 0 < 16 by decide)), Nat.div_add_mod']

theorem stands_codePoint (c : Char) : Token.Stands (Quoted.codePoint c) c := by
  have few : (Nat.toDigits 16 c.toNat).length ≤ 6 := by
    have valid := c.valid
    rw [Nat.length_toDigits_le_iff (by decide) (by decide)]
    simp only [UInt32.isValidChar, Nat.isValidChar] at valid
    have code : c.val.toNat = c.toNat := rfl
    omega
  exact .code Nat.toDigits_ne_nil few (hexNumber?_toDigits c.toNat)

theorem stands_escapeChar (c : Char) : Token.Stands (escapeChar c) c := by
  unfold escapeChar
  split
  · subst c
    exact .escape rfl
  fun_cases Quoted.escapeChar c
  case case7 quote backslash shown => exact .plain quote backslash
  case case8 => exact stands_codePoint c
  all_goals
    subst c
    exact .escape rfl

theorem spells_quote (s : String) {rest : List Char} {tokens : List Token}
    (spells : Token.Spells rest tokens) :
    Token.Spells ((quote s).toList ++ rest) (.text s :: tokens) := by
  have text := Token.Spells.text (.flatMap stands_escapeChar s.toList) spells
  simpa [quote] using text

theorem spells_natural {n : Nat} (small : n < UInt64.size) {rest : List Char}
    {tokens : List Token} (delimited : Token.Delimited rest) (spells : Token.Spells rest tokens) :
    Token.Spells ((Nat.repr n).toList ++ rest) (.number (Nat.repr n) :: tokens) := by
  have number := Number.isNumber_toDigits small
  obtain ⟨first, more, spelled, digit, digits⟩ := exists_toDigits n
  have text : Nat.repr n = String.ofList (first :: more) := by
    rw [← spelled, ← Nat.toList_repr, String.ofList_toList]
  rw [spelled] at number
  rw [text, String.toList_ofList]
  refine .number ?_ ?_ number delimited spells
  · simp [Number.isNumberStart, digit]
  · intro c member
    simp [Number.isNumberChar, Char.isAlphanum, digits c member]

theorem spells_indent (depth : Nat) {rest : List Char} {tokens : List Token}
    (spells : Token.Spells rest tokens) : Token.Spells ((indent depth).toList ++ rest) tokens := by
  have blanks : ∀ n, Token.Spells (List.replicate n ' ' ++ rest) tokens := by
    intro n
    induction n with
    | zero => exact spells
    | succ n ih => exact .blank rfl ih
  simpa [indent] using blanks (4 * depth)

/-- Names of letters only. -/
def isWord (name : String) : Bool := !name.toList.isEmpty && name.toList.all Char.isAlpha

theorem spells_word {name : String} (word : isWord name = true) {rest : List Char}
    {tokens : List Token} (delimited : Token.Delimited rest) (spells : Token.Spells rest tokens) :
    Token.Spells (name.toList ++ rest) (.name name false :: tokens) := by
  simp only [isWord, Bool.and_eq_true, Bool.not_eq_true', List.isEmpty_eq_false_iff,
    List.all_eq_true] at word
  obtain ⟨first, more, spelled⟩ := List.exists_cons_of_ne_nil word.1
  have text : name = String.ofList (first :: more) := by rw [← spelled, String.ofList_toList]
  obtain ⟨letter, letters⟩ := List.forall_mem_cons.mp (spelled ▸ word.2)
  rw [text, String.toList_ofList]
  refine .name letter ?_ delimited spells
  intro c member
  have range := Token.toNat_of_isAlpha (letters c member)
  have ascii : c.toNat < 0x80 := by omega
  simp [Identifier.isPart, Identifier.isStart, ascii, letters c member]

/-- A document is written at every depth so that its tokens are read as it. -/
def Readable (depth : Nat) (v : Ron) : Prop :=
  ∀ (column : Nat) (rest : List Char) (following : List Token), Token.Delimited rest →
    Token.Spells rest following →
    ∃ tokens, Token.Spells ((v.prettyAt column).toList ++ rest) (tokens ++ following) ∧
      Reads depth v tokens

theorem delimited_comma {rest : List Char} : Token.Delimited (',' :: rest) :=
  Token.delimited_cons.mpr (by decide)

theorem readable_items {depth : Nat} {items : List Ron} (readable : ∀ v ∈ items, Readable depth v)
    (column : Nat) {rest : List Char} {following : List Token}
    (spells : Token.Spells rest following) :
    ∃ tokens, Token.Spells ((prettyItems column items).toList ++ rest) (tokens ++ following) ∧
      ∀ budget, depth ≤ budget → Listed (value {} budget) items tokens := by
  induction items with
  | nil => exact ⟨[], by simpa [prettyItems] using spells, fun _ _ => .nil⟩
  | cons v items ih =>
    obtain ⟨first, others⟩ := List.forall_mem_cons.mp readable
    obtain ⟨more, spelled, listed⟩ := ih others
    have separated := Token.Spells.mark (c := ',') rfl (.blank (c := '\n') rfl spelled)
    obtain ⟨tokens, written, reads⟩ := first column _ _ delimited_comma separated
    refine ⟨tokens ++ .mark ',' :: more, ?_, ?_⟩
    · simpa [prettyItems] using spells_indent column written
    · intro budget enough
      exact .cons (reads budget enough) (listed budget enough)

theorem readable_fields {depth : Nat} {fields : List (String × Ron)}
    (words : ∀ f ∈ fields, isWord f.1 = true) (readable : ∀ f ∈ fields, Readable depth f.2)
    (column : Nat) {rest : List Char} {following : List Token}
    (spells : Token.Spells rest following) :
    ∃ tokens, Token.Spells ((prettyFields column fields).toList ++ rest) (tokens ++ following) ∧
      ∀ budget, depth ≤ budget → Listed (field (value {} budget)) fields tokens := by
  induction fields with
  | nil => exact ⟨[], by simpa [prettyFields] using spells, fun _ _ => .nil⟩
  | cons f fields ih =>
    obtain ⟨name, v⟩ := f
    obtain ⟨first, others⟩ := List.forall_mem_cons.mp readable
    obtain ⟨word, names⟩ := List.forall_mem_cons.mp words
    obtain ⟨more, spelled, listed⟩ := ih names others
    have separated := Token.Spells.mark (c := ',') rfl (.blank (c := '\n') rfl spelled)
    obtain ⟨tokens, written, reads⟩ := first column _ _ delimited_comma separated
    have named := Token.Spells.mark (c := ':') rfl (.blank (c := ' ') rfl written)
    have all := spells_word word (Token.delimited_cons.mpr (by decide)) named
    refine ⟨.name name false :: .mark ':' :: tokens ++ .mark ',' :: more, ?_, ?_⟩
    · simpa [prettyFields] using spells_indent column all
    · intro budget enough
      have each : ∀ rest, field (value {} budget)
          (.name name false :: .mark ':' :: tokens ++ rest) = some ((name, v), rest) := by
        intro rest
        simp [field, reads budget enough]
      exact .cons each (listed budget enough)

/-- Documents of natural numbers, texts, present values, lists and nameless structures, nested to
a depth as the parser counts it. -/
inductive Plain : Nat → Ron → Prop where
  | natural {depth n : Nat} : n < UInt64.size → Plain depth (.natural n)
  | text {depth : Nat} (s : String) : Plain depth (.text s)
  | option {depth : Nat} {v : Ron} : Plain depth v → Plain (depth + 1) (.option (some v))
  | list {depth : Nat} {items : List Ron} : (∀ v ∈ items, Plain depth v) →
      Plain (depth + 2) (.list items)
  | struct {depth : Nat} {fields : List (String × Ron)} : fields ≠ [] →
      (∀ f ∈ fields, isWord f.1 = true) → (∀ f ∈ fields, Plain depth f.2) →
      Plain (depth + 2) (.struct none fields)

/-- No document begins with a closing parenthesis. -/
theorem Plain.head?_pretty {depth : Nat} {v : Ron} (plain : Plain depth v) (column : Nat)
    (rest : List Char) : ((v.prettyAt column).toList ++ rest).head? ≠ some ')' := by
  cases plain with
  | @natural depth n _ =>
    obtain ⟨first, more, spelled, digit, _⟩ := exists_toDigits n
    simp only [Ron.natural, prettyAt, Nat.toList_repr, spelled, List.cons_append,
      List.head?_cons, ne_eq, Option.some.injEq]
    rintro rfl
    cases digit
  | text s => simp [prettyAt, quote]
  | option _ => simp [prettyAt]
  | @list depth items _ => cases items <;> simp [prettyAt]
  | @struct depth fields nonempty _ _ =>
    cases fields with
    | nil => exact absurd rfl nonempty
    | cons f fields => simp [prettyAt, nameText]

-- The tokens cannot be given beforehand: an opening parenthesis keeps all of the text after it.
theorem Plain.readable {depth : Nat} {v : Ron} (plain : Plain depth v) : Readable depth v := by
  intro column rest following delimited spells
  induction plain generalizing column rest following with
  | @natural _ n small =>
    refine ⟨[.number (Nat.repr n)], ?_, .of_leaf fun _ => rfl⟩
    simpa [Ron.natural, prettyAt] using spells_natural small delimited spells
  | text s =>
    refine ⟨[.text s], ?_, .of_leaf fun _ => rfl⟩
    simpa [prettyAt] using spells_quote s spells
  | option plain ih =>
    have closed := Token.Spells.mark (c := ')') rfl spells
    obtain ⟨tokens, written, reads⟩ := ih column _ _ (Token.delimited_cons.mpr (by decide)) closed
    have opened := Token.Spells.opening (plain.head?_pretty column _) written
    have some : isWord "Some" = true := by decide
    have all := spells_word some (Token.delimited_cons.mpr (by decide)) opened
    exact ⟨_, by simpa [prettyAt] using all, reads.option _⟩
  | @list depth items _ ih =>
    cases items with
    | nil =>
      have closed := Token.Spells.mark (c := ']') rfl spells
      have reads : Reads (depth + 2) (.list []) (.mark '[' :: ([] ++ [.mark ']'])) :=
        .list fun _ _ => .nil
      refine ⟨_, ?_, reads⟩
      simpa [prettyAt] using Token.Spells.mark (c := '[') rfl closed
    | cons v items =>
      have closed := spells_indent column (Token.Spells.mark (c := ']') rfl spells)
      obtain ⟨tokens, written, listed⟩ := readable_items ih (column + 1) closed
      refine ⟨.mark '[' :: (tokens ++ [.mark ']']), ?_, .list listed⟩
      simpa [prettyAt] using Token.Spells.mark (c := '[') rfl (.blank (c := '\n') rfl written)
  | @struct depth fields nonempty words _ ih =>
    have closed := spells_indent column (Token.Spells.mark (c := ')') rfl spells)
    obtain ⟨tokens, written, listed⟩ := readable_fields words ih (column + 1) closed
    obtain ⟨f, fields, rfl⟩ := List.exists_cons_of_ne_nil nonempty
    have opened := Token.Spells.opening (by simp) (.blank (c := '\n') rfl written)
    exact ⟨_, by simpa [prettyAt, nameText] using opened, .struct nonempty listed _⟩

/-- Every plain document that fits the nesting budget is read back from its text. -/
theorem parse?_pretty {depth : Nat} {v : Ron} (plain : Plain depth v)
    (shallow : depth ≤ nestingBudget) : parse? v.pretty = some ({}, v) := by
  obtain ⟨tokens, spells, reads⟩ := plain.readable 0 [] [] Token.delimited_nil .nil
  have scanned : Token.scan? v.pretty = some tokens := by
    apply Token.scan?_of_spells
    simpa [pretty] using spells
  have read : value {} nestingBudget tokens = some (v, []) := by
    simpa using reads nestingBudget shallow []
  simp [parse?, scanned, extensions_of_value read, read]

end TokenGame.Ron
