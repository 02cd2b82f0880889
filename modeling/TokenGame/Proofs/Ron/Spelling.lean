import TokenGame.Proofs.Text.Spelling
import TokenGame.Ron.Token

/-! How texts spell RON tokens. Blanks may stand between any two tokens; names and numbers
need something after them that does not continue them, and an opening parenthesis keeps the
text after it. The scanner finds the tokens of every text that is spelled this way. -/
namespace TokenGame.Ron.Token

/-- The number that hexadecimal digits spell. -/
def hexNumber? (value : Nat) (digits : List Char) : Option Nat :=
  digits.foldlM (fun value d => (Number.hexValue? d).map (value * 16 + ·)) value

/-- The characters that may stand for a character inside double quotes. -/
inductive Stands : List Char → Char → Prop where
  | plain {c : Char} : c ≠ '"' → c ≠ '\\' → Stands [c] c
  | escape {e c : Char} : TextScan.escaped? e = some c → Stands ['\\', e] c
  | code {digits : List Char} {c : Char} : digits ≠ [] → digits.length ≤ 6 →
      hexNumber? 0 digits = some c.toNat → Stands ('\\' :: 'u' :: '{' :: digits ++ ['}']) c

/-- What may follow a name or a number. -/
def Delimited (rest : List Char) : Prop :=
  ∀ c ∈ rest.head?, Identifier.isPart c = false ∧ Number.isNumberChar c = false ∧
    c ≠ '"' ∧ c ≠ '\'' ∧ c ≠ '#'

theorem delimited_nil : Delimited [] := by simp [Delimited]

theorem delimited_cons {c : Char} {rest : List Char} :
    Delimited (c :: rest) ↔ Identifier.isPart c = false ∧ Number.isNumberChar c = false ∧
      c ≠ '"' ∧ c ≠ '\'' ∧ c ≠ '#' := by
  simp [Delimited]

/-- The characters spell the tokens. -/
inductive Spells : List Char → List Token → Prop where
  | nil : Spells [] []
  | blank {c : Char} {rest : List Char} {tokens : List Token} : isBlank c = true →
      Spells rest tokens → Spells (c :: rest) tokens
  | mark {c : Char} {rest : List Char} {tokens : List Token} : isMark c = true →
      Spells rest tokens → Spells (c :: rest) (.mark c :: tokens)
  | opening {rest : List Char} {tokens : List Token} : rest.head? ≠ some ')' →
      Spells rest tokens → Spells ('(' :: rest) (.opening rest :: tokens)
  | text {body chars rest : List Char} {tokens : List Token} : Piecewise Stands body chars →
      Spells rest tokens →
      Spells ('"' :: body ++ '"' :: rest) (.text (String.ofList chars) :: tokens)
  | name {first : Char} {more rest : List Char} {tokens : List Token} : first.isAlpha = true →
      (∀ c ∈ more, Identifier.isPart c = true) → Delimited rest → Spells rest tokens →
      Spells (first :: more ++ rest) (.name (String.ofList (first :: more)) false :: tokens)
  | number {first : Char} {more rest : List Char} {tokens : List Token} :
      Number.isNumberStart first = true → (∀ c ∈ more, Number.isNumberChar c = true) →
      Number.isNumber (first :: more) = true → Delimited rest → Spells rest tokens →
      Spells (first :: more ++ rest) (.number (String.ofList (first :: more)) :: tokens)

/-- The tokens, the last one first, when a scan goes on over some characters and ends. -/
def finish? (s : Scan) (chars : List Char) : Option (List Token) :=
  (scanFrom? s chars).bind close?

@[simp] theorem finish?_cons (s : Scan) (c : Char) (rest : List Char) :
    finish? s (c :: rest) = (step? s c rest).bind (finish? · rest) := by
  simp only [finish?, scanFrom?]
  cases step? s c rest <;> rfl

/-- Reading a name or number, what comes after it ends it. -/
theorem finish?_delimited {s : Scan} {tokens : List Token} {rest : List Char}
    (reading : (∃ chars, s.mode = .name chars) ∨ ∃ chars, s.mode = .number chars)
    (closed : close? s = some tokens) (delimited : Delimited rest) :
    finish? s rest = finish? ⟨tokens, .between⟩ rest := by
  cases rest with
  | nil => exact closed
  | cons c rest =>
    obtain ⟨noName, noNumber, quote, single, sign⟩ := delimited_cons.mp delimited
    have step : step? s c rest = begin? tokens c rest := by
      rcases reading with ⟨chars, mode⟩ | ⟨chars, mode⟩
      · have unmarked : mark? chars c = none := by
          simp [mark?, quote, single, sign]
        simp [step?, mode, stepName?, noName, unmarked, next?, closed]
      · simp [step?, mode, noNumber, next?, closed]
    rw [finish?_cons, finish?_cons, step]
    rfl

theorem finish?_nameChars {before : List Token} {more read : List Char}
    (each : ∀ c ∈ more, Identifier.isPart c = true) (rest : List Char) :
    finish? ⟨before, .name read⟩ (more ++ rest) =
      finish? ⟨before, .name (more.reverse ++ read)⟩ rest := by
  induction more generalizing read with
  | nil => rfl
  | cons c more ih =>
    obtain ⟨first, each⟩ := List.forall_mem_cons.mp each
    simp [step?, stepName?, first, ih each]

theorem finish?_numberChars {before : List Token} {more read : List Char}
    (each : ∀ c ∈ more, Number.isNumberChar c = true) (rest : List Char) :
    finish? ⟨before, .number read⟩ (more ++ rest) =
      finish? ⟨before, .number (more.reverse ++ read)⟩ rest := by
  induction more generalizing read with
  | nil => rfl
  | cons c more ih =>
    obtain ⟨first, each⟩ := List.forall_mem_cons.mp each
    simp [step?, first, ih each]

/-- A parenthesis that is not closed at once is one of its own. -/
theorem finish?_opened {tokens : List Token} {rest : List Char} (apart : rest.head? ≠ some ')') :
    finish? ⟨tokens, .opened⟩ rest = finish? ⟨tokens, .between⟩ rest := by
  cases rest with
  | nil => rfl
  | cons c rest =>
    have other : c ≠ ')' := fun same => apart (congrArg some same)
    simp [step?, other]

/-- The scan of a text whose characters so far are read and that goes on in a phase. -/
def inText (before : List Token) (chars : List Char) (phase : Phase) : Scan :=
  ⟨before, .quoted { quotes := .text, chars, phase }⟩

theorem finish?_hexDigits {before : List Token} {chars digits : List Char} {count value n : Nat}
    (few : count + digits.length ≤ 6) (spelled : hexNumber? value digits = some n)
    (rest : List Char) :
    finish? (inText before chars (.hex count value)) (digits ++ rest) =
      finish? (inText before chars (.hex (count + digits.length) n)) rest := by
  induction digits generalizing count value with
  | nil =>
    cases spelled
    rfl
  | cons d digits ih =>
    simp only [hexNumber?, List.foldlM_cons, Option.bind_eq_bind, Option.bind_map,
      Option.bind_eq_some_iff, Function.comp_apply] at spelled
    obtain ⟨digit, found, others⟩ := spelled
    have inside : d ≠ '}' := by
      rintro rfl
      cases found
    have room : count < 6 := by
      simp only [List.length_cons] at few
      omega
    have step : step? (inText before chars (.hex count value)) d (digits ++ rest) =
        some (inText before chars (.hex (count + 1) (value * 16 + digit))) := by
      simp [step?, inText, TextScan.closes, TextScan.step?, TextScan.stepHex?, inside, room, found]
    rw [List.cons_append, finish?_cons, step, Option.bind_some,
      ih (by simp only [List.length_cons] at few; omega) others]
    simp only [List.length_cons, Nat.add_assoc, Nat.add_comm 1]

/-- Inside quotes, what stands for a character adds the character. -/
theorem Stands.finish?_eq {piece : List Char} {c : Char} (stands : Stands piece c)
    (before : List Token) (chars rest : List Char) :
    finish? (inText before chars .plain) (piece ++ rest) =
      finish? (inText before (c :: chars) .plain) rest := by
  cases stands with
  | plain quote backslash =>
    simp [step?, inText, TextScan.closes, TextScan.step?, quote, backslash, TextScan.addPlain?,
      TextScan.add, Quotes.closing]
  | @escape e _ found =>
    have other : e ≠ 'x' ∧ e ≠ 'u' := by
      constructor <;> rintro rfl <;> cases found
    simp [step?, inText, TextScan.closes, TextScan.step?, TextScan.stepEscape?, other, found,
      TextScan.add, Quotes.closing]
  | @code digits _ nonempty few spelled =>
    have opens : finish? (inText before chars .plain)
          ('\\' :: 'u' :: '{' :: digits ++ ['}'] ++ rest) =
        finish? (inText before chars (.hex 0 0)) (digits ++ '}' :: rest) := by
      simp [step?, inText, TextScan.closes, TextScan.step?, TextScan.stepEscape?, Quotes.closing]
    have counted : 0 < digits.length := List.length_pos_iff.mpr nonempty
    rw [opens, finish?_hexDigits (by omega) spelled]
    have valid : c.toNat.isValidChar := c.valid
    simp [step?, inText, TextScan.closes, TextScan.step?, TextScan.stepHex?, counted, valid,
      TextScan.addPlain?, TextScan.add]

theorem finish?_quoted {body chars : List Char} (holds : Piecewise Stands body chars)
    (before : List Token) (read rest : List Char) :
    finish? (inText before read .plain) (body ++ rest) =
      finish? (inText before (chars.reverse ++ read) .plain) rest := by
  induction holds generalizing read with
  | nil => rfl
  | cons stands _ ih =>
    rw [List.append_assoc, stands.finish?_eq, ih]
    simp

/-! What a token begins with. -/

theorem begin?_mark {c : Char} (mark : isMark c = true) (before : List Token) (rest : List Char) :
    begin? before c rest = some ⟨.mark c :: before, .between⟩ := by
  simp only [isMark, List.contains_iff_mem, List.mem_cons, List.not_mem_nil, or_false] at mark
  rcases mark with rfl | rfl | rfl | rfl | rfl | rfl | rfl | rfl | rfl <;> rfl

/-- Characters of names and numbers are none that mean something else between tokens. -/
theorem begin?_numberChar {c : Char} (plain : Number.isNumberChar c = true) (before : List Token)
    (rest : List Char) : begin? before c rest =
      if Number.isNumberStart c then some ⟨before, .number [c]⟩
      else if Identifier.isStart c then some ⟨before, .name [c]⟩
      else none := by
  have blank : isBlank c = false := by
    rw [Bool.eq_false_iff]
    intro blank
    simp only [isBlank, List.contains_iff_mem, List.mem_cons, List.not_mem_nil, or_false] at blank
    rcases blank with rfl | rfl | rfl | rfl | rfl | rfl | rfl | rfl | rfl | rfl | rfl <;>
      cases plain
  have mark : isMark c = false := by
    rw [Bool.eq_false_iff]
    intro mark
    simp only [isMark, List.contains_iff_mem, List.mem_cons, List.not_mem_nil, or_false] at mark
    rcases mark with rfl | rfl | rfl | rfl | rfl | rfl | rfl | rfl | rfl <;> cases plain
  have other : c ≠ '(' ∧ c ≠ '"' ∧ c ≠ '\'' ∧ c ≠ '/' := by
    refine ⟨?_, ?_, ?_, ?_⟩ <;> rintro rfl <;> cases plain
  simp [begin?, blank, mark, other]

theorem begin?_number {c : Char} (start : Number.isNumberStart c = true) (before : List Token)
    (rest : List Char) : begin? before c rest = some ⟨before, .number [c]⟩ := by
  have plain : Number.isNumberChar c = true := by
    simp only [Number.isNumberStart, Number.isNumberChar, Char.isAlphanum] at start ⊢
    grind
  simp [begin?_numberChar plain, start]

theorem toNat_of_isAlpha {c : Char} (letter : c.isAlpha = true) :
    (65 ≤ c.toNat ∧ c.toNat ≤ 90) ∨ (97 ≤ c.toNat ∧ c.toNat ≤ 122) := by
  rcases (Bool.or_eq_true _ _).mp letter with upper | lower
  · obtain ⟨low, high⟩ := of_decide_eq_true upper
    exact .inl ⟨UInt32.le_iff_toNat_le.mp low, UInt32.le_iff_toNat_le.mp high⟩
  · obtain ⟨low, high⟩ := (Bool.and_eq_true _ _).mp lower
    exact .inr ⟨UInt32.le_iff_toNat_le.mp (of_decide_eq_true low),
      UInt32.le_iff_toNat_le.mp (of_decide_eq_true high)⟩

theorem begin?_name {c : Char} (letter : c.isAlpha = true) (before : List Token)
    (rest : List Char) : begin? before c rest = some ⟨before, .name [c]⟩ := by
  have range := toNat_of_isAlpha letter
  have plain : Number.isNumberChar c = true := by
    simp [Number.isNumberChar, Char.isAlphanum, letter]
  have start : Number.isNumberStart c = false := by
    rw [Bool.eq_false_iff]
    intro start
    simp only [Number.isNumberStart, Char.isDigit, Bool.or_eq_true, Bool.and_eq_true,
      decide_eq_true_eq, ge_iff_le, UInt32.le_iff_toNat_le] at start
    rcases start with ((⟨_, high⟩ | rfl) | rfl) | rfl
    · have small : c.toNat ≤ 57 := high
      omega
    all_goals cases letter
  have ascii : c.toNat < 0x80 := by omega
  simp [begin?_numberChar plain, start, Identifier.isStart, ascii, letter]

/-- The scanner finds the tokens that a text spells. -/
theorem Spells.finish?_eq {chars : List Char} {tokens : List Token} (spells : Spells chars tokens)
    (before : List Token) :
    finish? ⟨before, .between⟩ chars = some (tokens.reverse ++ before) := by
  induction spells generalizing before with
  | nil => rfl
  | blank blank _ ih => simp [step?, begin?, blank, ih]
  | mark mark _ ih => simp [step?, begin?_mark mark, ih]
  | @opening rest _ apart _ ih =>
    have opens : begin? before '(' rest = some ⟨.opening rest :: before, .opened⟩ := rfl
    simp [step?, opens, finish?_opened apart, ih]
  | @text body chars rest tokens holds _ ih =>
    have opens : step? ⟨before, .between⟩ '"' (body ++ '"' :: rest) =
        some (inText before [] .plain) := rfl
    have closes : step? (inText before (chars.reverse ++ []) .plain) '"' rest =
        some ⟨.text (String.ofList chars) :: before, .between⟩ := by
      simp [step?, inText, TextScan.closes, TextScan.token?, Quotes.closing, Quotes.isSingle]
    rw [List.cons_append, finish?_cons, opens, Option.bind_some, finish?_quoted holds,
      finish?_cons, closes, Option.bind_some, ih]
    simp
  | @name first more rest tokens letter each delimited _ ih =>
    have reads : finish? ⟨before, .between⟩ (first :: more ++ rest) =
        finish? ⟨before, .name (more.reverse ++ [first])⟩ rest := by
      simp [step?, begin?_name letter, finish?_nameChars each]
    have closes : close? ⟨before, .name (more.reverse ++ [first])⟩ =
        some (.name (String.ofList (first :: more)) false :: before) := by
      simp [close?]
    rw [reads, finish?_delimited (.inl ⟨_, rfl⟩) closes delimited, ih]
    simp
  | @number first more rest tokens start each number delimited _ ih =>
    have reads : finish? ⟨before, .between⟩ (first :: more ++ rest) =
        finish? ⟨before, .number (more.reverse ++ [first])⟩ rest := by
      simp [step?, begin?_number start, finish?_numberChars each]
    have closes : close? ⟨before, .number (more.reverse ++ [first])⟩ =
        some (.number (String.ofList (first :: more)) :: before) := by
      simp [close?, number]
    rw [reads, finish?_delimited (.inr ⟨_, rfl⟩) closes delimited, ih]
    simp

theorem scan?_of_spells {text : String} {tokens : List Token}
    (spells : Spells text.toList tokens) : scan? text = some tokens := by
  have read : (scanFrom? {} text.toList).bind close? = some (tokens.reverse ++ []) :=
    spells.finish?_eq []
  obtain ⟨s, scanned, closed⟩ := Option.bind_eq_some_iff.mp read
  simp [scan?, scanned, closed]

end TokenGame.Ron.Token
