import TokenGame.Json.Token
import TokenGame.Proofs.Text.Spelling

/-! How texts spell JSON tokens. Blanks may stand between any two tokens; words and numbers
need something after them that does not continue them. The scanner finds the tokens of
every text that is spelled this way. -/
namespace TokenGame.Json.Token

/-- What a text is made of: characters, and halves of surrogate pairs, which can only be written
as escapes. -/
inductive CodeUnit where
  | char (c : Char)
  | high (code : Nat)
  | low (code : Nat)

namespace CodeUnit

def ofNat (n : Nat) : CodeUnit :=
  if 0xD800 ≤ n ∧ n < 0xDC00 then .high n
  else if 0xDC00 ≤ n ∧ n < 0xE000 then .low n
  else .char (Char.ofNat n)

/-- The characters that code units denote: two halves of a pair are one character, and half of a
pair alone denotes nothing. -/
def denotes? : List CodeUnit → Option (List Char)
  | [] => some []
  | .char c :: rest => (denotes? rest).map (c :: ·)
  | .high h :: .low l :: rest =>
    (denotes? rest).map (Char.ofNat (0x10000 + (h - 0xD800) * 0x400 + (l - 0xDC00)) :: ·)
  | .high _ :: _ => none
  | .low _ :: _ => none

theorem denotes?_chars (chars : List Char) : denotes? (chars.map .char) = some chars := by
  induction chars with
  | nil => rfl
  | cons c chars ih => simp [denotes?, ih]

end CodeUnit

/-- What may be written for a code unit inside quotes. -/
inductive Stands : List Char → CodeUnit → Prop where
  | plain {c : Char} : c ≠ '"' → c ≠ '\\' → 0x20 ≤ c.toNat → Stands [c] (.char c)
  | escape {e c : Char} : TextScan.escaped? e = some c → Stands ['\\', e] (.char c)
  /-- Four hexadecimal digits. -/
  | unit {a b c d : Char} {i j k l : Nat} :
      TextScan.hexValue? a = some i → TextScan.hexValue? b = some j →
      TextScan.hexValue? c = some k → TextScan.hexValue? d = some l →
      Stands ['\\', 'u', a, b, c, d] (.ofNat (((i * 16 + j) * 16 + k) * 16 + l))

/-- What may follow a word or a number. -/
def Delimited (rest : List Char) : Prop :=
  ∀ c ∈ rest.head?, isWordChar c = false ∧ isNumberChar c = false

theorem delimited_nil : Delimited [] := by simp [Delimited]

theorem delimited_cons {c : Char} {rest : List Char} :
    Delimited (c :: rest) ↔ isWordChar c = false ∧ isNumberChar c = false := by
  simp [Delimited]

/-- The characters spell the tokens. -/
inductive Spells : List Char → List Token → Prop where
  | nil : Spells [] []
  | blank {c : Char} {rest : List Char} {tokens : List Token} : isBlank c = true →
      Spells rest tokens → Spells (c :: rest) tokens
  | mark {c : Char} {t : Token} {rest : List Char} {tokens : List Token} :
      punctuation? c = some t → Spells rest tokens → Spells (c :: rest) (t :: tokens)
  | text {body rest : List Char} {units : List CodeUnit} {tokens : List Token} :
      Piecewise Stands body units → Spells rest tokens →
      Spells ('"' :: body ++ '"' :: rest)
        (.text ((CodeUnit.denotes? units).map String.ofList) :: tokens)
  | word {word rest : List Char} {t : Token} {tokens : List Token} : word? word = some t →
      Delimited rest → Spells rest tokens → Spells (word ++ rest) (t :: tokens)
  | number {first : Char} {more rest : List Char} {v : Json} {tokens : List Token} :
      isNumberStart first = true → (∀ c ∈ more, isNumberChar c = true) →
      Number.ofText? (first :: more) = some v → Delimited rest → Spells rest tokens →
      Spells (first :: more ++ rest) (.scalar v :: tokens)

/-- The tokens, the last one first, when a scan goes on over some characters and ends. -/
def finish? (s : Scan) (chars : List Char) : Option (List Token) :=
  (chars.foldlM step? s).bind close?

@[simp] theorem finish?_cons (s : Scan) (c : Char) (rest : List Char) :
    finish? s (c :: rest) = (step? s c).bind (finish? · rest) := by
  simp only [finish?, List.foldlM_cons]
  cases step? s c <;> rfl

/-- Reading a word or number, what comes after it ends it. -/
theorem finish?_delimited {s : Scan} {tokens : List Token} {rest : List Char}
    (reading : (∃ chars, s.mode = .word chars) ∨ ∃ chars, s.mode = .number chars)
    (closed : close? s = some tokens) (delimited : Delimited rest) :
    finish? s rest = finish? ⟨tokens, .between⟩ rest := by
  cases rest with
  | nil => exact closed
  | cons c rest =>
    obtain ⟨noWord, noNumber⟩ := delimited_cons.mp delimited
    have step : step? s c = begin? tokens c := by
      rcases reading with ⟨chars, mode⟩ | ⟨chars, mode⟩
      · simp [step?, mode, noWord, closed]
      · simp [step?, mode, noNumber, closed]
    rw [finish?_cons, finish?_cons, step]
    rfl

theorem finish?_numberChars {before : List Token} {more read : List Char}
    (each : ∀ c ∈ more, isNumberChar c = true) (rest : List Char) :
    finish? ⟨before, .number read⟩ (more ++ rest) =
      finish? ⟨before, .number (more.reverse ++ read)⟩ rest := by
  induction more generalizing read with
  | nil => rfl
  | cons c more ih =>
    obtain ⟨first, each⟩ := List.forall_mem_cons.mp each
    simp [step?, first, ih each]

/-! ### Texts -/

namespace TextScan

def push (t : TextScan) : CodeUnit → TextScan
  | .char c => t.add c
  | .high code =>
    { t with broken := t.broken || t.high.isSome, high := some code, phase := .plain }
  | .low code =>
    match t.high with
    | some high =>
      let c := Char.ofNat (0x10000 + (high - 0xD800) * 0x400 + (code - 0xDC00))
      { t with chars := c :: t.chars, high := none, phase := .plain }
    | none => { t with broken := true, phase := .plain }

theorem addUnit_eq (t : TextScan) (unit : Nat) : t.addUnit unit = t.push (.ofNat unit) := by
  unfold addUnit CodeUnit.ofNat
  split
  · rfl
  · split <;> rfl

theorem phase_push (t : TextScan) (unit : CodeUnit) : (t.push unit).phase = .plain := by
  cases unit with
  | char | high => rfl
  | low =>
    obtain ⟨chars, broken, high, phase⟩ := t
    cases high <;> rfl

theorem phase_foldl_push (units : List CodeUnit) {t : TextScan} (plain : t.phase = .plain) :
    (units.foldl push t).phase = .plain := by
  induction units generalizing t with
  | nil => exact plain
  | cons unit units ih => exact ih (t.phase_push unit)

/-- What is read so far decides whether the whole text denotes something: what is broken stays
broken, and a leading half waits for the other. -/
theorem value_foldl_push (units : List CodeUnit) (t : TextScan) :
    (units.foldl push t).value = if t.broken then none else
      (CodeUnit.denotes? (t.high.toList.map .high ++ units)).map
        fun chars => String.ofList (t.chars.reverse ++ chars) := by
  induction units generalizing t with
  | nil =>
    obtain ⟨chars, broken, high, phase⟩ := t
    cases high <;> cases broken <;> simp [value, CodeUnit.denotes?]
  | cons unit units ih =>
    obtain ⟨chars, broken, high, phase⟩ := t
    rw [List.foldl_cons, ih]
    cases unit <;> cases high <;> cases broken <;>
      simp [push, add, CodeUnit.denotes?, Function.comp_def]

end TextScan

/-- Inside quotes, what stands for a code unit adds it. -/
theorem Stands.finish?_eq {piece : List Char} {unit : CodeUnit} (stands : Stands piece unit)
    {t : TextScan} (plain : t.phase = .plain) (before : List Token) (rest : List Char) :
    finish? ⟨before, .text t⟩ (piece ++ rest) = finish? ⟨before, .text (t.push unit)⟩ rest := by
  cases stands with
  | plain quote backslash shown =>
    simp [step?, stepText?, plain, quote, backslash, Nat.not_lt.mpr shown, TextScan.push]
  | escape found =>
    rename_i e c
    have other : e ≠ 'u' := by
      rintro rfl
      cases found
    simp [step?, stepText?, plain, other, found, TextScan.push, TextScan.add]
  | unit a b c d =>
    rename_i i j k l
    rw [← TextScan.addUnit_eq]
    simp [step?, stepText?, plain, a, b, c, d, TextScan.addUnit, TextScan.add]

theorem finish?_quoted {body : List Char} {units : List CodeUnit}
    (holds : Piecewise Stands body units) {t : TextScan} (plain : t.phase = .plain)
    (before : List Token) (rest : List Char) : finish? ⟨before, .text t⟩ (body ++ rest) =
      finish? ⟨before, .text (units.foldl TextScan.push t)⟩ rest := by
  induction holds generalizing t with
  | nil => rfl
  | cons stands _ ih =>
    rw [List.append_assoc, stands.finish?_eq plain, ih (t.phase_push _), List.foldl_cons]

theorem begin?_mark {c : Char} {t : Token} (mark : punctuation? c = some t)
    (before : List Token) : begin? before c = some ⟨t :: before, .between⟩ := by
  unfold punctuation? at mark
  split at mark <;> cases mark <;> rfl

theorem begin?_number {c : Char} (start : isNumberStart c = true) (before : List Token) :
    begin? before c = some ⟨before, .number [c]⟩ := by
  have blank : isBlank c = false := by
    rw [Bool.eq_false_iff]
    intro blank
    simp only [isBlank, Bool.or_eq_true, decide_eq_true_eq] at blank
    rcases blank with ((rfl | rfl) | rfl) | rfl <;> cases start
  have quote : c ≠ '"' := by
    rintro rfl
    cases start
  simp [begin?, blank, quote, start]

/-- The scanner finds the tokens that a text spells. -/
theorem Spells.finish?_eq {chars : List Char} {tokens : List Token} (spells : Spells chars tokens)
    (before : List Token) : finish? ⟨before, .between⟩ chars = some (tokens.reverse ++ before) := by
  induction spells generalizing before with
  | nil => rfl
  | blank blank _ ih => simp [step?, begin?, blank, ih]
  | mark mark _ ih => simp [step?, begin?_mark mark, ih]
  | text holds _ ih =>
    rename_i body rest units tokens _
    have opens : begin? before '"' = some ⟨before, .text {}⟩ := rfl
    have reads := finish?_quoted holds (t := {}) rfl before ('"' :: rest)
    have plain := TextScan.phase_foldl_push units (t := {}) rfl
    have value := TextScan.value_foldl_push units {}
    simp [step?, opens, reads, stepText?, plain, value, ih]
  | word found delimited _ ih =>
    rename_i word rest t tokens _
    have reads : finish? ⟨before, .between⟩ (word ++ rest) =
        finish? ⟨before, .word word.reverse⟩ rest := by
      unfold word? at found
      split at found <;> first | rfl | cases found
    have closes : close? ⟨before, .word word.reverse⟩ = some (t :: before) := by
      simp [close?, found]
    rw [reads, finish?_delimited (.inl ⟨_, rfl⟩) closes delimited, ih]
    simp
  | number start each value delimited _ ih =>
    rename_i first more rest v tokens _
    have opens : begin? before first = some ⟨before, .number [first]⟩ := begin?_number start before
    have closes : close? ⟨before, .number (more.reverse ++ [first])⟩ =
        some (.scalar v :: before) := by
      simp [close?, value]
    have reads : finish? ⟨before, .between⟩ (first :: more ++ rest) =
        finish? ⟨before, .number (more.reverse ++ [first])⟩ rest := by
      simp [step?, opens, finish?_numberChars each]
    rw [reads, finish?_delimited (.inr ⟨_, rfl⟩) closes delimited, ih]
    simp

theorem scan?_of_spells {text : String} {tokens : List Token}
    (spells : Spells text.toList tokens) : scan? text = some tokens := by
  have read : (text.toList.foldlM step? {}).bind close? = some (tokens.reverse ++ []) :=
    spells.finish?_eq []
  obtain ⟨s, scanned, closed⟩ := Option.bind_eq_some_iff.mp read
  simp [scan?, scanned, closed]

end TokenGame.Json.Token
