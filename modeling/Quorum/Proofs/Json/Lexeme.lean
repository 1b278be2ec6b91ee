import Quorum.Json.Token
import Quorum.Proofs.Data
import Quorum.Proofs.Numeral.Spelling

/-!
# The words of JSON

Which characters write which token (`Lexeme`), said without a reader: strings with their escapes
(`SpellsCodes`), numbers (`SpellsNumber`), constants and punctuation. The reader takes each of them
for what it writes, whatever stands behind it, as long as a number ends there
(`readKind_of_lexeme`).
-/

namespace Quorum.Json

open Quorum.Numeral (IsDigit smallDigits capitalDigits signed)

/-! ## Strings -/

/-- The code point is the first half of a pair. -/
def IsHigh (n : Nat) : Prop :=
  0xD800 ≤ n ∧ n < 0xDC00

/-- The code point is the second half of a pair. -/
def IsLow (n : Nat) : Prop :=
  0xDC00 ≤ n ∧ n < 0xE000

/-- The code point that the halves of a pair stand for. -/
def pairCode (n m : Nat) : Nat :=
  0x10000 + (n - 0xD800) * 0x400 + (m - 0xDC00)

/-- Behind a backslash the letter stands for the character. -/
inductive Escape : Char → Char → Prop
  | quote : Escape '"' '"'
  | backslash : Escape '\\' '\\'
  | slash : Escape '/' '/'
  | backspace : Escape 'b' '\x08'
  | formFeed : Escape 'f' '\x0c'
  | lineFeed : Escape 'n' '\n'
  | carriageReturn : Escape 'r' '\r'
  | tab : Escape 't' '\t'

/-- The characters between two quotes write the code points. Each stands for itself or is escaped,
by a letter, by four hexadecimal digits, or by two such escapes as a pair; a first half in front of
a second one is never anything else. -/
inductive SpellsCodes : List Char → List Nat → Prop
  | nil : SpellsCodes [] []
  | plain {c : Char} {s : List Char} {codes : List Nat} (hc : 0x20 ≤ c.toNat) (hq : c ≠ '"')
    (hb : c ≠ '\\') (h : SpellsCodes s codes) : SpellsCodes (c :: s) (c.toNat :: codes)
  | letter {l c : Char} {s : List Char} {codes : List Nat} (hl : Escape l c)
    (h : SpellsCodes s codes) : SpellsCodes ('\\' :: l :: s) (c.toNat :: codes)
  | unit {a b c d : Char} {n : Nat} {s : List Char} {codes : List Nat}
    (hn : Numeral.Writes IsDigit 16 [a, b, c, d] n) (h : SpellsCodes s codes)
    (hp : IsHigh n → ∀ m ∈ codes.head?, ¬ IsLow m) :
    SpellsCodes ('\\' :: 'u' :: a :: b :: c :: d :: s) (n :: codes)
  | pair {a b c d a' b' c' d' : Char} {n m : Nat} {s : List Char} {codes : List Nat}
    (hn : Numeral.Writes IsDigit 16 [a, b, c, d] n) (hh : IsHigh n)
    (hm : Numeral.Writes IsDigit 16 [a', b', c', d'] m) (hl : IsLow m) (h : SpellsCodes s codes) :
    SpellsCodes ('\\' :: 'u' :: a :: b :: c :: d :: '\\' :: 'u' :: a' :: b' :: c' :: d' :: s)
      (pairCode n m :: codes)

/-! ## Numbers -/

/-- A minus sign, or nothing. -/
def minus : Bool → List Char
  | true => ['-']
  | false => []

/-- No zero stands in front of other digits. -/
def NoLeadingZero (digits : List Char) : Prop :=
  digits.head? = some '0' → digits = ['0']

instance (digits : List Char) : Decidable (NoLeadingZero digits) :=
  inferInstanceAs (Decidable (_ → _))

/-- A point and digits, or nothing. -/
inductive Fraction : List Char → List Char → Prop
  | none : Fraction [] []
  | digits {digits : List Char} (hn : digits ≠ []) (hd : ∀ c ∈ digits, c.isDigit = true) :
    Fraction ('.' :: digits) digits

/-- A letter and an integer, which may have a sign of either kind, or nothing. -/
inductive Exponent : List Char → Int → Prop
  | none : Exponent [] 0
  | letter {l : Char} {s : List Char} {e : Int} (hl : l = 'e' ∨ l = 'E')
    (h : Numeral.Spells 10 s e) : Exponent (l :: s) e

/-- The characters write the number, an integer if it has neither a fraction nor an exponent. -/
inductive SpellsNumber : List Char → Scalar → Prop
  | int {negative : Bool} {digits : List Char} {n : Nat}
    (h : Numeral.Writes IsDigit 10 digits n) (hz : NoLeadingZero digits) :
    SpellsNumber (minus negative ++ digits) (.int (signed negative n))
  | float {negative : Bool} {digits fraction exponent decimals : List Char} {n w : Nat} {e : Int}
    (hw : Numeral.Writes IsDigit 10 digits w) (hz : NoLeadingZero digits)
    (hf : Fraction fraction decimals) (he : Exponent exponent e)
    (hn : fraction ≠ [] ∨ exponent ≠ [])
    (h : Numeral.Writes IsDigit 10 (digits ++ decimals) n) :
    SpellsNumber (minus negative ++ (digits ++ (fraction ++ exponent)))
      (.float (.ofDecimal negative n (e - decimals.length)))

/-! ## Tokens -/

/-- The characters write the token. -/
inductive Lexeme : List Char → Kind → Prop
  | openMapping : Lexeme ['\x7b'] .openMapping
  | closeMapping : Lexeme ['\x7d'] .closeMapping
  | openList : Lexeme ['['] .openList
  | closeList : Lexeme [']'] .closeList
  | colon : Lexeme [':'] .colon
  | comma : Lexeme [','] .comma
  | text {s : List Char} {codes : List Nat} (h : SpellsCodes s codes) :
    Lexeme ('"' :: s ++ ['"']) (.text (.ofCodes codes))
  | constant {word : String} {v : Scalar} (h : (word, v) ∈ constants) :
    Lexeme word.toList (.scalar v)
  | number {s : List Char} {v : Scalar} (h : SpellsNumber s v) : Lexeme s (.scalar v)

/-- Whether the character could belong to a number that is written in front of it. -/
def continuesNumber (c : Char) : Bool :=
  c.isDigit || c == '.' || c == 'e' || c == 'E'

/-- The token ends in front of the text: a number goes no further. -/
def Kind.EndsBefore : Kind → List Char → Prop
  | .scalar _, after => after.head?.any continuesNumber = false
  | _, _ => True

/-- Whether the character needs no escape. -/
def isPlain (c : Char) : Bool :=
  0x20 ≤ c.toNat && c != '"' && c != '\\'

theorem spellsCodes_of_plain {s : List Char} (h : s.all isPlain = true) :
    SpellsCodes s (s.map Char.toNat) := by
  induction s with
  | nil => exact .nil
  | cons c r ih =>
    simp only [List.all_cons, isPlain, Bool.and_eq_true, decide_eq_true_eq, bne_iff_ne] at h
    exact .plain h.1.1.1 h.1.1.2 h.1.2 (ih h.2)

/-- A text of characters that need no escape, between quotes. -/
theorem lexeme_of_plain (s : List Char) (h : s.all isPlain = true) :
    Lexeme ('"' :: s ++ ['"']) (.text (.text s)) := by
  have ht := Lexeme.text (spellsCodes_of_plain h)
  rwa [Scalar.ofCodes_map_toNat] at ht

/-- Decimal digits, without a zero in front. -/
theorem lexeme_of_digits (digits : List Char) (hn : digits ≠ [])
    (hd : digits.all (Numeral.isDigitOf (10 : Nat)) = true) (hz : NoLeadingZero digits) :
    Lexeme digits (.scalar (.int (Numeral.magnitude 10 digits))) :=
  .number (@SpellsNumber.int false _ _ (Numeral.writes_iff.2 ⟨⟨hn, List.all_eq_true.1 hd⟩, rfl⟩) hz)

/-! ## Reading strings -/

theorem hexValue?_of_isDigit {c : Char} {d : Nat} (h : IsDigit c d) (hd : d < 16) :
    hexValue? c = some d := by
  have hs : ∀ d < 16, smallDigits[d]?.bind hexValue? = some d := by decide
  have hc : ∀ d < 16, capitalDigits[d]?.bind hexValue? = some d := by decide
  rcases h with h | h
  · rw [← hs d hd, h, Option.bind_some]
  · rw [← hc d hd, h, Option.bind_some]

theorem hexUnit?_of_writes {a b c d : Char} {n : Nat}
    (h : Numeral.Writes IsDigit 16 [a, b, c, d] n) : hexUnit? a b c d = some n := by
  obtain ⟨ds, -, hb, hf, rfl⟩ := h
  obtain _ | ⟨hw, _ | ⟨hx, _ | ⟨hy, _ | ⟨hz, _ | _⟩⟩⟩⟩ := hf
  simp only [List.forall_mem_cons] at hb
  obtain ⟨hbw, hbx, hby, hbz, -⟩ := hb
  simp only [hexUnit?, hexValue?_of_isDigit hw hbw, hexValue?_of_isDigit hx hbx,
    hexValue?_of_isDigit hy hby, hexValue?_of_isDigit hz hbz, Option.bind_eq_bind,
    Option.bind_some, Option.pure_def, Nat.ofDigits_eq_foldr, List.reverse_cons, List.reverse_nil,
    List.nil_append, List.cons_append, List.foldr_cons, List.foldr_nil, Nat.cast_id]
  congr 1
  ring

theorem Escape.escaped? {l c : Char} (h : Escape l c) : Json.escaped? l = some c := by
  cases h <;> rfl

theorem Escape.ne_u {l c : Char} (h : Escape l c) : l ≠ 'u' := by
  cases h <;> decide

theorem joinPairs_cons {n : Nat} {codes : List Nat}
    (h : IsHigh n → ∀ m ∈ codes.head?, ¬ IsLow m) :
    joinPairs (n :: codes) = n :: joinPairs codes := by
  cases codes with
  | nil => rfl
  | cons m r =>
    rw [joinPairs, if_neg]
    simp only [Bool.and_eq_true, decide_eq_true_eq]
    rintro ⟨⟨⟨h₁, h₂⟩, h₃⟩, h₄⟩
    exact h ⟨h₁, h₂⟩ m (by simp) ⟨h₃, h₄⟩

theorem joinPairs_pair {n m : Nat} (codes : List Nat) (hn : IsHigh n) (hm : IsLow m) :
    joinPairs (n :: m :: codes) = pairCode n m :: joinPairs codes := by
  have h : (0xD800 ≤ n && n < 0xDC00 && 0xDC00 ≤ m && m < 0xE000) = true := by
    simp only [Bool.and_eq_true, decide_eq_true_eq]
    exact ⟨⟨hn, hm.1⟩, hm.2⟩
  exact if_pos h

/-- A second half at the front is not taken for anything else. -/
theorem head?_joinPairs_of_isLow {n : Nat} {codes : List Nat} (h : n ∈ codes.head?)
    (hn : IsLow n) : n ∈ (joinPairs codes).head? := by
  cases codes with
  | nil => cases h
  | cons m r =>
    obtain rfl : m = n := by simpa using h
    rw [joinPairs_cons fun hh => absurd hn.1 (not_le.2 hh.2)]
    exact h

theorem not_isHigh_toNat (c : Char) : ¬ IsHigh c.toNat := by
  rintro ⟨h₁, h₂⟩
  rcases c.valid with h | h
  · exact absurd h₁ (not_le.2 h)
  · exact absurd h₂ (not_lt.2 (le_of_lt (lt_trans (by decide) h.1)))

theorem readCodes_plain {opening s : List Char} {c : Char} (hc : 0x20 ≤ c.toNat) (hq : c ≠ '"')
    (hb : c ≠ '\\') :
    readCodes opening (c :: s) = consCode c.toNat (readCodes opening s) := by
  rw [readCodes]
  · rw [if_neg (not_lt.2 hc)]
  · exact hq
  · exact fun hc => absurd hc hb
  · exact fun _ hc => absurd hc hb
  · exact fun _ _ hc => absurd hc hb

theorem readCodes_letter {opening s : List Char} {l c : Char} (h : Escape l c) :
    readCodes opening ('\\' :: l :: s) = consCode c.toNat (readCodes opening s) := by
  rw [readCodes]
  · rw [h.escaped?]
  · exact h.ne_u

theorem readCodes_unit {opening s : List Char} {a b c d : Char} {n : Nat}
    (h : Numeral.Writes IsDigit 16 [a, b, c, d] n) (hs : s ≠ []) :
    readCodes opening ('\\' :: 'u' :: a :: b :: c :: d :: s) =
      consCode n (readCodes opening s) := by
  cases s with
  | nil => exact absurd rfl hs
  | cons next r =>
    rw [readCodes]
    simp only [hexUnit?_of_writes h]

/-- A string is read as far as its closing quote. -/
theorem readCodes_of_spells {s : List Char} {codes : List Nat} (h : SpellsCodes s codes)
    (opening rest : List Char) :
    ∃ units, readCodes opening (s ++ '"' :: rest) = .ok (units, rest) ∧
      joinPairs units = codes := by
  have hq : ∀ s : List Char, s ++ '"' :: rest ≠ [] := by simp
  induction h with
  | nil => exact ⟨[], rfl, rfl⟩
  | @plain c s codes hc hq hb h ih =>
    obtain ⟨units, hr, rfl⟩ := ih
    refine ⟨c.toNat :: units, ?_, joinPairs_cons fun hh => absurd hh (not_isHigh_toNat c)⟩
    rw [List.cons_append, readCodes_plain hc hq hb, hr, consCode]
  | @letter l c s codes hl h ih =>
    obtain ⟨units, hr, rfl⟩ := ih
    refine ⟨c.toNat :: units, ?_, joinPairs_cons fun hh => absurd hh (not_isHigh_toNat c)⟩
    rw [List.cons_append, List.cons_append, readCodes_letter hl, hr, consCode]
  | @unit a b c d n s codes hn h hp ih =>
    obtain ⟨units, hr, rfl⟩ := ih
    refine ⟨n :: units, (readCodes_unit hn (hq s)).trans ?_, joinPairs_cons fun hh m hm hl => ?_⟩
    · rw [hr, consCode]
    · exact hp hh m (head?_joinPairs_of_isLow hm hl) hl
  | @pair a b c d a' b' c' d' n m s codes hn hh hm hl h ih =>
    obtain ⟨units, hr, rfl⟩ := ih
    refine ⟨n :: m :: units, (readCodes_unit hn (List.cons_ne_nil _ _)).trans ?_,
      joinPairs_pair units hh hl⟩
    refine (congrArg (consCode n) (readCodes_unit hm (hq s))).trans ?_
    rw [hr, consCode, consCode]

/-! ## Reading numbers -/

theorem isDigit_of_writes {digits : List Char} {n : Nat}
    (h : Numeral.Writes IsDigit 10 digits n) : ∀ c ∈ digits, c.isDigit = true := by
  have hs : ∀ d < 10, smallDigits[d]?.map Char.isDigit = some true := by decide
  have hc : ∀ d < 10, capitalDigits[d]?.map Char.isDigit = some true := by decide
  intro c hm
  obtain ⟨d, hd, h | h⟩ := h.exists_digit c hm
  · simpa [h] using hs d hd
  · simpa [h] using hc d hd

theorem spanDigits_append {digits after : List Char} (hd : ∀ c ∈ digits, c.isDigit = true)
    (ha : ∀ c ∈ after.head?, c.isDigit = false) :
    spanDigits (digits ++ after) = (digits, after) := by
  rw [spanDigits, List.takeWhile_append_of_pos hd, List.dropWhile_append_of_pos hd]
  cases after with
  | nil => simp
  | cons c r =>
    have hc : c.isDigit = false := ha c rfl
    simp [hc]

theorem readWhole?_append {digits after : List Char} {n : Nat}
    (h : Numeral.Writes IsDigit 10 digits n) (hz : NoLeadingZero digits)
    (ha : ∀ c ∈ after.head?, c.isDigit = false) :
    readWhole? (digits ++ after) = some (digits, after) := by
  cases digits with
  | nil => exact absurd rfl h.ne_nil
  | cons c r =>
    by_cases hc : c = '0'
    · subst hc
      rw [hz rfl]
      rfl
    · rw [List.cons_append, readWhole?, if_pos (isDigit_of_writes h c List.mem_cons_self),
        ← List.cons_append, spanDigits_append (isDigit_of_writes h) ha]
      exact hc

theorem readFraction_append {fraction decimals after : List Char} (h : Fraction fraction decimals)
    (ha : ∀ c ∈ after.head?, c.isDigit = false ∧ c ≠ '.') :
    readFraction (fraction ++ after) = (decimals, after) := by
  cases h with
  | none =>
    rw [List.nil_append, readFraction]
    rintro r rfl
    exact (ha '.' rfl).2 rfl
  | digits hn hd =>
    rw [List.cons_append, readFraction, spanDigits_append hd fun c hc => (ha c hc).1]
    cases decimals with
    | nil => exact absurd rfl hn
    | cons c r => rfl

/-- The sign of an integer is told from its digits, whatever stands behind them. -/
theorem exists_splitSign_append {s : List Char} {e : Int} (h : Numeral.Spells 10 s e)
    (after : List Char) : ∃ negative digits n, Numeral.Writes IsDigit 10 digits n ∧
      e = signed negative n ∧ Numeral.splitSign (s ++ after) = (negative, digits ++ after) := by
  cases h with
  | @plain _ n h =>
    refine ⟨false, s, n, h, rfl, ?_⟩
    have hd := isDigit_of_writes h
    obtain ⟨c, r, rfl⟩ := List.exists_cons_of_ne_nil h.ne_nil
    have hc := hd c List.mem_cons_self
    refine Numeral.splitSign_cons ?_ ?_ <;> (rintro rfl; cases hc)
  | @plus digits n h => exact ⟨false, digits, n, h, rfl, rfl⟩
  | @minus digits n h => exact ⟨true, digits, n, h, rfl, rfl⟩

theorem readExponent?_cons {l : Char} {s t digits rest : List Char} {negative : Bool}
    (hl : l = 'e' ∨ l = 'E') (hs : Numeral.splitSign s = (negative, t))
    (hd : spanDigits t = (digits, rest)) (hn : digits ≠ []) :
    readExponent? (l :: s) = some (signed negative (Numeral.magnitude 10 digits), rest) := by
  cases digits with
  | nil => exact absurd rfl hn
  | cons c r => rcases hl with rfl | rfl <;> simp only [readExponent?, Option.bind_some, hs, hd]

theorem readExponent?_append {exponent after : List Char} {e : Int} (h : Exponent exponent e)
    (hn : exponent ≠ []) (ha : ∀ c ∈ after.head?, c.isDigit = false) :
    readExponent? (exponent ++ after) = some (e, after) := by
  cases h with
  | none => exact absurd rfl hn
  | letter hl h =>
    obtain ⟨negative, digits, n, hw, rfl, hs⟩ := exists_splitSign_append h after
    have hd := spanDigits_append (isDigit_of_writes hw) ha
    rw [List.cons_append, readExponent?_cons hl hs hd hw.ne_nil, Numeral.magnitude_eq hw]

theorem not_continues {after : List Char} (h : after.head?.any continuesNumber = false) :
    ∀ c ∈ after.head?, c.isDigit = false ∧ c ≠ '.' ∧ c ≠ 'e' ∧ c ≠ 'E' := by
  intro c hc
  simpa [Option.mem_def.1 hc, continuesNumber, and_assoc] using h

theorem readExponent?_eq_none {s : List Char} (h : ∀ c ∈ s.head?, c ≠ 'e' ∧ c ≠ 'E') :
    readExponent? s = none := by
  cases s with
  | nil => rfl
  | cons c r =>
    obtain ⟨he, hE⟩ := h c rfl
    rw [readExponent?]
    · rfl
    · exact fun _ hc => he (List.cons.inj hc).1
    · exact fun _ hc => hE (List.cons.inj hc).1

theorem Fraction.head_append {fraction decimals after : List Char} {p : Char → Prop}
    (h : Fraction fraction decimals) (hp : p '.') (ha : ∀ c ∈ after.head?, p c) :
    ∀ c ∈ (fraction ++ after).head?, p c := by
  cases h with
  | none => exact ha
  | digits hn hd =>
    rintro c ⟨⟩
    exact hp

theorem Exponent.head_append {exponent after : List Char} {e : Int} {p : Char → Prop}
    (h : Exponent exponent e) (hp : p 'e' ∧ p 'E') (ha : ∀ c ∈ after.head?, p c) :
    ∀ c ∈ (exponent ++ after).head?, p c := by
  cases h with
  | none => exact ha
  | letter hl h =>
    rintro c ⟨⟩
    rcases hl with rfl | rfl
    · exact hp.1
    · exact hp.2

theorem splitMinus_append {digits after : List Char} {n : Nat} (negative : Bool)
    (h : Numeral.Writes IsDigit 10 digits n) :
    (match minus negative ++ (digits ++ after) with
      | '-' :: r => (true, r)
      | s => (false, s)) = (negative, digits ++ after) := by
  obtain ⟨c, r, rfl⟩ := List.exists_cons_of_ne_nil h.ne_nil
  cases negative with
  | true => rfl
  | false =>
    split
    · rename_i heq
      have hc := isDigit_of_writes h c List.mem_cons_self
      rw [(List.cons.inj heq).1] at hc
      cases hc
    · rfl

/-- A number is read part by part. -/
theorem readNumber?_of_parts {digits fraction exponent decimals after : List Char} {n w : Nat}
    {e : Int} (negative : Bool) (hw : Numeral.Writes IsDigit 10 digits w)
    (hz : NoLeadingZero digits) (hf : Fraction fraction decimals) (he : Exponent exponent e)
    (h : Numeral.Writes IsDigit 10 (digits ++ decimals) n)
    (ha : ∀ c ∈ after.head?, c.isDigit = false ∧ c ≠ '.' ∧ c ≠ 'e' ∧ c ≠ 'E') :
    readNumber? (minus negative ++ (digits ++ (fraction ++ (exponent ++ after)))) =
      some (if fraction = [] ∧ exponent = [] then .int (signed negative n)
        else .float (.ofDecimal negative n (e - decimals.length)), after) := by
  have hexp : ∀ c ∈ (exponent ++ after).head?, c.isDigit = false ∧ c ≠ '.' :=
    he.head_append (by decide) fun c hc => ⟨(ha c hc).1, (ha c hc).2.1⟩
  have hfrac : ∀ c ∈ (fraction ++ (exponent ++ after)).head?, c.isDigit = false :=
    hf.head_append (by decide) fun c hc => (hexp c hc).1
  unfold readNumber?
  split
  rename_i heq
  obtain ⟨rfl, rfl⟩ := Prod.mk.inj ((splitMinus_append negative hw).symm.trans heq)
  simp only [Option.bind_eq_bind, readWhole?_append hw hz hfrac, Option.bind_some,
    readFraction_append hf hexp, Numeral.magnitude_eq h]
  by_cases hx : exponent = []
  · subst hx
    cases he
    rw [List.nil_append, readExponent?_eq_none fun c hc => (ha c hc).2.2]
    cases hf with
    | none => rfl
    | digits hn hd =>
      cases decimals with
      | nil => exact absurd rfl hn
      | cons c r => simp
  · rw [readExponent?_append he hx fun c hc => (ha c hc).1, if_neg fun hn => hx hn.2]

theorem readNumber?_of_spells {s after : List Char} {v : Scalar} (h : SpellsNumber s v)
    (ha : after.head?.any continuesNumber = false) :
    readNumber? (s ++ after) = some (v, after) := by
  cases h with
  | @int negative digits n h hz =>
    have hp := readNumber?_of_parts negative h hz .none .none (by simpa using h) (not_continues ha)
    simpa using hp
  | @float negative digits fraction exponent decimals n w e hw hz hf he hn h =>
    have hp := readNumber?_of_parts negative hw hz hf he h (not_continues ha)
    rw [if_neg fun ⟨hx, hy⟩ => hn.elim (absurd hx) (absurd hy)] at hp
    simpa using hp

/-! ## Reading tokens -/

/-- A number starts with a digit, or with a minus sign and a digit. -/
theorem SpellsNumber.exists_digit {s : List Char} {v : Scalar} (h : SpellsNumber s v) :
    ∃ negative d r, s = minus negative ++ d :: r ∧ d.isDigit = true := by
  have hd : ∀ {digits n}, Numeral.Writes IsDigit 10 digits n →
      ∃ d r, digits = d :: r ∧ d.isDigit = true := by
    intro digits n h
    obtain ⟨d, r, rfl⟩ := List.exists_cons_of_ne_nil h.ne_nil
    exact ⟨d, r, rfl, isDigit_of_writes h d List.mem_cons_self⟩
  cases h with
  | int h hz =>
    obtain ⟨d, r, rfl, hd⟩ := hd h
    exact ⟨_, d, r, rfl, hd⟩
  | float hw hz hf he hn h =>
    obtain ⟨d, r, rfl, hd⟩ := hd hw
    exact ⟨_, d, _, rfl, hd⟩

theorem readConstant?_of_digit (negative : Bool) {d : Char} (r : List Char)
    (hd : d.isDigit = true) : readConstant? (minus negative ++ d :: r) = none := by
  have hne : ∀ c : Char, c.isDigit = false → (c == d) = false := by
    intro c hc
    rw [beq_eq_false_iff_ne]
    rintro rfl
    rw [hc] at hd
    cases hd
  cases negative <;>
    simp [readConstant?, constants, minus, dropWord?, hne]

theorem readConstant?_of_mem {word : String} {v : Scalar} (h : (word, v) ∈ constants)
    (after : List Char) : readConstant? (word.toList ++ after) = some (v, after) := by
  simp only [constants, List.mem_cons, List.not_mem_nil, or_false, Prod.mk.injEq] at h
  rcases h with ⟨rfl, rfl⟩ | ⟨rfl, rfl⟩ | ⟨rfl, rfl⟩ | ⟨rfl, rfl⟩ | ⟨rfl, rfl⟩ | ⟨rfl, rfl⟩ <;> rfl

/-- The characters that start punctuation and strings. -/
def marks : List Char :=
  ['\x7b', '\x7d', '[', ']', ':', ',', '"']

theorem readKind_of_notMem {c : Char} {r : List Char} (hc : c ∉ marks) :
    readKind (c :: r) =
      match (readConstant? (c :: r)).or (readNumber? (c :: r)) with
      | some (value, rest) => (.scalar value, some rest)
      | none => (.unknown, none) := by
  have hne : ∀ {m : Char} {t : List Char}, c :: r = m :: t → m ∉ marks :=
    fun he => (List.cons.inj he).1 ▸ hc
  unfold readKind
  split
  case h_8 => rfl
  all_goals
    rename_i he
    exact absurd (by decide) (hne he)

/-- A token is read as what it is, and the text behind it is left. -/
theorem readKind_of_lexeme {s after : List Char} {kind : Kind} (h : Lexeme s kind)
    (ha : kind.EndsBefore after) : readKind (s ++ after) = (kind, some after) := by
  cases h with
  | openMapping | closeMapping | openList | closeList | colon | comma => rfl
  | @text s codes h =>
    obtain ⟨units, hr, rfl⟩ := readCodes_of_spells h ('"' :: (s ++ '"' :: after)) after
    simp only [List.cons_append, List.append_assoc, List.nil_append]
    rw [readKind, hr]
  | @constant word v h =>
    have hm : ∀ e ∈ constants, e.1.toList ≠ [] ∧ e.1.toList.head? ∉ marks.map some := by
      decide
    obtain ⟨hw, hc⟩ := hm _ h
    obtain ⟨c, r, hw⟩ := List.exists_cons_of_ne_nil hw
    have hc : c ∉ marks := fun hm => hc (by simpa [hw] using hm)
    have hr := readConstant?_of_mem h after
    simp only [hw, List.cons_append] at hr ⊢
    rw [readKind_of_notMem hc, hr]
    rfl
  | number h =>
    obtain ⟨negative, d, r, rfl, hd⟩ := h.exists_digit
    have hc : ∃ c t, minus negative ++ d :: r = c :: t ∧ c ∉ marks := by
      cases negative with
      | true => exact ⟨'-', _, rfl, by decide⟩
      | false =>
        refine ⟨d, r, rfl, fun hm => ?_⟩
        have hall : marks.all (fun c => !c.isDigit) = true := by decide
        have hn := List.all_eq_true.1 hall d hm
        rw [hd] at hn
        cases hn
    have hn := readNumber?_of_spells h ha
    have hr := readConstant?_of_digit negative (r ++ after) hd
    obtain ⟨c, t, ht, hc⟩ := hc
    rw [ht, List.cons_append] at hn ⊢
    rw [← List.cons_append, ← List.append_assoc, ht, List.cons_append] at hr
    rw [readKind_of_notMem hc, hr, hn]
    rfl

theorem Lexeme.ne_nil {s : List Char} {kind : Kind} (h : Lexeme s kind) : s ≠ [] := by
  cases h with
  | constant h =>
    have hm : ∀ e ∈ constants, e.1.toList ≠ [] := by decide
    exact hm _ h
  | number h =>
    obtain ⟨negative, d, r, rfl, -⟩ := h.exists_digit
    simp
  | _ => simp

/-- No token starts with white space. -/
theorem Lexeme.head_not_isSpace {s : List Char} {kind : Kind} (h : Lexeme s kind) :
    ∀ c ∈ s.head?, isSpace c = false := by
  cases h with
  | constant h =>
    have hm : ∀ e ∈ constants, e.1.toList.head?.all (fun c => !isSpace c) = true := by
      decide
    intro c hc
    simpa [Option.mem_def.1 hc] using hm _ h
  | number h =>
    obtain ⟨negative, d, r, rfl, hd⟩ := h.exists_digit
    cases negative with
    | true => simp [minus, isSpace]
    | false =>
      rintro c ⟨⟩
      simp only [isSpace, Bool.or_eq_false_iff, beq_eq_false_iff_ne]
      refine ⟨⟨⟨?_, ?_⟩, ?_⟩, ?_⟩ <;> (rintro rfl; cases hd)
  | _ => simp [isSpace]

end Quorum.Json
