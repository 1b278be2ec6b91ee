import Quorum.Formula.Reader
import Quorum.Proofs.Fault
import Quorum.Proofs.Numeral.Decimal
import Quorum.Proofs.Text.Pieces

/-!
# The grammar of formulas

Which trimmed texts write a formula (`Spells`), and what is wrong with every other text (`Flaw`),
said without reading them. `spells_or_flaw` says that nothing lies between the two, and
`Spells.read` and `Flaw.read` what is read in either case, so `read_iff` has it both ways round.
Which blanks do not count is said by `Respaced`. Under a limit on digits an integer literal may have
too many of them (`TooLong`), and nothing else changes (`read_by_grammar`).
-/

namespace Quorum

open Quorum.Numeral (IsDecimal SpellsDecimal Writes)
open Quorum.Text (Pads Repads isBlank joinWith mem_trim_iff repads_iff splitAll trim trimEnd)

/-- An operation is called by its name. -/
theorem Operation.ofName?_eq_some_iff {s : List Char} {f : Operation} :
    ofName? s = some f ↔ s = f.name.toList := by
  constructor
  · intro h
    have hf := List.find?_some h
    exact (eq_of_beq hf).symm
  · rintro rfl
    cases f <;> rfl

theorem Operation.name_plain (f : Operation) :
    '(' ∉ f.name.toList ∧ 'x' ∉ f.name.toList ∧ trim f.name.toList = f.name.toList := by
  cases f <;> decide

namespace Formula

/-- The text between the parentheses of a call lists the operands. -/
inductive ListsOperands : List Char → List (List Char) → Prop
  | none {body : List Char} (hb : ∀ c ∈ body, isBlank c = true) : ListsOperands body []
  | some {parts : List (List Char)} (hp : ∀ p ∈ parts, ',' ∉ p)
    (hb : ¬ ∀ c ∈ joinWith ',' parts, isBlank c = true) :
    ListsOperands (joinWith ',' parts) (parts.map trim)

/-- The text, which has no blanks around it, writes the formula. -/
inductive Spells : List Char → Formula → Prop
  | literal {t : List Char} {v : Int} (h : SpellsDecimal t v) : Spells t (.literal v)
  | call {name body : List Char} {f : Operation} {operands : List (List Char)} (hn : '(' ∉ name)
    (hf : trim name = f.name.toList) (ho : '(' ∉ body) (hc : ')' ∉ body)
    (h : ListsOperands body operands) : Spells (name ++ '(' :: (body ++ [')'])) (.call f operands)
  | template {t : List Char} (ho : '(' ∉ t) (hc : ')' ∉ t) (hx : 'x' ∈ t)
    (hl : ∀ v, ¬ SpellsDecimal t v) : Spells t (.template t)

/-- The text, which has no blanks around it, writes no formula, and for this reason first. -/
inductive Flaw : List Char → Malformation → Prop
  | blank : Flaw [] .blank
  | unknownOperation {name after : List Char} (hn : '(' ∉ name)
    (hf : ∀ f : Operation, trim name ≠ f.name.toList) :
    Flaw (name ++ '(' :: after) .unknownOperation
  | notClosed {name after : List Char} {f : Operation} (hn : '(' ∉ name)
    (hf : trim name = f.name.toList) (hc : ∀ body, after ≠ body ++ [')']) :
    Flaw (name ++ '(' :: after) .unbalanced
  | nested {name body : List Char} {f : Operation} (hn : '(' ∉ name)
    (hf : trim name = f.name.toList) (hb : '(' ∈ body ∨ ')' ∈ body) :
    Flaw (name ++ '(' :: (body ++ [')'])) .nested
  | notOpened {t : List Char} (ho : '(' ∉ t) (hc : ')' ∈ t) : Flaw t .unbalanced
  | formless {t : List Char} (ht : t ≠ []) (ho : '(' ∉ t) (hc : ')' ∉ t) (hx : 'x' ∉ t)
    (hl : ∀ v, ¬ SpellsDecimal t v) : Flaw t .formless

/-- The texts differ in the blanks around them, or also in those around the name of what they call,
or also in those around the operands. A call without operands has one piece between its parentheses,
of blanks. -/
inductive Respaced : List Char → List Char → Prop
  | around {s s' : List Char} (h : Repads s s') : Respaced s s'
  | name {name name' after s s' : List Char} (hn : '(' ∉ name) (h : Repads name name')
    (hs : Pads (name ++ '(' :: after) s) (hs' : Pads (name' ++ '(' :: after) s') : Respaced s s'
  | operands {name name' s s' : List Char} {parts parts' : List (List Char)} (hn : '(' ∉ name)
    (hp : ∀ p ∈ parts, ',' ∉ p) (h : Repads name name') (hr : List.Forall₂ Repads parts parts')
    (hs : Pads (name ++ '(' :: joinWith ',' parts ++ [')']) s)
    (hs' : Pads (name' ++ '(' :: joinWith ',' parts' ++ [')']) s') : Respaced s s'

theorem spells_literal_iff {t : List Char} {v : Int} :
    Spells t (.literal v) ↔ SpellsDecimal t v :=
  ⟨fun h => by cases h; assumption, .literal⟩

theorem spells_template_iff {t u : List Char} :
    Spells t (.template u) ↔
      t = u ∧ '(' ∉ t ∧ ')' ∉ t ∧ 'x' ∈ t ∧ ∀ v, ¬ SpellsDecimal t v := by
  constructor
  · intro h
    cases h with
    | template ho hc hx hl => exact ⟨rfl, ho, hc, hx, hl⟩
  · rintro ⟨rfl, ho, hc, hx, hl⟩
    exact .template ho hc hx hl

/-! ## Parts of a call -/

theorem splitFirst?_append {c : Char} {before : List Char} (after : List Char) (h : c ∉ before) :
    splitFirst? c (before ++ c :: after) = some (before, after) := by
  induction before with
  | nil => simp [splitFirst?]
  | cons d r ih =>
    obtain ⟨hd, hr⟩ := not_or.1 (List.mem_cons.not.1 h)
    simp [splitFirst?, Ne.symm hd, ih hr]

theorem dropClosing?_concat (body : List Char) : dropClosing? (body ++ [')']) = some body := by
  simp [dropClosing?]

theorem dropClosing?_eq_none {s : List Char} (h : ∀ body, s ≠ body ++ [')']) :
    dropClosing? s = none := by
  refine if_neg fun hs => ?_
  obtain ⟨body, hb⟩ := List.getLast?_eq_some_iff.1 (beq_iff_eq.1 hs)
  exact h body hb

/-- The operands are the trimmed pieces, unless there is but one and it is blank. -/
theorem readOperands_joinWith {parts : List (List Char)} (h : ∀ p ∈ parts, ',' ∉ p) :
    readOperands (joinWith ',' parts) = if parts.map trim = [[]] then [] else parts.map trim := by
  rcases parts with _ | ⟨p, _ | ⟨q, r⟩⟩
  · rfl
  · have hs : splitAll ',' p = [p] := Text.splitAll_joinWith (List.cons_ne_nil p []) h
    simp [readOperands, joinWith, hs]
  · have hs := Text.splitAll_joinWith (List.cons_ne_nil p (q :: r)) h
    have hb : trim (joinWith ',' (p :: q :: r)) ≠ [] := by
      rw [Ne, Text.trim_eq_nil_iff]
      exact fun hb => absurd (hb ',' (by simp [joinWith])) (by decide)
    simp [readOperands, hs, hb]

theorem ListsOperands.readOperands {body : List Char} {operands : List (List Char)}
    (h : ListsOperands body operands) : readOperands body = operands := by
  cases h with
  | none hb => simp [Formula.readOperands, Text.trim_eq_nil_iff.2 hb]
  | @some parts hp hb =>
    rw [readOperands_joinWith hp, if_neg]
    intro hs
    obtain ⟨p, rfl, ht⟩ := List.map_eq_singleton_iff.1 hs
    exact hb (Text.trim_eq_nil_iff.1 ht)

theorem exists_listsOperands (body : List Char) : ∃ operands, ListsOperands body operands := by
  by_cases hb : ∀ c ∈ body, isBlank c = true
  · exact ⟨[], .none hb⟩
  · have hj := Text.joinWith_splitAll ',' body
    rw [← hj] at hb ⊢
    exact ⟨_, .some Text.notMem_of_mem_splitAll hb⟩

/-! ## Reading -/

theorem read_of_literal {s : List Char} {v : Int} (h : SpellsDecimal (trim s) v) :
    read s = .ok (.literal v) := by
  simp [read, h.ne_nil, Numeral.integer?_eq_some_iff.2 h]

theorem read_of_compound {s : List Char} (hs : trim s ≠ []) (hl : ∀ v, ¬ SpellsDecimal (trim s) v) :
    read s = readCompound (trim s) := by
  have hi : Numeral.integer? (trim s) = none :=
    Option.eq_none_iff_forall_ne_some.2 fun v hv => hl v (Numeral.integer?_eq_some_iff.1 hv)
  simp [read, hs, hi]

/-- A parenthesis decides for a call. -/
theorem read_of_open {s name after : List Char} (hn : '(' ∉ name)
    (hs : trim s = name ++ '(' :: after) : read s = readCall name after := by
  have hm : '(' ∈ trim s := by simp [hs]
  have hl : ∀ v, ¬ SpellsDecimal (trim s) v :=
    fun v hv => hv.notMem (by decide) (by decide) (by decide) hm
  rw [read_of_compound (List.ne_nil_of_mem hm) hl, hs, readCompound, splitFirst?_append after hn]

theorem readCall_concat {name : List Char} {f : Operation} (hf : trim name = f.name.toList)
    (body : List Char) :
    readCall name (body ++ [')']) =
      if '(' ∈ body ∨ ')' ∈ body then .error .nested else .ok (.call f (readOperands body)) := by
  rw [readCall, Operation.ofName?_eq_some_iff.2 hf, dropClosing?_concat]
  simp

theorem Spells.read {s : List Char} {F : Formula} (h : Spells (trim s) F) : read s = .ok F := by
  generalize ht : trim s = t at h
  cases h with
  | literal h => exact read_of_literal (ht ▸ h)
  | call hn hf ho hc h => rw [read_of_open hn ht, readCall_concat hf, h.readOperands]; simp [ho, hc]
  | template ho hc hx hl =>
    subst ht
    rw [read_of_compound (List.ne_nil_of_mem hx) hl, readCompound, splitFirst?_eq_none_iff.2 ho]
    simp [hc, hx, variableLetter]

theorem Flaw.read {s : List Char} {reason : Malformation} (h : Flaw (trim s) reason) :
    read s = .error reason := by
  generalize ht : trim s = t at h
  cases h with
  | blank => simp [Formula.read, ht]
  | unknownOperation hn hf =>
    have hu := Option.eq_none_iff_forall_ne_some.2 fun f =>
      Operation.ofName?_eq_some_iff.not.2 (hf f)
    rw [read_of_open hn ht, readCall, hu]
  | notClosed hn hf hc =>
    rw [read_of_open hn ht, readCall, Operation.ofName?_eq_some_iff.2 hf, dropClosing?_eq_none hc]
  | nested hn hf hb => rw [read_of_open hn ht, readCall_concat hf, if_pos hb]
  | notOpened ho hc =>
    subst ht
    have hl : ∀ v, ¬ SpellsDecimal (trim s) v :=
      fun v hv => hv.notMem (by decide) (by decide) (by decide) hc
    rw [read_of_compound (List.ne_nil_of_mem hc) hl, readCompound, splitFirst?_eq_none_iff.2 ho]
    simp [hc]
  | formless hs ho hc hx hl =>
    subst ht
    rw [read_of_compound hs hl, readCompound, splitFirst?_eq_none_iff.2 ho]
    simp [hc, hx, variableLetter]

/-- Every text writes a formula or has a flaw. -/
theorem spells_or_flaw (t : List Char) : (∃ F, Spells t F) ∨ ∃ reason, Flaw t reason := by
  by_cases hl : ∃ v, SpellsDecimal t v
  · obtain ⟨v, h⟩ := hl
    exact .inl ⟨_, .literal h⟩
  rw [not_exists] at hl
  by_cases ho : '(' ∈ t
  · obtain ⟨name, after, rfl, hn⟩ := List.eq_append_cons_of_mem ho
    by_cases hf : ∃ f : Operation, trim name = f.name.toList
    · obtain ⟨f, hf⟩ := hf
      by_cases hc : ∃ body, after = body ++ [')']
      · obtain ⟨body, rfl⟩ := hc
        by_cases hb : '(' ∈ body ∨ ')' ∈ body
        · exact .inr ⟨_, .nested hn hf hb⟩
        · obtain ⟨hb, hb'⟩ := not_or.1 hb
          obtain ⟨operands, h⟩ := exists_listsOperands body
          exact .inl ⟨_, .call hn hf hb hb' h⟩
      · exact .inr ⟨_, .notClosed hn hf (not_exists.1 hc)⟩
    · exact .inr ⟨_, .unknownOperation hn (not_exists.1 hf)⟩
  by_cases hc : ')' ∈ t
  · exact .inr ⟨_, .notOpened ho hc⟩
  by_cases hx : 'x' ∈ t
  · exact .inl ⟨_, .template ho hc hx hl⟩
  by_cases ht : t = []
  · subst ht
    exact .inr ⟨_, .blank⟩
  · exact .inr ⟨_, .formless ht ho hc hx hl⟩

theorem read_iff (s : List Char) :
    (∀ F, read s = .ok F ↔ Spells (trim s) F) ∧
      ∀ reason, read s = .error reason ↔ Flaw (trim s) reason :=
  outcome_iff (fun _ => Spells.read) (fun _ => Flaw.read) (spells_or_flaw (trim s))

/-! ## Blanks -/

theorem read_of_pads {name after s : List Char} (hn : '(' ∉ name)
    (hs : Pads (name ++ '(' :: after) s) : read s = readCall name (trimEnd after) := by
  have ht : trim s = name.dropWhile isBlank ++ '(' :: trimEnd after := by
    rw [hs.trim_eq_trim, Text.trim_append_cons (by decide)]
  have hd : '(' ∉ name.dropWhile isBlank := fun hm => hn ((List.dropWhile_suffix _).subset hm)
  rw [read_of_open hd ht, readCall, Text.trim_dropWhile, readCall]

theorem read_of_pads_concat {name body s : List Char} (hn : '(' ∉ name)
    (hs : Pads (name ++ '(' :: body ++ [')']) s) : read s = readCall name (body ++ [')']) := by
  rw [List.append_assoc, List.cons_append] at hs
  rw [read_of_pads hn hs, Text.trimEnd_append_of_not_blank (by decide)]

theorem map_trim_of_respaced {parts parts' : List (List Char)}
    (h : List.Forall₂ Repads parts parts') : parts.map trim = parts'.map trim := by
  induction h with
  | nil => rfl
  | cons h _ ih => rw [List.map_cons, List.map_cons, repads_iff.1 h, ih]

/-- Only the trimmed pieces count. -/
theorem readCall_congr {name name' : List Char} {parts parts' : List (List Char)}
    (hn : trim name = trim name') (hp : ∀ p ∈ parts, ',' ∉ p)
    (h : parts.map trim = parts'.map trim) :
    readCall name (joinWith ',' parts ++ [')']) =
      readCall name' (joinWith ',' parts' ++ [')']) := by
  have hm : ∀ {c : Char}, isBlank c = false →
      ((∃ p ∈ parts, c ∈ p) ↔ ∃ p ∈ parts', c ∈ p) := by
    intro c hc
    have he : ∀ l : List (List Char), (∃ p ∈ l, c ∈ p) ↔ ∃ p ∈ l.map trim, c ∈ p := by
      simp [mem_trim_iff hc]
    rw [he, h, ← he]
  have hp' : ∀ p ∈ parts', ',' ∉ p := by
    intro p hp' hc
    obtain ⟨q, hq, hc⟩ := (hm (by decide)).2 ⟨p, hp', hc⟩
    exact hp q hq hc
  have ho : '(' ∈ joinWith ',' parts ↔ '(' ∈ joinWith ',' parts' := by
    rw [Text.mem_joinWith (by decide), hm (by decide), Text.mem_joinWith (by decide)]
  have hc : ')' ∈ joinWith ',' parts ↔ ')' ∈ joinWith ',' parts' := by
    rw [Text.mem_joinWith (by decide), hm (by decide), Text.mem_joinWith (by decide)]
  have hr : readOperands (joinWith ',' parts) = readOperands (joinWith ',' parts') := by
    rw [readOperands_joinWith hp, readOperands_joinWith hp', h]
  simp [readCall, hn, dropClosing?_concat, ho, hc, hr]

theorem Respaced.read {s s' : List Char} (h : Respaced s s') : read s' = read s := by
  cases h with
  | around h => rw [Formula.read, ← repads_iff.1 h, Formula.read]
  | name hn h hs hs' =>
    have hn' := (h.mem_iff (by decide)).not.1 hn
    rw [read_of_pads hn hs, read_of_pads hn' hs', readCall, readCall, repads_iff.1 h]
  | operands hn hp h hr hs hs' =>
    have hn' := (h.mem_iff (by decide)).not.1 hn
    rw [read_of_pads_concat hn hs, read_of_pads_concat hn' hs']
    exact (readCall_congr (repads_iff.1 h) hp (map_trim_of_respaced hr)).symm

/-! ## Limits -/

/-- The text, which has no blanks around it, is an integer literal with more digits than may be read;
the fault says so. -/
inductive TooLong : DigitLimit → List Char → Fault → Prop
  | intro {m n : Nat} {sign digits : List Char} (hs : sign ∈ [[], ['+'], ['-']])
    (h : Writes IsDecimal 10 digits n) (hm : m < digits.length) :
    TooLong (.most m) (sign ++ digits) (.refused (.tooManyDigits m (some digits.length)))

variable {digits : DigitLimit} {s : List Char}

/-- Digits of any script behind a sign are what is left without it. -/
theorem splitSign_append {sign text : List Char} {n : Nat} (hs : sign ∈ [[], ['+'], ['-']])
    (h : Writes IsDecimal 10 text n) : (Numeral.splitSign (sign ++ text)).2 = text := by
  simp only [List.mem_cons, List.not_mem_nil, or_false] at hs
  rcases hs with rfl | rfl | rfl
  · rw [List.nil_append, Numeral.splitSign_of_writes_decimal h]
  · rfl
  · rfl

theorem TooLong.exists_literal {t : List Char} {e : Fault} (h : TooLong digits t e) :
    ∃ v, SpellsDecimal t v := by
  obtain ⟨hs, h, -⟩ := h
  simp only [List.mem_cons, List.not_mem_nil, or_false] at hs
  rcases hs with rfl | rfl | rfl
  · exact ⟨_, .plain h⟩
  · exact ⟨_, .plus h⟩
  · exact ⟨_, .minus h⟩

theorem tooLong_iff {t : List Char} {v : Int} {e : Fault} (h : SpellsDecimal t v) :
    TooLong digits t e ↔ digits.require (Numeral.splitSign t).2.length = .error e := by
  rw [DigitLimit.require_eq_error_iff]
  constructor
  · rintro ⟨hs, hw, hm⟩
    rw [splitSign_append hs hw]
    exact ⟨_, rfl, hm, rfl⟩
  · rintro ⟨m, rfl, hm, rfl⟩
    obtain ⟨sign, text, n, rfl, hs, hw⟩ : ∃ sign text n, t = sign ++ text ∧
        sign ∈ [[], ['+'], ['-']] ∧ Writes IsDecimal 10 text n := by
      cases h with
      | plain h => exact ⟨[], _, _, rfl, by simp, h⟩
      | plus h => exact ⟨['+'], _, _, rfl, by simp, h⟩
      | minus h => exact ⟨['-'], _, _, rfl, by simp, h⟩
    rw [splitSign_append hs hw] at hm ⊢
    exact .intro hs hw hm

theorem readWithin_of_spells {F : Formula} (h : Spells (trim s) F)
    (hl : ∀ e, ¬ TooLong digits (trim s) e) : readWithin digits s = .ok F := by
  rw [readWithin, h.read]
  cases F with
  | literal v =>
    have hv := spells_literal_iff.1 h
    cases hr : digits.require (Numeral.splitSign (trim s)).2.length with
    | ok => rfl
    | error e => exact absurd ((tooLong_iff hv).2 hr) (hl e)
  | call f operands => rfl
  | template t => rfl

/-- With the limit lifted, a formula is read as it is where it is evaluated. -/
theorem readWithin_lifted (s : List Char) :
    readWithin .lifted s = (read s).mapError (.malformed none) := by
  rw [readWithin]
  cases read s with
  | error reason => rfl
  | ok F => cases F <;> rfl

theorem TooLong.readWithin {e : Fault} (h : TooLong digits (trim s) e) :
    readWithin digits s = .error e := by
  obtain ⟨v, hv⟩ := h.exists_literal
  rw [Formula.readWithin, read_of_literal hv]
  simp only [(tooLong_iff hv).1 h, error_bind]

theorem Flaw.readWithin {reason : Malformation} (h : Flaw (trim s) reason) :
    readWithin digits s = .error (.malformed none reason) := by
  rw [Formula.readWithin, h.read]
  rfl

/-- Blanks come between no digits. -/
theorem Respaced.trim_eq {s' : List Char} {v : Int} (h : Respaced s s')
    (hv : SpellsDecimal (trim s) v) : trim s' = trim s := by
  have ho : ∀ {t : List Char}, '(' ∈ t → Pads t s → trim s' = trim s := fun hm hp =>
    absurd ((mem_trim_iff (by decide)).2 (hp.subset hm)) (hv.notMem (by decide) (by decide) (by decide))
  cases h with
  | around h => exact (repads_iff.1 h).symm
  | name _ _ hs => exact ho (by simp) hs
  | operands _ _ _ _ hs => exact ho (by simp) hs

theorem Respaced.readWithin {s' : List Char} (h : Respaced s s') :
    readWithin digits s' = readWithin digits s := by
  rw [Formula.readWithin, Formula.readWithin, h.read]
  cases hr : Formula.read s with
  | error reason => rfl
  | ok F =>
    cases F with
    | literal v =>
      rw [h.trim_eq (spells_literal_iff.1 (((read_iff s).1 _).1 hr))]
    | call f operands => rfl
    | template t => rfl

/-- Exactly the texts of the grammar are read, as what they write there, unless they are literals with
too many digits. All others are refused, each for the first thing that is wrong with it. Blanks around
a text, around the name of what it calls and around the operands change nothing. -/
theorem read_by_grammar (digits : DigitLimit) (s : List Char) :
    (∀ F, readWithin digits s = .ok F ↔
      Spells (trim s) F ∧ ∀ e, ¬ TooLong digits (trim s) e) ∧
    (∀ e, readWithin digits s = .error e ↔
      (∃ reason, e = .malformed none reason ∧ Flaw (trim s) reason) ∨ TooLong digits (trim s) e) ∧
    ∀ s', Respaced s s' → readWithin digits s' = readWithin digits s := by
  refine and_assoc.1 ⟨outcome_iff ?_ ?_ ?_, fun _ h => h.readWithin⟩
  · exact fun F h => readWithin_of_spells h.1 h.2
  · rintro e (⟨reason, rfl, h⟩ | h)
    · exact h.readWithin
    · exact h.readWithin
  · by_cases hl : ∃ e, TooLong digits (trim s) e
    · obtain ⟨e, he⟩ := hl
      exact .inr ⟨e, .inr he⟩
    · rcases spells_or_flaw (trim s) with ⟨F, hF⟩ | ⟨reason, hr⟩
      · exact .inl ⟨F, hF, fun e he => hl ⟨e, he⟩⟩
      · exact .inr ⟨_, .inl ⟨reason, rfl, hr⟩⟩

/-- An ideographic space in front, blanks around the name and the operands, of which one is empty,
and a line break at the end. -/
theorem read_by_grammar_spaced :
    Respaced "gcd(12,,x)".toList "\u3000gcd ( 12\t, ,x )\n".toList ∧
      readWithin .standard "\u3000gcd ( 12\t, ,x )\n".toList = .ok (.call .gcd ["12".toList, [], "x".toList]) := by
  have hn : Repads "gcd".toList "gcd ".toList := repads_iff.2 (by decide)
  have hr : List.Forall₂ Repads ["12".toList, [], "x".toList]
      [" 12\t".toList, " ".toList, "x ".toList] :=
    .cons (repads_iff.2 (by decide)) (.cons (repads_iff.2 (by decide))
      (.cons (repads_iff.2 (by decide)) .nil))
  have hs : Pads ("gcd ".toList ++
      '(' :: joinWith ',' [" 12\t".toList, " ".toList, "x ".toList] ++ [')'])
      "\u3000gcd ( 12\t, ,x )\n".toList :=
    ⟨['\u3000'], ['\n'], by simp [isBlank], by simp [isBlank], by decide⟩
  have h : Respaced "gcd(12,,x)".toList "\u3000gcd ( 12\t, ,x )\n".toList :=
    .operands (by decide) (by decide) hn hr (.refl _) hs
  exact ⟨h, ((read_by_grammar .standard _).2.2 _ h).trans rfl⟩

/-- A literal with one digit more than may be read. -/
theorem read_padded_one : Spells (Numeral.padded 4300 ['1']) (.literal 1) ∧
    readWithin .standard (Numeral.padded 4300 ['1']) =
      .error (.refused (.tooManyDigits 4300 (some 4301))) := by
  have hw := Numeral.writes_padded Numeral.writes_one 4300
  have hl := Numeral.length_padded 4300 ['1']
  have hv : SpellsDecimal (Numeral.padded 4300 ['1']) 1 := .plain hw
  have ht : trim (Numeral.padded 4300 ['1']) = Numeral.padded 4300 ['1'] :=
    Numeral.trim_eq_of_writes (.refl _) hw
  have h := TooLong.intro (m := 4300) (List.mem_cons_self : [] ∈ [[], ['+'], ['-']]) hw
    (by rw [hl]; decide)
  rw [List.nil_append, hl, ← ht] at h
  exact ⟨.literal hv, h.readWithin⟩

end Formula

end Quorum
