import Quorum.Bundle.Basic
import Quorum.Proofs.Ascending
import Quorum.Proofs.Fault
import Quorum.Proofs.Numeral.Spelling

/-!
# The entries of a document

What the parts of a document stand for is said by relations: `Scalar.Denotes` for integers,
`Scalar.HasText` for the texts of values, `Bundle.Holds` for the entries of shares and
`Bundle.Lists` for whole documents. Digits may be too many to be read (`Scalar.TooLong`) and an
integer too long to be written as a value (`Scalar.TooLongValue`); what neither is true of is said to
read and to write as what it stands for (`Scalar.ReadsAs`, `Scalar.WritesAs`).

* `readShare_eq_ok_iff`: the entries that a share is read from are those that hold it;
* `outcome_readShares_eq_ok_iff`: shares are read from the entries under numbers, if the numbers
  are positive and distinct, and from nothing else;
* `Lists.outcome_ofData`: a document that lists shares is read as their bundle.
-/

namespace Quorum

open Quorum.Numeral (Writes IsDecimal)

namespace Scalar

/-- The scalar is the integer, or its decimal digits between blanks. -/
inductive Denotes : Scalar → Int → Prop
  | int (v : Int) : Denotes (.int v) v
  | text {t s : List Char} {n : Nat} (hp : Text.Pads t s) (h : Writes IsDecimal 10 t n) :
    Denotes (.text s) n

/-- The scalar is decimal digits between blanks, more of them than may be read; the fault says so. -/
inductive TooLong : DigitLimit → Scalar → Fault → Prop
  | text {m n : Nat} {t s : List Char} (hp : Text.Pads t s) (h : Writes IsDecimal 10 t n)
    (hm : m < t.length) :
    TooLong (.most m) (.text s) (.refused (.tooManyDigits m (some t.length)))

/-- The scalar denotes the integer, and may be read. -/
def ReadsAs (digits : DigitLimit) (s : Scalar) (v : Int) : Prop :=
  s.Denotes v ∧ ∀ e, ¬ s.TooLong digits e

/-- The scalar is the text, or an integer with the text as its decimal notation. -/
inductive HasText : Scalar → RawText → Prop
  | int (v : Int) : HasText (.int v) (.text (Numeral.decimal v))
  | text (s : List Char) : HasText (.text s) (.text s)
  | unpaired (codes : List Nat) : HasText (.unpaired codes) (.unpaired codes)

/-- The scalar is an integer with more digits than may be written; the fault says so. -/
inductive TooLongValue : DigitLimit → Scalar → Fault → Prop
  | int {m : Nat} {v : Int} (hm : m < Numeral.digitCount v) :
    TooLongValue (.most m) (.int v) (.refused (.tooManyDigits m none))

/-- The scalar has the text, and may be written. -/
def WritesAs (digits : DigitLimit) (s : Scalar) (t : RawText) : Prop :=
  s.HasText t ∧ ∀ e, ¬ s.TooLongValue digits e

end Scalar

namespace Bundle

/-- The value of a field denotes the integer. -/
def Denotes (fields : List (Scalar × Data)) (name : String) (v : Int) : Prop :=
  ∃ d, Data.find? name fields = some (.scalar d) ∧ d.Denotes v

/-- The value of a field denotes the integer, and may be read. -/
def Reads (digits : DigitLimit) (fields : List (Scalar × Data)) (name : String) (v : Int) : Prop :=
  ∃ d, Data.find? name fields = some (.scalar d) ∧ d.ReadsAs digits v

/-- The value of a field is decimal digits, more of them than may be read; the fault says so. -/
def TooLong (digits : DigitLimit) (fields : List (Scalar × Data)) (name : String) (e : Fault) :
    Prop :=
  ∃ d, Data.find? name fields = some (.scalar d) ∧ d.TooLong digits e

/-- The data is an entry with the share's base and value. -/
def Holds (digits : DigitLimit) (d : Data) (s : Share) : Prop :=
  ∃ fields, d = .mapping fields ∧ Reads digits fields "base" s.base ∧
    ∃ v, Data.find? "value" fields = some (.scalar v) ∧ v.WritesAs digits s.raw

/-- The document lists the shares, each under its number, and says how many there are and how many
it takes. Its entries may be in any order and others may be among them. -/
structure Lists (digits : DigitLimit) (total threshold : Int) (shares : List Share)
    (doc : List (Scalar × Data)) : Prop where
  exists_entries : ∃ counts entries others,
    doc.Perm ((keysSection, .mapping counts) :: entries ++ others) ∧
    Reads digits counts "n" total ∧ Reads digits counts "k" threshold ∧
    List.Forall₂ (fun e s => e.1.ReadsAs digits s.id ∧ Holds digits e.2 s) entries shares ∧
    ∀ e ∈ others, e.1 ≠ keysSection ∧ ∀ v, ¬ e.1.Denotes v
  nodup_ids : (shares.map Share.id).Nodup
  one_le_id : ∀ s ∈ shares, 1 ≤ s.id
  base_range : ∀ s ∈ shares, 2 ≤ s.base ∧ s.base ≤ 36

variable {digits : DigitLimit}

/-! ## Scalars and fields -/

theorem integerOf?_eq_some_iff {s : Scalar} {v : Int} : integerOf? s = some v ↔ s.Denotes v := by
  constructor
  · intro h
    cases s with
    | int w =>
      cases h
      exact .int _
    | text t =>
      obtain ⟨n, hn, rfl⟩ := Option.map_eq_some_iff.1 h
      obtain ⟨u, hp, hw⟩ := Numeral.paddedNatural?_eq_some_iff.1 hn
      exact .text hp hw
    | _ => cases h
  · intro h
    cases h with
    | int => rfl
    | text hp hw =>
      rw [integerOf?, Numeral.paddedNatural?_eq_some_iff.2 ⟨_, hp, hw⟩]
      rfl

theorem integerOf?_eq_none_iff {s : Scalar} : integerOf? s = none ↔ ∀ v, ¬ s.Denotes v := by
  simp only [Option.eq_none_iff_forall_ne_some, ne_eq, integerOf?_eq_some_iff]

theorem denotes_unique {s : Scalar} {v w : Int} (hv : s.Denotes v) (hw : s.Denotes w) : v = w :=
  Option.some.inj ((integerOf?_eq_some_iff.2 hv).symm.trans (integerOf?_eq_some_iff.2 hw))

theorem readsAs_int (v : Int) : (Scalar.int v).ReadsAs digits v :=
  ⟨.int v, nofun⟩

theorem writesAs_text (t : List Char) : (Scalar.text t).WritesAs digits (.text t) :=
  ⟨.text t, nofun⟩

theorem writesAs_int {v : Int} (h : digits.Allows (Numeral.digitCount v)) :
    (Scalar.int v).WritesAs digits (.text (Numeral.decimal v)) := by
  refine ⟨.int v, ?_⟩
  rintro _ ⟨hm⟩
  exact absurd (h _ rfl) (not_le.2 hm)

theorem exists_denotes_of_tooLong {s : Scalar} {e : Fault} (h : s.TooLong digits e) :
    ∃ v, s.Denotes v := by
  cases h with
  | text hp hw => exact ⟨_, .text hp hw⟩

/-- Whether digits may be read is a question of how many are left without the blanks. -/
theorem readInteger_text {t : List Char} {v : Int} (h : (Scalar.text t).Denotes v) :
    readInteger digits (.text t) =
      digits.require (Text.trim t).length >>= fun _ => .ok (some v) := by
  simp only [readInteger, integerOf?_eq_some_iff.2 h]
  rfl

theorem tooLong_text_iff {t : List Char} {v : Int} {e : Fault} (h : (Scalar.text t).Denotes v) :
    (Scalar.text t).TooLong digits e ↔ digits.require (Text.trim t).length = .error e := by
  rw [DigitLimit.require_eq_error_iff]
  constructor
  · rintro ⟨hp, hw, hm⟩
    rw [Numeral.trim_eq_of_writes hp hw]
    exact ⟨_, rfl, hm, rfl⟩
  · rintro ⟨m, rfl, hm, rfl⟩
    cases h with
    | text hp hw =>
      rw [Numeral.trim_eq_of_writes hp hw] at hm ⊢
      exact .text hp hw hm

theorem readInteger_cases (digits : DigitLimit) (s : Scalar) :
    (∃ v, s.ReadsAs digits v ∧ readInteger digits s = .ok (some v)) ∨
      ((∀ v, ¬ s.Denotes v) ∧ readInteger digits s = .ok none) ∨
      ∃ e, s.TooLong digits e ∧ readInteger digits s = .error e := by
  cases hi : integerOf? s with
  | none =>
    refine .inr (.inl ⟨integerOf?_eq_none_iff.1 hi, ?_⟩)
    cases s <;> simp [readInteger, hi]
  | some v =>
    have hv := integerOf?_eq_some_iff.1 hi
    cases hv with
    | int => exact .inl ⟨v, ⟨.int v, nofun⟩, rfl⟩
    | @text t s n hp hw =>
      have hv : (Scalar.text s).Denotes n := .text hp hw
      rw [readInteger_text hv]
      cases hr : digits.require (Text.trim s).length with
      | ok =>
        refine .inl ⟨_, ⟨hv, fun e he => ?_⟩, rfl⟩
        cases hr.symm.trans ((tooLong_text_iff hv).1 he)
      | error e => exact .inr (.inr ⟨e, (tooLong_text_iff hv).2 hr, rfl⟩)

theorem readInteger_eq_some_iff {s : Scalar} {v : Int} :
    readInteger digits s = .ok (some v) ↔ s.ReadsAs digits v := by
  constructor
  · intro h
    rcases readInteger_cases digits s with ⟨w, hw, he⟩ | ⟨-, he⟩ | ⟨e, -, he⟩
    · cases he.symm.trans h
      exact hw
    · cases he.symm.trans h
    · cases he.symm.trans h
  · intro h
    rcases readInteger_cases digits s with ⟨w, hw, he⟩ | ⟨hn, -⟩ | ⟨e, he, -⟩
    · rw [he, denotes_unique h.1 hw.1]
    · exact absurd h.1 (hn v)
    · exact absurd he (h.2 e)

theorem readInteger_eq_none_iff {s : Scalar} :
    readInteger digits s = .ok none ↔ ∀ v, ¬ s.Denotes v := by
  constructor
  · intro h
    rcases readInteger_cases digits s with ⟨w, hw, he⟩ | ⟨hn, -⟩ | ⟨e, -, he⟩
    · cases he.symm.trans h
    · exact hn
    · cases he.symm.trans h
  · intro h
    rcases readInteger_cases digits s with ⟨w, hw, -⟩ | ⟨-, he⟩ | ⟨e, he, -⟩
    · exact absurd hw.1 (h w)
    · exact he
    · obtain ⟨v, hv⟩ := exists_denotes_of_tooLong he
      exact absurd hv (h v)

theorem readInteger_eq_error_iff {s : Scalar} {e : Fault} :
    readInteger digits s = .error e ↔ s.TooLong digits e := by
  constructor
  · intro h
    rcases readInteger_cases digits s with ⟨w, hw, he⟩ | ⟨-, he⟩ | ⟨e', ht, he⟩
    · cases he.symm.trans h
    · cases he.symm.trans h
    · cases he.symm.trans h
      exact ht
  · intro h
    obtain ⟨v, hv⟩ := exists_denotes_of_tooLong h
    cases h with
    | text hp hw hm =>
      rw [readInteger_text hv, (tooLong_text_iff hv).1 (.text hp hw hm), error_bind]

theorem readIntegerIn_eq_some_iff {d : Data} {v : Int} :
    readIntegerIn digits d = .ok (some v) ↔ ∃ s, d = .scalar s ∧ s.ReadsAs digits v := by
  cases d <;> simp [readIntegerIn, readInteger_eq_some_iff]

theorem readIntegerIn_eq_none_iff {d : Data} :
    readIntegerIn digits d = .ok none ↔ ∀ s, d = .scalar s → ∀ v, ¬ s.Denotes v := by
  cases d <;> simp [readIntegerIn, readInteger_eq_none_iff]

theorem readIntegerIn_eq_error_iff {d : Data} {e : Fault} :
    readIntegerIn digits d = .error e ↔ ∃ s, d = .scalar s ∧ s.TooLong digits e := by
  cases d <;> simp [readIntegerIn, readInteger_eq_error_iff]

theorem Reads.denotes {fields : List (Scalar × Data)} {name : String} {v : Int}
    (h : Reads digits fields name v) : Denotes fields name v :=
  h.imp fun _ h => ⟨h.1, h.2.1⟩

theorem readCount_eq_ok_iff {counts : List (Scalar × Data)} {name : String} {v : Int} :
    readCount digits counts name = .ok v ↔ Reads digits counts name v := by
  rw [readCount, bind_eq_ok_iff]
  constructor
  · rintro ⟨_ | w, hw, h⟩
    · cases h
    · cases h
      obtain ⟨s, hs, hv⟩ := readIntegerIn_eq_some_iff.1 hw
      cases hf : Data.find? name counts with
      | none =>
        rw [hf] at hs
        cases hs
        cases hv.1
      | some d =>
        rw [hf] at hs
        exact ⟨s, hf.trans (congrArg some hs), hv⟩
  · rintro ⟨s, hs, hv⟩
    exact ⟨some v, readIntegerIn_eq_some_iff.2 ⟨s, by rw [hs]; rfl, hv⟩, rfl⟩

theorem readBase_eq_ok_iff {id : Option Int} {d : Data} {base : Int} :
    readBase digits id d = .ok base ↔
      (∃ s, d = .scalar s ∧ s.ReadsAs digits base) ∧ 2 ≤ base ∧ base ≤ 36 := by
  rw [readBase, bind_eq_ok_iff, ← readIntegerIn_eq_some_iff]
  constructor
  · rintro ⟨_ | b, hb, h⟩
    · cases h
    · by_cases hr : 2 ≤ b ∧ b ≤ 36
      · simp only [hr, decide_true, Bool.and_self, if_true, Except.ok.injEq] at h
        exact h ▸ ⟨hb, hr⟩
      · simp [hr] at h
  · rintro ⟨hb, hr⟩
    exact ⟨some base, hb, by simp [hr]⟩

theorem readValue_eq_ok_iff {id : Int} {fields : List (Scalar × Data)} {text : RawText} :
    readValue digits id fields = .ok text ↔
      ∃ v, Data.find? "value" fields = some (.scalar v) ∧ v.WritesAs digits text := by
  rw [readValue]
  constructor
  · intro h
    split at h
    · cases h
    · cases h
    · cases h
    · rename_i v hv
      by_cases ha : digits.Allows (Numeral.digitCount v)
      · rw [DigitLimit.write_eq_ok ha] at h
        cases h
        refine ⟨_, hv, .int v, ?_⟩
        rintro _ ⟨hm⟩
        exact absurd (ha _ rfl) (not_le.2 hm)
      · obtain ⟨m, rfl, hm⟩ := DigitLimit.not_allows_iff.1 ha
        rw [DigitLimit.write_most_of_lt hm] at h
        cases h
    · rename_i hv
      cases h
      exact ⟨_, hv, .text _, nofun⟩
    · rename_i hv
      cases h
      exact ⟨_, hv, .unpaired _, nofun⟩
    · cases h
  · rintro ⟨v, hv, ht, hl⟩
    rw [hv]
    cases ht with
    | int v =>
      have ha : digits.Allows (Numeral.digitCount v) := fun m hm => by
        subst hm
        exact not_lt.1 fun h => hl _ (.int h)
      simp only [DigitLimit.write_eq_ok ha]
      rfl
    | text => rfl
    | unpaired => rfl

theorem readShare_eq_ok_iff {id : Int} {d : Data} {s : Share} :
    readShare digits id d = .ok s ↔ s.id = id ∧ (2 ≤ s.base ∧ s.base ≤ 36) ∧ Holds digits d s := by
  cases d with
  | scalar v => simp [readShare, Holds]
  | list items => simp [readShare, Holds]
  | mapping fields =>
    rw [readShare]
    cases hb : Data.find? "base" fields with
    | none => simp [Holds, Reads, hb]
    | some b =>
      simp only [Holds, Reads, hb, Data.mapping.injEq, exists_eq_left', Option.some.injEq,
        bind_eq_ok_iff, readBase_eq_ok_iff, readValue_eq_ok_iff, pure_eq_ok, Except.ok.injEq]
      constructor
      · rintro ⟨base, ⟨hi, hr⟩, text, hv, rfl⟩
        exact ⟨rfl, hr, hi, hv⟩
      · rintro ⟨rfl, hr, hi, hv⟩
        exact ⟨s.base, ⟨hi, hr⟩, s.raw, hv, rfl⟩

/-! ## Entries under numbers -/

/-- The entries whose keys denote numbers. -/
def numbered (entries : List (Scalar × Data)) : List (Int × Data) :=
  entries.filterMap fun e => (integerOf? e.1).map fun id => (id, e.2)

theorem integerOf?_keysSection : integerOf? keysSection = none := by
  decide

theorem ne_keysSection_of_some {key : Scalar} {id : Int} (h : integerOf? key = some id) :
    key ≠ keysSection := by
  rintro rfl
  rw [integerOf?_keysSection] at h
  cases h

theorem numbered_cons_of_none {key : Scalar} (d : Data) (r : List (Scalar × Data))
    (h : integerOf? key = none) : numbered ((key, d) :: r) = numbered r := by
  simp [numbered, h]

theorem numbered_cons_of_some {key : Scalar} {id : Int} (d : Data) (r : List (Scalar × Data))
    (h : integerOf? key = some id) : numbered ((key, d) :: r) = (id, d) :: numbered r := by
  simp [numbered, h]

theorem outcome_readShares_of_denotes_nothing {total : Int} {seen : List Int} {key : Scalar}
    (d : Data) (r : List (Scalar × Data)) (h : ∀ v, ¬ key.Denotes v) :
    (readShares digits total seen ((key, d) :: r)).outcome =
      (readShares digits total seen r).outcome := by
  rw [readShares]
  split
  · rfl
  · simp [readInteger_eq_none_iff.2 h]

theorem outcome_readShares_of_tooLong {total : Int} {seen : List Int} {key : Scalar} {e : Fault}
    (d : Data) (r : List (Scalar × Data)) (h : key.TooLong digits e) :
    (readShares digits total seen ((key, d) :: r)).outcome = .error e := by
  obtain ⟨v, hv⟩ := exists_denotes_of_tooLong h
  rw [readShares, if_neg (ne_keysSection_of_some (integerOf?_eq_some_iff.2 hv))]
  simp [readInteger_eq_error_iff.2 h]

theorem outcome_readShares_cons {total id : Int} {seen : List Int} {key : Scalar} {d : Data}
    {r : List (Scalar × Data)} (h : key.ReadsAs digits id) :
    (readShares digits total seen ((key, d) :: r)).outcome =
      if id < 1 then .error (.invalidDocument (.idNotPositive id))
      else if id ∈ seen then .error (.duplicateShare id)
      else readShare digits id d >>= fun s =>
        (readShares digits total (id :: seen) r).outcome >>= fun shares => .ok (s :: shares) := by
  rw [readShares, if_neg (ne_keysSection_of_some (integerOf?_eq_some_iff.2 h.1)),
    readInteger_eq_some_iff.2 h]
  by_cases h₁ : id < 1 <;> by_cases h₂ : total < id <;> by_cases h₃ : id ∈ seen <;>
    simp [h₁, h₂, h₃]

theorem outcome_readShares_eq_ok_iff {total : Int} {seen : List Int}
    {entries : List (Scalar × Data)} {shares : List Share} :
    (readShares digits total seen entries).outcome = .ok shares ↔
      (∀ e ∈ entries, ∀ f, ¬ e.1.TooLong digits f) ∧
        ((numbered entries).map Prod.fst).Nodup ∧
        (∀ e ∈ numbered entries, 1 ≤ e.1 ∧ e.1 ∉ seen) ∧
        List.Forall₂ (fun e s => readShare digits e.1 e.2 = .ok s) (numbered entries) shares := by
  induction entries generalizing seen shares with
  | nil => simp [readShares, numbered, eq_comm]
  | cons e r ih =>
    obtain ⟨key, d⟩ := e
    rw [List.forall_mem_cons]
    rcases readInteger_cases digits key with ⟨id, hid, -⟩ | ⟨hn, -⟩ | ⟨f, hf, -⟩
    · rw [outcome_readShares_cons hid, numbered_cons_of_some d r (integerOf?_eq_some_iff.2 hid.1),
        List.map_cons, List.nodup_cons, List.forall_mem_cons, List.forall₂_cons_left_iff]
      by_cases h₁ : id < 1
      · simp [h₁]
      by_cases h₂ : id ∈ seen
      · simp [h₁, h₂]
      have hm : (∀ e ∈ numbered r, 1 ≤ e.1 ∧ e.1 ∉ id :: seen) ↔
          id ∉ (numbered r).map Prod.fst ∧ ∀ e ∈ numbered r, 1 ≤ e.1 ∧ e.1 ∉ seen := by
        simp only [List.mem_cons, not_or, List.mem_map, not_exists, not_and]
        constructor
        · exact fun h => ⟨fun e he hid => (h e he).2.1 hid, fun e he => ⟨(h e he).1, (h e he).2.2⟩⟩
        · exact fun ⟨hn, h⟩ e he => ⟨(h e he).1, fun hid => hn e he hid, (h e he).2⟩
      simp only [h₁, h₂, if_false, bind_eq_ok_iff, ih, hm, Except.ok.injEq]
      constructor
      · rintro ⟨s, hs, t, ⟨hl, hd, ⟨hn, hr⟩, hf⟩, rfl⟩
        exact ⟨⟨hid.2, hl⟩, ⟨hn, hd⟩, ⟨⟨by omega, not_false⟩, hr⟩, s, t, hs, hf, rfl⟩
      · rintro ⟨⟨-, hl⟩, ⟨hn, hd⟩, ⟨-, hr⟩, s, t, hs, hf, rfl⟩
        exact ⟨s, hs, t, ⟨hl, hd, ⟨hn, hr⟩, hf⟩, rfl⟩
    · have hl : ∀ f, ¬ key.TooLong digits f := fun f hf =>
        (exists_denotes_of_tooLong hf).elim hn
      rw [outcome_readShares_of_denotes_nothing d r hn,
        numbered_cons_of_none d r (integerOf?_eq_none_iff.2 hn), ih, and_iff_right hl]
    · rw [outcome_readShares_of_tooLong d r hf]
      simp only [reduceCtorEq, false_iff, not_and]
      exact fun h => absurd hf (h.1 f)

/-! ## Documents -/

theorem byNumber_eq_of_perm {shares shares' : List Share} (hp : shares.Perm shares')
    (hn : (shares.map Share.id).Nodup) : byNumber shares' = byNumber shares :=
  sortBy_congr hp.symm hn

/-- A section is found under a key that only one entry has. -/
theorem find?_of_unique {doc : List (Scalar × Data)} {name : String} {d : Data}
    (h : (Scalar.text name.toList, d) ∈ doc)
    (hu : ∀ e ∈ doc, e.1 = .text name.toList → e.2 = d) : Data.find? name doc = some d := by
  rw [Data.find?, Option.map_eq_some_iff]
  obtain ⟨e, he⟩ : ∃ e, doc.find? (fun e => e.1 == .text name.toList) = some e := by
    rw [← Option.isSome_iff_exists, List.find?_isSome]
    exact ⟨_, h, by simp⟩
  exact ⟨e, he, hu e (List.mem_of_find?_eq_some he) (by simpa using List.find?_some he)⟩

theorem exists_readsAs {entries : List (Scalar × Data)} {shares : List Share}
    (h : List.Forall₂ (fun e s => e.1.ReadsAs digits s.id ∧ Holds digits e.2 s) entries shares) :
    ∀ e ∈ entries, ∃ v, e.1.ReadsAs digits v := by
  induction h with
  | nil => simp
  | cons he _ ih => exact List.forall_mem_cons.2 ⟨⟨_, he.1⟩, ih⟩

theorem numbered_of_holds {entries : List (Scalar × Data)} {shares : List Share}
    (h : List.Forall₂ (fun e s => e.1.ReadsAs digits s.id ∧ Holds digits e.2 s) entries shares) :
    List.Forall₂ (fun e s => e.1 = s.id ∧ Holds digits e.2 s) (numbered entries) shares := by
  induction h with
  | nil => exact .nil
  | cons he _ ih =>
    rw [numbered_cons_of_some _ _ (integerOf?_eq_some_iff.2 he.1.1)]
    exact .cons ⟨rfl, he.2⟩ ih

theorem numbered_eq_nil {entries : List (Scalar × Data)}
    (h : ∀ e ∈ entries, ∀ v, ¬ e.1.Denotes v) : numbered entries = [] := by
  refine List.filterMap_eq_nil_iff.2 fun e he => ?_
  rw [Option.map_eq_none_iff, integerOf?_eq_none_iff]
  exact h e he

theorem map_fst_of_forall₂ {numbers : List (Int × Data)} {shares : List Share}
    (h : List.Forall₂ (fun e s => e.1 = s.id ∧ Holds digits e.2 s) numbers shares) :
    numbers.map Prod.fst = shares.map Share.id := by
  induction h with
  | nil => rfl
  | cons he _ ih => rw [List.map_cons, List.map_cons, he.1, ih]

theorem readShare_of_forall₂ {numbers : List (Int × Data)} {shares : List Share}
    (h : List.Forall₂ (fun e s => e.1 = s.id ∧ Holds digits e.2 s) numbers shares)
    (hb : ∀ s ∈ shares, 2 ≤ s.base ∧ s.base ≤ 36) :
    List.Forall₂ (fun e s => readShare digits e.1 e.2 = .ok s) numbers shares := by
  induction h with
  | nil => exact .nil
  | cons he _ ih =>
    obtain ⟨hs, hr⟩ := List.forall_mem_cons.1 hb
    exact .cons (readShare_eq_ok_iff.2 ⟨he.1.symm, hs, he.2⟩) (ih hr)

/-- The limit on digits is nothing to a bundle that has been read. -/
theorem outcome_ofData_eq_ok_iff_readBundle {d : Data} {b : Bundle} :
    (ofData digits d).outcome = .ok b ↔ (readBundle digits d).outcome = .ok b :=
  mapError_eq_ok_iff

namespace Lists

variable {total threshold : Int} {shares : List Share} {doc : List (Scalar × Data)}

theorem exists_counts (h : Lists digits total threshold shares doc) :
    ∃ counts, Data.find? "keys" doc = some (.mapping counts) ∧ Reads digits counts "n" total ∧
      Reads digits counts "k" threshold := by
  obtain ⟨counts, entries, others, hp, hn, hk, hf, ho⟩ := h.exists_entries
  refine ⟨counts, find?_of_unique (hp.mem_iff.2 (by simp [keysSection])) fun e he hkey => ?_, hn, hk⟩
  rw [hp.mem_iff, List.mem_append, List.mem_cons] at he
  rcases he with (rfl | he) | he
  · rfl
  · obtain ⟨v, hv⟩ := exists_readsAs hf e he
    have hi := integerOf?_eq_some_iff.2 hv.1
    rw [hkey] at hi
    exact absurd (integerOf?_keysSection.symm.trans hi) (Option.some_ne_none v).symm
  · exact absurd hkey (ho e he).1

/-- No key has too many digits to be read. -/
theorem not_tooLong (h : Lists digits total threshold shares doc) :
    ∀ e ∈ doc, ∀ f, ¬ e.1.TooLong digits f := by
  obtain ⟨counts, entries, others, hp, -, -, hf, ho⟩ := h.exists_entries
  intro e he f hl
  rw [hp.mem_iff, List.mem_append, List.mem_cons] at he
  obtain ⟨v, hv⟩ := exists_denotes_of_tooLong hl
  rcases he with (rfl | he) | he
  · exact ne_keysSection_of_some (integerOf?_eq_some_iff.2 hv) rfl
  · obtain ⟨_, hr⟩ := exists_readsAs hf e he
    exact hr.2 f hl
  · exact (ho e he).2 v hv

/-- The entries under numbers hold the shares, in an order of their own. -/
theorem exists_numbered (h : Lists digits total threshold shares doc) :
    ∃ shares', shares'.Perm shares ∧
      List.Forall₂ (fun e s => e.1 = s.id ∧ Holds digits e.2 s) (numbered doc) shares' := by
  obtain ⟨counts, entries, others, hp, -, -, hf, ho⟩ := h.exists_entries
  have hnum : (numbered doc).Perm (numbered entries) := by
    have hother : numbered others = [] := numbered_eq_nil fun e he => (ho e he).2
    have hall : numbered ((keysSection, .mapping counts) :: entries ++ others) = numbered entries := by
      rw [List.cons_append, numbered_cons_of_none _ _ integerOf?_keysSection, numbered,
        List.filterMap_append, ← numbered, ← numbered, hother, List.append_nil]
    exact hall ▸ hp.filterMap _
  obtain ⟨shares', hs, hp'⟩ := List.perm_comp_forall₂ hnum (numbered_of_holds hf)
  exact ⟨shares', hp', hs⟩

theorem outcome_readShares (h : Lists digits total threshold shares doc) :
    ∃ shares', shares'.Perm shares ∧
      (readShares digits total [] doc).outcome = .ok shares' := by
  obtain ⟨shares', hp, hf⟩ := h.exists_numbered
  refine ⟨shares', hp, outcome_readShares_eq_ok_iff.2 ⟨h.not_tooLong, ?_, ?_, ?_⟩⟩
  · rw [map_fst_of_forall₂ hf]
    exact (hp.map Share.id).nodup_iff.2 h.nodup_ids
  · intro e he
    have hm : e.1 ∈ shares'.map Share.id := map_fst_of_forall₂ hf ▸ List.mem_map_of_mem he
    obtain ⟨s, hs, hid⟩ := List.mem_map.1 hm
    exact ⟨hid ▸ h.one_le_id s (hp.subset hs), List.not_mem_nil⟩
  · exact readShare_of_forall₂ hf fun s hs => h.base_range s (hp.subset hs)

/-- A document that lists shares is read as their bundle. -/
theorem outcome_ofData (h : Lists digits total threshold shares doc) (hk : 1 ≤ threshold)
    (hn : threshold ≤ total) :
    (ofData digits (.mapping doc)).outcome = .ok ⟨threshold, total, byNumber shares⟩ := by
  obtain ⟨counts, hc, hn', hk'⟩ := h.exists_counts
  obtain ⟨shares', hp, hr⟩ := h.outcome_readShares
  rw [← readCount_eq_ok_iff] at hn' hk'
  have hg : ¬ (threshold < 1 ∨ total < threshold) := by omega
  rw [outcome_ofData_eq_ok_iff_readBundle]
  simp [readBundle, hc, hn', hk', hg, hr, byNumber_eq_of_perm hp.symm h.nodup_ids]

end Lists

/-- Zeros in front are nothing to the number, but they count as digits. -/
theorem tooLong_padded {text : List Char} {n m count : Nat} (h : Writes IsDecimal 10 text n)
    (hm : m < count + text.length) : (Scalar.text (Numeral.padded count text)).TooLong (.most m)
      (.refused (.tooManyDigits m (some (count + text.length)))) := by
  rw [← Numeral.length_padded] at hm ⊢
  exact .text (.refl _) (Numeral.writes_padded h count) hm

end Bundle

end Quorum
