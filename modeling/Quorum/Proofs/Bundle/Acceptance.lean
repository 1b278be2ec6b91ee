import Quorum.Proofs.Bundle.WellFormed

/-!
# Which data denotes a bundle

Data denotes a bundle exactly if it is `Acceptable`: its counts are integers in their range, and the
entries under numbers are in order (`SoundEntries`). The bundle is then the one that the data
`Describes`. All other data is refused for the first thing that is wrong with it (`FirstFault`):
the sections, the counts and their range in turn, and then the first entry that is not in order
behind those before it (`EntryFault`, `ShareFault`). `ofData_decides` puts the three together. Under
a limit on digits, numbers must not be too long where they are read or written, and the fault is put
into words under the same limit.
-/

namespace Quorum

theorem Scalar.HasText.unique {v : Scalar} {s t : RawText} (hs : v.HasText s)
    (ht : v.HasText t) : s = t := by
  cases hs <;> cases ht <;> rfl

namespace Bundle

/-- The entries under numbers are in order: the numbers may be read, they are positive and distinct,
and under each stands a base in its range with a value. -/
structure SoundEntries (digits : DigitLimit) (entries : List (Scalar × Data)) : Prop where
  not_tooLong : ∀ e ∈ entries, ∀ f, ¬ e.1.TooLong digits f
  one_le_id : ∀ e ∈ entries, ∀ id, e.1.Denotes id → 1 ≤ id
  distinct : entries.Pairwise fun a b => ∀ id, a.1.Denotes id → ¬ b.1.Denotes id
  holds : ∀ e ∈ entries, ∀ id, e.1.Denotes id →
    ∃ s : Share, (2 ≤ s.base ∧ s.base ≤ 36) ∧ Holds digits e.2 s

/-- What data must be like to denote a bundle. -/
def Acceptable (digits : DigitLimit) (d : Data) : Prop :=
  ∃ entries counts total threshold, d = .mapping entries ∧
    Data.find? "keys" entries = some (.mapping counts) ∧ Reads digits counts "n" total ∧
    Reads digits counts "k" threshold ∧ (1 ≤ threshold ∧ threshold ≤ total) ∧
    SoundEntries digits entries

/-- The bundle has the counts of the data and the shares that stand under its numbers: one for each
of them, by ascending number, and no others. -/
structure Describes (d : Data) (b : Bundle) : Prop where
  exists_entries : ∃ entries counts, d = .mapping entries ∧
    Data.find? "keys" entries = some (.mapping counts) ∧ Denotes counts "n" b.total ∧
    Denotes counts "k" b.threshold ∧
    (∀ s, s ∈ b.shares ↔ ∃ e ∈ entries, e.1.Denotes s.id ∧ Holds .lifted e.2 s) ∧
    ∀ e ∈ entries, ∀ id, e.1.Denotes id → ∃! s, s ∈ b.shares ∧ s.id = id
  ascending : b.shares.Pairwise fun s t => s.id < t.id

/-! ## Faults -/

/-- The entry has no value that counts as one: it has none at all, or nothing or a truth value. -/
def LacksValue (fields : List (Scalar × Data)) : Prop :=
  ∀ d, Data.find? "value" fields = some d → d = .scalar .null ∨ ∃ b, d = .scalar (.bool b)

/-- The value of the entry is neither a text nor an integer. -/
def HasNoText (fields : List (Scalar × Data)) : Prop :=
  ¬ LacksValue fields ∧
    ∀ v text, Data.find? "value" fields = some (.scalar v) → ¬ v.HasText text

/-- What is wrong with the data under a number; each check presupposes those before it. -/
inductive ShareFault (digits : DigitLimit) (id : Int) : Data → Fault → Prop
  | notMapping {d : Data} (h : ∀ fields, d ≠ .mapping fields) :
    ShareFault digits id d (.invalidDocument (.entryNotMapping id))
  | baseMissing {fields : List (Scalar × Data)} (h : Data.find? "base" fields = none) :
    ShareFault digits id (.mapping fields) (.invalidDocument (.baseMissing id))
  | baseNotInteger {fields : List (Scalar × Data)} (h : Data.find? "base" fields ≠ none)
    (hb : ∀ base, ¬ Denotes fields "base" base) :
    ShareFault digits id (.mapping fields) (.invalidDocument (.baseNotInteger (some id)))
  | baseTooLong {fields : List (Scalar × Data)} {e : Fault} (h : TooLong digits fields "base" e) :
    ShareFault digits id (.mapping fields) e
  | baseOutOfRange {fields : List (Scalar × Data)} {base : Int}
    (hb : Reads digits fields "base" base) (hr : ¬ (2 ≤ base ∧ base ≤ 36)) :
    ShareFault digits id (.mapping fields) (.invalidDocument (.baseOutOfRange (some id) base))
  | valueMissing {fields : List (Scalar × Data)} {base : Int}
    (hb : Reads digits fields "base" base) (hr : 2 ≤ base ∧ base ≤ 36) (hv : LacksValue fields) :
    ShareFault digits id (.mapping fields) (.invalidDocument (.valueMissing id))
  | valueNotText {fields : List (Scalar × Data)} {base : Int}
    (hb : Reads digits fields "base" base) (hr : 2 ≤ base ∧ base ≤ 36) (hv : HasNoText fields) :
    ShareFault digits id (.mapping fields) (.invalidDocument (.valueNotText id))
  | valueTooLong {fields : List (Scalar × Data)} {base : Int} {v : Scalar} {e : Fault}
    (hb : Reads digits fields "base" base) (hr : 2 ≤ base ∧ base ≤ 36)
    (hv : Data.find? "value" fields = some (.scalar v)) (h : v.TooLongValue digits e) :
    ShareFault digits id (.mapping fields) e

/-- What is wrong with an entry under a number, behind entries that are in order. -/
inductive EntryFault (digits : DigitLimit) (before : List (Scalar × Data)) :
    Scalar × Data → Fault → Prop
  | tooLong {key : Scalar} {d : Data} {e : Fault} (h : key.TooLong digits e) :
    EntryFault digits before (key, d) e
  | notPositive {key : Scalar} {d : Data} {id : Int} (hk : key.ReadsAs digits id) (h : id < 1) :
    EntryFault digits before (key, d) (.invalidDocument (.idNotPositive id))
  | repeated {key : Scalar} {d : Data} {id : Int} (hk : key.ReadsAs digits id) (h₁ : 1 ≤ id)
    (h : ∃ a ∈ before, a.1.Denotes id) : EntryFault digits before (key, d) (.duplicateShare id)
  | share {key : Scalar} {d : Data} {id : Int} {e : Fault} (hk : key.ReadsAs digits id)
    (h₁ : 1 ≤ id) (hn : ∀ a ∈ before, ¬ a.1.Denotes id) (h : ShareFault digits id d e) :
    EntryFault digits before (key, d) e

/-- The fault of the first entry that is not in order. -/
def EntriesFault (digits : DigitLimit) (entries : List (Scalar × Data)) (e : Fault) : Prop :=
  ∃ before a after, entries = before ++ a :: after ∧ SoundEntries digits before ∧
    EntryFault digits before a e

/-- What data that denotes no bundle is refused for. Each check presupposes those before it. -/
inductive FirstFault (digits : DigitLimit) : Data → Fault → Prop
  | notMapping {d : Data} (h : ∀ entries, d ≠ .mapping entries) :
    FirstFault digits d (.invalidDocument .notMapping)
  | noKeys {entries : List (Scalar × Data)}
    (h : ∀ counts, Data.find? "keys" entries ≠ some (.mapping counts)) :
    FirstFault digits (.mapping entries) (.invalidDocument .noKeys)
  | noTotal {entries counts : List (Scalar × Data)}
    (hk : Data.find? "keys" entries = some (.mapping counts))
    (h : ∀ total, ¬ Denotes counts "n" total) :
    FirstFault digits (.mapping entries) (.invalidDocument (.countNotInteger "n"))
  | totalTooLong {entries counts : List (Scalar × Data)} {e : Fault}
    (hk : Data.find? "keys" entries = some (.mapping counts)) (h : TooLong digits counts "n" e) :
    FirstFault digits (.mapping entries) e
  | noThreshold {entries counts : List (Scalar × Data)} {total : Int}
    (hk : Data.find? "keys" entries = some (.mapping counts)) (hn : Reads digits counts "n" total)
    (h : ∀ threshold, ¬ Denotes counts "k" threshold) :
    FirstFault digits (.mapping entries) (.invalidDocument (.countNotInteger "k"))
  | thresholdTooLong {entries counts : List (Scalar × Data)} {total : Int} {e : Fault}
    (hk : Data.find? "keys" entries = some (.mapping counts)) (hn : Reads digits counts "n" total)
    (h : TooLong digits counts "k" e) : FirstFault digits (.mapping entries) e
  | range {entries counts : List (Scalar × Data)} {total threshold : Int}
    (hk : Data.find? "keys" entries = some (.mapping counts)) (hn : Reads digits counts "n" total)
    (ht : Reads digits counts "k" threshold) (h : ¬ (1 ≤ threshold ∧ threshold ≤ total)) :
    FirstFault digits (.mapping entries) (.invalidThreshold threshold (some total))
  | entry {entries counts : List (Scalar × Data)} {total threshold : Int} {e : Fault}
    (hk : Data.find? "keys" entries = some (.mapping counts)) (hn : Reads digits counts "n" total)
    (ht : Reads digits counts "k" threshold) (hr : 1 ≤ threshold ∧ threshold ≤ total)
    (h : EntriesFault digits entries e) : FirstFault digits (.mapping entries) e

variable {digits : DigitLimit}

/-! ## The fields of a section -/

theorem Reads.exists_find? {fields : List (Scalar × Data)} {name : String} {v : Int}
    (h : Reads digits fields name v) : ∃ s, Data.find? name fields = some (.scalar s) :=
  h.imp fun _ h => h.1

theorem TooLong.exists_find? {fields : List (Scalar × Data)} {name : String} {e : Fault}
    (h : TooLong digits fields name e) : ∃ s, Data.find? name fields = some (.scalar s) :=
  h.imp fun _ h => h.1

theorem readIntegerIn_of_reads {fields : List (Scalar × Data)} {name : String} {v : Int} {d : Data}
    (h : Reads digits fields name v) (hd : Data.find? name fields = some d) :
    readIntegerIn digits d = .ok (some v) := by
  obtain ⟨s, hs, hv⟩ := h
  exact readIntegerIn_eq_some_iff.2 ⟨s, Option.some.inj (hd.symm.trans hs), hv⟩

theorem readIntegerIn_of_tooLong {fields : List (Scalar × Data)} {name : String} {e : Fault}
    {d : Data} (h : TooLong digits fields name e) (hd : Data.find? name fields = some d) :
    readIntegerIn digits d = .error e := by
  obtain ⟨s, hs, hv⟩ := h
  exact readIntegerIn_eq_error_iff.2 ⟨s, Option.some.inj (hd.symm.trans hs), hv⟩

theorem readIntegerIn_of_not_denotes {fields : List (Scalar × Data)} {name : String} {d : Data}
    (h : ∀ v, ¬ Denotes fields name v) (hd : Data.find? name fields = some d) :
    readIntegerIn digits d = .ok none := by
  refine readIntegerIn_eq_none_iff.2 fun s hs v hv => h v ⟨s, ?_, hv⟩
  rw [hd, hs]

/-- A field is an integer that may be read, one with too many digits, or no integer at all. -/
theorem reads_or_tooLong (digits : DigitLimit) (fields : List (Scalar × Data)) (name : String) :
    (∃ v, Reads digits fields name v) ∨ (∃ e, TooLong digits fields name e) ∨
      ∀ v, ¬ Denotes fields name v := by
  by_cases hd : ∃ v, Denotes fields name v
  · obtain ⟨v, s, hs, hv⟩ := hd
    by_cases hl : ∃ e, s.TooLong digits e
    · obtain ⟨e, he⟩ := hl
      exact .inr (.inl ⟨e, s, hs, he⟩)
    · exact .inl ⟨v, s, hs, hv, fun e he => hl ⟨e, he⟩⟩
  · exact .inr (.inr fun v hv => hd ⟨v, hv⟩)

theorem readCount_of_not_denotes {counts : List (Scalar × Data)} {name : String}
    (h : ∀ v, ¬ Denotes counts name v) :
    readCount digits counts name = .error (.invalidDocument (.countNotInteger name)) := by
  have hi : readIntegerIn digits ((Data.find? name counts).getD (.scalar .null)) = .ok none := by
    cases hf : Data.find? name counts with
    | none => rfl
    | some d => exact readIntegerIn_of_not_denotes h hf
  rw [readCount, hi, ok_bind]

theorem readCount_of_tooLong {counts : List (Scalar × Data)} {name : String} {e : Fault}
    (h : TooLong digits counts name e) : readCount digits counts name = .error e := by
  obtain ⟨s, hs⟩ := h.exists_find?
  rw [readCount, hs, Option.getD_some, readIntegerIn_of_tooLong h hs, error_bind]

/-! ## The data under a number -/

theorem LacksValue.readValue {fields : List (Scalar × Data)} (h : LacksValue fields) (id : Int) :
    Bundle.readValue digits id fields = .error (.invalidDocument (.valueMissing id)) := by
  cases hv : Data.find? "value" fields with
  | none => rw [Bundle.readValue, hv]
  | some d => rcases h d hv with rfl | ⟨b, rfl⟩ <;> rw [Bundle.readValue, hv]

theorem HasNoText.readValue {fields : List (Scalar × Data)} (h : HasNoText fields) (id : Int) :
    Bundle.readValue digits id fields = .error (.invalidDocument (.valueNotText id)) := by
  obtain ⟨hl, ht⟩ := h
  cases hv : Data.find? "value" fields with
  | none => exact absurd (fun d hd => by rw [hv] at hd; cases hd) hl
  | some d =>
    rw [Bundle.readValue, hv]
    cases d with
    | list items => rfl
    | mapping entries => rfl
    | scalar v =>
      cases v with
      | null => exact absurd (fun d hd => .inl (Option.some.inj (hd.symm.trans hv))) hl
      | bool b => exact absurd (fun d hd => .inr ⟨b, Option.some.inj (hd.symm.trans hv)⟩) hl
      | int v => exact absurd (.int v) (ht _ _ hv)
      | text s => exact absurd (.text s) (ht _ _ hv)
      | unpaired codes => exact absurd (.unpaired codes) (ht _ _ hv)
      | bytes _ | float _ | date _ | moment _ => rfl

theorem readValue_of_tooLong {fields : List (Scalar × Data)} {v : Scalar} {e : Fault}
    (hv : Data.find? "value" fields = some (.scalar v)) (h : v.TooLongValue digits e) (id : Int) :
    readValue digits id fields = .error e := by
  cases h with
  | int hm =>
    rw [readValue, hv]
    simp only [DigitLimit.write_most_of_lt hm]
    rfl

theorem ShareFault.readShare {id : Int} {d : Data} {e : Fault} (h : ShareFault digits id d e) :
    Bundle.readShare digits id d = .error e := by
  -- Behind a base in its range, reading goes on with the value.
  have hbase : ∀ {fields base}, Reads digits fields "base" base → (2 ≤ base ∧ base ≤ 36) →
      ∀ f, readValue digits id fields = .error f →
        Bundle.readShare digits id (.mapping fields) = .error f := by
    rintro fields base ⟨s, hs, hb⟩ hr f hf
    rw [Bundle.readShare, hs]
    simp only [readBase_eq_ok_iff.2 ⟨⟨s, rfl, hb⟩, hr⟩, hf, ok_bind, error_bind]
  cases h with
  | notMapping h =>
    cases d with
    | scalar v => rfl
    | list items => rfl
    | mapping fields => exact absurd rfl (h fields)
  | baseMissing h => rw [Bundle.readShare, h]
  | baseNotInteger h hb =>
    obtain ⟨b, hf⟩ := Option.ne_none_iff_exists'.1 h
    rw [Bundle.readShare, hf]
    simp only [readBase, readIntegerIn_of_not_denotes hb hf, ok_bind, error_bind]
  | baseTooLong h =>
    obtain ⟨s, hs⟩ := h.exists_find?
    rw [Bundle.readShare, hs]
    simp only [readBase, readIntegerIn_of_tooLong h hs, error_bind]
  | baseOutOfRange hb hr =>
    obtain ⟨s, hs⟩ := hb.exists_find?
    rw [Bundle.readShare, hs]
    simp [readBase, readIntegerIn_of_reads hb hs, hr]
  | valueMissing hb hr hv => exact hbase hb hr _ (hv.readValue id)
  | valueNotText hb hr hv => exact hbase hb hr _ (hv.readValue id)
  | valueTooLong hb hr hv h => exact hbase hb hr _ (readValue_of_tooLong hv h id)

/-- Where no share stands, one of the checks fails. -/
theorem exists_shareFault (id : Int) {d : Data}
    (h : ¬ ∃ s : Share, (2 ≤ s.base ∧ s.base ≤ 36) ∧ Holds digits d s) :
    ∃ e, ShareFault digits id d e := by
  cases d with
  | scalar v => exact ⟨_, .notMapping nofun⟩
  | list items => exact ⟨_, .notMapping nofun⟩
  | mapping fields =>
    by_cases hf : Data.find? "base" fields = none
    · exact ⟨_, .baseMissing hf⟩
    rcases reads_or_tooLong digits fields "base" with ⟨base, hb⟩ | ⟨e, he⟩ | hn
    · by_cases hr : 2 ≤ base ∧ base ≤ 36
      · by_cases hl : LacksValue fields
        · exact ⟨_, .valueMissing hb hr hl⟩
        by_cases ht : ∃ v text, Data.find? "value" fields = some (.scalar v) ∧ v.HasText text
        · obtain ⟨v, text, hv, ht⟩ := ht
          by_cases hw : ∃ e, v.TooLongValue digits e
          · obtain ⟨e, he⟩ := hw
            exact ⟨e, .valueTooLong hb hr hv he⟩
          · exact absurd ⟨⟨id, base, text⟩, hr, fields, rfl, hb, v, hv, ht,
              fun e he => hw ⟨e, he⟩⟩ h
        · exact ⟨_, .valueNotText hb hr ⟨hl, fun v text hv h => ht ⟨v, text, hv, h⟩⟩⟩
      · exact ⟨_, .baseOutOfRange hb hr⟩
    · exact ⟨e, .baseTooLong he⟩
    · exact ⟨_, .baseNotInteger hf hn⟩

/-! ## Entries -/

/-- The entry is in order behind those before it. -/
structure SoundEntry (digits : DigitLimit) (before : List (Scalar × Data)) (e : Scalar × Data) :
    Prop where
  not_tooLong : ∀ f, ¬ e.1.TooLong digits f
  sound : ∀ id, e.1.Denotes id → 1 ≤ id ∧ (∀ a ∈ before, ¬ a.1.Denotes id) ∧
    ∃ s : Share, (2 ≤ s.base ∧ s.base ≤ 36) ∧ Holds digits e.2 s

theorem soundEntries_nil : SoundEntries digits [] :=
  ⟨nofun, nofun, .nil, nofun⟩

theorem soundEntries_concat {before : List (Scalar × Data)} {e : Scalar × Data} :
    SoundEntries digits (before ++ [e]) ↔
      SoundEntries digits before ∧ SoundEntry digits before e := by
  constructor
  · rintro ⟨hl, h₁, hd, hh⟩
    obtain ⟨hb, -, hbe⟩ := List.pairwise_append.1 hd
    have hm : ∀ a ∈ before, a ∈ before ++ [e] := fun a ha => List.mem_append_left [e] ha
    have he : e ∈ before ++ [e] := List.mem_append_right before List.mem_cons_self
    refine ⟨⟨fun a ha => hl a (hm a ha), fun a ha => h₁ a (hm a ha), hb, fun a ha => hh a (hm a ha)⟩,
      hl e he, fun id hid => ?_⟩
    exact ⟨h₁ e he id hid, fun a ha had => hbe a ha e List.mem_cons_self id had hid, hh e he id hid⟩
  · rintro ⟨⟨hl, h₁, hd, hh⟩, hle, he⟩
    refine ⟨fun a ha => ?_, fun a ha id hid => ?_,
      List.pairwise_append.2 ⟨hd, List.pairwise_singleton _ _, ?_⟩, fun a ha id hid => ?_⟩
    · rcases List.mem_append.1 ha with ha | ha
      · exact hl a ha
      · obtain rfl := List.mem_singleton.1 ha
        exact hle
    · rcases List.mem_append.1 ha with ha | ha
      · exact h₁ a ha id hid
      · obtain rfl := List.mem_singleton.1 ha
        exact (he id hid).1
    · intro a ha b hb id hid hid'
      obtain rfl := List.mem_singleton.1 hb
      exact (he id hid').2.1 a ha hid
    · rcases List.mem_append.1 ha with ha | ha
      · exact hh a ha id hid
      · obtain rfl := List.mem_singleton.1 ha
        exact (he id hid).2.2

/-- An entry is in order behind those before it, or something is wrong with it. -/
theorem soundEntry_or_entryFault (digits : DigitLimit) (before : List (Scalar × Data))
    (a : Scalar × Data) : SoundEntry digits before a ∨ ∃ e, EntryFault digits before a e := by
  obtain ⟨key, d⟩ := a
  by_cases hl : ∃ e, key.TooLong digits e
  · obtain ⟨e, he⟩ := hl
    exact .inr ⟨e, .tooLong he⟩
  have hl : ∀ e, ¬ key.TooLong digits e := fun e he => hl ⟨e, he⟩
  by_cases hk : ∃ id, key.Denotes id
  · obtain ⟨id, hk⟩ := hk
    by_cases h₁ : 1 ≤ id
    · by_cases hn : ∃ a ∈ before, a.1.Denotes id
      · exact .inr ⟨_, .repeated ⟨hk, hl⟩ h₁ hn⟩
      · have hn : ∀ a ∈ before, ¬ a.1.Denotes id := fun a ha hd => hn ⟨a, ha, hd⟩
        by_cases hs : ∃ s : Share, (2 ≤ s.base ∧ s.base ≤ 36) ∧ Holds digits d s
        · refine .inl ⟨hl, fun id' hk' => ?_⟩
          rw [← denotes_unique hk hk']
          exact ⟨h₁, hn, hs⟩
        · obtain ⟨e, he⟩ := exists_shareFault id hs
          exact .inr ⟨e, .share ⟨hk, hl⟩ h₁ hn he⟩
    · exact .inr ⟨_, .notPositive ⟨hk, hl⟩ (not_le.1 h₁)⟩
  · exact .inl ⟨hl, fun id hd => absurd ⟨id, hd⟩ hk⟩

theorem outcome_readShares_of_entryFault {total : Int} {seen : List Int}
    {before after : List (Scalar × Data)} {a : Scalar × Data} {e : Fault}
    (hs : ∀ id, id ∈ seen ↔ ∃ a ∈ before, a.1.Denotes id) (h : EntryFault digits before a e) :
    (readShares digits total seen (a :: after)).outcome = .error e := by
  cases h with
  | tooLong h => exact outcome_readShares_of_tooLong _ _ h
  | notPositive hk h => rw [outcome_readShares_cons hk, if_pos h]
  | repeated hk h₁ h =>
    rw [outcome_readShares_cons hk, if_neg (not_lt.2 h₁), if_pos ((hs _).2 h)]
  | share hk h₁ hn h =>
    have hn : _ ∉ seen := fun hm => by
      obtain ⟨a, ha, hd⟩ := (hs _).1 hm
      exact hn a ha hd
    rw [outcome_readShares_cons hk, if_neg (not_lt.2 h₁), if_neg hn, h.readShare, error_bind]

/-- Reading goes on behind an entry that is in order. -/
theorem exists_readShares_cons (total : Int) {seen : List Int} {before : List (Scalar × Data)}
    {a : Scalar × Data} (hs : ∀ id, id ∈ seen ↔ ∃ a ∈ before, a.1.Denotes id)
    (h : SoundEntry digits before a) :
    ∃ seen' f, (∀ id, id ∈ seen' ↔ ∃ b ∈ before ++ [a], b.1.Denotes id) ∧
      ∀ rest, (readShares digits total seen (a :: rest)).outcome =
        f <$> (readShares digits total seen' rest).outcome := by
  obtain ⟨key, d⟩ := a
  by_cases hk : ∃ id, key.Denotes id
  · obtain ⟨id, hk⟩ := hk
    obtain ⟨h₁, hn, s, hr, hh⟩ := h.sound id hk
    have hn : id ∉ seen := fun hm => by
      obtain ⟨a, ha, hd⟩ := (hs id).1 hm
      exact hn a ha hd
    have hread : readShare digits id d = .ok ⟨id, s.base, s.raw⟩ :=
      readShare_eq_ok_iff.2 ⟨rfl, hr, hh⟩
    refine ⟨id :: seen, (⟨id, s.base, s.raw⟩ :: ·), fun id' => ?_, fun rest => ?_⟩
    · have hid : id' = id ↔ key.Denotes id' := ⟨fun he => he ▸ hk, fun hd => denotes_unique hd hk⟩
      simp [hs, hid, or_comm, or_and_right, exists_or]
    · rw [outcome_readShares_cons ⟨hk, h.not_tooLong⟩, if_neg (not_lt.2 h₁), if_neg hn, hread,
        ok_bind]
      rfl
  · have hd : ∀ id, ¬ key.Denotes id := fun id hd => hk ⟨id, hd⟩
    refine ⟨seen, id, fun id => by simp [hs, hd], fun rest => ?_⟩
    rw [outcome_readShares_of_denotes_nothing d rest hd, id_map]

/-- Reading goes on behind entries that are in order. -/
theorem exists_readShares_append (total : Int) {before : List (Scalar × Data)}
    (h : SoundEntries digits before) :
    ∃ seen f, (∀ id, id ∈ seen ↔ ∃ a ∈ before, a.1.Denotes id) ∧
      ∀ rest, (readShares digits total [] (before ++ rest)).outcome =
        f <$> (readShares digits total seen rest).outcome := by
  induction before using List.reverseRecOn with
  | nil => exact ⟨[], id, by simp, fun rest => (id_map _).symm⟩
  | append_singleton before a ih =>
    obtain ⟨hb, ha⟩ := soundEntries_concat.1 h
    obtain ⟨seen, f, hs, hf⟩ := ih hb
    obtain ⟨seen', g, hs', hg⟩ := exists_readShares_cons total hs ha
    refine ⟨seen', f ∘ g, hs', fun rest => ?_⟩
    rw [List.append_assoc, List.singleton_append, hf, hg, Functor.map_map]
    rfl

theorem SoundEntries.outcome_readShares {entries : List (Scalar × Data)}
    (h : SoundEntries digits entries) (total : Int) :
    ∃ shares, (readShares digits total [] entries).outcome = .ok shares := by
  obtain ⟨seen, f, -, hf⟩ := exists_readShares_append total h
  exact ⟨f [], by rw [← List.append_nil entries, hf]; rfl⟩

theorem EntriesFault.outcome_readShares {entries : List (Scalar × Data)} {e : Fault}
    (h : EntriesFault digits entries e) (total : Int) :
    (readShares digits total [] entries).outcome = .error e := by
  obtain ⟨before, a, after, rfl, hb, ha⟩ := h
  obtain ⟨seen, f, hs, hf⟩ := exists_readShares_append total hb
  rw [hf, outcome_readShares_of_entryFault hs ha]
  rfl

/-- Entries are in order, or there is a first one that is not. -/
theorem soundEntries_or_entriesFault (digits : DigitLimit) (entries : List (Scalar × Data)) :
    SoundEntries digits entries ∨ ∃ e, EntriesFault digits entries e := by
  induction entries using List.reverseRecOn with
  | nil => exact .inl soundEntries_nil
  | append_singleton entries a ih =>
    rcases ih with hs | ⟨e, before, b, after, rfl, hb, he⟩
    · rcases soundEntry_or_entryFault digits entries a with ha | ⟨e, he⟩
      · exact .inl (soundEntries_concat.2 ⟨hs, ha⟩)
      · exact .inr ⟨e, entries, a, [], rfl, hs, he⟩
    · exact .inr ⟨e, before, b, after ++ [a], by simp, hb, he⟩

/-! ## Data -/

theorem Acceptable.outcome_ofData {d : Data} (h : Acceptable digits d) :
    ∃ b, (ofData digits d).outcome = .ok b := by
  obtain ⟨entries, counts, total, threshold, rfl, hk, hn, ht, hr, hs⟩ := h
  obtain ⟨shares, hs⟩ := hs.outcome_readShares total
  exact ⟨⟨threshold, total, byNumber shares⟩,
    outcome_ofData_eq_ok_iff.2 ⟨entries, counts, shares, rfl, hk, hn, ht, hr, hs, rfl⟩⟩

theorem FirstFault.outcome_readBundle {d : Data} {e : Fault} (h : FirstFault digits d e) :
    (readBundle digits d).outcome = .error e := by
  cases h with
  | notMapping h =>
    cases d with
    | scalar v => rfl
    | list items => rfl
    | mapping entries => exact absurd rfl (h entries)
  | noKeys h =>
    rw [readBundle]
    split
    · rename_i counts hk
      exact absurd hk (h counts)
    · rfl
  | noTotal hk h =>
    rw [outcome_readBundle_mapping hk, readCount_of_not_denotes h, error_bind]
  | totalTooLong hk h =>
    rw [outcome_readBundle_mapping hk, readCount_of_tooLong h, error_bind]
  | noThreshold hk hn h =>
    rw [outcome_readBundle_mapping hk, readCount_eq_ok_iff.2 hn, ok_bind,
      readCount_of_not_denotes h, error_bind]
  | thresholdTooLong hk hn h =>
    rw [outcome_readBundle_mapping hk, readCount_eq_ok_iff.2 hn, ok_bind, readCount_of_tooLong h,
      error_bind]
  | range hk hn ht h =>
    rw [outcome_readBundle_mapping hk, readCount_eq_ok_iff.2 hn, ok_bind, readCount_eq_ok_iff.2 ht,
      ok_bind, if_pos (by omega)]
  | entry hk hn ht hr h =>
    rw [outcome_readBundle_mapping hk, readCount_eq_ok_iff.2 hn, ok_bind, readCount_eq_ok_iff.2 ht,
      ok_bind, if_neg (by omega), h.outcome_readShares, error_bind]

theorem FirstFault.outcome_ofData {d : Data} {e : Fault} (h : FirstFault digits d e) :
    (ofData digits d).outcome = .error (e.within digits) := by
  rw [ofData, Journal.outcome_within, h.outcome_readBundle]
  rfl

theorem acceptable_or_firstFault (digits : DigitLimit) (d : Data) :
    Acceptable digits d ∨ ∃ e, FirstFault digits d e := by
  by_cases hd : ∃ entries, d = .mapping entries
  · obtain ⟨entries, rfl⟩ := hd
    by_cases hk : ∃ counts, Data.find? "keys" entries = some (.mapping counts)
    · obtain ⟨counts, hk⟩ := hk
      rcases reads_or_tooLong digits counts "n" with ⟨total, hn⟩ | ⟨e, he⟩ | hn
      · rcases reads_or_tooLong digits counts "k" with ⟨threshold, ht⟩ | ⟨e, he⟩ | ht
        · by_cases hr : 1 ≤ threshold ∧ threshold ≤ total
          · rcases soundEntries_or_entriesFault digits entries with hs | ⟨e, he⟩
            · exact .inl ⟨entries, counts, total, threshold, rfl, hk, hn, ht, hr, hs⟩
            · exact .inr ⟨e, .entry hk hn ht hr he⟩
          · exact .inr ⟨_, .range hk hn ht hr⟩
        · exact .inr ⟨e, .thresholdTooLong hk hn he⟩
        · exact .inr ⟨_, .noThreshold hk hn ht⟩
      · exact .inr ⟨e, .totalTooLong hk he⟩
      · exact .inr ⟨_, .noTotal hk hn⟩
    · exact .inr ⟨_, .noKeys fun counts h => hk ⟨counts, h⟩⟩
  · exact .inr ⟨_, .notMapping fun entries h => hd ⟨entries, h⟩⟩

theorem acceptable_of_ofData {d : Data} {b : Bundle} (h : (ofData digits d).outcome = .ok b) :
    Acceptable digits d := by
  rcases acceptable_or_firstFault digits d with ha | ⟨e, he⟩
  · exact ha
  · cases h.symm.trans he.outcome_ofData

theorem outcome_ofData_eq_error_iff {d : Data} {e : Fault} :
    (ofData digits d).outcome = .error e ↔ ∃ e', FirstFault digits d e' ∧ e'.within digits = e := by
  constructor
  · intro h
    rcases acceptable_or_firstFault digits d with ha | ⟨e', he⟩
    · obtain ⟨b, hb⟩ := ha.outcome_ofData
      cases h.symm.trans hb
    · cases h.symm.trans he.outcome_ofData
      exact ⟨e', he, rfl⟩
  · rintro ⟨e', he, rfl⟩
    exact he.outcome_ofData

theorem mem_numbered {entries : List (Scalar × Data)} {n : Int × Data} :
    n ∈ numbered entries ↔ ∃ e ∈ entries, e.1.Denotes n.1 ∧ e.2 = n.2 := by
  simp only [numbered, List.mem_filterMap, Option.map_eq_some_iff, ← integerOf?_eq_some_iff]
  constructor
  · rintro ⟨e, he, id, hid, rfl⟩
    exact ⟨e, he, hid, rfl⟩
  · rintro ⟨e, he, hid, hd⟩
    exact ⟨e, he, n.1, hid, by rw [hd]⟩

theorem mem_of_readShares {numbers : List (Int × Data)} {shares : List Share} {s : Share}
    (h : List.Forall₂ (fun e s => readShare digits e.1 e.2 = .ok s) numbers shares) :
    s ∈ shares ↔ ∃ n ∈ numbers, readShare digits n.1 n.2 = .ok s := by
  induction h with
  | nil => simp
  | @cons n t ns ts hn _ ih =>
    rw [List.mem_cons, ih, List.exists_mem_cons_iff, hn, Except.ok.injEq, eq_comm]

/-- What an entry holds it holds whatever the limit is. -/
theorem Holds.lifted {d : Data} {s : Share} (h : Holds digits d s) : Holds .lifted d s := by
  obtain ⟨fields, rfl, ⟨b, hb, hbs⟩, v, hv, hvs⟩ := h
  exact ⟨fields, rfl, ⟨b, hb, hbs.1, nofun⟩, v, hv, hvs.1, nofun⟩

/-- Data holds one base and one value. -/
theorem Holds.unique {d : Data} {s t : Share} (hs : Holds .lifted d s) (ht : Holds .lifted d t) :
    s.base = t.base ∧ s.raw = t.raw := by
  obtain ⟨fields, rfl, ⟨b, hb, hbs⟩, v, hv, hvs⟩ := hs
  obtain ⟨fields', he, ⟨b', hb', hbt⟩, v', hv', hvt⟩ := ht
  cases he
  cases hb.symm.trans hb'
  cases hv.symm.trans hv'
  exact ⟨denotes_unique hbs.1 hbt.1, hvs.1.unique hvt.1⟩

theorem describes_of_ofData {d : Data} {b : Bundle} (h : (ofData digits d).outcome = .ok b) :
    Describes d b := by
  have hw := wellFormed_of_ofData h
  obtain ⟨entries, counts, shares, rfl, hk, hn, ht, hr, hs, hb⟩ := outcome_ofData_eq_ok_iff.1 h
  have hsound : SoundEntries digits entries := by
    rcases soundEntries_or_entriesFault digits entries with hsound | ⟨e, he⟩
    · exact hsound
    · rw [he.outcome_readShares] at hs
      cases hs
  obtain ⟨-, -, -, hf⟩ := outcome_readShares_eq_ok_iff.1 hs
  have hmem : ∀ s, s ∈ b.shares ↔ ∃ e ∈ entries, e.1.Denotes s.id ∧ Holds .lifted e.2 s := by
    intro s
    rw [hb, byNumber, mem_sortBy, mem_of_readShares hf]
    constructor
    · rintro ⟨n, hn, hs⟩
      obtain ⟨e, he, hid, hd⟩ := mem_numbered.1 hn
      obtain ⟨hid', -, hh⟩ := readShare_eq_ok_iff.1 hs
      exact ⟨e, he, hid' ▸ hid, hd ▸ hh.lifted⟩
    · rintro ⟨e, he, hid, hh⟩
      obtain ⟨t, htr, hth⟩ := hsound.holds e he s.id hid
      obtain ⟨hbase, hraw⟩ := hh.unique hth.lifted
      refine ⟨(s.id, e.2), mem_numbered.2 ⟨e, he, hid, rfl⟩, readShare_eq_ok_iff.2 ⟨rfl, ?_, ?_⟩⟩
      · rwa [hbase]
      · obtain ⟨fields, hd, hbr, v, hv, hvw⟩ := hth
        exact ⟨fields, hd, hbase ▸ hbr, v, hv, hraw ▸ hvw⟩
  refine ⟨⟨entries, counts, rfl, hk, hn.denotes, ht.denotes, hmem, fun e he id hid => ?_⟩,
    hw.ascending⟩
  obtain ⟨t, -, hth⟩ := hsound.holds e he id hid
  have hm : ⟨id, t.base, t.raw⟩ ∈ b.shares := (hmem _).2 ⟨e, he, hid, hth.lifted⟩
  refine ⟨⟨id, t.base, t.raw⟩, ⟨hm, rfl⟩, ?_⟩
  rintro s ⟨hs, rfl⟩
  exact List.inj_on_of_nodup_map hw.nodup_ids hs hm rfl

/-- Data denotes a bundle exactly if it is acceptable, and then the one that it describes; else it
is refused for the first thing that is wrong with it, which is put into words under the limit. -/
theorem ofData_decides (digits : DigitLimit) (d : Data) :
    ((∃ b, (ofData digits d).outcome = .ok b) ↔ Acceptable digits d) ∧
      (∀ b, (ofData digits d).outcome = .ok b → Describes d b) ∧
      ∀ e, (ofData digits d).outcome = .error e ↔
        ∃ e', FirstFault digits d e' ∧ e'.within digits = e := by
  refine ⟨⟨?_, Acceptable.outcome_ofData⟩, fun b => describes_of_ofData, fun e =>
    outcome_ofData_eq_error_iff⟩
  rintro ⟨b, hb⟩
  exact acceptable_of_ofData hb

/-- Numbers and counts in digits of other scripts, a share above the total, and an entry that is
passed over. -/
def foreignDocument : Data :=
  .mapping [(.text " ٧ ".toList, .mapping [(.text "value".toList, .scalar (.int (-5))),
      (.text "base".toList, .scalar (.text "１６".toList))]),
    (.text "note".toList, .list []),
    (keysSection, .mapping [(.text "k".toList, .scalar (.text "१".toList)),
      (.text "n".toList, .scalar (.int 2))]),
    (.int 2, .mapping [(.text "base".toList, .scalar (.int 2)),
      (.text "value".toList, .scalar (.text "11".toList))])]

/-- Two entries under one number, the second of which is wrong in itself as well. -/
def repeatedDocument : Data :=
  .mapping [(keysSection, .mapping [(.text "n".toList, .scalar (.int 2)),
      (.text "k".toList, .scalar (.int 1))]),
    (.text "07".toList, .mapping [(.text "base".toList, .scalar (.int 2)),
      (.text "value".toList, .scalar (.text "11".toList))]),
    (.int 7, .list [])]

theorem ofData_decides_foreign :
    (Acceptable .lifted foreignDocument ∧ Describes foreignDocument
      ⟨1, 2, [⟨2, 2, .text "11".toList⟩, ⟨7, 16, .text "-5".toList⟩]⟩) ∧
      ∃ e, FirstFault .lifted repeatedDocument e ∧ e.within .lifted = .duplicateShare 7 := by
  have hf : (ofData .lifted foreignDocument).outcome =
      .ok ⟨1, 2, [⟨2, 2, .text "11".toList⟩, ⟨7, 16, .text "-5".toList⟩]⟩ := by decide
  obtain ⟨ha, hd, -⟩ := ofData_decides .lifted foreignDocument
  exact ⟨⟨ha.1 ⟨_, hf⟩, hd _ hf⟩, ((ofData_decides .lifted repeatedDocument).2.2 _).1 (by decide)⟩

/-- An entry of a share. -/
def shareEntry (base value : Scalar) : Data :=
  .mapping [(.text "base".toList, .scalar base), (.text "value".toList, .scalar value)]

/-- The entries of a document with one share. -/
def oneShare (base value : Scalar) : List (Scalar × Data) :=
  [(keysSection, .mapping [(.text "n".toList, .scalar (.int 1)),
      (.text "k".toList, .scalar (.int 1))]),
    (.int 1, shareEntry base value)]

theorem holds_shareEntry {base value : Scalar} {s : Share} (hb : base.ReadsAs digits s.base)
    (hv : value.WritesAs digits s.raw) : Holds digits (shareEntry base value) s :=
  ⟨_, rfl, ⟨base, rfl, hb⟩, value, rfl, hv⟩

theorem lists_oneShare {base value : Scalar} {b : Int} {raw : RawText}
    (hb : base.ReadsAs digits b) (hr : 2 ≤ b ∧ b ≤ 36) (hv : value.WritesAs digits raw) :
    Lists digits 1 1 [⟨1, b, raw⟩] (oneShare base value) :=
  ⟨⟨_, _, [], .refl _, ⟨_, rfl, readsAs_int 1⟩, ⟨_, rfl, readsAs_int 1⟩,
    .cons ⟨readsAs_int 1, holds_shareEntry hb hv⟩ .nil, nofun⟩, by simp, by simp, by simpa using hr⟩

theorem outcome_ofData_oneShare {base value : Scalar} {b : Int} {raw : RawText}
    (hb : base.ReadsAs digits b) (hr : 2 ≤ b ∧ b ≤ 36) (hv : value.WritesAs digits raw) :
    (ofData digits (.mapping (oneShare base value))).outcome = .ok ⟨1, 1, [⟨1, b, raw⟩]⟩ :=
  (lists_oneShare hb hr hv).outcome_ofData le_rfl le_rfl

theorem soundEntries_keysSection (d : Data) : SoundEntries digits [(keysSection, d)] := by
  have hn : ∀ v, ¬ keysSection.Denotes v := integerOf?_eq_none_iff.1 integerOf?_keysSection
  refine soundEntries_concat.2 ⟨soundEntries_nil, fun e he => ?_, fun id hid => absurd hid (hn id)⟩
  obtain ⟨v, hv⟩ := exists_denotes_of_tooLong he
  exact hn v hv

theorem ShareFault.outcome_ofData_oneShare {base value : Scalar} {e : Fault}
    (h : ShareFault digits 1 (shareEntry base value) e) :
    (ofData digits (.mapping (oneShare base value))).outcome = .error (e.within digits) := by
  have hn : ∀ v, ¬ keysSection.Denotes v := integerOf?_eq_none_iff.1 integerOf?_keysSection
  have hf : FirstFault digits (.mapping (oneShare base value)) e :=
    .entry rfl ⟨_, rfl, readsAs_int 1⟩ ⟨_, rfl, readsAs_int 1⟩ ⟨le_rfl, le_rfl⟩
      ⟨_, _, [], rfl, soundEntries_keysSection _, .share (readsAs_int 1) le_rfl (by simpa using hn 1) h⟩
  exact hf.outcome_ofData

/-- Ten, behind `count` zeros. -/
def paddedTen (count : Nat) : Scalar :=
  .text (Numeral.padded count ['1', '0'])

theorem writes_ten : Numeral.Writes Numeral.IsDecimal 10 ['1', '0'] 10 :=
  Numeral.natural?_iff_writes.1 (by decide)

theorem denotes_paddedTen (count : Nat) : (paddedTen count).Denotes 10 :=
  .text (.refl _) (Numeral.writes_padded writes_ten count)

/-- Where there is a limit, a base may be behind too many zeros to be read. -/
theorem outcome_ofData_paddedTen {m count : Nat} (h : m < count + 2) (value : Scalar) :
    (ofData (.most m) (.mapping (oneShare (paddedTen count) value))).outcome =
      .error (.refused (.tooManyDigits m (some (count + 2)))) :=
  (ShareFault.baseTooLong ⟨_, rfl, tooLong_padded writes_ten h⟩).outcome_ofData_oneShare

/-- A document with one share, the base of which is ten in 4301 digits. -/
def paddedDocument : Data :=
  .mapping (oneShare (paddedTen 4299) (.text ['7']))

/-- What has all that data must have may still be refused. -/
theorem ofData_paddedTen : Acceptable .lifted paddedDocument ∧
    (ofData .standard paddedDocument).outcome =
      .error (.refused (.tooManyDigits 4300 (some 4301))) :=
  ⟨acceptable_of_ofData
      (outcome_ofData_oneShare ⟨denotes_paddedTen _, nofun⟩ (by decide) (writesAs_text _)),
    outcome_ofData_paddedTen (by decide) _⟩

end Bundle

end Quorum
