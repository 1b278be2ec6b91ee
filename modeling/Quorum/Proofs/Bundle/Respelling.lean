import Quorum.Proofs.Bundle.Acceptance
import Quorum.Proofs.Bundle.Values

/-!
# Integers and their decimal digits

In data, an integer may be given as itself or in decimal digits. Data that differs in nothing but
this (`Respells`) is read alike: it gives the same bundle or has the same fault, and the same events
are reported on the way (`ofData_of_respells`). Wherever an integer is read, be it a count, a base,
the number of a share or its value, the two ways of giving it come to the same, so each reader has
one lemma, and entries are read one after the other. A limit on digits comes between the two ways:
digits may be too many to be read (`ofData_paddedBase`), and a value too long to be written.
-/

namespace Quorum

/-- The scalar is the integer, or the text of its decimal notation. -/
inductive Scalar.Shows : Scalar → Int → Prop
  | int (v : Int) : Shows (.int v) v
  | text (v : Int) : Shows (.text (Numeral.decimal v)) v

theorem Scalar.Shows.writesAs {digits : DigitLimit} {s : Scalar} {v : Int} (h : s.Shows v)
    (hl : ∀ e, ¬ s.TooLongValue digits e) : s.WritesAs digits (.text (Numeral.decimal v)) := by
  refine ⟨?_, hl⟩
  cases h with
  | int => exact .int v
  | text => exact .text _

namespace Bundle

/-- What stands under the key of a count is the same, or is the same integer, as itself or in decimal
digits between blanks. -/
inductive RespellsCount (digits : DigitLimit) : Scalar → Data → Data → Prop
  | keep (key : Scalar) (d : Data) : RespellsCount digits key d d
  | total {a b : Scalar} {v : Int} (ha : a.ReadsAs digits v) (hb : b.ReadsAs digits v) :
    RespellsCount digits (.text "n".toList) (.scalar a) (.scalar b)
  | threshold {a b : Scalar} {v : Int} (ha : a.ReadsAs digits v) (hb : b.ReadsAs digits v) :
    RespellsCount digits (.text "k".toList) (.scalar a) (.scalar b)

/-- What stands under the key of a share's field is the same, or is the same integer. A base may
stand between blanks and in digits of any script, a value may not. -/
inductive RespellsField (digits : DigitLimit) : Scalar → Data → Data → Prop
  | keep (key : Scalar) (d : Data) : RespellsField digits key d d
  | base {a b : Scalar} {v : Int} (ha : a.ReadsAs digits v) (hb : b.ReadsAs digits v) :
    RespellsField digits (.text "base".toList) (.scalar a) (.scalar b)
  | value {a b : Scalar} {v : Int} (ha : a.Shows v) (hb : b.Shows v)
    (hla : ∀ e, ¬ a.TooLongValue digits e) (hlb : ∀ e, ¬ b.TooLongValue digits e) :
    RespellsField digits (.text "value".toList) (.scalar a) (.scalar b)

/-- The data under a number is the same, or gives integers among its fields in another way. -/
inductive RespellsShare (digits : DigitLimit) : Data → Data → Prop
  | keep (d : Data) : RespellsShare digits d d
  | fields {fields fields' : List (Scalar × Data)}
    (h : FieldsMatch (RespellsField digits) fields fields') :
    RespellsShare digits (.mapping fields) (.mapping fields')

/-- The entries are the same, or the counts of the section of counts are given in another way, or the
number of a share and the integers among its fields. -/
inductive RespellsEntry (digits : DigitLimit) : Scalar × Data → Scalar × Data → Prop
  | keep (e : Scalar × Data) : RespellsEntry digits e e
  | counts {counts counts' : List (Scalar × Data)}
    (h : FieldsMatch (RespellsCount digits) counts counts') :
    RespellsEntry digits (keysSection, .mapping counts) (keysSection, .mapping counts')
  | share {key key' : Scalar} {id : Int} {d d' : Data} (hk : key.ReadsAs digits id)
    (hk' : key'.ReadsAs digits id) (h : RespellsShare digits d d') :
    RespellsEntry digits (key, d) (key', d')

/-- The data differs in nothing but the ways in which integers are given, all of which may be read or
written under the limit. -/
inductive Respells (digits : DigitLimit) : Data → Data → Prop
  | keep (d : Data) : Respells digits d d
  | entries {entries entries' : List (Scalar × Data)}
    (h : List.Forall₂ (RespellsEntry digits) entries entries') :
    Respells digits (.mapping entries) (.mapping entries')

variable {digits : DigitLimit}

/-! ## Fields -/

theorem readIntegerIn_of_readsAs {a b : Scalar} {v : Int} (ha : a.ReadsAs digits v)
    (hb : b.ReadsAs digits v) :
    readIntegerIn digits (.scalar a) = readIntegerIn digits (.scalar b) := by
  rw [readIntegerIn_eq_some_iff.2 ⟨a, rfl, ha⟩, readIntegerIn_eq_some_iff.2 ⟨b, rfl, hb⟩]

theorem RespellsCount.readIntegerIn_eq {key : Scalar} {d d' : Data}
    (h : RespellsCount digits key d d') : readIntegerIn digits d = readIntegerIn digits d' := by
  cases h with
  | keep => rfl
  | total ha hb => exact readIntegerIn_of_readsAs ha hb
  | threshold ha hb => exact readIntegerIn_of_readsAs ha hb

theorem readCount_of_fieldsMatch {counts counts' : List (Scalar × Data)}
    (h : FieldsMatch (RespellsCount digits) counts counts') (name : String) :
    readCount digits counts name = readCount digits counts' name := by
  rw [readCount, readCount]
  rcases find?_of_fieldsMatch h name with ⟨hn, hn'⟩ | ⟨d, d', hd, hd', hr⟩
  · rw [hn, hn']
  · rw [hd, hd', Option.getD_some, Option.getD_some, hr.readIntegerIn_eq]

section

variable {fields fields' : List (Scalar × Data)}
  (h : FieldsMatch (RespellsField digits) fields fields')
include h

theorem readValue_of_fieldsMatch (id : Int) :
    readValue digits id fields = readValue digits id fields' := by
  rcases find?_of_fieldsMatch h "value" with ⟨hn, hn'⟩ | ⟨d, d', hd, hd', hr⟩
  · rw [readValue, readValue, hn, hn']
  · cases hr with
    | keep => rw [readValue, readValue, hd, hd']
    | value ha hb hla hlb =>
      rw [readValue_eq_ok_iff.2 ⟨_, hd, ha.writesAs hla⟩,
        readValue_eq_ok_iff.2 ⟨_, hd', hb.writesAs hlb⟩]

theorem readShare_of_fieldsMatch (id : Int) :
    readShare digits id (.mapping fields) = readShare digits id (.mapping fields') := by
  rw [readShare, readShare, readValue_of_fieldsMatch h id]
  rcases find?_of_fieldsMatch h "base" with ⟨hn, hn'⟩ | ⟨d, d', hd, hd', hr⟩
  · rw [hn, hn']
  · rw [hd, hd']
    cases hr with
    | keep => rfl
    | base ha hb => simp only [readBase, readIntegerIn_of_readsAs ha hb]

end

/-! ## Entries -/

theorem RespellsShare.readShare_eq {d d' : Data} (h : RespellsShare digits d d') (id : Int) :
    readShare digits id d = readShare digits id d' := by
  cases h with
  | keep => rfl
  | fields h => exact readShare_of_fieldsMatch h id

theorem readShares_of_respells {entries entries' : List (Scalar × Data)}
    (h : List.Forall₂ (RespellsEntry digits) entries entries') (total : Int) (seen : List Int) :
    readShares digits total seen entries = readShares digits total seen entries' := by
  induction h generalizing seen with
  | nil => rfl
  | cons he _ ih =>
    cases he with
    | keep e => simp only [readShares, ih]
    | counts => rw [readShares, readShares, if_pos rfl, if_pos rfl, ih]
    | share hk hk' hd =>
      rw [readShares, readShares, if_neg (ne_keysSection_of_some (integerOf?_eq_some_iff.2 hk.1)),
        if_neg (ne_keysSection_of_some (integerOf?_eq_some_iff.2 hk'.1)),
        readInteger_eq_some_iff.2 hk, readInteger_eq_some_iff.2 hk']
      simp only [Journal.lift_ok_bind, hd.readShare_eq, ih]

/-! ## Documents -/

theorem find?_keys_of_respells {entries entries' : List (Scalar × Data)}
    (h : List.Forall₂ (RespellsEntry digits) entries entries') :
    Data.find? "keys" entries = Data.find? "keys" entries' ∨
      ∃ counts counts', Data.find? "keys" entries = some (.mapping counts) ∧
        Data.find? "keys" entries' = some (.mapping counts') ∧
        FieldsMatch (RespellsCount digits) counts counts' := by
  induction h with
  | nil => exact .inl rfl
  | cons he _ ih =>
    cases he with
    | keep e =>
      rw [find?_cons, find?_cons]
      split
      · exact .inl rfl
      · exact ih
    | counts hc =>
      have hs : keysSection = .text "keys".toList := rfl
      rw [find?_cons, find?_cons, if_pos hs, if_pos hs]
      exact .inr ⟨_, _, rfl, rfl, hc⟩
    | @share key key' _ _ _ hk hk' =>
      -- The number of a share is not the key of the section.
      have hn : key ≠ .text "keys".toList :=
        ne_keysSection_of_some (integerOf?_eq_some_iff.2 hk.1)
      have hn' : key' ≠ .text "keys".toList :=
        ne_keysSection_of_some (integerOf?_eq_some_iff.2 hk'.1)
      rw [find?_cons, find?_cons, if_neg hn, if_neg hn']
      exact ih

/-- Whether integers are given as themselves or in decimal digits makes no difference to what data
denotes, to what is wrong with it, and to what is reported of it. -/
theorem ofData_of_respells {d d' : Data} (h : Respells digits d d') :
    ofData digits d = ofData digits d' := by
  cases h with
  | keep => rfl
  | entries h =>
    rw [ofData, ofData, readBundle, readBundle]
    rcases find?_keys_of_respells h with hk | ⟨counts, counts', hk, hk', hc⟩
    · simp only [hk, readShares_of_respells h]
    · simp only [hk, hk', readCount_of_fieldsMatch hc, readShares_of_respells h]

/-- A document with integers given as themselves. -/
def plainDocument : List (Scalar × Data) :=
  [(keysSection,
      .mapping [(.text "n".toList, .scalar (.int 2)), (.text "k".toList, .scalar (.int 2))]),
    (.int 1,
      .mapping [(.text "base".toList, .scalar (.int 10)), (.text "value".toList, .scalar (.int (-4)))]),
    (.int 7,
      .mapping [(.text "base".toList, .scalar (.int 40)), (.text "value".toList, .scalar (.int 5))])]

/-- The document with its integers in digits of several scripts, with zeros before them and blanks
around. -/
def spelledDocument : List (Scalar × Data) :=
  [(keysSection,
      .mapping [(.text "n".toList, .scalar (.text " 02\t".toList)),
        (.text "k".toList, .scalar (.text "٢".toList))]),
    (.text "०1".toList,
      .mapping [(.text "base".toList, .scalar (.text "10\n".toList)),
        (.text "value".toList, .scalar (.text "-4".toList))]),
    (.text "7".toList,
      .mapping [(.text "base".toList, .scalar (.text "٤0".toList)),
        (.text "value".toList, .scalar (.text "5".toList))])]

theorem respells_spelledDocument :
    Respells .standard (.mapping plainDocument) (.mapping spelledDocument) := by
  have ht {s : List Char} {v : Int} (h : readInteger .standard (.text s) = .ok (some v)) :
      (Scalar.text s).ReadsAs .standard v := readInteger_eq_some_iff.1 h
  have hv {v : Int} {s : List Char} (hl : Numeral.digitCount v ≤ 4300)
      (h : Numeral.decimal v = s) : RespellsField .standard (.text "value".toList)
        (.scalar (.int v)) (.scalar (.text s)) := by
    subst h
    refine .value (.int v) (.text v) ?_ nofun
    rintro _ ⟨hm⟩
    exact absurd hl (not_le.2 hm)
  refine .entries (.cons (.counts (.cons ⟨rfl, .total (readsAs_int 2) (ht (by decide))⟩
    (.cons ⟨rfl, .threshold (readsAs_int 2) (ht (by decide))⟩ .nil))) (.cons ?_ (.cons ?_ .nil)))
  · exact .share (readsAs_int _) (ht (by decide)) (.fields (.cons ⟨rfl, .base (readsAs_int _) (ht (by decide))⟩
      (.cons ⟨rfl, hv (by decide) (by decide)⟩ .nil)))
  · exact .share (readsAs_int _) (ht (by decide)) (.fields (.cons ⟨rfl, .base (readsAs_int _) (ht (by decide))⟩
      (.cons ⟨rfl, hv (by decide) (by decide)⟩ .nil)))

/-- The base of the second share is out of range, however it is given. -/
theorem ofData_of_respells_spelled :
    ofData .standard (.mapping plainDocument) = ofData .standard (.mapping spelledDocument) ∧
      (ofData .standard (.mapping spelledDocument)).outcome =
        .error (.invalidDocument (.baseOutOfRange (some 7) 40)) :=
  ⟨ofData_of_respells respells_spelledDocument, by decide⟩

/-- In too many digits, a base cannot stand for itself. -/
theorem ofData_paddedBase :
    Respells .lifted (.mapping (oneShare (.int 10) (.text ['7']))) paddedDocument ∧
      (ofData .standard (.mapping (oneShare (.int 10) (.text ['7'])))).outcome =
        .ok ⟨1, 1, [⟨1, 10, .text ['7']⟩]⟩ ∧
      (ofData .standard paddedDocument).outcome =
        .error (.refused (.tooManyDigits 4300 (some 4301))) := by
  refine ⟨?_, outcome_ofData_oneShare (readsAs_int 10) (by decide) (writesAs_text _),
    outcome_ofData_paddedTen (by decide) _⟩
  exact .entries (.cons (.keep _) (.cons (.share (readsAs_int 1) (readsAs_int 1) (.fields
    (.cons ⟨rfl, .base (readsAs_int 10) ⟨denotes_paddedTen _, nofun⟩⟩
      (.cons ⟨rfl, .keep _ _⟩ .nil)))) .nil))

end Bundle

end Quorum
