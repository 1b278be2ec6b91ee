import Quorum.Proofs.Bundle.Entries

/-!
# Data with other values

Data that differs in nothing but the values of shares (`Revalues`) is read alike: it has the same
fault, or gives bundles that differ in nothing but the values of their shares, and the same events
are reported on the way (`Revalues.alike_ofData`), as long as none of the values is an integer that is
too long to be written. The relation is carried from the fields of an entry (`find?_of_revalues`) to
the share that is read from it, and over the entries in order.
-/

namespace Quorum

/-- The shares have the same number and the same base. -/
def Share.SameButValue (s t : Share) : Prop :=
  s.id = t.id ∧ s.base = t.base

theorem Share.SameButValue.refl (s : Share) : s.SameButValue s :=
  ⟨rfl, rfl⟩

namespace Bundle

/-- The bundles are the same but for the values of their shares. -/
structure SameButValues (b c : Bundle) : Prop where
  threshold_eq : b.threshold = c.threshold
  total_eq : b.total = c.total
  shares : List.Forall₂ Share.SameButValue b.shares c.shares

theorem SameButValues.refl (b : Bundle) : b.SameButValues b :=
  ⟨rfl, rfl, List.forall₂_same.2 fun s _ => .refl s⟩

/-- The fields have the same keys, in order, and what stands under each is in the relation. -/
abbrev FieldsMatch (R : Scalar → Data → Data → Prop) :
    List (Scalar × Data) → List (Scalar × Data) → Prop :=
  List.Forall₂ fun f f' => f.1 = f'.1 ∧ R f.1 f.2 f'.2

/-- The fields are the same, or both are the value of a share, be it a text or an integer. -/
inductive RevaluesField (digits : DigitLimit) : Scalar × Data → Scalar × Data → Prop
  | keep (f : Scalar × Data) : RevaluesField digits f f
  | value {v w : Scalar} {s t : RawText} (hv : v.WritesAs digits s) (hw : w.WritesAs digits t) :
    RevaluesField digits (.text "value".toList, .scalar v) (.text "value".toList, .scalar w)

/-- The entries are the same, or stand under the number of a share and differ in its value. -/
inductive RevaluesEntry (digits : DigitLimit) : Scalar × Data → Scalar × Data → Prop
  | keep (e : Scalar × Data) : RevaluesEntry digits e e
  | share {key : Scalar} {id : Int} {fields fields' : List (Scalar × Data)} (hk : key.Denotes id)
    (h : List.Forall₂ (RevaluesField digits) fields fields') :
    RevaluesEntry digits (key, .mapping fields) (key, .mapping fields')

/-- The data differs in nothing but the texts and integers that are values of shares. None of these
is too long to be written. -/
inductive Revalues (digits : DigitLimit) : Data → Data → Prop
  | keep (d : Data) : Revalues digits d d
  | entries {entries entries' : List (Scalar × Data)}
    (h : List.Forall₂ (RevaluesEntry digits) entries entries') :
    Revalues digits (.mapping entries) (.mapping entries')

variable {digits : DigitLimit}

/-! ## Fields -/

theorem find?_cons (name : String) (key : Scalar) (d : Data) (r : List (Scalar × Data)) :
    Data.find? name ((key, d) :: r) =
      if key = .text name.toList then some d else Data.find? name r := by
  by_cases h : key = .text name.toList <;> simp [Data.find?, h]

theorem find?_of_fieldsMatch {R : Scalar → Data → Data → Prop}
    {fields fields' : List (Scalar × Data)} (h : FieldsMatch R fields fields') (name : String) :
    (Data.find? name fields = none ∧ Data.find? name fields' = none) ∨
      ∃ d d', Data.find? name fields = some d ∧ Data.find? name fields' = some d' ∧
        R (.text name.toList) d d' := by
  induction h with
  | nil => exact .inl ⟨rfl, rfl⟩
  | @cons f f' _ _ hf _ ih =>
    obtain ⟨key, d⟩ := f
    obtain ⟨key', d'⟩ := f'
    obtain ⟨rfl, hd⟩ := hf
    rw [find?_cons, find?_cons]
    by_cases hk : key = .text name.toList
    · rw [if_pos hk, if_pos hk]
      exact .inr ⟨d, d', rfl, rfl, hk ▸ hd⟩
    · rw [if_neg hk, if_neg hk]
      exact ih

theorem find?_of_revalues {fields fields' : List (Scalar × Data)}
    (h : List.Forall₂ (RevaluesField digits) fields fields') (name : String) :
    Data.find? name fields = Data.find? name fields' ∨
      name = "value" ∧ ∃ v w s t, Data.find? name fields = some (.scalar v) ∧
        v.WritesAs digits s ∧ Data.find? name fields' = some (.scalar w) ∧ w.WritesAs digits t := by
  have hm : FieldsMatch (fun key d d' => d = d' ∨ key = .text "value".toList ∧
      ∃ v w s t, d = .scalar v ∧ v.WritesAs digits s ∧ d' = .scalar w ∧ w.WritesAs digits t)
      fields fields' := by
    refine h.imp fun f f' hf => ?_
    cases hf with
    | keep => exact ⟨rfl, .inl rfl⟩
    | value hv hw => exact ⟨rfl, .inr ⟨rfl, _, _, _, _, rfl, hv, rfl, hw⟩⟩
  rcases find?_of_fieldsMatch hm name with ⟨hn, hn'⟩ | ⟨d, d', hd, hd', he⟩
  · exact .inl (hn.trans hn'.symm)
  · rcases he with rfl | ⟨hk, v, w, s, t, rfl, hv, rfl, hw⟩
    · exact .inl (hd.trans hd'.symm)
    · exact .inr ⟨String.toList_injective (Scalar.text.inj hk), v, w, s, t, hd, hv, hd', hw⟩

section

variable {fields fields' : List (Scalar × Data)} (h : List.Forall₂ (RevaluesField digits) fields fields')
include h

theorem agree_readValue (id : Int) :
    Agree (fun _ _ => True) (readValue digits id fields) (readValue digits id fields') := by
  rcases find?_of_revalues h "value" with he | ⟨-, v, w, s, t, hf, hv, hf', hw⟩
  · have hr : readValue digits id fields = readValue digits id fields' := by
      rw [readValue, readValue, he]
    rw [hr]
    exact (agree_self _).imp fun _ _ _ => trivial
  · rw [readValue_eq_ok_iff.2 ⟨v, hf, hv⟩, readValue_eq_ok_iff.2 ⟨w, hf', hw⟩]
    trivial

theorem agree_readShare (id : Int) :
    Agree Share.SameButValue (readShare digits id (.mapping fields))
      (readShare digits id (.mapping fields')) := by
  have hb : Data.find? "base" fields = Data.find? "base" fields' :=
    (find?_of_revalues h "base").resolve_right fun hn => absurd hn.1 (by decide)
  rw [readShare, readShare, hb]
  cases Data.find? "base" fields' with
  | none => rfl
  | some v =>
    refine (agree_self (readBase digits (some id) v)).bind ?_
    rintro base _ rfl
    exact (agree_readValue h id).bind fun _ _ _ => ⟨rfl, rfl⟩

end

/-! ## Entries -/

theorem alike_readShares_cons {total id : Int} {seen : List Int} {key : Scalar} {d d' : Data}
    {r r' : List (Scalar × Data)} (hi : key.Denotes id)
    (hd : Agree Share.SameButValue (readShare digits id d) (readShare digits id d'))
    (hr : (readShares digits total (id :: seen) r).Alike (List.Forall₂ Share.SameButValue)
      (readShares digits total (id :: seen) r')) :
    (readShares digits total seen ((key, d) :: r)).Alike (List.Forall₂ Share.SameButValue)
      (readShares digits total seen ((key, d') :: r')) := by
  have hk := ne_keysSection_of_some (integerOf?_eq_some_iff.2 hi)
  have hs : Journal.Alike (List.Forall₂ Share.SameButValue)
      (do
        let share ← readShare digits id d
        let shares ← readShares digits total (id :: seen) r
        return share :: shares)
      (do
        let share ← readShare digits id d'
        let shares ← readShares digits total (id :: seen) r'
        return share :: shares) :=
    .bind (.lift hd) fun _ _ h => .bind hr fun _ _ h' => .pure (.cons h h')
  rw [readShares, readShares, if_neg hk, if_neg hk]
  rcases readInteger_cases digits key with ⟨id', hid, he⟩ | ⟨hn, -⟩ | ⟨e, -, he⟩
  · obtain rfl := denotes_unique hi hid.1
    rw [he]
    -- What is checked before the entry is read concerns its number alone.
    exact .ite (.throw _) (.ite (.bind (.self _) fun _ _ _ => .ite (.throw _) hs) (.ite (.throw _) hs))
  · exact absurd hi (hn id)
  · rw [he]
    exact .throw e

theorem alike_readShares {total : Int} {entries entries' : List (Scalar × Data)}
    (h : List.Forall₂ (RevaluesEntry digits) entries entries') (seen : List Int) :
    (readShares digits total seen entries).Alike (List.Forall₂ Share.SameButValue)
      (readShares digits total seen entries') := by
  induction h generalizing seen with
  | nil => exact .pure .nil
  | @cons e _ _ _ he _ ih =>
    cases he with
    | keep =>
      obtain ⟨key, d⟩ := e
      by_cases hk : ∃ id, key.Denotes id
      · obtain ⟨id, hk⟩ := hk
        exact alike_readShares_cons hk ((agree_self _).imp fun _ _ hs => hs ▸ .refl _) (ih _)
      · rw [readShares, readShares]
        simp only [readInteger_eq_none_iff.2 fun v hv => hk ⟨v, hv⟩, Journal.lift_ok_bind]
        exact .ite (ih seen) (.bind (.self _) fun _ _ _ => ih seen)
    | share hk hf => exact alike_readShares_cons hk (agree_readShare hf _) (ih _)

/-! ## Documents -/

/-- The section with the counts is none of a share. -/
theorem find?_keys {entries entries' : List (Scalar × Data)}
    (h : List.Forall₂ (RevaluesEntry digits) entries entries') :
    Data.find? "keys" entries = Data.find? "keys" entries' := by
  induction h with
  | nil => rfl
  | cons he _ ih =>
    cases he with
    | keep => rw [find?_cons, find?_cons, ih]
    | @share key _ _ _ hk =>
      have hn : key ≠ .text "keys".toList :=
        ne_keysSection_of_some (integerOf?_eq_some_iff.2 hk)
      rw [find?_cons, find?_cons, if_neg hn, if_neg hn, ih]

theorem Revalues.alike_readBundle {d d' : Data} (h : Revalues digits d d') :
    (readBundle digits d).Alike SameButValues (readBundle digits d') := by
  cases h with
  | keep d => exact (Journal.Alike.self _).imp fun b _ hb => hb ▸ .refl b
  | entries h =>
    rw [readBundle, readBundle, find?_keys h]
    split
    · refine .bind (.self _) ?_
      rintro total _ rfl
      refine .bind (.self _) ?_
      rintro threshold _ rfl
      refine .ite (.throw _) (.bind (alike_readShares h []) fun shares shares' hs => ?_)
      rw [hs.length_eq]
      refine .bind (.self _) fun _ _ _ => .pure ⟨rfl, rfl, forall₂_sortBy ?_ hs⟩
      exact fun _ _ _ _ h h' => by rw [h.1, h'.1]
    · exact .throw _

/-- Nothing that is said of data while it is read depends on the values of its shares. -/
theorem Revalues.alike_ofData {d d' : Data} (h : Revalues digits d d') :
    (ofData digits d).Alike SameButValues (ofData digits d') :=
  h.alike_readBundle.within digits

end Bundle

end Quorum
