import Quorum.Proofs.Bundle.WellFormed
import Quorum.Recovery

/-!
# The order of a document's entries

What a document denotes depends neither on the order of its entries nor on the entries that are
passed over: documents that come from one another by moving entries and by adding or taking away
such ones (`Rearranges`) give the same bundle, or both give none, and so the same secret is
recovered from them, or the same fault is found (`ofData_of_rearranges`).
-/

namespace Quorum.Bundle

/-- The entry is passed over: it is not the section of the counts, nor does it stand under a
number. -/
def PassedOver (e : Scalar × Data) : Prop :=
  e.1 ≠ keysSection ∧ ∀ id, ¬ e.1.Denotes id

/-- The second document comes from the first by moving entries, and by adding and taking away
entries that are passed over. -/
inductive Rearranges : List (Scalar × Data) → List (Scalar × Data) → Prop
  | move {a b : List (Scalar × Data)} (h : a.Perm b) : Rearranges a b
  | add {e : Scalar × Data} {a : List (Scalar × Data)} (h : PassedOver e) : Rearranges a (e :: a)
  | takeAway {e : Scalar × Data} {a : List (Scalar × Data)} (h : PassedOver e) :
    Rearranges (e :: a) a
  | trans {a b c : List (Scalar × Data)} (h : Rearranges a b) (h' : Rearranges b c) :
    Rearranges a c

/-- At most one entry is the section of the counts, as in every document with distinct keys. -/
def OneSection (doc : List (Scalar × Data)) : Prop :=
  doc.Pairwise fun a b => a.1 = keysSection → b.1 ≠ keysSection

theorem passedOver_iff {e : Scalar × Data} :
    PassedOver e ↔ e.1 ≠ keysSection ∧ integerOf? e.1 = none := by
  simp only [PassedOver, Option.eq_none_iff_forall_ne_some, ne_eq, integerOf?_eq_some_iff]

instance (e : Scalar × Data) : Decidable (PassedOver e) :=
  decidable_of_iff _ passedOver_iff.symm

instance (doc : List (Scalar × Data)) : Decidable (OneSection doc) :=
  inferInstanceAs (Decidable (List.Pairwise _ doc))

/-- The entries that are sections of counts. -/
def sections (doc : List (Scalar × Data)) : List (Scalar × Data) :=
  doc.filter fun e => e.1 == keysSection

theorem find?_eq_head?_sections (doc : List (Scalar × Data)) :
    Data.find? "keys" doc = (sections doc).head?.map Prod.snd := by
  rw [sections, List.head?_filter]
  rfl

theorem OneSection.length_sections_le {doc : List (Scalar × Data)} (h : OneSection doc) :
    (sections doc).length ≤ 1 := by
  have hp : (sections doc).Pairwise fun a b => a.1 = keysSection → b.1 ≠ keysSection :=
    h.sublist List.filter_sublist
  have hk : ∀ e ∈ sections doc, e.1 = keysSection := fun e he => by
    simpa using (List.mem_filter.1 he).2
  match hs : sections doc with
  | [] => simp
  | [e] => simp
  | a :: b :: r =>
    rw [hs] at hp hk
    have hab := (List.pairwise_cons.1 hp).1 b List.mem_cons_self (hk a List.mem_cons_self)
    exact absurd (hk b (List.mem_cons_of_mem _ List.mem_cons_self)) hab

section

variable {digits : DigitLimit} {a b : List (Scalar × Data)}

theorem Rearranges.symm (h : Rearranges a b) : Rearranges b a := by
  induction h with
  | move h => exact .move h.symm
  | add h => exact .takeAway h
  | takeAway h => exact .add h
  | trans _ _ ih ih' => exact .trans ih' ih

theorem Rearranges.perm_numbered (h : Rearranges a b) : (numbered a).Perm (numbered b) := by
  induction h with
  | move h => exact h.filterMap _
  | @add e a h => rw [numbered_cons_of_none e.2 a (passedOver_iff.1 h).2]
  | @takeAway e a h => rw [numbered_cons_of_none e.2 a (passedOver_iff.1 h).2]
  | trans _ _ ih ih' => exact ih.trans ih'

theorem Rearranges.perm_sections (h : Rearranges a b) : (sections a).Perm (sections b) := by
  have hc : ∀ {e : Scalar × Data} (a : List (Scalar × Data)), PassedOver e →
      sections (e :: a) = sections a := fun a h => List.filter_cons_of_neg (by simpa using h.1)
  induction h with
  | move h => exact h.filter _
  | @add e a h => rw [hc a h]
  | @takeAway e a h => rw [hc a h]
  | trans _ _ ih ih' => exact ih.trans ih'

theorem Rearranges.find?_eq (h : Rearranges a b) (ha : OneSection a) :
    Data.find? "keys" a = Data.find? "keys" b := by
  have hs : sections a = sections b := by
    have hp := h.perm_sections
    have hl := ha.length_sections_le
    match ha : sections a with
    | [] => rw [ha] at hp; exact hp.nil_eq
    | [e] => rw [ha] at hp; exact hp.singleton_eq
    | _ :: _ :: _ => simp [ha] at hl
  rw [find?_eq_head?_sections, find?_eq_head?_sections, hs]

theorem PassedOver.not_tooLong {e : Scalar × Data} (h : PassedOver e) (f : Fault) :
    ¬ e.1.TooLong digits f := fun hl => by
  obtain ⟨v, hv⟩ := exists_denotes_of_tooLong hl
  exact h.2 v hv

theorem Rearranges.not_tooLong (h : Rearranges a b) (ha : ∀ e ∈ a, ∀ f, ¬ e.1.TooLong digits f) :
    ∀ e ∈ b, ∀ f, ¬ e.1.TooLong digits f := by
  induction h with
  | move h => exact fun e he => ha e (h.mem_iff.2 he)
  | add h => exact List.forall_mem_cons.2 ⟨h.not_tooLong, ha⟩
  | takeAway => exact (List.forall_mem_cons.1 ha).2
  | trans _ _ ih ih' => exact ih' (ih ha)

/-- The entries under numbers may be read in any order. -/
theorem Rearranges.exists_readShares {total : Int} {shares : List Share} (h : Rearranges a b)
    (hs : (readShares digits total [] a).outcome = .ok shares) :
    ∃ shares', shares'.Perm shares ∧ (readShares digits total [] b).outcome = .ok shares' := by
  have hp := h.perm_numbered
  obtain ⟨hl, hn, h₁, hf⟩ := outcome_readShares_eq_ok_iff.1 hs
  obtain ⟨shares', hf', hs⟩ := List.perm_comp_forall₂ hp.symm hf
  refine ⟨shares', hs, outcome_readShares_eq_ok_iff.2 ⟨h.not_tooLong hl, ?_, fun e he => ?_, hf'⟩⟩
  · exact (hp.map Prod.fst).nodup_iff.1 hn
  · exact h₁ e (hp.mem_iff.2 he)

theorem Rearranges.outcome_ofData (h : Rearranges a b) (ha : OneSection a) {c : Bundle}
    (hc : (ofData digits (.mapping a)).outcome = .ok c) :
    (ofData digits (.mapping b)).outcome = .ok c := by
  obtain ⟨entries, counts, shares, he, hk, hn, ht, hr, hs, hb⟩ := outcome_ofData_eq_ok_iff.1 hc
  cases he
  obtain ⟨shares', hp, hs'⟩ := h.exists_readShares hs
  refine outcome_ofData_eq_ok_iff.2
    ⟨b, counts, shares', rfl, h.find?_eq ha ▸ hk, hn, ht, hr, hs', hb.trans ?_⟩
  obtain ⟨-, hd, -, hf⟩ := outcome_readShares_eq_ok_iff.1 hs'
  exact byNumber_eq_of_perm hp (ids_of_readShares hf ▸ hd)

end

/-- Documents that come from one another by moving entries, and by adding or taking away entries
that are passed over, denote the same bundle or none, and what comes of recovering its secret is
the same. -/
theorem ofData_of_rearranges {a b : List (Scalar × Data)} (h : Rearranges a b)
    (ha : OneSection a) (hb : OneSection b) (digits : DigitLimit) :
    (∀ c, (ofData digits (.mapping a)).outcome = .ok c ↔
        (ofData digits (.mapping b)).outcome = .ok c) ∧
      ((∃ c, (ofData digits (.mapping a)).outcome = .ok c) → ∀ settings,
        (ofData digits (.mapping a) >>= Recovery.ofBundle settings).outcome =
          (ofData digits (.mapping b) >>= Recovery.ofBundle settings).outcome) := by
  refine ⟨fun c => ⟨h.outcome_ofData ha, h.symm.outcome_ofData hb⟩, ?_⟩
  rintro ⟨c, hc⟩ settings
  rw [Journal.outcome_bind, Journal.outcome_bind, hc, h.outcome_ofData ha hc]

/-- The section of the counts, and the entries of two shares. -/
def countsEntry : Scalar × Data :=
  (keysSection,
    .mapping [(.text "n".toList, .scalar (.int 2)), (.text "k".toList, .scalar (.int 2))])

def firstEntry : Scalar × Data :=
  (.int 1,
    .mapping [(.text "base".toList, .scalar (.int 10)), (.text "value".toList, .scalar (.int 5))])

def secondEntry : Scalar × Data :=
  (.text "2".toList, .mapping [(.text "base".toList, .scalar (.int 2)),
    (.text "value".toList, .scalar (.text "111".toList))])

def tidyDocument : List (Scalar × Data) :=
  [countsEntry, (.text "note".toList, .list []), firstEntry, secondEntry]

/-- The tidy document in another order, and with another entry that is passed over. -/
def shuffledDocument : List (Scalar × Data) :=
  [(.bool true, .scalar .null), secondEntry, countsEntry, firstEntry]

theorem rearranges_shuffled : Rearranges tidyDocument shuffledDocument := by
  have hm : ∀ {k n a b : Scalar × Data}, [k, n, a, b].Perm [n, b, k, a] := fun {k n a b} =>
    (List.Perm.swap n k _).trans (.cons n ((List.Perm.cons k (.swap b a [])).trans (.swap b k [a])))
  exact .trans (.move hm) (.trans (.takeAway (by decide)) (.add (by decide)))

theorem ofData_of_rearranges_shuffled :
    (ofData .standard (.mapping shuffledDocument)).outcome =
        .ok ⟨2, 2, [⟨1, 10, .text "5".toList⟩, ⟨2, 2, .text "111".toList⟩]⟩ ∧
      (ofData .standard (.mapping tidyDocument) >>= Recovery.ofBundle {}).outcome =
        (ofData .standard (.mapping shuffledDocument) >>= Recovery.ofBundle {}).outcome := by
  obtain ⟨h, hr⟩ :=
    ofData_of_rearranges rearranges_shuffled (by decide) (by decide) .standard
  have hb := (h ⟨2, 2, [⟨1, 10, .text "5".toList⟩, ⟨2, 2, .text "111".toList⟩]⟩).1 (by decide)
  exact ⟨hb, hr ⟨_, (h _).2 hb⟩ _⟩

end Quorum.Bundle
