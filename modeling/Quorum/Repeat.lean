/-!
# Repeated elements

The first element of a list that is the same as an earlier one.

* `firstRepeat?_eq_none_iff`: there is none exactly when no two elements are the same.
* `firstRepeat?_eq_some_iff`: it is the first one that is the same as an element before it.
* `repeats_of_firstRepeat?`: what it finds is the same as an element before it.
-/

namespace Quorum

variable {α : Type}

/-- The first element that is the same as one before it, or as one of those already `seen`. -/
def firstRepeat? (same : α → α → Bool) (seen : List α) : List α → Option α
  | [] => none
  | a :: r => if seen.any (same a) then some a else firstRepeat? same (a :: seen) r

theorem firstRepeat?_seen_eq_none_iff {same : α → α → Bool} {seen s : List α} :
    firstRepeat? same seen s = none ↔
      (∀ a ∈ s, ∀ b ∈ seen, same a b = false) ∧ s.Pairwise fun b a => same a b = false := by
  induction s generalizing seen with
  | nil => simp [firstRepeat?]
  | cons a r ih =>
    rw [firstRepeat?]
    split
    · rename_i h
      obtain ⟨b, hb, hs⟩ := List.any_eq_true.1 h
      simp only [reduceCtorEq, false_iff, not_and]
      intro h' _
      simp [h' a (List.mem_cons_self ..) b hb] at hs
    · rename_i h
      have h : ∀ b ∈ seen, same a b = false := by simpa using h
      rw [ih, List.pairwise_cons]
      constructor
      · rintro ⟨hr, hp⟩
        refine ⟨fun c hc b hb => ?_, fun c hc => hr c hc a (List.mem_cons_self ..), hp⟩
        rcases List.mem_cons.1 hc with rfl | hc
        · exact h b hb
        · exact hr c hc b (List.mem_cons_of_mem _ hb)
      · rintro ⟨hs, hr, hp⟩
        refine ⟨fun c hc b hb => ?_, hp⟩
        rcases List.mem_cons.1 hb with rfl | hb
        · exact hr c hc
        · exact hs c (List.mem_cons_of_mem _ hc) b hb

/-- There is no repeated element exactly when no two elements are the same. -/
theorem firstRepeat?_eq_none_iff {same : α → α → Bool} {s : List α} :
    firstRepeat? same [] s = none ↔ s.Pairwise fun b a => same a b = false := by
  simp [firstRepeat?_seen_eq_none_iff]

theorem firstRepeat?_beq_eq_none_iff [BEq α] [LawfulBEq α] {s : List α} :
    firstRepeat? (· == ·) [] s = none ↔ s.Nodup := by
  rw [firstRepeat?_eq_none_iff]
  constructor
  · exact fun h => h.imp fun hab => (beq_eq_false_iff_ne.1 hab).symm
  · exact fun h => h.imp fun hab => beq_eq_false_iff_ne.2 hab.symm

theorem firstRepeat?_seen_eq_some_iff {same : α → α → Bool} {seen s : List α} {a : α} :
    firstRepeat? same seen s = some a ↔ ∃ before after, s = before ++ a :: after ∧
      firstRepeat? same seen before = none ∧ ∃ b ∈ before ++ seen, same a b = true := by
  induction s generalizing seen with
  | nil => simp [firstRepeat?]
  | cons c r ih =>
    rw [firstRepeat?]
    split
    · rename_i h
      constructor
      · rintro ⟨⟩
        exact ⟨[], r, rfl, rfl, List.any_eq_true.1 h⟩
      · rintro ⟨before, after, hs, hn, -⟩
        cases before with
        | nil => rw [(List.cons.inj hs).1]
        | cons d before =>
          obtain ⟨rfl, -⟩ := List.cons.inj hs
          rw [firstRepeat?, if_pos h] at hn
          cases hn
    · rename_i h
      rw [ih]
      constructor
      · rintro ⟨before, after, rfl, hn, b, hb, hs⟩
        refine ⟨c :: before, after, rfl, by rw [firstRepeat?, if_neg h, hn], b, ?_, hs⟩
        rwa [List.cons_append, ← List.perm_middle.mem_iff]
      · rintro ⟨before, after, hs, hn, b, hb, hab⟩
        cases before with
        | nil =>
          obtain ⟨rfl, -⟩ := List.cons.inj hs
          exact absurd (List.any_eq_true.2 ⟨b, hb, hab⟩) h
        | cons d before =>
          obtain ⟨rfl, rfl⟩ := List.cons.inj hs
          rw [firstRepeat?, if_neg h] at hn
          exact ⟨before, after, rfl, hn, b, List.perm_middle.mem_iff.2 hb, hab⟩

/-- What is found is the first element that is the same as one before it. -/
theorem firstRepeat?_eq_some_iff {same : α → α → Bool} {s : List α} {a : α} :
    firstRepeat? same [] s = some a ↔ ∃ before after, s = before ++ a :: after ∧
      (before.Pairwise fun b a => same a b = false) ∧ ∃ b ∈ before, same a b = true := by
  simp [firstRepeat?_seen_eq_some_iff, firstRepeat?_eq_none_iff]

/-- The element is in the list, behind one that is the same. -/
def Repeats (same : α → α → Bool) (s : List α) (a : α) : Prop :=
  ∃ b, [b, a].Sublist s ∧ same a b = true

theorem Repeats.cons {same : α → α → Bool} {s : List α} {a c : α} (h : Repeats same s a) :
    Repeats same (c :: s) a := by
  obtain ⟨b, hb, hs⟩ := h
  exact ⟨b, hb.cons c, hs⟩

theorem repeats_cons_of_mem {same : α → α → Bool} {s : List α} {a b : α} (ha : a ∈ s)
    (hs : same a b = true) : Repeats same (b :: s) a :=
  ⟨b, List.cons_sublist_cons.2 (List.singleton_sublist.2 ha), hs⟩

theorem repeats_of_firstRepeat?_seen {same : α → α → Bool} {seen s : List α} {a : α}
    (h : firstRepeat? same seen s = some a) :
    (a ∈ s ∧ ∃ b ∈ seen, same a b = true) ∨ Repeats same s a := by
  induction s generalizing seen with
  | nil => cases h
  | cons c r ih =>
    rw [firstRepeat?] at h
    split at h
    · rename_i hc
      cases h
      exact .inl ⟨List.mem_cons_self, List.any_eq_true.1 hc⟩
    · rcases ih h with ⟨ha, b, hb, hs⟩ | hr
      · rcases List.mem_cons.1 hb with rfl | hb
        · exact .inr (repeats_cons_of_mem ha hs)
        · exact .inl ⟨List.mem_cons_of_mem _ ha, b, hb, hs⟩
      · exact .inr hr.cons

theorem repeats_of_firstRepeat? {same : α → α → Bool} {s : List α} {a : α}
    (h : firstRepeat? same [] s = some a) : Repeats same s a := by
  simpa using repeats_of_firstRepeat?_seen h

/-- Where an element is repeated, one is found, though perhaps another one. -/
theorem exists_firstRepeat? {same : α → α → Bool} {s : List α} {a : α} (h : Repeats same s a) :
    ∃ b, firstRepeat? same [] s = some b := by
  obtain ⟨b, hb, hs⟩ := h
  cases hf : firstRepeat? same [] s with
  | some c => exact ⟨c, rfl⟩
  | none =>
    have hp := List.pairwise_iff_forall_sublist.1 (firstRepeat?_eq_none_iff.1 hf) hb
    simp [hp] at hs

end Quorum
