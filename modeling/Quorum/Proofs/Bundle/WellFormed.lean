import Quorum.Proofs.Bundle.Entries

/-!
# Bundles from data

Data gives a bundle exactly when its counts, its threshold and its entries are in order
(`outcome_ofData_eq_ok_iff`), and such a bundle is `WellFormed`.
-/

namespace Quorum.Bundle

/-- What every bundle that has been read is like. -/
structure WellFormed (b : Bundle) : Prop where
  one_le_threshold : 1 ≤ b.threshold
  threshold_le_total : b.threshold ≤ b.total
  ascending : b.shares.Pairwise fun s t => s.id < t.id
  one_le_id : ∀ s ∈ b.shares, 1 ≤ s.id
  base_range : ∀ s ∈ b.shares, 2 ≤ s.base ∧ s.base ≤ 36

theorem WellFormed.nodup_ids {b : Bundle} (h : b.WellFormed) : (b.shares.map Share.id).Nodup :=
  List.pairwise_map.2 (h.ascending.imp fun hab => ne_of_lt hab)

variable {digits : DigitLimit}

/-- Reading data without its events. -/
theorem outcome_readBundle_mapping {entries counts : List (Scalar × Data)}
    (h : Data.find? "keys" entries = some (.mapping counts)) :
    (readBundle digits (.mapping entries)).outcome =
      readCount digits counts "n" >>= fun total => readCount digits counts "k" >>= fun threshold =>
        if threshold < 1 ∨ total < threshold then .error (.invalidThreshold threshold (some total))
        else (readShares digits total [] entries).outcome >>= fun shares =>
          .ok ⟨threshold, total, byNumber shares⟩ := by
  simp only [readBundle, h, Journal.outcome_bind, Journal.outcome_lift]
  congr 1
  funext total
  congr 1
  funext threshold
  by_cases hg : threshold < 1 ∨ total < threshold <;> simp [hg]

theorem outcome_ofData_eq_ok_iff {d : Data} {b : Bundle} :
    (ofData digits d).outcome = .ok b ↔ ∃ entries counts shares, d = .mapping entries ∧
      Data.find? "keys" entries = some (.mapping counts) ∧ Reads digits counts "n" b.total ∧
      Reads digits counts "k" b.threshold ∧ (1 ≤ b.threshold ∧ b.threshold ≤ b.total) ∧
      (readShares digits b.total [] entries).outcome = .ok shares ∧ b.shares = byNumber shares := by
  rw [outcome_ofData_eq_ok_iff_readBundle]
  constructor
  · intro h
    cases d with
    | scalar v => simp [readBundle] at h
    | list items => simp [readBundle] at h
    | mapping entries =>
      cases hk : Data.find? "keys" entries with
      | none => simp [readBundle, hk] at h
      | some d =>
        cases d with
        | scalar v => simp [readBundle, hk] at h
        | list items => simp [readBundle, hk] at h
        | mapping counts =>
          rw [outcome_readBundle_mapping hk] at h
          simp only [bind_eq_ok_iff, readCount_eq_ok_iff] at h
          obtain ⟨total, hn, threshold, hk', h⟩ := h
          split at h
          · cases h
          · rename_i hg
            obtain ⟨shares, hs, h⟩ := bind_eq_ok_iff.1 h
            cases h
            exact ⟨entries, counts, shares, rfl, hk, hn, hk',
              ⟨not_lt.1 fun h => hg (.inl h), not_lt.1 fun h => hg (.inr h)⟩, hs, rfl⟩
  · rintro ⟨entries, counts, shares, rfl, hk, hn, hk', hg, hs, hb⟩
    rw [outcome_readBundle_mapping hk, readCount_eq_ok_iff.2 hn, ok_bind, readCount_eq_ok_iff.2 hk',
      ok_bind, if_neg (by omega), hs, ok_bind, ← hb]

theorem ids_of_readShares {numbers : List (Int × Data)} {shares : List Share}
    (h : List.Forall₂ (fun e s => readShare digits e.1 e.2 = .ok s) numbers shares) :
    shares.map Share.id = numbers.map Prod.fst := by
  induction h with
  | nil => rfl
  | cons he _ ih => rw [List.map_cons, List.map_cons, (readShare_eq_ok_iff.1 he).1, ih]

theorem base_range_of_readShares {numbers : List (Int × Data)} {shares : List Share}
    (h : List.Forall₂ (fun e s => readShare digits e.1 e.2 = .ok s) numbers shares) :
    ∀ s ∈ shares, 2 ≤ s.base ∧ s.base ≤ 36 := by
  induction h with
  | nil => simp
  | cons he _ ih => exact List.forall_mem_cons.2 ⟨(readShare_eq_ok_iff.1 he).2.1, ih⟩

/-- A bundle that has been read from data is well formed. -/
theorem wellFormed_of_ofData {d : Data} {b : Bundle} (h : (ofData digits d).outcome = .ok b) :
    b.WellFormed := by
  obtain ⟨entries, counts, shares, -, -, -, -, hg, hs, hb⟩ := outcome_ofData_eq_ok_iff.1 h
  obtain ⟨-, hn, h₁, hf⟩ := outcome_readShares_eq_ok_iff.1 hs
  have hids := ids_of_readShares hf
  have hp : b.shares.Perm shares := hb ▸ sortBy_perm Share.id shares
  refine ⟨hg.1, hg.2, ?_, fun s hm => ?_, fun s hm => ?_⟩
  · rw [hb]
    exact pairwise_lt_sortBy (hids ▸ hn)
  · have hm : s.id ∈ (numbered entries).map Prod.fst :=
      hids ▸ List.mem_map_of_mem (hp.subset hm)
    obtain ⟨e, he, hid⟩ := List.mem_map.1 hm
    exact hid ▸ (h₁ e he).1
  · exact base_range_of_readShares hf s (hp.subset hm)

end Quorum.Bundle
