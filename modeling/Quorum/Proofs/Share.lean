import Quorum.Proofs.Journal
import Quorum.Proofs.Numeral.Spelling
import Quorum.Share.Value

/-!
# Decoding shares

A value that is spelt in the base of its share is decoded to the integer spelt
(`valueOf_of_spells`), and a list of shares with distinct numbers to its points, if every value
can be decoded (`outcome_points`).
-/

namespace Quorum.Share

open Quorum.Numeral (Spells)
open Quorum.Text (Pads)

/-- A spelling without the variable is a numeral for every share, whatever powers it may use. -/
theorem valueOf_of_spells {base v : Int} {t text : List Char} (limit x : Int) (hb : 2 ≤ base)
    (hb' : base ≤ 36) (h : Spells base.toNat t v) (hp : Pads t text)
    (hx : Formula.variableLetter ∉ text) : valueOf limit base text x = .ok v := by
  have ht : Text.trim text = t := (Text.trim_eq_iff h.not_isBlank).2 hp
  have hc : Formula.variableLetter ∉ t := fun hm => hx (hp.subset hm)
  obtain ⟨hn, hv⟩ := Numeral.spells_iff.1 h
  rw [Int.toNat_of_nonneg (by omega)] at hn
  simp [valueOf, ht, hn, hv, hb, hb', hc]

theorem point_eq_ok {limit v : Int} {s : Share} (h : valueOf limit s.base s.value s.id = .ok v) :
    point limit s = .ok ⟨s.id, v⟩ := by
  rw [point, h]

theorem point_eq_error {limit : Int} {s : Share} {reason : Malformation}
    (h : valueOf limit s.base s.value s.id = .error (.malformed none reason)) :
    point limit s = .error (.malformed (some s.id) reason) := by
  rw [point, h]
  rfl

theorem outcome_points {limit : Int} {shares : List Share} {y : Int → Int}
    (hn : (shares.map Share.id).Nodup)
    (hy : ∀ s ∈ shares, valueOf limit s.base s.value s.id = .ok (y s.id)) :
    (points limit shares).outcome = .ok (shares.map fun s => ⟨s.id, y s.id⟩) := by
  have hm : shares.mapM (point limit) = .ok (shares.map fun s => ⟨s.id, y s.id⟩) :=
    mapM_ok fun s hs => point_eq_ok (hy s hs)
  simp [points, firstRepeat?_beq_eq_none_iff.2 hn, hm]

theorem events_points {limit : Int} {shares : List Share} {decoded : List Point}
    (h : (points limit shares).outcome = .ok decoded) :
    (points limit shares).events = [.sharesDecoded decoded.length] := by
  unfold points at h ⊢
  split at h
  · cases h
  · obtain ⟨decoded', -, h, hev⟩ := Journal.events_bind_of_ok h
    cases h
    rw [hev]
    rfl

/-- The value of the share can be decoded. -/
def Decodes (limit : Int) (s : Share) : Prop :=
  ∃ v, valueOf limit s.base s.value s.id = .ok v

/-- In a base up to 36 nothing is wrong with a text but that it may be malformed. -/
theorem valueOf_cases {base : Int} (limit : Int) (text : List Char) (x : Int) (hb : 2 ≤ base)
    (hb' : base ≤ 36) :
    (∃ v, valueOf limit base text x = .ok v) ∨
      ∃ reason, valueOf limit base text x = .error (.malformed none reason) := by
  simp only [valueOf, hb, hb', decide_true, Bool.and_self, if_true]
  split
  · exact .inl ⟨_, rfl⟩
  split
  · exact .inr ⟨_, rfl⟩
  · cases Formula.evaluate limit x (Text.trim text) with
    | ok v => exact .inl ⟨v, rfl⟩
    | error reason => exact .inr ⟨reason, rfl⟩

/-- Shares with distinct numbers have their values by number. -/
theorem exists_values {limit : Int} {shares : List Share} (hn : (shares.map Share.id).Nodup)
    (hv : ∀ s ∈ shares, ∃ v, valueOf limit s.base s.value s.id = .ok v) :
    ∃ y : Int → Int, ∀ s ∈ shares, valueOf limit s.base s.value s.id = .ok (y s.id) := by
  have hi : ∀ i, ∃ v, ∀ s ∈ shares, s.id = i → valueOf limit s.base s.value s.id = .ok v := by
    intro i
    by_cases hs : ∃ s ∈ shares, s.id = i
    · obtain ⟨s, hs, rfl⟩ := hs
      obtain ⟨v, hv⟩ := hv s hs
      exact ⟨v, fun t ht hts => List.inj_on_of_nodup_map hn ht hs hts ▸ hv⟩
    · exact ⟨0, fun s hm he => absurd ⟨s, hm, he⟩ hs⟩
  choose y hy using hi
  exact ⟨y, fun s hs => hy s.id s hs rfl⟩

end Quorum.Share
