import Mathlib
import Quorum.Text.LetterCase

/-!
# Words in letters of any case

The texts that are a word of ASCII letters when they are put in small letters or in capitals are told
letter by letter. A letter may stand in either case. Besides, the kelvin sign is a `k`
(`lower_eq_iff`), a dotless i is an `I` and a long s an `S` (`upper_eq_iff`). The other characters
that come to ASCII capitals come to several at once, and a text has none of them if it comes to a word
in which no two capitals follow each other that a single character starts with (`joined`).
-/

namespace Quorum.Text

/-- The character comes to the small letter. -/
def SmallOf (c l : Char) : Prop :=
  c = l ∨ c = l.toUpper ∨ l = 'k' ∧ c = '\u212A'

/-- The character comes to the capital, and to nothing else. -/
def CapitalOf (c l : Char) : Prop :=
  c = l ∨ c = l.toLower ∨ l = 'I' ∧ c = '\u0131' ∨ l = 'S' ∧ c = '\u017F'

/-- The first two of the capitals that a single character comes to, if it comes to several. -/
def joined : List (List Char) :=
  ["SS".toList, "ST".toList, "FF".toList, "FI".toList, "FL".toList]

/-! ## Letters -/

theorem isLower_iff {c : Char} : c.isLower = true ↔ 97 ≤ c.toNat ∧ c.toNat ≤ 122 := by
  simp [Char.isLower, UInt32.le_iff_toNat_le]

theorem isUpper_iff {c : Char} : c.isUpper = true ↔ 65 ≤ c.toNat ∧ c.toNat ≤ 90 := by
  simp [Char.isUpper, UInt32.le_iff_toNat_le]

theorem toNat_toLower (c : Char) :
    c.toLower.toNat = if 65 ≤ c.toNat ∧ c.toNat ≤ 90 then c.toNat + 32 else c.toNat := by
  by_cases h : c.isUpper = true
  · have hc := isUpper_iff.1 h
    rw [if_pos hc, Char.toLower, dif_pos (by simpa [Char.isUpper] using h)]
    show (c.val + 32).toNat = c.val.toNat + 32
    rw [UInt32.toNat_add, Nat.mod_eq_of_lt]
    · rfl
    · exact Nat.lt_of_le_of_lt (Nat.add_le_add_right hc.2 32) (by decide)
  · rw [if_neg (fun hc => h (isUpper_iff.2 hc)), Char.toLower,
      dif_neg (by simpa [Char.isUpper] using h)]

theorem toNat_toUpper (c : Char) :
    c.toUpper.toNat = if 97 ≤ c.toNat ∧ c.toNat ≤ 122 then c.toNat - 32 else c.toNat := by
  by_cases h : c.isLower = true
  · have hc := isLower_iff.1 h
    rw [if_pos hc, Char.toUpper, dif_pos (by simpa [Char.isLower] using h)]
    show (c.val + ('A'.val - 'a'.val)).toNat = c.toNat - 32
    rw [UInt32.toNat_add, Char.toNat_val, show ('A'.val - 'a'.val).toNat = 2 ^ 32 - 32 from rfl]
    omega
  · rw [if_neg (fun hc => h (isLower_iff.2 hc)), Char.toUpper,
      dif_neg (by simpa [Char.isLower] using h)]

/-! ## Small letters -/

theorem lowerChar_eq_iff {c l : Char} (hl : l.isLower = true) : lowerChar c = l ↔ SmallOf c l := by
  have hr := isLower_iff.1 hl
  have hu := toNat_toUpper l
  rw [lowerChar, SmallOf]
  split
  · rename_i hc
    obtain rfl : c = '\u212A' := by simpa using hc
    have h : ('\u212A' : Char).toNat = 8490 := rfl
    have hk : ('k' : Char).toNat = 107 := rfl
    simp only [← Char.toNat_inj, h, hk, and_true]
    split at hu <;> omega
  · rename_i hc
    have hc : c ≠ '\u212A' := by simpa using hc
    have hcl := toNat_toLower c
    simp only [hc, and_false, or_false, ← Char.toNat_inj]
    split at hu <;> split at hcl <;> omega

/-- The texts that are the word in small letters. -/
theorem lower_eq_iff {s w : List Char} (hw : ∀ l ∈ w, l.isLower = true) :
    lower s = w ↔ List.Forall₂ SmallOf s w := by
  rw [lower]
  induction s generalizing w with
  | nil => simp [eq_comm]
  | cons c r ih =>
    cases w with
    | nil => simp
    | cons l w =>
      obtain ⟨hl, hw⟩ := List.forall_mem_cons.1 hw
      rw [List.map_cons, List.cons_eq_cons, List.forall₂_cons, lowerChar_eq_iff hl, ih hw]

/-! ## Capitals -/

/-- A dotless i and a long s apart, characters come to their ASCII capital, or to several. -/
theorem upperChar_cases (c : Char) :
    upperChar c = [c.toUpper] ∧ c ≠ '\u0131' ∧ c ≠ '\u017F' ∨
      c = '\u0131' ∧ upperChar c = ['I'] ∨ c = '\u017F' ∧ upperChar c = ['S'] ∨
      128 ≤ c.toNat ∧ ∃ pair ∈ joined, pair <+: upperChar c := by
  unfold upperChar
  split
  case h_2 => exact .inr (.inl ⟨rfl, rfl⟩)
  case h_3 => exact .inr (.inr (.inl ⟨rfl, rfl⟩))
  case h_11 => exact .inl ⟨rfl, ‹_›, ‹_›⟩
  all_goals exact .inr (.inr (.inr (by decide)))

theorem upperChar_ne_singleton {c l : Char} {pair : List Char} (hp : pair ∈ joined)
    (h : pair <+: upperChar c) : upperChar c ≠ [l] := by
  intro hl
  have hlen : ∀ pair ∈ joined, pair.length = 2 := by decide
  have hle := h.length_le
  rw [hlen pair hp, hl] at hle
  exact absurd hle (by simp)

theorem upperChar_eq_singleton_iff {c l : Char} (hl : l.isUpper = true) :
    upperChar c = [l] ↔ CapitalOf c l := by
  have hr := isUpper_iff.1 hl
  have hw := toNat_toLower l
  rw [if_pos hr] at hw
  have hi : ('\u0131' : Char).toNat = 305 := rfl
  have hs : ('\u017F' : Char).toNat = 383 := rfl
  have hI : ('I' : Char).toNat = 73 := rfl
  have hS : ('S' : Char).toNat = 83 := rfl
  rw [CapitalOf]
  rcases upperChar_cases c with ⟨h, hci, hcs⟩ | ⟨rfl, h⟩ | ⟨rfl, h⟩ | ⟨hc, pair, hp, h⟩
  · have hcu := toNat_toUpper c
    simp only [h, hci, hcs, and_false, or_false, List.cons.injEq, and_true, ← Char.toNat_inj]
    split at hcu <;> omega
  · simp only [h, List.cons.injEq, and_true, ← Char.toNat_inj, hi, hs, hI, hS]
    omega
  · simp only [h, List.cons.injEq, and_true, ← Char.toNat_inj, hi, hs, hI, hS]
    omega
  · refine iff_of_false (upperChar_ne_singleton hp h) ?_
    rintro (rfl | rfl | ⟨-, rfl⟩ | ⟨-, rfl⟩)
    · omega
    · omega
    · exact upperChar_ne_singleton hp h rfl
    · exact upperChar_ne_singleton hp h rfl

/-- The texts that are the word in capitals. -/
theorem upper_eq_iff {s w : List Char} (hw : ∀ l ∈ w, l.isUpper = true)
    (hj : ∀ pair ∈ joined, ¬ pair <:+: w) : upper s = w ↔ List.Forall₂ CapitalOf s w := by
  rw [upper]
  induction s generalizing w with
  | nil => simp [eq_comm]
  | cons c r ih =>
    have hc : (∃ l, upperChar c = [l]) ∨ ∃ pair ∈ joined, pair <+: upperChar c := by
      rcases upperChar_cases c with ⟨h, -, -⟩ | ⟨-, h⟩ | ⟨-, h⟩ | ⟨-, h⟩
      · exact .inl ⟨_, h⟩
      · exact .inl ⟨_, h⟩
      · exact .inl ⟨_, h⟩
      · exact .inr h
    rw [List.flatMap_cons]
    rcases hc with ⟨a, ha⟩ | ⟨pair, hp, h⟩
    · cases w with
      | nil => simp [ha]
      | cons l w =>
        obtain ⟨hl, hw⟩ := List.forall_mem_cons.1 hw
        have hj : ∀ pair ∈ joined, ¬ pair <:+: w := fun pair hp h =>
          hj pair hp (h.trans (List.suffix_cons l w).isInfix)
        rw [List.forall₂_cons, ← upperChar_eq_singleton_iff hl, ha, List.singleton_append,
          List.cons_eq_cons, List.cons_eq_cons, ih hw hj]
        simp
    · -- A character that comes to several capitals has no place in the word.
      refine iff_of_false ?_ ?_
      · rintro rfl
        exact hj pair hp (h.isInfix.trans (List.prefix_append _ _).isInfix)
      · intro hf
        cases hf with
        | cons hc _ =>
          obtain ⟨hl, -⟩ := List.forall_mem_cons.1 hw
          exact upperChar_ne_singleton hp h ((upperChar_eq_singleton_iff hl).2 hc)

end Quorum.Text
