/-!
# Blank characters

White space as the Unicode standard sees it (bidirectional classes B, S and WS,
and category Zs), and trimming of a text at both ends. Nothing is left exactly when every
character is blank (`trim_eq_nil_iff`).
-/

namespace Quorum.Text

/-- Whether `c` is white space. -/
def isBlank (c : Char) : Bool :=
  let n := c.toNat
  (0x09 ≤ n && n ≤ 0x0D) || (0x1C ≤ n && n ≤ 0x20) || n == 0x85 || n == 0xA0 || n == 0x1680 ||
    (0x2000 ≤ n && n ≤ 0x200A) || n == 0x2028 || n == 0x2029 || n == 0x202F || n == 0x205F ||
    n == 0x3000

/-- The text without the blanks at its end. -/
def trimEnd (s : List Char) : List Char :=
  (s.reverse.dropWhile isBlank).reverse

/-- The text without the blanks at its two ends. -/
def trim (s : List Char) : List Char :=
  trimEnd (s.dropWhile isBlank)

@[simp] theorem trim_nil : trim [] = [] := rfl

theorem dropWhile_isBlank_eq_nil_iff {s : List Char} :
    s.dropWhile isBlank = [] ↔ ∀ c ∈ s, isBlank c = true := by
  induction s with
  | nil => simp
  | cons c r ih => cases h : isBlank c <;> simp [h, ih]

theorem trimEnd_eq_nil_iff {s : List Char} : trimEnd s = [] ↔ ∀ c ∈ s, isBlank c = true := by
  rw [trimEnd, List.reverse_eq_nil_iff, dropWhile_isBlank_eq_nil_iff]
  simp

theorem trim_eq_nil_iff {s : List Char} : trim s = [] ↔ ∀ c ∈ s, isBlank c = true := by
  rw [trim, trimEnd_eq_nil_iff]
  induction s with
  | nil => simp
  | cons c r ih => cases h : isBlank c <;> simp [h, ih]

theorem trimEnd_append_of_not_blank {s : List Char} {c : Char} (hc : isBlank c = false) :
    trimEnd (s ++ [c]) = s ++ [c] := by
  simp [trimEnd, hc]

end Quorum.Text
