import Mathlib.Data.List.DropRight
import Quorum.Text.Blank

/-!
# Blanks around a text

Trimming gives what stands between the blanks around it: `trim_eq_iff`. Two texts are the same but
for the blanks around them (`Repads`) if they are the same when trimmed (`repads_iff`).
-/

namespace Quorum.Text

/-- The text is the inner one with blanks around it. -/
def Pads (inner text : List Char) : Prop :=
  ∃ before after, (∀ c ∈ before, isBlank c = true) ∧ (∀ c ∈ after, isBlank c = true) ∧
    text = before ++ inner ++ after

theorem Pads.refl (text : List Char) : Pads text text :=
  ⟨[], [], nofun, nofun, by simp⟩

theorem Pads.subset {inner text : List Char} (h : Pads inner text) : inner ⊆ text := by
  obtain ⟨before, after, -, -, rfl⟩ := h
  intro c hc
  simp [hc]

theorem trim_append_left {before s : List Char} (h : ∀ c ∈ before, isBlank c = true) :
    trim (before ++ s) = trim s := by
  rw [trim, List.dropWhile_append_of_pos h, trim]

theorem trimEnd_append_right {after s : List Char} (h : ∀ c ∈ after, isBlank c = true) :
    trimEnd (s ++ after) = trimEnd s := by
  rw [trimEnd, List.reverse_append, List.dropWhile_append_of_pos, trimEnd]
  exact fun c hc => h c (List.mem_reverse.1 hc)

theorem trim_append_right {after s : List Char} (h : ∀ c ∈ after, isBlank c = true) :
    trim (s ++ after) = trim s := by
  rw [trim, List.dropWhile_append, trim]
  split
  · rename_i hs
    rw [List.isEmpty_iff.1 hs, dropWhile_isBlank_eq_nil_iff.2 h]
  · exact trimEnd_append_right h

/-- What stands around the characters that are left between the ends are characters that are dropped
there. -/
theorem exists_around_dropWhile (p : Char → Bool) (s : List Char) :
    ∃ before after, (∀ c ∈ before, p c = true) ∧ (∀ c ∈ after, p c = true) ∧
      s = before ++ ((s.dropWhile p).reverse.dropWhile p).reverse ++ after := by
  refine ⟨s.takeWhile p, ((s.dropWhile p).reverse.takeWhile p).reverse,
    fun c hc => List.mem_takeWhile_imp hc,
    fun c hc => List.mem_takeWhile_imp (List.mem_reverse.1 hc), ?_⟩
  rw [List.append_assoc, ← List.reverse_append, List.takeWhile_append_dropWhile,
    List.reverse_reverse, List.takeWhile_append_dropWhile]

theorem dropWhile_of_forall_not {p : Char → Bool} {s : List Char} (h : ∀ c ∈ s, p c = false) :
    s.dropWhile p = s := by
  cases s with
  | nil => rfl
  | cons c r => exact List.dropWhile_cons_of_neg (by simp [h c])

theorem dropWhile_around {p : Char → Bool} {before inner after : List Char}
    (hb : ∀ c ∈ before, p c = true) (hi : ∀ c ∈ inner, p c = false) (ha : ∀ c ∈ after, p c = true) :
    (((before ++ inner ++ after).dropWhile p).reverse.dropWhile p).reverse = inner := by
  have hr : ∀ c ∈ after.reverse, p c = true := fun c hc => ha c (List.mem_reverse.1 hc)
  have hir : ∀ c ∈ inner.reverse, p c = false := fun c hc => hi c (List.mem_reverse.1 hc)
  rw [List.append_assoc, List.dropWhile_append_of_pos hb]
  cases inner with
  | nil => rw [List.nil_append, List.dropWhile_eq_nil_iff.2 ha]; rfl
  | cons c r =>
    rw [List.cons_append, List.dropWhile_cons_of_neg (by simp [hi c]), ← List.cons_append,
      List.reverse_append, List.dropWhile_append_of_pos hr, dropWhile_of_forall_not hir,
      List.reverse_reverse]

theorem pads_trim (s : List Char) : Pads (trim s) s :=
  exists_around_dropWhile isBlank s

theorem Pads.trim_eq_trim {inner text : List Char} (h : Pads inner text) :
    trim text = trim inner := by
  obtain ⟨before, after, hb, ha, rfl⟩ := h
  rw [trim_append_right ha, trim_append_left hb]

/-- A text of no blanks is what trimming gives exactly of itself with blanks around it. -/
theorem trim_eq_iff {inner text : List Char} (h : ∀ c ∈ inner, isBlank c = false) :
    trim text = inner ↔ Pads inner text := by
  constructor
  · rintro rfl
    exact pads_trim text
  · rintro ⟨before, after, hb, ha, rfl⟩
    exact dropWhile_around hb h ha

theorem trim_of_not_blank {s : List Char} (h : ∀ c ∈ s, isBlank c = false) : trim s = s :=
  (trim_eq_iff h).2 (.refl s)

@[simp] theorem trim_trim (s : List Char) : trim (trim s) = trim s :=
  (pads_trim s).trim_eq_trim.symm

/-- Characters that are not blank are not trimmed. -/
theorem mem_trim_iff {c : Char} {s : List Char} (hc : isBlank c = false) : c ∈ trim s ↔ c ∈ s := by
  refine ⟨fun h => (pads_trim s).subset h, fun h => ?_⟩
  obtain ⟨before, after, hb, ha, hs⟩ := pads_trim s
  rw [hs, List.mem_append, List.mem_append] at h
  rcases h with (h | h) | h
  · exact absurd (hb c h) (by simp [hc])
  · exact h
  · exact absurd (ha c h) (by simp [hc])

theorem trim_dropWhile (s : List Char) : trim (s.dropWhile isBlank) = trim s := by
  rw [trim, List.dropWhile_idempotent, trim]

theorem trimEnd_append_cons {a : Char} (ha : isBlank a = false) (before after : List Char) :
    trimEnd (before ++ a :: after) = before ++ a :: trimEnd after := by
  have hr : (before ++ a :: after).reverse = after.reverse ++ a :: before.reverse := by simp
  rw [trimEnd, hr, List.dropWhile_append, List.dropWhile_cons_of_neg (by simp [ha]), trimEnd]
  split
  · rename_i h
    simp [List.isEmpty_iff.1 h]
  · simp

/-- Around a character that is not blank, each side is trimmed by itself. -/
theorem trim_append_cons {a : Char} (ha : isBlank a = false) (before after : List Char) :
    trim (before ++ a :: after) = before.dropWhile isBlank ++ a :: trimEnd after := by
  have hd : (before ++ a :: after).dropWhile isBlank = before.dropWhile isBlank ++ a :: after := by
    rw [List.dropWhile_append, List.dropWhile_cons_of_neg (by simp [ha])]
    split
    · rename_i h
      rw [List.isEmpty_iff.1 h, List.nil_append]
    · rfl
  rw [trim, hd, trimEnd_append_cons ha]

/-- The two texts are the same but for the blanks around them. -/
def Repads (s s' : List Char) : Prop :=
  ∃ inner, Pads inner s ∧ Pads inner s'

theorem repads_iff {s s' : List Char} : Repads s s' ↔ trim s = trim s' := by
  constructor
  · rintro ⟨inner, h, h'⟩
    rw [h.trim_eq_trim, h'.trim_eq_trim]
  · exact fun h => ⟨trim s, pads_trim s, h ▸ pads_trim s'⟩

theorem Repads.mem_iff {c : Char} {s s' : List Char} (h : Repads s s') (hc : isBlank c = false) :
    c ∈ s ↔ c ∈ s' := by
  rw [← mem_trim_iff hc, repads_iff.1 h, mem_trim_iff hc]

end Quorum.Text
