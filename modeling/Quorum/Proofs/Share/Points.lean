import Quorum.Proofs.Fault
import Quorum.Proofs.Share

/-!
# Lists of shares

A list of shares is decoded as a whole or not at all (`points_all_or_none`). A number that occurs
twice is found before any value is read, by going through the numbers alone
(`FirstRepeated.firstRepeat?_eq`); after that the first value that cannot be decoded decides
(`exists_firstMalformed`). If there is neither, every share has its point, in its place and by its
own value (`exists_decoded`). A fault is put into words under a limit on digits, where a number may be
too long to be named (`outcome_points_of_longId`).
-/

namespace Quorum

/-- The first of the elements that fail a property. -/
theorem exists_first_not {α : Type} {p : α → Prop} {l : List α} (h : ∃ a ∈ l, ¬ p a) :
    ∃ before a after, l = before ++ a :: after ∧ (∀ b ∈ before, p b) ∧ ¬ p a := by
  classical
  obtain ⟨a, ha⟩ : ∃ a, l.find? (fun a => ¬ p a) = some a := by
    rw [← Option.isSome_iff_exists, List.find?_isSome]
    simpa using h
  obtain ⟨hp, before, after, rfl, hb⟩ := List.find?_eq_some_iff_append.1 ha
  exact ⟨before, a, after, rfl, by simpa using hb, by simpa using hp⟩

namespace Share

/-- The share is the first one whose number a share before it has. -/
structure FirstRepeated (shares before : List Share) (s : Share) (after : List Share) : Prop where
  eq_append : shares = before ++ s :: after
  nodup_before : (before.map Share.id).Nodup
  mem_before : s.id ∈ before.map Share.id

/-- The share is the first one whose value cannot be decoded, and this is what is wrong with it. -/
structure FirstMalformed (limit : Int) (shares before : List Share) (s : Share)
    (after : List Share) (reason : Malformation) : Prop where
  eq_append : shares = before ++ s :: after
  decodes_before : ∀ t ∈ before, t.Decodes limit
  valueOf_eq : valueOf limit s.base s.value s.id = .error (.malformed none reason)

/-- One point for each share, in order and under its number, by the value of this share alone. No
two points are under the same number. -/
structure Decoded (limit : Int) (shares : List Share) (decoded : List Point) : Prop where
  map_x : decoded.map Point.x = shares.map Share.id
  nodup_x : (decoded.map Point.x).Nodup
  values : List.Forall₂ (fun s p => valueOf limit s.base s.value s.id = .ok p.y) shares decoded

/-- What becomes of a list of shares. -/
structure AllOrNone (digits : DigitLimit) (limit : Int) (shares : List Share) : Prop where
  /-- Of two shares with the same number the later one is reported, whatever their values are. -/
  of_repeated : ¬ (shares.map Share.id).Nodup →
    ∃ before s after, FirstRepeated shares before s after ∧
      ((points limit shares).within digits).outcome =
        .error ((Fault.duplicateShare s.id).within digits)
  of_malformed : (shares.map Share.id).Nodup → (∃ s ∈ shares, ¬ s.Decodes limit) →
    ∃ before s after reason, FirstMalformed limit shares before s after reason ∧
      ((points limit shares).within digits).outcome =
        .error ((Fault.malformed (some s.id) reason).within digits)
  of_decodes : (shares.map Share.id).Nodup → (∀ s ∈ shares, s.Decodes limit) →
    ∃ decoded, Decoded limit shares decoded ∧
      ((points limit shares).within digits).outcome = .ok decoded

variable {limit : Int} {shares : List Share}

theorem exists_firstRepeated (h : ¬ (shares.map Share.id).Nodup) :
    ∃ before s after, FirstRepeated shares before s after := by
  obtain ⟨i, hi⟩ : ∃ i, firstRepeat? (· == ·) [] (shares.map Share.id) = some i :=
    Option.ne_none_iff_exists'.1 (mt firstRepeat?_beq_eq_none_iff.1 h)
  obtain ⟨ids, later, he, hp, j, hj, hij⟩ := firstRepeat?_eq_some_iff.1 hi
  obtain ⟨before, rest, rfl, rfl, hrest⟩ := List.map_eq_append_iff.1 he
  obtain ⟨s, after, rfl, rfl, -⟩ := List.map_eq_cons_iff.1 hrest
  refine ⟨before, s, after, rfl, ?_, ?_⟩
  · exact firstRepeat?_beq_eq_none_iff.1 (firstRepeat?_eq_none_iff.2 hp)
  · rwa [eq_of_beq hij]

/-- The values have no part in the search for a repeated number. -/
theorem FirstRepeated.firstRepeat?_eq {before after : List Share} {s : Share}
    (h : FirstRepeated shares before s after) :
    firstRepeat? (· == ·) [] (shares.map Share.id) = some s.id := by
  obtain ⟨rfl, hn, hm⟩ := h
  refine firstRepeat?_eq_some_iff.2 ⟨before.map Share.id, after.map Share.id, ?_, ?_, s.id, hm, ?_⟩
  · rw [List.map_append, List.map_cons]
  · exact firstRepeat?_eq_none_iff.1 (firstRepeat?_beq_eq_none_iff.2 hn)
  · exact beq_self_eq_true s.id

theorem FirstRepeated.outcome_points {before after : List Share} {s : Share}
    (h : FirstRepeated shares before s after) (limit : Int) :
    (points limit shares).outcome = .error (.duplicateShare s.id) := by
  rw [points, h.firstRepeat?_eq]
  rfl

theorem exists_firstMalformed (hb : ∀ s ∈ shares, 2 ≤ s.base ∧ s.base ≤ 36)
    (h : ∃ s ∈ shares, ¬ s.Decodes limit) :
    ∃ before s after reason, FirstMalformed limit shares before s after reason := by
  obtain ⟨before, s, after, rfl, hd, hs⟩ := exists_first_not h
  obtain ⟨hlow, hhigh⟩ := hb s (List.mem_append_right before List.mem_cons_self)
  obtain ⟨reason, hv⟩ := (valueOf_cases limit s.value s.id hlow hhigh).resolve_left hs
  exact ⟨before, s, after, reason, rfl, hd, hv⟩

theorem FirstMalformed.outcome_points {before after : List Share} {s : Share}
    {reason : Malformation} (h : FirstMalformed limit shares before s after reason)
    (hn : (shares.map Share.id).Nodup) :
    (points limit shares).outcome = .error (.malformed (some s.id) reason) := by
  have hm : shares.mapM (point limit) = .error (.malformed (some s.id) reason) := by
    rw [h.eq_append]
    exact mapM_error (fun t ht => (h.decodes_before t ht).imp' (Point.mk t.id) fun _ => point_eq_ok)
      (point_eq_error h.valueOf_eq)
  rw [points, firstRepeat?_beq_eq_none_iff.2 hn]
  simp [hm]

theorem exists_decoded (hn : (shares.map Share.id).Nodup) (h : ∀ s ∈ shares, s.Decodes limit) :
    ∃ decoded, Decoded limit shares decoded ∧ (points limit shares).outcome = .ok decoded := by
  obtain ⟨y, hy⟩ := exists_values hn h
  have hx : (shares.map fun s => Point.mk s.id (y s.id)).map Point.x = shares.map Share.id := by
    rw [List.map_map]
    rfl
  refine ⟨shares.map fun s => ⟨s.id, y s.id⟩, ⟨hx, hx ▸ hn, ?_⟩, outcome_points hn hy⟩
  exact List.forall₂_map_right_iff.2 (List.forall₂_same.2 hy)

/-- A list of shares is refused for the first number that occurs twice, or else for the first value
that cannot be decoded; if there is neither, every share has its point. -/
theorem points_all_or_none (digits : DigitLimit) (limit : Int) (shares : List Share)
    (hb : ∀ s ∈ shares, 2 ≤ s.base ∧ s.base ≤ 36) : AllOrNone digits limit shares where
  of_repeated h := by
    obtain ⟨before, s, after, hs⟩ := exists_firstRepeated h
    exact ⟨before, s, after, hs, mapError_eq_error_iff.2 ⟨_, hs.outcome_points limit, rfl⟩⟩
  of_malformed hn h := by
    obtain ⟨before, s, after, reason, hs⟩ := exists_firstMalformed hb h
    exact ⟨before, s, after, reason, hs, mapError_eq_error_iff.2 ⟨_, hs.outcome_points hn, rfl⟩⟩
  of_decodes hn h := by
    obtain ⟨decoded, hd, ho⟩ := exists_decoded hn h
    exact ⟨decoded, hd, mapError_eq_ok_iff.2 ho⟩

/-- A number that occurs twice, behind a value that cannot be decoded. -/
def repeatedShares : List Share :=
  [⟨4, 2, .text "2".toList⟩, ⟨1, 10, .text "7".toList⟩, ⟨4, 10, .text "1".toList⟩]

/-- Two values that cannot be decoded. -/
def spoiltShares : List Share :=
  [⟨4, 16, .text "fF".toList⟩, ⟨1, 2, .text "2".toList⟩, ⟨3, 10, .text "add(".toList⟩]

/-- Shares whose numbers do not ascend. -/
def unsortedShares : List Share :=
  [⟨4, 16, .text "fF".toList⟩, ⟨1, 2, .text "power(x,9)".toList⟩]

theorem points_all_or_none_spoilt :
    (∃ before s after, FirstRepeated repeatedShares before s after ∧ s.id = 4) ∧
    (∃ before s after reason, FirstMalformed 9 spoiltShares before s after reason ∧ s.id = 1 ∧
      reason = .notNumeral 2) ∧
    Decoded 9 unsortedShares [⟨4, 255⟩, ⟨1, 1⟩] := by
  refine ⟨?_, ?_, ?_⟩
  · obtain ⟨before, s, after, h, ho⟩ :=
      (points_all_or_none .lifted 9 repeatedShares (by decide)).of_repeated (by decide)
    have he : ((points 9 repeatedShares).within .lifted).outcome = .error (.duplicateShare 4) := by
      decide
    rw [Fault.within_lifted] at ho
    exact ⟨before, s, after, h, Fault.duplicateShare.inj (Except.error.inj (ho.symm.trans he))⟩
  · have hv : valueOf 9 2 "2".toList 1 = .error (.malformed none (.notNumeral 2)) := by decide
    have hd : ¬ Decodes 9 ⟨1, 2, .text "2".toList⟩ := by
      rintro ⟨v, h⟩
      cases hv.symm.trans h
    obtain ⟨before, s, after, reason, h, ho⟩ :=
      (points_all_or_none .lifted 9 spoiltShares (by decide)).of_malformed (by decide)
        ⟨_, by simp [spoiltShares], hd⟩
    have he : ((points 9 spoiltShares).within .lifted).outcome =
        .error (.malformed (some 1) (.notNumeral 2)) := by
      decide
    rw [Fault.within_lifted] at ho
    obtain ⟨hid, hr⟩ := Fault.malformed.inj (Except.error.inj (ho.symm.trans he))
    exact ⟨before, s, after, reason, h, Option.some.inj hid, hr⟩
  · have hd : ∀ s ∈ unsortedShares, s.Decodes 9 :=
      List.forall_mem_cons.2 ⟨⟨255, by decide⟩, List.forall_mem_singleton.2 ⟨1, by decide⟩⟩
    obtain ⟨decoded, h, ho⟩ :=
      (points_all_or_none .lifted 9 unsortedShares (by decide)).of_decodes (by decide) hd
    have he : ((points 9 unsortedShares).within .lifted).outcome = .ok [⟨4, 255⟩, ⟨1, 1⟩] := by
      decide
    rwa [Except.ok.inj (ho.symm.trans he)] at h

/-- Where a number of 4301 digits stands twice, or has a value that cannot be decoded, the list is
refused, but not for this. -/
theorem outcome_points_of_longId :
    ((points 9 [⟨10 ^ 4300, 10, .text ['1']⟩, ⟨10 ^ 4300, 10, .text ['1']⟩]).within
        .standard).outcome = .error (.refused (.tooManyDigits 4300 none)) ∧
      ((points 9 [⟨10 ^ 4300, 10, .text []⟩]).within .standard).outcome =
        .error (.refused (.tooManyDigits 4300 none)) := by
  have hp : ∀ id, 4300 < Numeral.digitCount id →
      ((points 9 [⟨id, 10, .text ['1']⟩, ⟨id, 10, .text ['1']⟩]).within .standard).outcome =
          .error (.refused (.tooManyDigits 4300 none)) ∧
        ((points 9 [⟨id, 10, .text []⟩]).within .standard).outcome =
          .error (.refused (.tooManyDigits 4300 none)) := by
    intro id hm
    have hr : FirstRepeated [⟨id, 10, .text ['1']⟩, ⟨id, 10, .text ['1']⟩]
        [⟨id, 10, .text ['1']⟩] ⟨id, 10, .text ['1']⟩ [] := ⟨rfl, by simp, by simp⟩
    have hs : FirstMalformed 9 [⟨id, 10, .text []⟩] [] ⟨id, 10, .text []⟩ [] .blank :=
      ⟨rfl, nofun, rfl⟩
    exact ⟨mapError_eq_error_iff.2
        ⟨_, hr.outcome_points 9, Fault.within_most_of_lt List.mem_cons_self hm⟩,
      mapError_eq_error_iff.2
        ⟨_, hs.outcome_points (List.nodup_singleton id), Fault.within_most_of_lt List.mem_cons_self hm⟩⟩
  exact hp _ (Numeral.lt_digitCount_ten_pow (by decide))

end Share

end Quorum
