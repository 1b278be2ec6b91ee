import Quorum.Proofs.Bundle.Acceptance
import Quorum.Proofs.Recovery.Honest
import Quorum.Proofs.Share

/-!
# From a document to its secret

A document whose shares are mostly spellings of a polynomial's values is read, decoded and
counted to the constant term of the polynomial: `recovers_from_document`. The integers of the document
must not be too long for the limit on digits under which it is read, or it is refused
(`refuses_paddedBase`); values may be of any length.
-/

namespace Quorum.Recovery

open Polynomial
open Quorum.Bundle (holds_shareEntry shareEntry writesAs_int writesAs_text)
open Quorum.Numeral (Spells)
open Quorum.Text (Pads)

/-- The value is a spelling of the polynomial's value, between blanks and without the variable. -/
def SpellsValue (p : Int[X]) (s : Share) : Prop :=
  'x' ∉ s.value ∧ ∃ t, Pads t s.value ∧ Spells s.base.toNat t (p.eval s.id)

/-- The points of shares, under the numbers of the shares. -/
theorem shows_points (y : Int → Int) {shares : List Share} (hn : (shares.map Share.id).Nodup) :
    (PointSet.labelled ((shares.map fun s => Point.mk s.id (y s.id)).map fun p => (p.x, p))).Shows y
      (shares.map Share.id).toFinset := by
  have hi : (shares.map Share.id).Perm (shares.map Share.id).toFinset.sort := by
    rw [List.perm_ext_iff_of_nodup hn (Finset.sort_nodup _ _)]
    simp
  have hp := hi.map fun i => Point.mk i (y i)
  rw [List.map_map] at hp
  exact hp.map _

/-- What is recovered from a bundle is what is recovered from the values of its shares. -/
theorem exists_outcome_ofBundle {settings : Settings} {b : Bundle} {k : Nat} {y : Int → Int}
    (hn : (b.shares.map Share.id).Nodup)
    (hy : ∀ s ∈ b.shares, Share.valueOf settings.exponentLimit s.base s.value s.id = .ok (y s.id))
    (hb : b.threshold = k) (hk : 1 ≤ k) (hl : k ≤ b.shares.length)
    (hr : settings.tieRule ∈ ruleNames) :
    ∃ r, (ofBundle settings b).outcome = .ok r ∧
      Outcome y (b.shares.map Share.id).toFinset k settings.tieRule r := by
  have hc : k ≤ (b.shares.map Share.id).toFinset.card := by
    rwa [List.toFinset_card_of_nodup hn, List.length_map]
  obtain ⟨r, hr, hO⟩ := exists_outcome (shows_points y hn) hk hc hr
  refine ⟨r, ?_, hO⟩
  rw [ofBundle, Journal.outcome_bind, Share.outcome_points hn hy, ok_bind, Journal.outcome_bind, hb,
    hr]
  simp

section

variable {p : Int[X]} {y : Int → Int} {good bad : List Share}

/-- The values of shares that spell the polynomial's values or can be decoded otherwise. -/
theorem exists_values_of_spelt {limit : Int} (hn : ((good ++ bad).map Share.id).Nodup)
    (hb : ∀ s ∈ good, 2 ≤ s.base ∧ s.base ≤ 36) (hg : ∀ s ∈ good, SpellsValue p s)
    (hv : ∀ s ∈ bad, ∃ v, Share.valueOf limit s.base s.value s.id = .ok v) :
    ∃ y : Int → Int, (∀ s ∈ good ++ bad, Share.valueOf limit s.base s.value s.id = .ok (y s.id)) ∧
      ∀ s ∈ good, y s.id = p.eval s.id := by
  have hspelt : ∀ s ∈ good, Share.valueOf limit s.base s.value s.id = .ok (p.eval s.id) := by
    intro s hs
    obtain ⟨hx, t, hp, ht⟩ := hg s hs
    exact Share.valueOf_of_spells limit s.id (hb s hs).1 (hb s hs).2 ht hp hx
  obtain ⟨y, hy⟩ := Share.exists_values hn fun s hs =>
    (List.mem_append.1 hs).elim (fun hs => ⟨_, hspelt s hs⟩) (hv s)
  refine ⟨y, hy, fun s hs => ?_⟩
  exact Except.ok.inj ((hy s (List.mem_append_left bad hs)).symm.trans (hspelt s hs))

theorem length_good_le (hn : ((good ++ bad).map Share.id).Nodup)
    (hy : ∀ s ∈ good, y s.id = p.eval s.id) :
    good.length ≤ (honest p y ((good ++ bad).map Share.id).toFinset).card := by
  rw [List.map_append] at hn
  have hg : (good.map Share.id).toFinset.card = good.length := by
    rw [List.toFinset_card_of_nodup hn.of_append_left, List.length_map]
  rw [← hg]
  refine Finset.card_le_card fun i hi => ?_
  obtain ⟨s, hs, rfl⟩ := List.mem_map.1 (List.mem_toFinset.1 hi)
  refine Finset.mem_filter.2 ⟨?_, hy s hs⟩
  simp only [List.mem_toFinset, List.map_append, List.mem_append]
  exact .inl (List.mem_map_of_mem hs)

theorem honest_eq_self (hy : ∀ s ∈ good, y s.id = p.eval s.id) :
    honest p y (good.map Share.id).toFinset = (good.map Share.id).toFinset := by
  refine Finset.filter_true_of_mem fun i hi => ?_
  obtain ⟨s, hs, rfl⟩ := List.mem_map.1 (List.mem_toFinset.1 hi)
  exact hy s hs

end

/-- The secret of a document is the constant term of the polynomial that most of its shares lie on,
whatever the others are, as long as they can be decoded. -/
theorem recovers_from_document {digits : DigitLimit} {doc : List (Scalar × Data)} {total : Int}
    {k : Nat} {p : Int[X]} {good bad : List Share}
    (hdoc : Bundle.Lists digits total k (good ++ bad) doc) (hk : 1 ≤ k) (hn : (k : Int) ≤ total)
    (hd : p.degree < k) (hgood : ∀ s ∈ good, SpellsValue p s)
    (hm : (good ++ bad).length.choose k < 2 * good.length.choose k) :
    ∃ b, (Bundle.ofData digits (.mapping doc)).outcome = .ok b ∧
      ∀ (settings : Settings) (limit : DigitLimit), settings.tieRule ∈ ruleNames →
        (∀ s ∈ bad, ∃ v, Share.valueOf settings.exponentLimit s.base s.value s.id = .ok v) →
        ∃ r, ((ofBundle settings b).within limit).outcome = .ok r ∧ r.secret = p.eval 0 ∧
          r.tied = false ∧ (bad = [] → r.agreement = r.combinations ∧
            r.combinations = good.length.choose k ∧ r.suspects = []) := by
  refine ⟨_, hdoc.outcome_ofData (by omega) hn, fun settings limit hr hbad => ?_⟩
  have hids := hdoc.nodup_ids
  have hperm : (Bundle.byNumber (good ++ bad)).Perm (good ++ bad) := sortBy_perm Share.id _
  obtain ⟨y, hy, hyg⟩ := exists_values_of_spelt hids
    (fun s hs => hdoc.base_range s (List.mem_append_left bad hs)) hgood hbad
  have hkn : k ≤ (good ++ bad).length := by
    by_contra hlt
    rw [List.length_append] at hm hlt
    rw [Nat.choose_eq_zero_of_lt (by omega : good.length < k)] at hm
    omega
  obtain ⟨r, hrec, hO⟩ := exists_outcome_ofBundle
    (b := ⟨k, total, Bundle.byNumber (good ++ bad)⟩) ((hperm.map Share.id).nodup_iff.2 hids)
    (fun s hs => hy s (hperm.subset hs)) rfl hk (hperm.length_eq.symm ▸ hkn) hr
  rw [List.toFinset_eq_of_perm _ _ (hperm.map Share.id)] at hO
  have hcard : ((good ++ bad).map Share.id).toFinset.card = (good ++ bad).length := by
    rw [List.toFinset_card_of_nodup hids, List.length_map]
  have hmaj : ((good ++ bad).map Share.id).toFinset.card.choose k <
      2 * (honest p y ((good ++ bad).map Share.id).toFinset).card.choose k := by
    rw [hcard]
    have hle := Nat.choose_le_choose k (length_good_le hids hyg)
    omega
  obtain ⟨hs, ht, -⟩ := hO.secret_eq_of_honest hd (card_backers_lt_of_majority hd hmaj)
  refine ⟨r, mapError_eq_ok_iff.2 hrec, hs, ht, ?_⟩
  rintro rfl
  rw [List.append_nil] at hO hcard hkn
  obtain ⟨ha, hsus⟩ := hO.unanimous hd hs hk (hcard ▸ hkn) (honest_eq_self hyg)
  exact ⟨ha, by rw [hO.combinations_eq, hcard], hsus⟩

/-- A document with four values of `2x + 3`, written in various ways, and a corrupted one under the
number 4. -/
def lineDocument : List (Scalar × Data) :=
  [(.text "1".toList, shareEntry (.int 2) (.text " +101".toList)),
    (Bundle.keysSection,
      .mapping [(.text "n".toList, .scalar (.int 4)), (.text "k".toList, .scalar (.text "2".toList))]),
    (.int 2, shareEntry (.text "16".toList) (.text "07".toList)),
    (.text "3".toList, shareEntry (.int 36) (.text "9".toList)),
    (.int 4, shareEntry (.int 10) (.text "add(x, 2)".toList)),
    (.text "comment".toList, .list []),
    (.text " 6 ".toList, shareEntry (.int 8) (.int 17))]

def lineShares : List Share :=
  [⟨1, 2, .text " +101".toList⟩, ⟨2, 16, .text "07".toList⟩, ⟨3, 36, .text "9".toList⟩,
    ⟨6, 8, .text "17".toList⟩]

def corruptedShares : List Share :=
  [⟨4, 10, .text "add(x, 2)".toList⟩]

theorem lists_lineDocument :
    Bundle.Lists .standard 4 2 (lineShares ++ corruptedShares) lineDocument := by
  have hread : ∀ {s v}, Bundle.readInteger .standard s = .ok (some v) → s.ReadsAs .standard v :=
    Bundle.readInteger_eq_some_iff.1
  have hint : (Scalar.int 17).WritesAs .standard (.text "17".toList) :=
    writesAs_int (DigitLimit.allows_most_iff.2 (by decide))
  have hp : ∀ {a b c d e f g : Scalar × Data},
      [a, b, c, d, e, f, g].Perm (b :: [a, c, d, g, e] ++ [f]) := by
    intro a b c d e f g
    exact .trans (.swap b a _) (.cons b (.cons a (.cons c (.cons d
      (.trans (.cons e (.swap g f [])) (.swap g e [f]))))))
  refine ⟨⟨_, _, _, hp, ?_, ?_, ?_, ?_⟩, by decide, by decide, by decide⟩
  · exact ⟨.int 4, rfl, hread (by decide)⟩
  · exact ⟨.text "2".toList, rfl, hread (by decide)⟩
  · exact .cons ⟨hread (by decide), holds_shareEntry (hread (by decide)) (writesAs_text _)⟩ <|
      .cons ⟨hread (by decide), holds_shareEntry (hread (by decide)) (writesAs_text _)⟩ <|
      .cons ⟨hread (by decide), holds_shareEntry (hread (by decide)) (writesAs_text _)⟩ <|
      .cons ⟨hread (by decide), holds_shareEntry (hread (by decide)) hint⟩ <|
      .cons ⟨hread (by decide), holds_shareEntry (hread (by decide)) (writesAs_text _)⟩ .nil
  · simp only [List.mem_singleton, forall_eq]
    exact ⟨by decide, Bundle.integerOf?_eq_none_iff.1 (by decide)⟩

theorem spellsValue_lineShares : ∀ s ∈ lineShares, SpellsValue (C 2 * X + C 3) s := by
  have hs : ∀ s ∈ lineShares, 'x' ∉ s.value ∧
      Numeral.isNumeral s.base.toNat (Text.trim s.value) = true ∧
      Numeral.value s.base.toNat (Text.trim s.value) = 2 * s.id + 3 := by
    decide
  intro s hm
  obtain ⟨hx, hn, hv⟩ := hs s hm
  refine ⟨hx, _, Text.pads_trim s.value, Numeral.spells_iff.2 ⟨hn, ?_⟩⟩
  simpa using hv

theorem recovers_from_lineDocument :
    ∃ b, (Bundle.ofData .standard (.mapping lineDocument)).outcome = .ok b ∧
      ∃ r, ((ofBundle {} b).within .standard).outcome = .ok r ∧ r.secret = 3 ∧ r.tied = false := by
  have hd : (C 2 * X + C 3 : Int[X]).degree < (2 : Nat) := degree_linear_lt
  have hc : ∀ s ∈ corruptedShares, ∃ v,
      Share.valueOf Operation.defaultExponentLimit s.base s.value s.id = .ok v := by
    simp only [corruptedShares, List.mem_singleton, forall_eq]
    exact ⟨6, by decide⟩
  obtain ⟨b, hb, hrec⟩ := recovers_from_document lists_lineDocument (by decide) (by decide) hd
    spellsValue_lineShares (by decide)
  obtain ⟨r, hr, hs, ht, -⟩ := hrec {} .standard (by decide) hc
  exact ⟨b, hb, r, hr, by simpa using hs, ht⟩

theorem spellsValue_seven : SpellsValue (C 7) ⟨1, 10, .text ['7']⟩ := by
  refine ⟨by decide, ['7'], .refl _, Numeral.spells_iff.2 ⟨by decide, ?_⟩⟩
  rw [eval_C]
  decide

/-- A document that lists one value of a constant is refused where its base has a digit too many. -/
theorem refuses_paddedBase : ∃ doc, Bundle.paddedDocument = .mapping doc ∧
    Bundle.Lists .lifted 1 1 [⟨1, 10, .text ['7']⟩] doc ∧
    (C 7 : Int[X]).degree < (1 : Nat) ∧ SpellsValue (C 7) ⟨1, 10, .text ['7']⟩ ∧
    Nat.choose 1 1 < 2 * Nat.choose 1 1 ∧
    (Bundle.ofData .standard (.mapping doc)).outcome =
      .error (.refused (.tooManyDigits 4300 (some 4301))) :=
  ⟨_, rfl, Bundle.lists_oneShare ⟨Bundle.denotes_paddedTen _, nofun⟩ (by decide) (writesAs_text _),
    degree_C_le.trans_lt (by decide), spellsValue_seven, by decide,
    Bundle.outcome_ofData_paddedTen (by decide) _⟩

end Quorum.Recovery
