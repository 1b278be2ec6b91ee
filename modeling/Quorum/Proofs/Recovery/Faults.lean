import Quorum.Proofs.Bundle.WellFormed
import Quorum.Proofs.Recovery.Document
import Quorum.Proofs.Share.Malformation
import Quorum.Proofs.Share.Points

/-!
# The faults of a recovery

A bundle that has been read has its secret recovered unless a share cannot be decoded or there are
too few shares, and which of these it is depends on nothing else (`ofBundle_ends`). The fault is put
into words under a limit on digits. Where the numbers of the bundle may all be written the limit makes
no difference (`within_eq_of_writable`), else a number that is too long may be refused in place of the
fault (`ofBundle_of_longThreshold`).
-/

namespace Quorum.Recovery

/-- The choices of points that are interpolated, and what they must be like for that: none is empty,
and the differences by which the weights are divided are not zero. -/
structure Interpolable (k : Nat) (points : List Point) : Prop where
  ne_nil : ∀ c ∈ Selection.choose k (byNumber points), c ≠ []
  sub_ne_zero : ∀ c ∈ Selection.choose k (byNumber points), c.Pairwise fun p q => p.x - q.x ≠ 0

/-- The numbers of the bundle may be written under the limit. -/
structure Writable (digits : DigitLimit) (b : Bundle) : Prop where
  ids : ∀ s ∈ b.shares, digits.Allows (Numeral.digitCount s.id)
  bases : ∀ s ∈ b.shares, digits.Allows (Numeral.digitCount s.base)
  threshold : digits.Allows (Numeral.digitCount b.threshold)

/-- What recovering the secret of a bundle comes to. -/
structure Ends (digits : DigitLimit) (settings : Settings) (b : Bundle) : Prop where
  /-- Of the shares that cannot be decoded the one with the smallest number is reported, however
  many shares there are. -/
  of_malformed : (∃ s ∈ b.shares, ¬ s.Decodes settings.exponentLimit) →
    ∃ s ∈ b.shares, ∃ reason,
      Share.valueOf settings.exponentLimit s.base s.value s.id = .error (.malformed none reason) ∧
      (∀ t ∈ b.shares, ¬ t.Decodes settings.exponentLimit → s.id ≤ t.id) ∧
      ((ofBundle settings b).within digits).outcome =
        .error ((Fault.malformed (some s.id) reason).within digits)
  of_insufficient : (∀ s ∈ b.shares, s.Decodes settings.exponentLimit) →
    (b.shares.length : Int) < b.threshold →
      ((ofBundle settings b).within digits).outcome =
        .error ((Fault.insufficientShares b.shares.length b.threshold).within digits)
  of_sufficient : (∀ s ∈ b.shares, s.Decodes settings.exponentLimit) →
    b.threshold ≤ b.shares.length →
      ∃ points r, (Share.points settings.exponentLimit b.shares).outcome = .ok points ∧
        Interpolable b.threshold.toNat points ∧
        ((ofBundle settings b).within digits).outcome = .ok r ∧
        ∃ c ∈ Selection.choose b.threshold.toNat (byNumber points), Lagrange.secret c = .ok r.secret
  /-- A fault is one of the two, or else a number of the bundle is too long to be written. -/
  kind_of_error : ∀ e, ((ofBundle settings b).within digits).outcome = .error e →
    e.kind? = some "MalformedExpression" ∨ e.kind? = some "InsufficientShares" ∨
      ¬ Writable digits b ∧ ∃ m, digits = .most m ∧ e = .refused (.tooManyDigits m none)
  of_writable : Writable digits b → (ofBundle settings b).within digits = ofBundle settings b

section

variable {settings : Settings} {b : Bundle}

theorem exists_least_malformed (hw : b.WellFormed)
    (hm : ∃ s ∈ b.shares, ¬ s.Decodes settings.exponentLimit) :
    ∃ s ∈ b.shares, ∃ reason,
      Share.valueOf settings.exponentLimit s.base s.value s.id = .error (.malformed none reason) ∧
      (∀ t ∈ b.shares, ¬ t.Decodes settings.exponentLimit → s.id ≤ t.id) ∧
      (ofBundle settings b).outcome = .error (.malformed (some s.id) reason) := by
  obtain ⟨before, s, after, reason, hs⟩ := Share.exists_firstMalformed hw.base_range hm
  have hmem : s ∈ b.shares := by simp [hs.eq_append]
  refine ⟨s, hmem, reason, hs.valueOf_eq, fun t ht hd => ?_, ?_⟩
  · have hasc := hw.ascending
    rw [hs.eq_append, List.pairwise_append, List.pairwise_cons] at hasc
    rw [hs.eq_append, List.mem_append, List.mem_cons] at ht
    rcases ht with ht | rfl | ht
    · exact absurd (hs.decodes_before t ht) hd
    · exact le_rfl
    · exact le_of_lt (hasc.2.1.1 t ht)
  · rw [ofBundle, Journal.outcome_bind, hs.outcome_points hw.nodup_ids, error_bind]

/-- The points of a well-formed bundle whose shares can all be decoded. -/
theorem exists_points (hw : b.WellFormed)
    (hd : ∀ s ∈ b.shares, s.Decodes settings.exponentLimit) :
    ∃ y : Int → Int, (∀ s ∈ b.shares,
        Share.valueOf settings.exponentLimit s.base s.value s.id = .ok (y s.id)) ∧
      (Share.points settings.exponentLimit b.shares).outcome =
        .ok (graph y (b.shares.map Share.id).toFinset) := by
  obtain ⟨y, hy⟩ := Share.exists_values hw.nodup_ids hd
  refine ⟨y, hy, ?_⟩
  rw [Share.outcome_points hw.nodup_ids hy, graph_toFinset y (List.pairwise_map.2 hw.ascending),
    List.map_map]
  rfl

theorem ofBundle_of_insufficient (hw : b.WellFormed)
    (hd : ∀ s ∈ b.shares, s.Decodes settings.exponentLimit)
    (hl : (b.shares.length : Int) < b.threshold) :
    (ofBundle settings b).outcome = .error (.insufficientShares b.shares.length b.threshold) := by
  obtain ⟨y, hy⟩ := Share.exists_values hw.nodup_ids hd
  have h₁ : ¬ b.threshold < 1 := not_lt.2 hw.one_le_threshold
  obtain ⟨points, hp, hperm⟩ := (shows_points y hw.nodup_ids).exists_points
  have hlen : points.length = b.shares.length := by
    rw [hperm.length_eq, length_graph, List.toFinset_card_of_nodup hw.nodup_ids, List.length_map]
  rw [ofBundle, Journal.outcome_bind, Share.outcome_points hw.nodup_ids hy, ok_bind,
    Journal.outcome_bind, outcome_ofPoints, if_neg h₁, hp, ok_bind, hlen, if_pos hl, error_bind]

theorem interpolable_graph {k : Nat} (hk : 1 ≤ k) (y : Int → Int) (ids : Finset Int) :
    Interpolable k (graph y ids) := by
  refine ⟨fun c hc => ?_, fun c hc => ?_⟩
  · rw [byNumber_graph] at hc
    exact List.ne_nil_of_length_pos ((Selection.mem_choose.1 hc).2 ▸ hk)
  · rw [byNumber_graph] at hc
    refine ((pairwise_graph y ids).sublist (Selection.mem_choose.1 hc).1).imp fun hlt => ?_
    omega

/-- Some choice has the secret as its value. -/
theorem Outcome.exists_choice {y : Int → Int} {ids : Finset Int} {k : Nat} {rule : String}
    {r : Recovery} (h : Outcome y ids k rule r) (hk : 1 ≤ k) (hn : k ≤ ids.card) :
    ∃ c ∈ Selection.choose k (byNumber (graph y ids)), Lagrange.secret c = .ok r.secret := by
  obtain ⟨s, hs⟩ := h.backers_nonempty hn
  obtain ⟨hsk, hv⟩ := mem_backers.1 hs
  refine ⟨graph y s, ?_, hv ▸ secret_graph_of_mem hk hsk⟩
  rw [byNumber_graph, choose_graph]
  exact List.mem_map_of_mem (Selection.mem_subsets.2 hsk)

theorem ofBundle_of_sufficient (hw : b.WellFormed) (hr : settings.tieRule ∈ ruleNames)
    (hd : ∀ s ∈ b.shares, s.Decodes settings.exponentLimit) (hl : b.threshold ≤ b.shares.length) :
    ∃ points r, (Share.points settings.exponentLimit b.shares).outcome = .ok points ∧
      Interpolable b.threshold.toNat points ∧ (ofBundle settings b).outcome = .ok r ∧
      ∃ c ∈ Selection.choose b.threshold.toNat (byNumber points),
        Lagrange.secret c = .ok r.secret := by
  obtain ⟨y, hy, hp⟩ := exists_points hw hd
  have hk : 1 ≤ b.threshold.toNat := by
    have := hw.one_le_threshold
    omega
  have hkl : b.threshold.toNat ≤ b.shares.length := by omega
  have hkn : b.threshold.toNat ≤ (b.shares.map Share.id).toFinset.card := by
    rwa [List.toFinset_card_of_nodup hw.nodup_ids, List.length_map]
  have hki : b.threshold = b.threshold.toNat := (Int.toNat_of_nonneg (by omega)).symm
  obtain ⟨r, hrec, hO⟩ := exists_outcome_ofBundle hw.nodup_ids hy hki hk hkl hr
  exact ⟨_, r, hp, interpolable_graph hk y _, hrec, hO.exists_choice hk hkn⟩

variable {digits : DigitLimit}

theorem fits_insufficient (hl : (b.shares.length : Int) < b.threshold) (hw : Writable digits b) :
    (Fault.insufficientShares b.shares.length b.threshold).Fits digits := by
  intro v hv m hm
  have ht : Numeral.digitCount b.threshold ≤ m := hw.threshold m hm
  rcases List.mem_cons.1 hv with rfl | hv
  · exact (Numeral.digitCount_mono (by omega)).trans ht
  · rwa [List.mem_singleton.1 hv]

/-- A fault is one of two kinds, and shows no number that is not the bundle's. -/
theorem kind_and_fits_of_ofBundle (hw : b.WellFormed) (hr : settings.tieRule ∈ ruleNames)
    {e : Fault} (he : (ofBundle settings b).outcome = .error e) :
    (e.kind? = some "MalformedExpression" ∨ e.kind? = some "InsufficientShares") ∧
      (Writable digits b → e.Fits digits) := by
  by_cases hd : ∀ s ∈ b.shares, s.Decodes settings.exponentLimit
  · rcases lt_or_ge (b.shares.length : Int) b.threshold with hl | hl
    · cases he.symm.trans (ofBundle_of_insufficient hw hd hl)
      exact ⟨.inr rfl, fits_insufficient hl⟩
    · obtain ⟨points, r, -, -, hrec, -⟩ := ofBundle_of_sufficient hw hr hd hl
      cases he.symm.trans hrec
  · obtain ⟨s, hs, reason, hv, -, hrec⟩ := exists_least_malformed hw (by simpa using hd)
    cases he.symm.trans hrec
    obtain ⟨hb, hb'⟩ := hw.base_range s hs
    exact ⟨.inl rfl, fun hwr =>
      (Share.fails_of_valueOf hb hb' hv).fits (hwr.ids s hs) (hwr.bases s hs)⟩

theorem within_eq_of_writable (hw : b.WellFormed) (hr : settings.tieRule ∈ ruleNames)
    (hwr : Writable digits b) : (ofBundle settings b).within digits = ofBundle settings b := by
  have ho : (ofBundle settings b).outcome.mapError (Fault.within digits) =
      (ofBundle settings b).outcome := by
    cases he : (ofBundle settings b).outcome with
    | ok r => rfl
    | error e =>
      rw [mapError_error, Fault.within_of_fits ((kind_and_fits_of_ofBundle hw hr he).2 hwr)]
  rw [Journal.within, ho]

end

/-- A bundle that has been read has its secret recovered, unless a share cannot be decoded or there
are too few shares. -/
theorem ofBundle_ends {digits digits' : DigitLimit} {d : Data} {b : Bundle} {settings : Settings}
    (hb : (Bundle.ofData digits' d).outcome = .ok b) (hr : settings.tieRule ∈ ruleNames) :
    Ends digits settings b := by
  have hw := Bundle.wellFormed_of_ofData hb
  refine ⟨fun hm => ?_, fun hd hl => ?_, fun hd hl => ?_, fun e he => ?_,
    within_eq_of_writable hw hr⟩
  · obtain ⟨s, hs, reason, hv, hmin, ho⟩ := exists_least_malformed hw hm
    exact ⟨s, hs, reason, hv, hmin, mapError_eq_error_iff.2 ⟨_, ho, rfl⟩⟩
  · exact mapError_eq_error_iff.2 ⟨_, ofBundle_of_insufficient hw hd hl, rfl⟩
  · obtain ⟨points, r, hp, hi, ho, hc⟩ := ofBundle_of_sufficient hw hr hd hl
    exact ⟨points, r, hp, hi, mapError_eq_ok_iff.2 ho, hc⟩
  · obtain ⟨e', he', rfl⟩ := mapError_eq_error_iff.1 he
    obtain ⟨hkind, hfits⟩ := kind_and_fits_of_ofBundle hw hr he'
    by_cases hf : e'.Fits digits
    · rw [Fault.within_of_fits hf]
      exact hkind.imp_right .inl
    · exact .inr (.inr ⟨mt hfits hf, Fault.exists_within_of_not_fits hf⟩)

/-- Two shares, too few of them, and neither can be decoded. -/
def spoiltDocument : List (Scalar × Data) :=
  [(.text "7".toList, Bundle.shareEntry (.int 10) (.text "power(x, -1)".toList)),
    (.text "2".toList, Bundle.shareEntry (.int 2) (.text "102".toList)),
    (Bundle.keysSection,
      .mapping [(.text "n".toList, .scalar (.int 4)), (.text "k".toList, .scalar (.int 3))])]

theorem ofBundle_ends_spoiltDocument :
    ∃ b, (Bundle.ofData .lifted (.mapping spoiltDocument)).outcome = .ok b ∧
      ({} : Settings).tieRule ∈ ruleNames ∧ Ends .standard {} b ∧
      ((ofBundle {} b).within .standard).outcome = .error (.malformed (some 2) (.notNumeral 2)) := by
  have hb : (Bundle.ofData .lifted (.mapping spoiltDocument)).outcome =
      .ok ⟨3, 4, [⟨2, 2, .text "102".toList⟩, ⟨7, 10, .text "power(x, -1)".toList⟩]⟩ := by decide
  exact ⟨_, hb, by decide, ofBundle_ends hb (by decide), by decide⟩

/-- No shares, and as many of them needed as there are in all. -/
def noShares (total : Int) : List (Scalar × Data) :=
  [(Bundle.keysSection, .mapping [(.text "n".toList, .scalar (.int total)),
    (.text "k".toList, .scalar (.int total))])]

theorem outcome_ofData_noShares (digits : DigitLimit) {total : Int} (h : 1 ≤ total) :
    (Bundle.ofData digits (.mapping (noShares total))).outcome = .ok ⟨total, total, []⟩ := by
  have hlists : Bundle.Lists digits total total [] (noShares total) :=
    ⟨⟨_, [], [], .refl _, ⟨_, rfl, Bundle.readsAs_int total⟩, ⟨_, rfl, Bundle.readsAs_int total⟩,
      .nil, nofun⟩, .nil, nofun, nofun⟩
  exact hlists.outcome_ofData h le_rfl

/-- Where a threshold of 4301 digits is not reached, this cannot be said. -/
theorem ofBundle_of_longThreshold :
    ∃ b, (Bundle.ofData .standard (.mapping (noShares (10 ^ 4300)))).outcome = .ok b ∧
      ((ofBundle {} b).within .standard).outcome = .error (.refused (.tooManyDigits 4300 none)) := by
  have hends : ∀ total : Int, 0 < total → 4300 < Numeral.digitCount total →
      ∃ b, (Bundle.ofData .standard (.mapping (noShares total))).outcome = .ok b ∧
        ((ofBundle {} b).within .standard).outcome =
          .error (.refused (.tooManyDigits 4300 none)) := by
    intro total hpos hlong
    have hb := outcome_ofData_noShares .standard hpos
    have ho : (ofBundle {} ⟨total, total, []⟩).outcome = .error (.insufficientShares 0 total) :=
      ofBundle_of_insufficient (Bundle.wellFormed_of_ofData hb) nofun hpos
    refine ⟨_, hb, mapError_eq_error_iff.2 ⟨_, ho, ?_⟩⟩
    exact Fault.within_most_of_lt (List.mem_cons_of_mem _ List.mem_cons_self) hlong
  exact hends _ (pow_pos (by decide) _) (Numeral.lt_digitCount_ten_pow (by decide))

end Quorum.Recovery
