import Quorum.Proofs.Bundle.Values
import Quorum.Proofs.Recovery.Document

/-!
# What a recovery reports

The events of a recovery that succeeds are a function of its summary, of the number of values that
lead the vote, and of the rule for ties (`events_ofBundle`). Values of shares have no other way into
them, and none into what is said of a document while it is read (`reveals_no_values`), unless one is an
integer that is too long to be written (`ofData_of_longValue`).
-/

namespace Quorum.Recovery

open Quorum.Bundle (shareEntry writesAs_int writesAs_text)

/-- What is reported while points are interpolated, from the summary and the number of values that
lead the vote. -/
def trail (s : Summary) (leaders : Nat) (rule : Ballot.Rule) : List Event :=
  .interpolating (s.shares.choose s.threshold.toNat) s.shares s.threshold ::
    (if s.tied then [.tieBroken leaders s.agreement rule.name] else []) ++
    (if s.suspects.isEmpty then [] else [.dissent s.suspects])

theorem events_ofPoints {given : PointSet} {k : Int} {name : String} {r : Recovery}
    (h : (ofPoints given k name).outcome = .ok r) :
    ∃ points cast rule, given.points = .ok points ∧ points.length = r.shares ∧
      votes k.toNat (byNumber points) = .ok cast ∧ Ballot.Rule.ofName name = .ok rule ∧
      (ofPoints given k name).events =
        trail r.summary (Ballot.leaders (Ballot.count (cast.map Vote.value))).length rule := by
  obtain ⟨hk, points, cast, e, hp, hl, hc, he, rfl⟩ := ofPoints_eq_ok h
  obtain ⟨rule, hr, hev⟩ := Ballot.events_elect he
  obtain ⟨n, rfl⟩ := Int.eq_ofNat_of_zero_le (by omega : 0 ≤ k)
  have hlen : (byNumber points).length = points.length := length_sortBy Point.x points
  refine ⟨points, cast, rule, hp, hlen.symm, hc, hr, ?_⟩
  have h₁ : ¬ (n : Int) < 1 := by omega
  have h₂ : ¬ (points.length : Int) < n := by omega
  simp only [ofPoints, if_neg h₁, if_neg h₂, hp, hc, Journal.lift_ok_bind, Selection.count_eq]
  simp only [Journal.events_bind, Journal.events_report, Journal.outcome_report, Journal.next, hev, he]
  generalize suspectsOf e.winner cast (byNumber points) = suspects
  cases hs : suspects.isEmpty <;>
    simp [trail, summary, hlen, hs, Journal.events_bind, Journal.next]

/-- The values that most choices of the bundle's shares stand for. -/
def leaders (settings : Settings) (b : Bundle) : Except Fault (List Int) := do
  let points ← (Share.points settings.exponentLimit b.shares).outcome
  let cast ← votes b.threshold.toNat (byNumber points)
  return Ballot.leaders (Ballot.count (cast.map Vote.value))

theorem events_ofBundle {settings : Settings} {b : Bundle} {r : Recovery}
    (h : (ofBundle settings b).outcome = .ok r) :
    ∃ ahead rule, leaders settings b = .ok ahead ∧
      Ballot.Rule.ofName settings.tieRule = .ok rule ∧
      (ofBundle settings b).events =
        .sharesDecoded r.shares :: trail r.summary ahead.length rule ++ [.finished r.summary] := by
  obtain ⟨points, hp, h, hev⟩ := Journal.events_bind_of_ok h
  obtain ⟨r', hr, h, hev'⟩ := Journal.events_bind_of_ok h
  cases h
  obtain ⟨points', cast, rule, hp', hl, hc, hrule, htrail⟩ := events_ofPoints hr
  have he : points' = points := by
    rw [(PointSet.points_labelled (.refl _)).1] at hp'
    simpa [Function.comp_def] using hp'.symm
  subst he
  have hlead : leaders settings b = .ok (Ballot.leaders (Ballot.count (cast.map Vote.value))) := by
    rw [leaders, hp, ok_bind, hc]
    rfl
  refine ⟨_, rule, hlead, hrule, ?_⟩
  rw [ofBundle, hev, hev', htrail, Share.events_points hp, hl]
  simp [Journal.events_bind, Journal.next]

/-- Recoveries that differ in values alone say the same. -/
theorem events_ofBundle_congr {settings : Settings} {b b' : Bundle} {r r' : Recovery}
    (h : (ofBundle settings b).outcome = .ok r) (h' : (ofBundle settings b').outcome = .ok r')
    (hs : r.summary = r'.summary)
    (hl : (leaders settings b).map List.length = (leaders settings b').map List.length) :
    (ofBundle settings b).events = (ofBundle settings b').events := by
  obtain ⟨ahead, rule, ha, hr, he⟩ := events_ofBundle h
  obtain ⟨ahead', rule', ha', hr', he'⟩ := events_ofBundle h'
  have hrule : rule = rule' := by
    rw [hr, Except.ok.injEq] at hr'
    exact hr'
  have hlen : ahead.length = ahead'.length := by
    rw [ha, ha'] at hl
    exact Except.ok.inj hl
  have hshares : r.shares = r'.shares := congrArg Summary.shares hs
  rw [he, he', hs, hshares, hlen, hrule]

/-- A recovery is shown by its summary. -/
theorem display_congr {r r' : Recovery} (h : r.summary = r'.summary) : r.display = r'.display := by
  cases r
  cases r'
  cases h
  rfl

/-- Data with other values is read alike, and if its recoveries have the same summary and as many
values lead the votes, these cannot be told apart by what they report or by how they are shown. -/
theorem reveals_no_values {digits : DigitLimit} {d d' : Data} (h : Bundle.Revalues digits d d')
    (settings : Settings) :
    (Bundle.ofData digits d).Alike Bundle.SameButValues (Bundle.ofData digits d') ∧
    ∀ b b' r r', (Bundle.ofData digits d).outcome = .ok b →
      (Bundle.ofData digits d').outcome = .ok b' →
      (ofBundle settings b).outcome = .ok r → (ofBundle settings b').outcome = .ok r' →
      r.summary = r'.summary →
      (leaders settings b).map List.length = (leaders settings b').map List.length →
      (ofBundle settings b).events = (ofBundle settings b').events ∧ r.display = r'.display :=
  ⟨h.alike_ofData, fun _ _ _ _ _ _ hr hr' hs hl =>
    ⟨events_ofBundle_congr hr hr' hs hl, display_congr hs⟩⟩

/-- Three shares with these values, one more than there should be. -/
def overfullDocument (v₁ v₂ v₃ : Scalar) : Data :=
  .mapping [(.text "note".toList, .scalar .null),
    (.int 3, shareEntry (.int 10) v₃),
    (.text "1".toList, shareEntry (.text "16".toList) v₁),
    (Bundle.keysSection,
      .mapping [(.text "n".toList, .scalar (.int 2)), (.text "k".toList, .scalar (.int 2))]),
    (.int 2, shareEntry (.int 8) v₂)]

def overfullBundle (v₁ v₂ v₃ : String) : Bundle :=
  ⟨2, 2, [⟨1, 16, .text v₁.toList⟩, ⟨2, 8, .text v₂.toList⟩, ⟨3, 10, .text v₃.toList⟩]⟩

/-- Each of the three choices has a value of its own, and the least is that of the first two. -/
theorem reveals_no_values_overfull :
    (Bundle.ofData .standard
        (overfullDocument (.int 5) (.text "7".toList) (.text "gcd(x, 4)".toList))).Alike
      Bundle.SameButValues
      (Bundle.ofData .standard
        (overfullDocument (.text "-1".toList) (.int (-10)) (.text " multiply(-9, x)".toList))) ∧
    (ofBundle {} (overfullBundle "5" "7" "gcd(x, 4)")).outcome =
      .ok ⟨3, 2, 3, 3, 1, true, [3]⟩ ∧
    (ofBundle {} (overfullBundle "-1" "-10" " multiply(-9, x)")).outcome =
      .ok ⟨6, 2, 3, 3, 1, true, [3]⟩ ∧
    (ofBundle {} (overfullBundle "5" "7" "gcd(x, 4)")).events =
      (ofBundle {} (overfullBundle "-1" "-10" " multiply(-9, x)")).events := by
  have h₁ : Scalar.Denotes (.text "1".toList) 1 := Bundle.integerOf?_eq_some_iff.1 (by decide)
  have hint : ∀ {v : Int}, Numeral.digitCount v ≤ 4300 →
      (Scalar.int v).WritesAs .standard (.text (Numeral.decimal v)) := fun h =>
    writesAs_int (DigitLimit.allows_most_iff.2 h)
  have h : Bundle.Revalues .standard
      (overfullDocument (.int 5) (.text "7".toList) (.text "gcd(x, 4)".toList))
      (overfullDocument (.text "-1".toList) (.int (-10)) (.text " multiply(-9, x)".toList)) :=
    .entries <| .cons (.keep _) <|
      .cons (.share (.int 3) (.cons (.keep _)
        (.cons (.value (writesAs_text _) (writesAs_text _)) .nil))) <|
      .cons (.share h₁ (.cons (.keep _)
        (.cons (.value (hint (by decide)) (writesAs_text _)) .nil))) <|
      .cons (.keep _) <|
      .cons (.share (.int 2) (.cons (.keep _)
        (.cons (.value (writesAs_text _) (hint (by decide))) .nil))) .nil
  have hr : (ofBundle {} (overfullBundle "5" "7" "gcd(x, 4)")).outcome =
      .ok ⟨3, 2, 3, 3, 1, true, [3]⟩ := by decide +kernel
  have hr' : (ofBundle {} (overfullBundle "-1" "-10" " multiply(-9, x)")).outcome =
      .ok ⟨6, 2, 3, 3, 1, true, [3]⟩ := by decide +kernel
  obtain ⟨ha, hsame⟩ := reveals_no_values h {}
  have he := hsame _ _ _ _ (by decide +kernel) (by decide +kernel) hr hr' rfl (by decide +kernel)
  exact ⟨ha, hr, hr', he.1⟩

/-- A value of 4301 digits can be told from others: it is refused. -/
theorem ofData_of_longValue :
    Bundle.Revalues .lifted (.mapping (Bundle.oneShare (.int 10) (.int (10 ^ 4300))))
        (.mapping (Bundle.oneShare (.int 10) (.int 5))) ∧
      (Bundle.ofData .standard
        (.mapping (Bundle.oneShare (.int 10) (.int (10 ^ 4300))))).outcome =
          .error (.refused (.tooManyDigits 4300 none)) ∧
      (Bundle.ofData .standard (.mapping (Bundle.oneShare (.int 10) (.int 5)))).outcome =
        .ok ⟨1, 1, [⟨1, 10, .text ['5']⟩]⟩ := by
  have htold : ∀ v, 4300 < Numeral.digitCount v →
      Bundle.Revalues .lifted (.mapping (Bundle.oneShare (.int 10) (.int v)))
          (.mapping (Bundle.oneShare (.int 10) (.int 5))) ∧
        (Bundle.ofData .standard (.mapping (Bundle.oneShare (.int 10) (.int v)))).outcome =
          .error (.refused (.tooManyDigits 4300 none)) := by
    refine fun v hv => ⟨?_, ?_⟩
    · exact .entries (.cons (.keep _) (.cons (.share (.int 1) (.cons (.keep _)
        (.cons (.value (writesAs_int (DigitLimit.allows_lifted _))
          (writesAs_int (DigitLimit.allows_lifted _))) .nil))) .nil))
    · exact (Bundle.ShareFault.valueTooLong ⟨_, rfl, Bundle.readsAs_int 10⟩ (by decide) rfl
        (.int hv)).outcome_ofData_oneShare
  obtain ⟨hrev, hrefused⟩ := htold _ (Numeral.lt_digitCount_ten_pow (by decide))
  exact ⟨hrev, hrefused, Bundle.outcome_ofData_oneShare (Bundle.readsAs_int 10) (by decide)
    (writesAs_int (DigitLimit.allows_most_iff.2 (by decide)))⟩

end Quorum.Recovery
