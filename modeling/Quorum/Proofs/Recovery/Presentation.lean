import Quorum.Proofs.Recovery.Reference

/-!
# How points are handed over

A recovery sorts its points before it looks at them, so that points with distinct numbers may as
well be handed over sorted (`ofPoints_eq_byNumber`). Nothing of a recovery, be it an event, a fault
or a part of the result, tells whether they came in a list or under labels, and in which order
(`ofPoints_of_perm`).
-/

namespace Quorum.Recovery

section

variable {given given' : PointSet} {points points' : List Point} (k : Int) (rule : String)

theorem ofPoints_eq_byNumber (hp : given.points = .ok points) (hn : (points.map Point.x).Nodup) :
    ofPoints given k rule = ofPoints (.list (byNumber points)) k rule := by
  have hs : (byNumber points).Perm points := sortBy_perm Point.x points
  have hl : (PointSet.list (byNumber points)).points = .ok (byNumber points) :=
    PointSet.points_list ((hs.map Point.x).nodup_iff.2 hn)
  have hb : byNumber (byNumber points) = byNumber points := sortBy_congr hs hn
  unfold ofPoints
  simp only [hp, hl, Journal.lift_ok_bind, hb, hs.length_eq]

theorem ofPoints_congr (hp : given.points = .ok points) (hp' : given'.points = .ok points')
    (h : points'.Perm points) (hn : (points.map Point.x).Nodup) :
    ofPoints given' k rule = ofPoints given k rule := by
  have hn' : (points'.map Point.x).Nodup := (h.map Point.x).nodup_iff.2 hn
  have hb : byNumber points' = byNumber points := sortBy_congr h hn
  rw [ofPoints_eq_byNumber k rule hp hn, ofPoints_eq_byNumber k rule hp' hn', hb]

end

/-- Points with distinct numbers have one recovery, in whatever order they are listed, as well as
under their numbers in any order, and in the order in which they stand there. -/
theorem ofPoints_of_perm {points : List Point} (hn : (points.map Point.x).Nodup) (k : Int)
    (rule : String) :
    (∀ points', points'.Perm points →
      ofPoints (.list points') k rule = ofPoints (.list points) k rule) ∧
    ∀ entries, entries.Perm (points.map fun p => (p.x, p)) →
      ofPoints (.labelled entries) k rule = ofPoints (.list points) k rule ∧
      ofPoints (.list (entries.map Prod.snd)) k rule = ofPoints (.list points) k rule := by
  have hlist : ∀ points', points'.Perm points →
      ofPoints (.list points') k rule = ofPoints (.list points) k rule := by
    intro points' h
    have hn' : (points'.map Point.x).Nodup := (h.map Point.x).nodup_iff.2 hn
    exact ofPoints_congr k rule (PointSet.points_list hn) (PointSet.points_list hn') h hn
  refine ⟨hlist, fun entries h => ?_⟩
  obtain ⟨hl, hp⟩ := PointSet.points_labelled h
  exact ⟨ofPoints_congr k rule (PointSet.points_list hn) hl hp hn, hlist _ hp⟩

/-- Every choice of two of the points has a value of its own, and the first one counted wins. -/
theorem ofPoints_of_perm_tied :
    [(3, ⟨3, 1⟩), (1, ⟨1, 5⟩), (2, ⟨2, 7⟩)].Perm
      ([⟨2, 7⟩, ⟨3, 1⟩, ⟨1, 5⟩].map fun p : Point => (p.x, p)) ∧
    ofPoints (.labelled [(3, ⟨3, 1⟩), (1, ⟨1, 5⟩), (2, ⟨2, 7⟩)]) 2 "first" =
      ofPoints (.list [⟨2, 7⟩, ⟨3, 1⟩, ⟨1, 5⟩]) 2 "first" ∧
    ofPoints (.list [⟨1, 5⟩, ⟨3, 1⟩, ⟨2, 7⟩]) 2 "first" =
      ofPoints (.list [⟨2, 7⟩, ⟨3, 1⟩, ⟨1, 5⟩]) 2 "first" ∧
    (ofPoints (.list [⟨2, 7⟩, ⟨3, 1⟩, ⟨1, 5⟩]) 2 "first").outcome = .ok ⟨3, 2, 3, 3, 1, true, [3]⟩ := by
  have he : [(3, ⟨3, 1⟩), (1, ⟨1, 5⟩), (2, ⟨2, 7⟩)].Perm
      ([⟨2, 7⟩, ⟨3, 1⟩, ⟨1, 5⟩].map fun p : Point => (p.x, p)) := by decide
  have hn : ([⟨2, 7⟩, ⟨3, 1⟩, ⟨1, 5⟩].map Point.x).Nodup := by decide
  obtain ⟨hl, hk⟩ := ofPoints_of_perm hn 2 "first"
  exact ⟨he, (hk _ he).1, hl _ (by decide), by decide +kernel⟩

end Quorum.Recovery
