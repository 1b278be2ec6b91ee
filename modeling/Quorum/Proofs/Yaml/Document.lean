import Quorum.Proofs.Yaml.Loading
import Quorum.Yaml.Document

/-!
# The mappings of YAML documents

The reader that runs hands over the mappings of a document (`HasMapping`) wherever they stand: below
lists, in keys or in values, and also below collections that are marked as something else
(`builds_load`). It goes through a document level by level; where nothing stops it, the nodes that it
has been at are closed under taking parts (`Document.Covers`), so it has been everywhere.
-/

namespace Quorum.Yaml

/-- The kind is one of scalars. -/
def Tag.OfScalar : Tag → Prop
  | .sequence | .mapping | .set | .pairs | .other _ => False
  | _ => True

theorem Tag.not_ofScalar_of_isMade {tag : Tag} (h : tag.isMade = true) : ¬ tag.OfScalar := by
  cases tag <;> simp_all [Tag.isMade, Tag.OfScalar]

/-! ## Steps -/

/-- What is handed over is among the steps. -/
theorem mem_of_mem_targets {data : Data} {steps : List Step} {t : Target}
    (h : t ∈ (Loading.ofSteps data steps).targets) : .make t ∈ steps := by
  induction steps with
  | nil => cases h
  | cons step steps ih =>
    cases step with
    | make u =>
      rcases List.mem_cons.1 h with rfl | h
      · exact List.mem_cons_self
      · exact List.mem_cons_of_mem _ (ih h)
    | need done =>
      cases done with
      | ok => exact List.mem_cons_of_mem _ (ih h)
      | error stop => cases h

/-- A loading stops on the way, or all of its steps are taken. -/
theorem outcome_ofSteps (data : Data) (steps : List Step) :
    (∃ stop, (Loading.ofSteps data steps).outcome = .error stop) ∨
      (∀ stop, .need (.error stop) ∉ steps) ∧
        ∀ t, .make t ∈ steps → t ∈ (Loading.ofSteps data steps).targets := by
  induction steps with
  | nil => exact .inr ⟨nofun, nofun⟩
  | cons step steps ih =>
    cases step with
    | make u =>
      refine ih.imp_right fun ⟨hn, hm⟩ => ⟨by simpa using hn, fun t ht => ?_⟩
      rcases List.mem_cons.1 ht with ht | ht
      · cases ht
        exact List.mem_cons_self
      · exact List.mem_cons_of_mem _ (hm t ht)
    | need done =>
      cases done with
      | ok a =>
        have hs : Loading.ofSteps data (.need (.ok a) :: steps) = Loading.ofSteps data steps := rfl
        rw [hs]
        exact ih.imp_right fun ⟨hn, hm⟩ => ⟨by simpa using hn, by simpa using hm⟩
      | error stop => exact .inl ⟨stop, rfl⟩

namespace Document

/-! ## Nodes of a document -/

/-- The node stands in the document, however deep and however the collections around it are marked.
Only what stands in a mapping that is marked as a scalar does not count: from that the value under
its key `=` is taken, and no mapping is made. Nor is one made of an item of pairs that is an entry and
no more, but what stands in the item counts. -/
inductive Stands (d : Document) : Node → Prop
  | root : Stands d d.root
  | item {n m : Node} {line : Nat} {tag : Tag} {items : List Node} (h : Stands d n)
    (hn : d.resolve n = .sequence line tag items) (hm : m ∈ items)
    (ht : tag = .pairs → d.pairOf? m = none) : Stands d m
  | pair {n m p : Node} {line line' : Nat} {tag : Tag} {items : List Node}
    {entries : List (Node × Node)} {e : Node × Node} (h : Stands d n)
    (hn : d.resolve n = .sequence line .pairs items) (hm : m ∈ items)
    (hr : d.resolve m = .mapping line' tag entries) (he : e ∈ entries) (hp : p ∈ [e.1, e.2]) :
    Stands d p
  | key {n : Node} {line : Nat} {tag : Tag} {entries : List (Node × Node)} {e : Node × Node}
    (h : Stands d n) (hn : d.resolve n = .mapping line tag entries) (ht : ¬ tag.OfScalar)
    (he : e ∈ entries) : Stands d e.1
  | value {n : Node} {line : Nat} {tag : Tag} {entries : List (Node × Node)} {e : Node × Node}
    (h : Stands d n) (hn : d.resolve n = .mapping line tag entries) (ht : ¬ tag.OfScalar)
    (he : e ∈ entries) : Stands d e.2

variable {d : Document}

theorem pairOf?_eq_some_iff {n : Node} {e : Node × Node} :
    d.pairOf? n = some e ↔ ∃ line tag, d.resolve n = .mapping line tag [e] := by
  unfold pairOf?
  constructor
  · intro h
    split at h
    · rename_i line tag e' hr
      cases h
      exact ⟨line, tag, hr⟩
    · cases h
  · rintro ⟨line, tag, hr⟩
    rw [hr]

theorem mem_parts_of_pair {n m p : Node} {line : Nat} {items : List Node} {e : Node × Node}
    (hn : d.resolve n = .sequence line .pairs items) (hm : m ∈ items) (he : d.pairOf? m = some e)
    (hp : p ∈ [e.1, e.2]) : p ∈ d.parts n := by
  rw [parts, hn]
  exact List.mem_flatMap.2 ⟨e, List.mem_filterMap.2 ⟨m, hm, he⟩, hp⟩

theorem Stands.part {n m : Node} (h : d.Stands n) (hm : m ∈ d.parts n) : d.Stands m := by
  unfold parts at hm
  split at hm
  · rename_i hn
    split at hm
    · rename_i ht
      subst ht
      exact h.item hn hm fun ht => by cases ht
    split at hm
    · rename_i ht
      subst ht
      obtain ⟨e, he, hp⟩ := List.mem_flatMap.1 hm
      obtain ⟨m', hm', he⟩ := List.mem_filterMap.1 he
      obtain ⟨_, _, hr⟩ := pairOf?_eq_some_iff.1 he
      exact h.pair hn hm' hr List.mem_cons_self hp
    · cases hm
  · rename_i hn
    split at hm
    · rename_i ht
      obtain ⟨e, he, rfl⟩ := List.mem_map.1 hm
      exact h.value hn (Tag.not_ofScalar_of_isMade ht) he
    · cases hm
  · cases hm

theorem mem_of_mem_unseen {seen : List (List Char)} {ns : List Node} {n : Node}
    (h : n ∈ (unseen seen ns).1) : n ∈ ns := by
  fun_induction unseen seen ns with
  | case1 => exact h
  | case2 seen a ns ha ih => exact List.mem_cons_of_mem _ (ih h)
  | case3 seen a ns ha ms seen' hu ih =>
    rw [hu] at ih
    rcases List.mem_cons.1 h with rfl | h
    · exact List.mem_cons_self
    · exact List.mem_cons_of_mem _ (ih h)
  | case4 seen m ns hm ms seen' hu ih =>
    rw [hu] at ih
    rcases List.mem_cons.1 h with rfl | h
    · exact List.mem_cons_self
    · exact List.mem_cons_of_mem _ (ih h)

/-- A node is left out only if it is a reference that has been seen. -/
theorem mem_unseen {seen : List (List Char)} {ns : List Node} {n : Node} (h : n ∈ ns) :
    n ∈ (unseen seen ns).1 ∨ ∃ a ∈ seen, n = .reference a := by
  fun_induction unseen seen ns with
  | case1 => cases h
  | case2 seen a ns ha ih =>
    rcases List.mem_cons.1 h with rfl | h
    · exact .inr ⟨a, by simpa using ha, rfl⟩
    · exact ih h
  | case3 seen a ns ha ms seen' hu ih =>
    rw [hu] at ih
    rcases List.mem_cons.1 h with rfl | h
    · exact .inl List.mem_cons_self
    · rcases ih h with hm | ⟨b, hb, rfl⟩
      · exact .inl (List.mem_cons_of_mem _ hm)
      · rcases List.mem_cons.1 hb with rfl | hb
        · exact .inl List.mem_cons_self
        · exact .inr ⟨b, hb, rfl⟩
  | case4 seen m ns hm ms seen' hu ih =>
    rw [hu] at ih
    rcases List.mem_cons.1 h with rfl | h
    · exact .inl List.mem_cons_self
    · exact (ih h).imp_left fun hm => List.mem_cons_of_mem _ hm

theorem reference_mem_unseen {seen : List (List Char)} {ns : List Node} {a : List Char}
    (h : a ∈ (unseen seen ns).2) : a ∈ seen ∨ .reference a ∈ (unseen seen ns).1 := by
  fun_induction unseen seen ns with
  | case1 => exact .inl h
  | case2 seen b ns hb ih => exact ih h
  | case3 seen b ns hb ms seen' hu ih =>
    rw [hu] at ih
    rcases ih h with hs | hm
    · rcases List.mem_cons.1 hs with rfl | hs
      · exact .inr List.mem_cons_self
      · exact .inl hs
    · exact .inr (List.mem_cons_of_mem _ hm)
  | case4 seen m ns hm ms seen' hu ih =>
    rw [hu] at ih
    exact (ih h).imp_right fun hm => List.mem_cons_of_mem _ hm

/-! ## Nodes that are handed over -/

theorem exists_stands_of_stepsOfLevels {fuel : Nat} {seen : List (List Char)} {level : List Node}
    {t : Target} (h : .make t ∈ d.stepsOfLevels fuel seen level)
    (hl : ∀ n ∈ level, d.Stands n) :
    ∃ n, d.Stands n ∧ .make t ∈ d.stepsOf n ∧ d.stepsOf n ⊆ d.stepsOfLevels fuel seen level := by
  induction fuel generalizing seen level with
  | zero => simp [stepsOfLevels] at h
  | succ fuel ih =>
    rw [stepsOfLevels] at h ⊢
    split at h
    · cases h
    · rename_i hne
      rw [if_neg hne]
      rcases List.mem_append.1 h with h | h
      · obtain ⟨n, hn, h⟩ := List.mem_flatMap.1 h
        exact ⟨n, hl n hn, h, fun s hs => List.mem_append_left _ (List.mem_flatMap.2 ⟨n, hn, hs⟩)⟩
      · obtain ⟨n, hn, h, hs⟩ := ih h fun m hm => by
          obtain ⟨n, hn, hm⟩ := List.mem_flatMap.1 (mem_of_mem_unseen hm)
          exact (hl n hn).part hm
        exact ⟨n, hn, h, List.Subset.trans hs (List.subset_append_right _ _)⟩

theorem exists_stands_of_steps {t : Target} (h : .make t ∈ d.steps) :
    ∃ n, d.Stands n ∧ .make t ∈ d.stepsOf n ∧ d.stepsOf n ⊆ d.steps := by
  obtain ⟨n, hn, h, hs⟩ :=
    exists_stands_of_stepsOfLevels ((List.mem_cons.1 h).resolve_left nofun) fun n hn => by
      rw [List.mem_singleton.1 (mem_of_mem_unseen hn)]
      exact .root
  exact ⟨n, hn, h, List.Subset.trans hs (List.subset_cons_self _ _)⟩

/-- Of an item of pairs nothing is handed over. -/
theorem not_make_mem_stepsOfPair {t : Target} (n : Node) : .make t ∉ d.stepsOfPair n := by
  unfold stepsOfPair
  split <;> simp

theorem exists_of_make_mapping {n : Node} {keys : List Key}
    (h : .make (.mapping keys) ∈ d.stepsOf n) :
    ∃ line tag entries, d.resolve n = .mapping line tag entries ∧ tag.isMade = true ∧
      keys = entries.map fun e => d.keyOf e.1 := by
  unfold stepsOf at h
  split at h
  · split at h
    · obtain ⟨m, -, he⟩ := List.mem_map.1 h
      cases he
    split at h
    · obtain ⟨m, -, h⟩ := List.mem_flatMap.1 h
      exact absurd h (not_make_mem_stepsOfPair m)
    · split at h <;> simp at h
  · rename_i line tag entries hn
    split at h
    · rename_i ht
      refine ⟨line, tag, entries, hn, ht, ?_⟩
      rcases List.mem_cons.1 h with h | h
      · exact Target.mapping.inj (Step.make.inj h)
      · simp at h
    · split at h <;> simp at h
  · split at h
    · simp at h
    · split at h <;> simp at h
  · cases h

/-! ## No node is left out -/

/-- The nodes that have been at: their steps are taken, and their parts have been at or stand in the
level that comes next. -/
structure Covers (d : Document) (all : List Step) (seen : List (List Char)) (visited : Node → Prop)
    (level : List Node) : Prop where
  steps : ∀ n, visited n → d.stepsOf n ⊆ all
  parts : ∀ n, visited n → ∀ m ∈ d.parts n, visited m ∨ m ∈ level
  anchors : ∀ a ∈ seen, visited (.reference a) ∨ .reference a ∈ level

theorem Covers.next {all : List Step} {seen : List (List Char)} {visited : Node → Prop}
    {level : List Node} (h : d.Covers all seen visited level) (hl : level.flatMap d.stepsOf ⊆ all) :
    d.Covers all (unseen seen (level.flatMap d.parts)).2 (fun n => visited n ∨ n ∈ level)
      (unseen seen (level.flatMap d.parts)).1 where
  steps n hn := hn.elim (h.steps n) fun hn _ hs => hl (List.mem_flatMap.2 ⟨n, hn, hs⟩)
  parts n hn m hm := by
    rcases hn with hn | hn
    · exact .inl (h.parts n hn m hm)
    · rcases mem_unseen (List.mem_flatMap.2 ⟨n, hn, hm⟩) with hm | ⟨a, ha, rfl⟩
      · exact .inr hm
      · exact .inl (h.anchors a ha)
  anchors a ha := by
    rcases reference_mem_unseen ha with ha | ha
    · exact .inl (h.anchors a ha)
    · exact .inr ha

/-- Steps that end without a stop have been taken at a set of nodes with all their parts. -/
theorem exists_covers_of_stepsOfLevels {all : List Step} {fuel : Nat} {seen : List (List Char)}
    {visited : Node → Prop} {level : List Node} (hn : ∀ stop, .need (.error stop) ∉ all)
    (h : d.stepsOfLevels fuel seen level ⊆ all) (hc : d.Covers all seen visited level) :
    ∃ seen' visited', d.Covers all seen' visited' [] ∧ ∀ n, visited n ∨ n ∈ level → visited' n := by
  induction fuel generalizing seen visited level with
  | zero => exact absurd (h List.mem_cons_self) (hn _)
  | succ fuel ih =>
    rw [stepsOfLevels] at h
    split at h
    · rename_i he
      obtain rfl := List.isEmpty_iff.1 he
      exact ⟨seen, visited, hc, fun n hn => hn.elim id nofun⟩
    · obtain ⟨hl, hr⟩ := List.append_subset.1 h
      obtain ⟨seen', visited', hc', hv⟩ := ih hr (hc.next hl)
      exact ⟨seen', visited', hc', fun n hn => hv n (.inl hn)⟩

theorem valueOf_mapping {n : Node} {line : Nat} {tag : Tag} {entries : List (Node × Node)}
    {v : Option Scalar} (hn : d.resolve n = .mapping line tag entries) (ht : ¬ tag.OfScalar)
    (hv : d.valueOf n = .ok v) :
    ((tag = .sequence ∨ tag = .pairs) ∨ tag.isMade = true) ∧ v = none := by
  cases tag <;> simp_all [valueOf, Node.tag, Tag.isMade, Tag.OfScalar]

theorem valueOf_sequence {n : Node} {line : Nat} {tag : Tag} {items : List Node} {v : Option Scalar}
    (hn : d.resolve n = .sequence line tag items) (hv : d.valueOf n = .ok v) :
    ((tag = .sequence ∨ tag = .pairs) ∨ tag.isMade = true) ∧ v = none := by
  have hc : ∀ fuel, d.codesIn fuel (.sequence line tag items) = .error (.misplaced line) := by
    intro fuel
    cases fuel <;> rfl
  cases tag <;> simp_all [valueOf, Node.tag, Tag.isMade]

theorem exists_of_discard {α : Type} {x : Except Stop α} {a : Unit} (h : discard x = .ok a) :
    ∃ a, x = .ok a := by
  cases x with
  | ok a => exact ⟨a, rfl⟩
  | error stop => cases h

theorem exists_of_needKey {k : Node} {a : Unit} (h : d.needKey k = .ok a) :
    ∃ s, d.valueOf k = .ok (some s) := by
  obtain ⟨v, hv, h⟩ := bind_eq_ok_iff.1 h
  cases v with
  | some s => exact ⟨s, hv⟩
  | none => cases h

section

variable {all : List Step} (hn : ∀ stop, .need (.error stop) ∉ all)
include hn

theorem exists_of_need {done : Except Stop Unit} (h : .need done ∈ all) : ∃ a, done = .ok a := by
  cases done with
  | ok a => exact ⟨a, rfl⟩
  | error stop => exact absurd h (hn stop)

/-- A sequence whose steps are taken without a stop is marked as one or as pairs, and its items have
values or are entries with values. -/
theorem sequence_of_steps {n : Node} {line : Nat} {tag : Tag} {items : List Node}
    (hr : d.resolve n = .sequence line tag items) {v : Option Scalar} (hv : d.valueOf n = .ok v)
    (hs : d.stepsOf n ⊆ all) :
    (tag = .sequence ∧ ∀ m ∈ items, ∃ v, d.valueOf m = .ok v) ∨
      tag = .pairs ∧ ∀ m ∈ items, ∃ e, d.pairOf? m = some e ∧
        ∀ p ∈ [e.1, e.2], ∃ v, d.valueOf p = .ok v := by
  rcases (valueOf_sequence hr hv).1 with (rfl | rfl) | ht
  · refine .inl ⟨rfl, fun m hm => ?_⟩
    have hmem : .need (discard (d.valueOf m)) ∈ d.stepsOf n := by
      simpa [stepsOf, hr] using ⟨m, hm, rfl⟩
    obtain ⟨_, ha⟩ := exists_of_need hn (hs hmem)
    exact exists_of_discard ha
  · refine .inr ⟨rfl, fun m hm => ?_⟩
    have hsub : d.stepsOfPair m ⊆ d.stepsOf n := by
      intro s hs
      simpa [stepsOf, hr] using ⟨m, hm, hs⟩
    unfold stepsOfPair at hsub
    split at hsub
    · rename_i k v he
      refine ⟨(k, v), he, fun p hp => ?_⟩
      obtain ⟨_, ha⟩ := exists_of_need hn (hs (hsub (List.mem_map_of_mem hp)))
      exact exists_of_discard ha
    · exact absurd (hs (hsub List.mem_cons_self)) (hn _)
  · have hne : tag ≠ .sequence ∧ tag ≠ .pairs := by
      constructor <;> rintro rfl <;> cases ht
    have hmem : .need (.error (.misplaced line)) ∈ d.stepsOf n := by
      simp [stepsOf, hr, ht, hne.1, hne.2]
    exact absurd (hs hmem) (hn _)

/-- What is made into a mapping without a stop has scalars as keys, and its values have values. -/
theorem entries_of_steps {n : Node} {line : Nat} {tag : Tag} {entries : List (Node × Node)}
    (hr : d.resolve n = .mapping line tag entries) (ht : tag.isMade = true)
    (hs : d.stepsOf n ⊆ all) :
    ∀ e ∈ entries, (∃ s, d.valueOf e.1 = .ok (some s)) ∧ ∃ v, d.valueOf e.2 = .ok v := by
  intro e he
  have hsteps : ∀ s ∈ [.need (d.needKey e.1), .need (discard (d.valueOf e.2))],
      s ∈ d.stepsOf n := by
    intro s hm
    rw [stepsOf, hr]
    simp only [ht, if_true]
    exact List.mem_cons_of_mem _ (List.mem_flatMap.2 ⟨e, he, hm⟩)
  obtain ⟨_, hk⟩ := exists_of_need hn (hs (hsteps _ List.mem_cons_self))
  obtain ⟨_, hw⟩ := exists_of_need hn (hs (hsteps _ (List.mem_cons_of_mem _ List.mem_cons_self)))
  exact ⟨exists_of_needKey hk, exists_of_discard hw⟩

/-- A mapping that is marked as a collection, and whose steps are taken without a stop, is made. -/
theorem isMade_of_steps {n : Node} {line : Nat} {tag : Tag} {entries : List (Node × Node)}
    (hr : d.resolve n = .mapping line tag entries) (ht : ¬ tag.OfScalar) {v : Option Scalar}
    (hv : d.valueOf n = .ok v) (hs : d.stepsOf n ⊆ all) : tag.isMade = true := by
  rcases (valueOf_mapping hr ht hv).1 with ht | ht
  · have hmem : .need (.error (.misplaced line)) ∈ d.stepsOf n := by
      rcases ht with rfl | rfl <;> simp [stepsOf, hr, Tag.isMade]
    exact absurd (hs hmem) (hn _)
  · exact ht

/-- Where nothing stops the reader, a node that stands in the document has been at, or is a key with
a value. -/
theorem Stands.visited {seen : List (List Char)} {visited : Node → Prop}
    (hc : d.Covers all seen visited []) (hroot : visited d.root)
    (hv : ∃ v, d.valueOf d.root = .ok v) {n : Node} (h : d.Stands n) :
    (visited n ∧ ∃ v, d.valueOf n = .ok v) ∨ ∃ s, d.valueOf n = .ok (some s) := by
  have hparts : ∀ n m, visited n → m ∈ d.parts n → visited m := fun n m hn hm =>
    (hc.parts n hn m hm).resolve_right nofun
  induction h with
  | root => exact .inl ⟨hroot, hv⟩
  | @item n m _ _ _ h hr hm ht ih =>
    rcases ih with ⟨ih, v, hv⟩ | ⟨s, hs⟩
    · rcases sequence_of_steps hn hr hv (hc.steps n ih) with ⟨rfl, hi⟩ | ⟨rfl, hi⟩
      · exact .inl ⟨hparts n m ih (by simpa [parts, hr] using hm), hi m hm⟩
      · obtain ⟨e, he, -⟩ := hi m hm
        cases (ht rfl).symm.trans he
    · cases (valueOf_sequence hr hs).2
  | @pair n m p _ _ _ _ _ e h hr hm hr' he hp ih =>
    rcases ih with ⟨ih, v, hv⟩ | ⟨s, hs⟩
    · obtain ⟨ht, -⟩ | ⟨-, hi⟩ := sequence_of_steps hn hr hv (hc.steps n ih)
      · cases ht
      obtain ⟨e', he', hv'⟩ := hi m hm
      -- The item is an entry and no more, so its only entry is the one in question.
      obtain ⟨_, _, hr''⟩ := pairOf?_eq_some_iff.1 he'
      cases hr'.symm.trans hr''
      obtain rfl := List.mem_singleton.1 he
      exact .inl ⟨hparts n p ih (mem_parts_of_pair hr hm he' hp), hv' p hp⟩
    · cases (valueOf_sequence hr hs).2
  | @key n _ _ _ e h hr ht he ih =>
    rcases ih with ⟨ih, v, hv⟩ | ⟨s, hs⟩
    · have hm := isMade_of_steps hn hr ht hv (hc.steps n ih)
      exact .inr (entries_of_steps hn hr hm (hc.steps n ih) e he).1
    · cases (valueOf_mapping hr ht hs).2
  | @value n _ _ _ e h hr ht he ih =>
    rcases ih with ⟨ih, v, hv⟩ | ⟨s, hs⟩
    · have hm := isMade_of_steps hn hr ht hv (hc.steps n ih)
      have hp : e.2 ∈ d.parts n := by
        simpa [parts, hr, hm] using ⟨e.1, he⟩
      exact .inl ⟨hparts n e.2 ih hp, (entries_of_steps hn hr hm (hc.steps n ih) e he).2⟩
    · cases (valueOf_mapping hr ht hs).2

end

/-- Where nothing stops the reader, every mapping that stands in the document is handed over. -/
theorem Stands.mem_steps (hn : ∀ stop, .need (.error stop) ∉ d.steps) {n : Node} {line : Nat}
    {tag : Tag} {entries : List (Node × Node)} (h : d.Stands n)
    (hr : d.resolve n = .mapping line tag entries) (ht : ¬ tag.OfScalar) :
    .make (.mapping (entries.map fun e => d.keyOf e.1)) ∈ d.steps := by
  have h₀ : d.Covers d.steps (unseen [] [d.root]).2 (fun _ => False) (unseen [] [d.root]).1 :=
    ⟨nofun, nofun, fun a ha => .inr ((reference_mem_unseen ha).resolve_left nofun)⟩
  obtain ⟨seen, visited, hc, hv⟩ :=
    exists_covers_of_stepsOfLevels hn (List.subset_cons_self _ _) h₀
  have hroot : visited d.root := by
    refine hv _ (.inr ((mem_unseen List.mem_cons_self).resolve_right ?_))
    rintro ⟨a, ha, -⟩
    cases ha
  obtain ⟨_, hd⟩ := exists_of_need hn (List.mem_cons_self : _ ∈ d.steps)
  rcases h.visited hn hc hroot (exists_of_discard hd) with ⟨hm, v, hv⟩ | ⟨s, hs⟩
  · have hmade := isMade_of_steps hn hr ht hv (hc.steps n hm)
    exact hc.steps n hm (by simp [stepsOf, hr, hmade])
  · cases (valueOf_mapping hr ht hs).2

end Document

/-- A mapping with these keys stands in the document of the text. -/
def HasMapping (text : List Char) (keys : List Key) : Prop :=
  ∃ d n line tag entries, readDocument (scan text) = .ok d ∧ d.Stands n ∧
    d.resolve n = .mapping line tag entries ∧ ¬ tag.OfScalar ∧
    keys = entries.map fun e => d.keyOf e.1

/-- The reader that runs hands over the mappings of documents. -/
theorem builds_load (levels : Nat) : (load levels).Builds HasMapping where
  mem_targets := by
    rintro text _ ⟨d, n, line, tag, entries, hd, hn, hr, ht, rfl⟩
    rw [load, hd]
    rcases outcome_ofSteps (d.unfold levels d.root) d.steps with hs | ⟨hno, hall⟩
    · exact .inr hs
    · exact .inl (hall _ (hn.mem_steps hno hr ht))
  hasMapping := by
    intro text keys h
    rw [load] at h
    split at h
    · rename_i d hd
      obtain ⟨n, hn, hm, -⟩ := Document.exists_stands_of_steps (mem_of_mem_targets h)
      obtain ⟨line, tag, entries, hr, ht, rfl⟩ := Document.exists_of_make_mapping hm
      exact ⟨d, n, line, tag, entries, hd, hn, hr, Tag.not_ofScalar_of_isMade ht, rfl⟩
    · cases h
  stops := by
    intro text keys h hk
    rw [load] at h ⊢
    split at h
    · rename_i d hd
      obtain ⟨n, -, hm, hs⟩ := Document.exists_stands_of_steps (mem_of_mem_targets h)
      obtain ⟨line, tag, entries, hr, ht, rfl⟩ := Document.exists_of_make_mapping hm
      rcases outcome_ofSteps (d.unfold levels d.root) d.steps with ho | ⟨hno, -⟩
      · exact ho
      · obtain ⟨e, he, hc⟩ := List.mem_map.1 hk
        obtain ⟨s, hv⟩ := (Document.entries_of_steps hno hr ht hs e he).1
        simp [Document.keyOf, hv] at hc
    · cases h

end Quorum.Yaml
