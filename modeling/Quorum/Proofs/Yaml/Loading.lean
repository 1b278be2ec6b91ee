import Quorum.Proofs.Journal
import Quorum.Repeat
import Quorum.Yaml.Loading

/-!
# Where the loading of a YAML text breaks off

A node of which a mapping is to be made is wrong in one way at most (`Target.Fails`): the first of its
keys that is repeated or cannot be made, or what cannot be taken apart at all. The first node that is
wrong decides where a loading breaks off, and else the reader itself does (`Loading.BreaksAt`,
`Loading.check_eq_error_iff`). What is known of a reader is which mappings it hands over
(`Loader.Builds`); then a key that a mapping of the text has twice is never passed over
(`Loader.Builds.exists_breaksAt`).
-/

namespace Quorum.Yaml

/-- The values among keys. -/
def Key.values (keys : List Key) : List Scalar :=
  keys.filterMap fun
    | .value s => some s
    | _ => none

/-- All keys have been made, and none is repeated. -/
structure Key.Sound (keys : List Key) : Prop where
  made : ∀ stop, Key.failing stop ∉ keys
  distinct : (values keys).Pairwise fun t s => s.same t = false

/-- What is wrong with a node of which a mapping is to be made. -/
inductive Target.Fails : Target → Break → Prop
  | repeated {before after : List Key} {s t : Scalar} (hb : Key.Sound before)
    (ht : t ∈ Key.values before) (h : s.same t = true) :
    Fails (.mapping (before ++ .value s :: after)) (.repeated s)
  | failing {before after : List Key} {stop : Stop} (hb : Key.Sound before) :
    Fails (.mapping (before ++ .failing stop :: after)) (.stopped stop)
  | scalar (code : Nat) (codes : List Nat) :
    Fails (.scalar (code :: codes)) (.stopped (.refused .notPair))
  | sequence (kind : NodeKind) (kinds : List NodeKind) :
    Fails (.sequence (kind :: kinds)) (.stopped (.refused (.indivisible kind.name)))

/-- The loading breaks off at the first node that is wrong, and where none is, at what the reader
itself stops at. -/
inductive Loading.BreaksAt (l : Loading) : Break → Prop
  | target {before after : List Target} {t : Target} {b : Break}
    (hs : l.targets = before ++ t :: after) (hb : ∀ u ∈ before, ∀ b, ¬ u.Fails b)
    (h : t.Fails b) : BreaksAt l b
  | stop {stop : Stop} (ht : ∀ t ∈ l.targets, ∀ b, ¬ t.Fails b) (h : l.outcome = .error stop) :
    BreaksAt l (.stopped stop)

/-! ## Keys -/

theorem Key.values_append (keys keys' : List Key) :
    values (keys ++ keys') = values keys ++ values keys' :=
  List.filterMap_append

theorem Key.sound_nil : Sound [] :=
  ⟨nofun, .nil⟩

theorem Key.sound_concat_value {keys : List Key} {s : Scalar} (h : Sound keys)
    (hs : ∀ t ∈ values keys, s.same t = false) : Sound (keys ++ [.value s]) := by
  refine ⟨fun stop hm => ?_, ?_⟩
  · exact h.made stop (by simpa using hm)
  · rw [values_append]
    exact List.pairwise_append.2 ⟨h.distinct, List.pairwise_singleton _ _, by simpa [values] using hs⟩

theorem Key.sound_concat_collection {keys : List Key} (h : Sound keys) :
    Sound (keys ++ [.collection]) := by
  refine ⟨fun stop hm => h.made stop (by simpa using hm), ?_⟩
  rw [values_append]
  simpa [values] using h.distinct

theorem Key.Sound.same_eq_false {before after : List Key} {s : Scalar}
    (h : Sound (before ++ .value s :: after)) : ∀ t ∈ values before, s.same t = false := by
  have hd := h.distinct
  rw [values_append] at hd
  exact fun t ht => (List.pairwise_append.1 hd).2.2 t ht s List.mem_cons_self

/-- Sound keys are passed over, and their values are remembered. -/
theorem checkKeys_append {before keys : List Key} (h : Key.Sound (before ++ keys)) (r : List Key) :
    checkKeys (Key.values before).reverse (keys ++ r) =
      checkKeys (Key.values (before ++ keys)).reverse r := by
  induction keys generalizing before with
  | nil => rw [List.nil_append, List.append_nil]
  | cons k keys ih =>
    have hk : before ++ k :: keys = before ++ [k] ++ keys := by simp
    have ih := ih (hk ▸ h)
    rw [Key.values_append, List.reverse_append] at ih
    rw [List.cons_append, hk]
    cases k with
    | value s =>
      have hs : (Key.values before).reverse.any (Scalar.same s) = false := by
        simpa using h.same_eq_false
      rw [checkKeys, hs]
      exact ih
    | collection => exact ih
    | failing stop => exact absurd (List.mem_append_right _ List.mem_cons_self) (h.made stop)

/-- Keys are sound as far as the first that is repeated or cannot be made. -/
theorem checkKeys_cases {before : List Key} (hb : Key.Sound before) (keys : List Key) :
    (checkKeys (Key.values before).reverse keys = .ok () ∧ Key.Sound (before ++ keys)) ∨
      ∃ b, checkKeys (Key.values before).reverse keys = .error b ∧
        Target.Fails (.mapping (before ++ keys)) b := by
  induction keys generalizing before with
  | nil => exact .inl ⟨rfl, by rwa [List.append_nil]⟩
  | cons k keys ih =>
    have hk : before ++ k :: keys = before ++ [k] ++ keys := by simp
    cases k with
    | value s =>
      rw [checkKeys]
      split
      · rename_i hs
        obtain ⟨t, ht, hs⟩ := List.any_eq_true.1 hs
        exact .inr ⟨_, rfl, .repeated hb (List.mem_reverse.1 ht) hs⟩
      · rename_i hs
        have hs : ∀ t ∈ Key.values before, s.same t = false := by simpa using hs
        have ih := ih (Key.sound_concat_value hb hs)
        rw [Key.values_append, List.reverse_append] at ih
        rwa [hk]
    | collection =>
      have ih := ih (Key.sound_concat_collection hb)
      rw [Key.values_append, List.reverse_append] at ih
      rwa [hk]
    | failing stop => exact .inr ⟨_, rfl, .failing hb⟩

/-! ## Targets -/

theorem checkTarget_eq_error_iff {t : Target} {b : Break} :
    checkTarget t = .error b ↔ t.Fails b := by
  constructor
  · intro h
    cases t with
    | mapping keys =>
      rcases checkKeys_cases Key.sound_nil keys with ⟨hc, -⟩ | ⟨b', hc, hf⟩
      · cases hc.symm.trans h
      · cases hc.symm.trans h
        exact hf
    | scalar codes =>
      cases codes with
      | nil => cases h
      | cons code codes =>
        cases h
        exact .scalar code codes
    | sequence kinds =>
      cases kinds with
      | nil => cases h
      | cons kind kinds =>
        cases h
        exact .sequence kind kinds
  · intro h
    have hk : ∀ {before : List Key}, Key.Sound before → ∀ r,
        checkTarget (.mapping (before ++ r)) = checkKeys (Key.values before).reverse r :=
      fun hb r => @checkKeys_append [] _ hb r
    cases h with
    | repeated hb ht hs =>
      rw [hk hb, checkKeys, if_pos (List.any_eq_true.2 ⟨_, List.mem_reverse.2 ht, hs⟩)]
    | failing hb => rw [hk hb, checkKeys]
    | scalar | sequence => rfl

theorem checkTarget_eq_ok_iff {t : Target} : checkTarget t = .ok () ↔ ∀ b, ¬ t.Fails b := by
  cases h : checkTarget t with
  | ok => simp [← checkTarget_eq_error_iff, h]
  | error b => simpa using ⟨b, checkTarget_eq_error_iff.1 h⟩

theorem exists_fails_of_repeats {keys : List Key} {s : Scalar}
    (h : Repeats Scalar.same (Key.values keys) s) : ∃ b, (Target.mapping keys).Fails b := by
  rcases checkKeys_cases Key.sound_nil keys with ⟨-, hs⟩ | ⟨b, -, hf⟩
  · obtain ⟨t, ht, hst⟩ := h
    have hp := List.pairwise_iff_forall_sublist.1 hs.distinct ht
    simp [hp] at hst
  · exact ⟨b, hf⟩

theorem Target.Fails.repeats {t : Target} {s : Scalar} (h : t.Fails (.repeated s)) :
    ∃ keys, t = .mapping keys ∧ Repeats Scalar.same (Key.values keys) s := by
  cases h with
  | @repeated before after s t hb ht hs =>
    refine ⟨_, rfl, t, ?_, hs⟩
    rw [Key.values_append]
    exact (List.singleton_sublist.2 ht).append (.cons_cons s (List.nil_sublist _))

/-! ## Loadings -/

theorem exists_first_fails (ts : List Target) :
    (∀ t ∈ ts, ∀ b, ¬ t.Fails b) ∨ ∃ before t after b, ts = before ++ t :: after ∧
      (∀ u ∈ before, ∀ b, ¬ u.Fails b) ∧ t.Fails b := by
  induction ts with
  | nil => exact .inl nofun
  | cons t ts ih =>
    by_cases ht : ∃ b, t.Fails b
    · obtain ⟨b, ht⟩ := ht
      exact .inr ⟨[], t, ts, b, rfl, nofun, ht⟩
    · have ht : ∀ b, ¬ t.Fails b := fun b hb => ht ⟨b, hb⟩
      rcases ih with h | ⟨before, u, after, b, rfl, hb, hu⟩
      · exact .inl (List.forall_mem_cons.2 ⟨ht, h⟩)
      · exact .inr ⟨t :: before, u, after, b, rfl, List.forall_mem_cons.2 ⟨ht, hb⟩, hu⟩

namespace Loading

variable {l : Loading}

theorem BreaksAt.check {b : Break} (h : l.BreaksAt b) : l.check = .error b := by
  cases h with
  | target hs hb h =>
    rw [Loading.check, hs, forM_error (fun u hu => checkTarget_eq_ok_iff.2 (hb u hu))
      (checkTarget_eq_error_iff.2 h), error_bind]
  | stop ht h =>
    rw [Loading.check, forM_eq_ok fun t hm => checkTarget_eq_ok_iff.2 (ht t hm), ok_bind, h]
    rfl

/-- A text gives the data that its reader comes to, if none of the nodes that are handed over is
wrong; and if it gives none, it breaks off where something is wrong first. -/
theorem check_iff :
    (∀ d, l.check = .ok d ↔ (∀ t ∈ l.targets, ∀ b, ¬ t.Fails b) ∧ l.outcome = .ok d) ∧
      ∀ b, l.check = .error b ↔ l.BreaksAt b := by
  refine outcome_iff (fun d h => ?_) (fun b => BreaksAt.check) ?_
  · rw [Loading.check, forM_eq_ok fun t hm => checkTarget_eq_ok_iff.2 (h.1 t hm), ok_bind, h.2]
    rfl
  · rcases exists_first_fails l.targets with hs | ⟨before, t, after, b, hs, hb, ht⟩
    · cases ho : l.outcome with
      | ok d => exact .inl ⟨d, hs, rfl⟩
      | error stop => exact .inr ⟨_, .stop hs ho⟩
    · exact .inr ⟨b, .target hs hb ht⟩

theorem exists_breaksAt
    (h : (∃ t ∈ l.targets, ∃ b, t.Fails b) ∨ ∃ stop, l.outcome = .error stop) :
    ∃ b, l.BreaksAt b := by
  rcases exists_first_fails l.targets with ht | ⟨before, t, after, b, hs, hb, hf⟩
  · rcases h with ⟨t, hm, b, hf⟩ | ⟨stop, ho⟩
    · exact absurd hf (ht t hm b)
    · exact ⟨_, .stop ht ho⟩
  · exact ⟨b, .target hs hb hf⟩

theorem BreaksAt.repeats {s : Scalar} (h : l.BreaksAt (.repeated s)) :
    ∃ keys, .mapping keys ∈ l.targets ∧ Repeats Scalar.same (Key.values keys) s := by
  cases h with
  | target hs hb hf =>
    obtain ⟨keys, rfl, hr⟩ := hf.repeats
    exact ⟨keys, by simp [hs], hr⟩

theorem check_eq_error_iff {b : Break} : l.check = .error b ↔ l.BreaksAt b :=
  check_iff.2 b

end Loading

/-! ## Readers -/

/-- Two of the keys are the same: their values are, or both are collections. Of collections no more is
asked, so equal ones are among them. -/
def SameKeys (keys : List Key) : Prop :=
  (∃ s, Repeats Scalar.same (Key.values keys) s) ∨ [.collection, .collection].Sublist keys

/-- What is known of a reader, where `HasMapping text keys` says that a mapping with these keys stands
in the document of the text. -/
structure Loader.Builds (yaml : Loader) (HasMapping : List Char → List Key → Prop) : Prop where
  /-- Every mapping of a document is handed over, unless the reader stops. -/
  mem_targets {text : List Char} {keys : List Key} (h : HasMapping text keys) :
    .mapping keys ∈ (yaml text).targets ∨ ∃ stop, (yaml text).outcome = .error stop
  /-- No other mappings are handed over. -/
  hasMapping {text : List Char} {keys : List Key} (h : .mapping keys ∈ (yaml text).targets) :
    HasMapping text keys
  /-- The reader stops at a collection as a key, if not before. -/
  stops {text : List Char} {keys : List Key} (h : .mapping keys ∈ (yaml text).targets)
    (hc : .collection ∈ keys) : ∃ stop, (yaml text).outcome = .error stop

/-- A key that a mapping of a text has twice is not passed over. -/
theorem Loader.Builds.exists_breaksAt {yaml : Loader} {HasMapping : List Char → List Key → Prop}
    (hy : yaml.Builds HasMapping) {text : List Char} {keys : List Key} (h : HasMapping text keys)
    (hs : SameKeys keys) : ∃ b, (yaml text).BreaksAt b := by
  refine Loading.exists_breaksAt ?_
  rcases hy.mem_targets h with hm | ho
  · rcases hs with ⟨s, hr⟩ | hc
    · exact .inl ⟨_, hm, exists_fails_of_repeats hr⟩
    · exact .inr (hy.stops hm (hc.subset List.mem_cons_self))
  · exact .inr ho

end Quorum.Yaml
