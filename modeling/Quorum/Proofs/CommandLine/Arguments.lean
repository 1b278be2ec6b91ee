import Mathlib
import Quorum.CommandLine

/-!
# What a command line says

A command line is a sequence of items (`Spells`): inputs, flags and tie rules, in any order and as
often as one likes, and after two dashes nothing but inputs. A reader of arguments is to take what asks
for one job (`Reader.Conforms`). The one that runs does: it takes up one item after the other
(`readArguments_of_spells`, `conforms_jobOf?`).
-/

namespace Quorum.CommandLine

/-- What one or two arguments say. -/
inductive Item where
  | input (path : List Char)
  | report
  | verbose
  | tieRule (name : List Char)
  deriving DecidableEq

namespace Item

def input? : Item → Option (List Char)
  | input path => some path
  | _ => none

def tieRule? : Item → Option (List Char)
  | tieRule name => some name
  | _ => none

/-- The arguments write the item. A dash alone is an input like any other. -/
inductive Writes : Item → List (List Char) → Prop
  | input {path : List Char} (h : path.head? = some '-' → path = ['-']) :
    Writes (.input path) [path]
  | report : Writes .report ["--report".toList]
  | verbose : Writes .verbose ["--verbose".toList]
  | letters (n : Nat) : Writes .verbose ['-' :: 'v' :: List.replicate n 'v']
  | tieRule (name : List Char) : Writes (.tieRule name) ["--tie-break".toList, name]
  | joinedTieRule (name : List Char) : Writes (.tieRule name) ["--tie-break=".toList ++ name]

theorem Writes.length_pos {i : Item} {a : List (List Char)} (h : Writes i a) : 0 < a.length := by
  cases h <;> exact Nat.succ_pos _

end Item

open Item (Writes)

/-- The arguments write the items one after the other. -/
inductive Spells : List Item → List (List Char) → Prop
  | nil : Spells [] []
  | cons {i : Item} {items : List Item} {a r : List (List Char)} (hi : Writes i a)
    (hr : Spells items r) : Spells (i :: items) (a ++ r)
  | inputs (paths : List (List Char)) : Spells (paths.map .input) (['-', '-'] :: paths)

/-- The items ask for the job: for its input alone, and for the tie rule that they name last. -/
@[mk_iff]
structure Describes (items : List Item) (job : Job) : Prop where
  input_eq : items.filterMap Item.input? = [job.input]
  report_iff : job.report = true ↔ .report ∈ items
  verbose_iff : job.verbose = true ↔ .verbose ∈ items
  tieRule_eq : (items.filterMap Item.tieRule?).getLast? =
    job.tieRule.map fun rule => rule.name.toList

/-- What a reader of arguments has to do. -/
structure Reader.Conforms (read : Reader) : Prop where
  /-- Nothing is taken that is not a sequence of items, and the job is what they ask for. -/
  sound {args : List (List Char)} {job : Job} (h : read args = some job) :
    ∃ items, Spells items args ∧ Describes items job
  /-- Items may stand in any order; they are taken if they ask for a job. -/
  complete {items : List Item} {args : List (List Char)} {job : Job} (hs : Spells items args)
    (hd : Describes items job) : read args = some job

/-! ## Items taken up -/

/-- The request with one item more. -/
def Request.add (q : Request) : Item → Request
  | .input path => { q with inputs := q.inputs ++ [path] }
  | .report => { q with report := true }
  | .verbose => { q with verbose := true }
  | .tieRule name => { q with tieRule := some name }

theorem foldl_add_inputs (q : Request) (paths : List (List Char)) :
    (paths.map Item.input).foldl Request.add q = { q with inputs := q.inputs ++ paths } := by
  induction paths generalizing q with
  | nil => simp
  | cons p r ih => simp [ih, Request.add]

theorem foldl_add (items : List Item) (q : Request) :
    items.foldl Request.add q =
      ⟨q.inputs ++ items.filterMap Item.input?, q.report || items.contains .report,
        q.verbose || items.contains .verbose,
        (items.filterMap Item.tieRule?).getLast?.or q.tieRule⟩ := by
  induction items generalizing q with
  | nil => simp
  | cons i r ih =>
    rw [List.foldl_cons, ih]
    cases i with
    | input path => simp [Request.add, List.filterMap_cons, Item.input?, Item.tieRule?]
    | report => simp [Request.add, List.filterMap_cons, Item.input?, Item.tieRule?]
    | verbose => simp [Request.add, List.filterMap_cons, Item.input?, Item.tieRule?]
    | tieRule name =>
      simp [Request.add, List.filterMap_cons, Item.input?, Item.tieRule?, List.getLast?_cons]

/-! ## Options -/

theorem splitValue_cases (arg : List Char) :
    splitValue arg = (arg, none) ∧ '=' ∉ arg ∨
      ∃ name value, splitValue arg = (name, some value) ∧ arg = name ++ '=' :: value := by
  unfold splitValue
  cases h : Formula.splitFirst? '=' arg with
  | none => exact .inl ⟨rfl, Formula.splitFirst?_eq_none_iff.1 h⟩
  | some p => exact .inr ⟨p.1, p.2, rfl, (Formula.splitFirst?_eq_some h).1⟩

theorem markOf_eq {arg name : List Char} {value : Option (List Char)}
    (h : splitValue arg = (name, value)) :
    markOf arg =
      if name = "--tie-break".toList then .rule value
      else if value = none ∧ name = "--report".toList then .flag (Request.add · .report)
      else if value = none ∧ name = "--verbose".toList then .flag (Request.add · .verbose)
      else .unknown := by
  rw [markOf, h]
  simp only [beq_iff_eq, Bool.and_eq_true, Option.isNone_iff_eq_none]
  rfl

/-- The argument that a mark belongs to. -/
inductive Marks : Mark → List Char → Prop
  | report : Marks (.flag (Request.add · .report)) "--report".toList
  | verbose : Marks (.flag (Request.add · .verbose)) "--verbose".toList
  | tieRule : Marks (.rule none) "--tie-break".toList
  | joinedTieRule (name : List Char) : Marks (.rule (some name)) ("--tie-break=".toList ++ name)
  | unknown (arg : List Char) : Marks .unknown arg

theorem marks_markOf (arg : List Char) : Marks (markOf arg) arg := by
  rcases splitValue_cases arg with ⟨h, -⟩ | ⟨name, value, h, rfl⟩
  · rw [markOf_eq h]
    by_cases ht : arg = "--tie-break".toList
    · rw [if_pos ht, ht]
      exact .tieRule
    by_cases hr : arg = "--report".toList
    · rw [if_neg ht, if_pos ⟨rfl, hr⟩, hr]
      exact .report
    by_cases hv : arg = "--verbose".toList
    · rw [if_neg ht, if_neg (hr ·.2), if_pos ⟨rfl, hv⟩, hv]
      exact .verbose
    · rw [if_neg ht, if_neg (hr ·.2), if_neg (hv ·.2)]
      exact .unknown arg
  · -- A flag takes no value, so only the tie rule can stand before an equals sign.
    rw [markOf_eq h]
    by_cases ht : name = "--tie-break".toList
    · rw [if_pos ht, ht]
      exact .joinedTieRule value
    · rw [if_neg ht, if_neg (nomatch ·.1), if_neg (nomatch ·.1)]
      exact .unknown _

theorem markOf_letters (n : Nat) : markOf ('-' :: 'v' :: List.replicate n 'v') = .unknown := by
  have hs : splitValue ('-' :: 'v' :: List.replicate n 'v') =
      ('-' :: 'v' :: List.replicate n 'v', none) := by
    rw [splitValue, Formula.splitFirst?_eq_none_iff.2 (by simp)]
  rw [markOf_eq hs]
  simp

theorem isOption_iff {arg : List Char} : isOption arg = true ↔ ∃ c r, arg = '-' :: c :: r := by
  rcases arg with _ | ⟨d, _ | ⟨c, r⟩⟩ <;> simp [isOption]

theorem readLetters_eq_some {letters : List Char} {q q' : Request}
    (h : readLetters letters q = some q') :
    letters = List.replicate letters.length 'v' ∧ q' = q.add .verbose := by
  rw [readLetters] at h
  split at h
  · rename_i hv
    cases h
    exact ⟨List.eq_replicate_iff.2 ⟨rfl, by simpa using hv⟩, rfl⟩
  · cases h

/-! ## Reading -/

theorem readArguments_of_writes {i : Item} {a : List (List Char)} (h : Writes i a)
    (r : List (List Char)) (q : Request) :
    readArguments (a ++ r) q = readArguments r (q.add i) := by
  cases h with
  | @input path h =>
    have hd : path ≠ ['-', '-'] := by
      rintro rfl
      exact absurd (h rfl) (by decide)
    have ho : isOption path = false := by
      rw [Bool.eq_false_iff]
      intro ho
      obtain ⟨c, r, rfl⟩ := isOption_iff.1 ho
      exact absurd (h rfl) (by simp)
    rw [List.singleton_append, readArguments.eq_def]
    simp [hd, ho, Request.add]
  | report => rfl
  | verbose => rfl
  | letters n =>
    have ho : isOption ('-' :: 'v' :: List.replicate n 'v') = true := isOption_iff.2 ⟨_, _, rfl⟩
    rw [List.singleton_append, readArguments.eq_def]
    simp [ho, markOf_letters, readLetters, Request.add]
  | tieRule name => rfl
  | joinedTieRule name => rfl

theorem readArguments_of_spells {items : List Item} {args : List (List Char)}
    (h : Spells items args) (q : Request) :
    readArguments args q = some (items.foldl Request.add q) := by
  induction h generalizing q with
  | nil => rfl
  | @cons i items a r hi _ ih => rw [readArguments_of_writes hi, ih, List.foldl_cons]
  | inputs paths => rw [foldl_add_inputs]; rfl

/-- Arguments that are taken begin with an item, unless two dashes stand first. -/
theorem exists_writes {arg : List Char} {r : List (List Char)} {q q' : Request}
    (h : readArguments (arg :: r) q = some q') (hd : arg ≠ ['-', '-']) :
    ∃ i a s, arg :: r = a ++ s ∧ Writes i a := by
  by_cases ho : isOption arg = true
  · have hm := marks_markOf arg
    rw [readArguments.eq_def] at h
    simp only [beq_iff_eq, hd, ho, Bool.not_true, Bool.false_eq_true, if_false] at h
    generalize markOf arg = m at hm h
    cases hm with
    | report => exact ⟨.report, _, r, rfl, .report⟩
    | verbose => exact ⟨.verbose, _, r, rfl, .verbose⟩
    | joinedTieRule name => exact ⟨.tieRule name, _, r, rfl, .joinedTieRule name⟩
    | tieRule =>
      cases r with
      | nil => cases h
      | cons name s => exact ⟨.tieRule name, _, s, rfl, .tieRule name⟩
    | unknown =>
      -- What is no known option may still be letters behind one dash.
      dsimp only at h
      split at h
      · cases h
      · rename_i letters _
        obtain ⟨c, t, hl⟩ := isOption_iff.1 ho
        cases hl
        split at h
        · rename_i hq
          rw [(readLetters_eq_some hq).1]
          exact ⟨.verbose, _, r, rfl, .letters t.length⟩
        · cases h
      · cases h
  · refine ⟨.input arg, [arg], r, rfl, .input fun hh => ?_⟩
    obtain ⟨t, rfl⟩ := List.head?_eq_some_iff.1 hh
    cases t with
    | nil => rfl
    | cons c t => exact absurd (isOption_iff.2 ⟨c, t, rfl⟩) ho

theorem exists_items_of_readArguments {args : List (List Char)} {q q' : Request}
    (h : readArguments args q = some q') :
    ∃ items, Spells items args ∧ q' = items.foldl Request.add q := by
  cases args with
  | nil =>
    cases h
    exact ⟨[], .nil, rfl⟩
  | cons arg r =>
    by_cases hd : arg = ['-', '-']
    · subst hd
      cases h
      exact ⟨r.map .input, .inputs r, (foldl_add_inputs q r).symm⟩
    obtain ⟨i, a, s, hs, hw⟩ := exists_writes h hd
    rw [hs, readArguments_of_writes hw] at h
    have hpos : 0 < a.length := hw.length_pos
    have hlength : r.length + 1 = a.length + s.length := by
      simpa using congrArg List.length hs
    have hlt : s.length < r.length + 1 := by omega
    obtain ⟨items, hi, hq⟩ := exists_items_of_readArguments h
    rw [hs]
    exact ⟨i :: items, .cons hw hi, hq⟩
termination_by args.length

/-! ## Jobs -/

theorem find_rule_eq_some_iff {name : List Char} {rule : Ballot.Rule} :
    [Ballot.Rule.smallest, .first].find? (fun rule => rule.name.toList == name) = some rule ↔
      rule.name.toList = name := by
  constructor
  · intro h
    simpa using List.find?_some h
  · rintro rfl
    cases rule <;> rfl

/-- The request asks for the job. -/
@[mk_iff]
structure Request.IsFor (q : Request) (job : Job) : Prop where
  inputs_eq : q.inputs = [job.input]
  report_eq : q.report = job.report
  verbose_eq : q.verbose = job.verbose
  tieRule_eq : q.tieRule = job.tieRule.map fun rule => rule.name.toList

theorem jobOf?_of_readArguments {args : List (List Char)} {q : Request} {job : Job}
    (h : readArguments args .none = some q) : jobOf? args = some job ↔ q.IsFor job := by
  rw [Request.isFor_iff]
  obtain ⟨inputs, report, verbose, tieRule⟩ := q
  obtain ⟨input, report', verbose', rule⟩ := job
  cases tieRule with
  | none =>
    rcases inputs with _ | ⟨path, _ | ⟨path', r⟩⟩ <;> simp [jobOf?, h]
    exact fun _ _ _ => eq_comm
  | some name =>
    -- Only with a single input is anything left to show.
    rcases inputs with _ | ⟨path, _ | ⟨path', r⟩⟩ <;>
      simp [jobOf?, h, -List.find?_cons_eq_some, Option.bind_eq_some_iff, find_rule_eq_some_iff]
    constructor
    · rintro ⟨rule, hn, hi, hr, hv, rfl⟩
      exact ⟨hi, hr, hv, rule, rfl, hn⟩
    · rintro ⟨hi, hr, hv, rule, rfl, hn⟩
      exact ⟨rule, hn, hi, hr, hv, rfl⟩

theorem isFor_foldl_add_iff {items : List Item} {job : Job} :
    (items.foldl Request.add .none).IsFor job ↔ Describes items job := by
  have hb (b : Bool) (i : Item) : (false || items.contains i) = b ↔ (b = true ↔ i ∈ items) := by
    rw [Bool.false_or, Bool.eq_iff_iff, List.contains_iff_mem]
    exact Iff.comm
  rw [foldl_add, Request.isFor_iff, describes_iff]
  simp only [Request.none, hb, List.nil_append, Option.or_none]

theorem conforms_jobOf? : Reader.Conforms jobOf? where
  sound {args job} h := by
    obtain ⟨q, hq, -⟩ := Option.bind_eq_some_iff.1 h
    obtain ⟨items, hs, rfl⟩ := exists_items_of_readArguments hq
    exact ⟨items, hs, isFor_foldl_add_iff.1 ((jobOf?_of_readArguments hq).1 h)⟩
  complete {items args job} hs hd :=
    (jobOf?_of_readArguments (readArguments_of_spells hs .none)).2 (isFor_foldl_add_iff.2 hd)

/-- Letters may be repeated, and what stands behind two dashes is an input. -/
example : jobOf? ["-vv".toList, "--".toList, "-v".toList] =
    some ⟨"-v".toList, false, true, none⟩ := by decide

end Quorum.CommandLine
