import Quorum.Proofs.CommandLine.Arguments
import Quorum.Proofs.Recovery.File
import Quorum.Proofs.Settings
import Quorum.Yaml.Document

/-!
# What a run answers

A run passes on what the recovery from its file comes to (`answers_run`): the items of the command
line only choose the settings and how much is shown, be it the secret or a report (`IsReport`). Which
events are logged changes nothing else, and a more severe threshold leaves out some of the lines
(`logLines_sublist`), so that a command line with more or fewer `-v`, in an environment with another
log level, has the same exit code and output (`run_agrees_with_recovery`). All this is said of any
reader of arguments that conforms, and of any reader of YAML.
-/

namespace Quorum.CommandLine

open Quorum.Recovery (ofFile)

/-! ## Lines -/

theorem lines_append (ls ms : List String) : lines (ls ++ ms) = lines ls ++ lines ms := by
  simp [lines, String.join_append]

theorem lines_singleton (l : String) : lines [l] = l ++ "\n" := by
  simp [lines]

theorem logLines_sublist {m n : Nat} (h : m ≤ n) (events : List Event) :
    (logLines n events).Sublist (logLines m events) := by
  refine List.Sublist.map _ ?_
  refine List.monotone_filter_right events fun e hn => ?_
  simp only [decide_eq_true_eq] at hn ⊢
  omega

/-! ## Reports -/

/-- The text names the numbers one after the other, between commas. -/
inductive Names : List Int → String → Prop
  | one (id : Int) : Names [id] (toString id)
  | cons {id : Int} {ids : List Int} {text : String} (h : Names ids text) :
    Names (id :: ids) (toString id ++ ", " ++ text)

/-- The text names the suspects, or says that there are none. -/
inductive NamesSuspects : List Int → String → Prop
  | none : NamesSuspects [] "none"
  | some {ids : List Int} {text : String} (h : Names ids text) : NamesSuspects ids text

/-- The lines are a report on the recovery: six of them, and one more that warns of a tie. -/
inductive IsReport (r : Recovery) : List String → Prop
  | tied {suspects : String} (ht : r.tied = true) (hs : NamesSuspects r.suspects suspects) :
    IsReport r ["secret: " ++ toString r.secret, "threshold: " ++ toString r.threshold,
      "shares: " ++ toString r.shares, "combinations: " ++ toString r.combinations,
      "agreement: " ++ toString r.agreement ++ "/" ++ toString r.combinations,
      "warning: plurality is tied, winner chosen by tie-break rule", "suspect shares: " ++ suspects]
  | clear {suspects : String} (ht : r.tied = false) (hs : NamesSuspects r.suspects suspects) :
    IsReport r ["secret: " ++ toString r.secret, "threshold: " ++ toString r.threshold,
      "shares: " ++ toString r.shares, "combinations: " ++ toString r.combinations,
      "agreement: " ++ toString r.agreement ++ "/" ++ toString r.combinations,
      "suspect shares: " ++ suspects]

theorem names_intercalate (id : Int) (ids : List Int) :
    Names (id :: ids) (String.intercalate ", " ((id :: ids).map toString)) := by
  induction ids generalizing id with
  | nil => simpa using Names.one id
  | cons id' ids ih =>
    rw [List.map_cons, List.map_cons, String.intercalate_cons_cons, ← List.map_cons]
    exact .cons (ih id')

theorem namesSuspects_intercalate (ids : List Int) : NamesSuspects ids
    (if ids.isEmpty then "none" else String.intercalate ", " (ids.map toString)) := by
  cases ids with
  | nil => exact .none
  | cons id ids => exact .some (names_intercalate id ids)

theorem isReport_reportLines (r : Recovery) : IsReport r (reportLines r) := by
  rw [reportLines]
  cases ht : r.tied with
  | true => exact .tied ht (namesSuspects_intercalate r.suspects)
  | false => exact .clear ht (namesSuspects_intercalate r.suspects)

/-! ## What the items choose -/

/-- The settings of an environment, under the tie rule that the items name last. -/
def settingsIn (items : List Item) (env : Environment) : Settings :=
  let settings := Settings.ofEnvironment env
  { settings with
    tieRule := ((items.filterMap Item.tieRule?).getLast?.map String.ofList).getD settings.tieRule }

/-- How important an event must be to be logged: with a verbose item the least important is. -/
def thresholdIn (items : List Item) (env : Environment) : Nat :=
  if .verbose ∈ items then Level.debug.rank else (Settings.ofEnvironment env).threshold

theorem settingsOf_eq {items : List Item} {job : Job} (h : Describes items job)
    (env : Environment) : settingsOf job env = settingsIn items env := by
  unfold settingsOf settingsIn
  rw [h.tieRule_eq]
  cases job.tieRule with
  | none => rfl
  | some rule => simp

theorem settingsIn_threshold (items : List Item) (env : Environment) :
    (settingsIn items env).threshold = (Settings.ofEnvironment env).threshold := rfl

theorem threshold_eq {items : List Item} {job : Job} (h : Describes items job)
    (env : Environment) :
    (if job.verbose then Level.debug.rank else (settingsOf job env).threshold) =
      thresholdIn items env := by
  rw [settingsOf_eq h, settingsIn_threshold, thresholdIn]
  simp only [h.verbose_iff]

theorem filterMap_of_filter_eq {α : Type} {f : Item → Option α} (hf : f .verbose = none)
    {items items' : List Item}
    (h : items'.filter (· ≠ .verbose) = items.filter (· ≠ .verbose)) :
    items'.filterMap f = items.filterMap f := by
  have hl (l : List Item) : (l.filter (· ≠ .verbose)).filterMap f = l.filterMap f := by
    rw [List.filterMap_filter]
    refine List.filterMap_congr fun i _ => ?_
    by_cases hi : i = .verbose <;> simp [hi, hf]
  rw [← hl items', h, hl]

/-- Verbose items more or less make the job verbose or not, and no other difference. -/
theorem Describes.of_filter_eq {items items' : List Item} {job : Job} (h : Describes items job)
    (hf : items'.filter (· ≠ .verbose) = items.filter (· ≠ .verbose)) :
    Describes items' { job with verbose := decide (.verbose ∈ items') } where
  input_eq := (filterMap_of_filter_eq rfl hf).trans h.input_eq
  report_iff := by
    have hr : Item.report ∈ items'.filter (· ≠ .verbose) ↔
        Item.report ∈ items.filter (· ≠ .verbose) := by rw [hf]
    rw [List.mem_filter, List.mem_filter] at hr
    simpa [h.report_iff] using hr.symm
  verbose_iff := decide_eq_true_iff
  tieRule_eq := by rw [filterMap_of_filter_eq rfl hf, h.tieRule_eq]

/-! ## Answers -/

/-- The answer passes on what a recovery came to, under the lines of a log. -/
structure Answers (log : List String) (report : Bool) (recovered : Except Fault Recovery)
    (answer : Except Fault Response) : Prop where
  of_secret : report = false → ∀ r, recovered = .ok r →
    answer = .ok ⟨0, toString r.secret ++ "\n", lines log⟩
  of_report : report = true → ∀ r, recovered = .ok r →
    ∃ ls, IsReport r ls ∧ answer = .ok ⟨0, lines ls, lines log⟩
  of_fault : ∀ e kind, recovered = .error e → e.kind? = some kind →
    answer = .ok ⟨1, "", lines log ++ (s!"Error: {kind}: {e.message}" ++ "\n")⟩

theorem Answers.of_persists {log : List String} {report : Bool} {x y : Except Fault Recovery}
    {answer : Except Fault Response} (h : Answers log report y answer)
    (hp : Persists Fault.Foreign x y) : Answers log report x answer where
  of_secret hr r hx := h.of_secret hr r (hp.of_ok r hx)
  of_report hr r hx := h.of_report hr r (hp.of_ok r hx)
  of_fault e kind hx hk :=
    h.of_fault e kind (hp.of_error e hx fun hf => by cases hf.symm.trans hk) hk

/-- The exit code and the output of an answer. -/
def outward (answer : Except Fault Response) : Except Fault (Nat × String) :=
  answer.map fun response => (response.exit, response.output)

/-- The lines of the log of a recovery from a file. -/
def logOf (yaml : Yaml.Loader) (items : List Item) (env : Environment) (path : List Char)
    (bytes : List UInt8) : List String :=
  logLines (thresholdIn items env) (ofFile yaml .lifted (settingsIn items env) path bytes).events

section

variable {yaml : Yaml.Loader} {items : List Item} {job : Job}

theorem recover_eq (yaml : Yaml.Loader) (h : Describes items job) (env : Environment)
    (bytes : List UInt8) : recover yaml job (settingsOf job env) (.file bytes) =
      ofFile yaml .lifted (settingsIn items env) job.input bytes := by
  rw [settingsOf_eq h, recover, ofFile]
  simp only [Journal.within_lifted]

theorem answers_run (h : Describes items job) (env : Environment) (bytes : List UInt8) :
    Answers (logOf yaml items env job.input bytes) job.report
      (ofFile yaml .lifted (settingsIn items env) job.input bytes).outcome
      (run yaml job env (.file bytes)) := by
  have hj := recover_eq yaml h env bytes
  constructor
  · intro hrep r hr
    simp only [run, threshold_eq h, hj, hr, hrep, logOf, lines_singleton, Bool.false_eq_true,
      if_false]
  · intro hrep r hr
    refine ⟨reportLines r, isReport_reportLines r, ?_⟩
    simp only [run, threshold_eq h, hj, hr, hrep, logOf, if_true]
  · intro e kind he hk
    simp only [run, threshold_eq h, hj, he, hk, lines_append, lines_singleton, logOf]

/-- The exit code and the output depend on what the recovery comes to and on what is to be shown. -/
theorem outward_run_congr {job' : Job} {env env' : Environment} {found found' : Found}
    (hrep : job'.report = job.report)
    (ho : (recover yaml job' (settingsOf job' env') found').outcome =
      (recover yaml job (settingsOf job env) found).outcome) :
    outward (run yaml job' env' found') = outward (run yaml job env found) := by
  simp only [run, ho, hrep]
  cases (recover yaml job (settingsOf job env) found).outcome with
  | ok r => simp only [outward, Except.map]
  | error e =>
    dsimp only
    cases e.kind? <;> simp only [outward, Except.map]

theorem run_of_foreign (h : Describes items job) {env : Environment} {bytes : List UInt8} {e : Fault}
    (he : (ofFile yaml .lifted (settingsIn items env) job.input bytes).outcome = .error e)
    (hf : e.Foreign) : run yaml job env (.file bytes) = .error e := by
  have hk : e.kind? = none := hf
  simp only [run, recover_eq yaml h, he, hk]

/-- Verbose items and the log level of the environment are nothing to the recovery. -/
theorem ofFile_settingsIn {items' : List Item} {env env' : Environment}
    (hf : items'.filter (· ≠ .verbose) = items.filter (· ≠ .verbose))
    (henv : ∀ name, name ≠ Settings.levelVariable → env'.get? name = env.get? name)
    (yaml : Yaml.Loader) (digits : DigitLimit) :
    ofFile yaml digits (settingsIn items' env') = ofFile yaml digits (settingsIn items env) := by
  have ht : (Settings.ofEnvironment env').tieRule = (Settings.ofEnvironment env).tieRule :=
    Settings.setting_congr (henv _ (by decide)) _ _
  refine Recovery.ofFile_congr (Settings.setting_congr (henv _ (by decide)) _ _) ?_ yaml digits
  simp only [settingsIn, filterMap_of_filter_eq (f := Item.tieRule?) rfl hf, ht]

end

/-- What a command line with these items comes to where this file is its input, and what it has in
common with other command lines. -/
structure Agrees (read : Reader) (yaml : Yaml.Loader) (find : List Char → Found)
    (items : List Item) (job : Job) (env : Environment) (bytes : List UInt8)
    (answer : Except Fault Response) : Prop where
  /-- The answer passes on what the library comes to, whatever limit on digits there is for it. -/
  answers : ∀ digits, Answers (logOf yaml items env job.input bytes) job.report
    (ofFile yaml digits (settingsIn items env) job.input bytes).outcome answer
  /-- What is none of the faults of a recovery is no response. -/
  of_foreign : ∀ e, (ofFile yaml .lifted (settingsIn items env) job.input bytes).outcome = .error e →
    e.Foreign → answer = .error e
  /-- More or fewer verbose items, wherever they stand, and another log level change neither the exit
  code nor the output, and leave out lines of the log at most where the threshold is higher. -/
  of_verbose : ∀ items' args' env', Spells items' args' →
    items'.filter (· ≠ .verbose) = items.filter (· ≠ .verbose) →
    (∀ name, name ≠ Settings.levelVariable → env'.get? name = env.get? name) →
    ∃ answer', respond read yaml args' env' find = some answer' ∧
      outward answer' = outward answer ∧
      (∀ digits, Answers (logOf yaml items' env' job.input bytes) job.report
        (ofFile yaml digits (settingsIn items env) job.input bytes).outcome answer') ∧
      (thresholdIn items env ≤ thresholdIn items' env' →
        (logOf yaml items' env' job.input bytes).Sublist (logOf yaml items env job.input bytes))

theorem respond_of_read {read : Reader} {args : List (List Char)} {job : Job}
    {find : List Char → Found} {bytes : List UInt8} (h : read args = some job)
    (hfile : find job.input = .file bytes) (yaml : Yaml.Loader) (env : Environment) :
    respond read yaml args env find = some (run yaml job env (.file bytes)) := by
  simp [respond, h, hfile, isFile]

/-- Where there is a response, one file has been asked for. -/
theorem exists_file_of_respond {read : Reader} {yaml : Yaml.Loader} {args : List (List Char)}
    {env : Environment} {find : List Char → Found} {answer : Except Fault Response}
    (h : respond read yaml args env find = some answer) :
    ∃ job bytes, read args = some job ∧ find job.input = .file bytes ∧
      answer = run yaml job env (.file bytes) := by
  obtain ⟨job, hjob, h⟩ := Option.bind_eq_some_iff.1 h
  cases hf : find job.input with
  | file bytes =>
    simp only [hf, isFile, if_true, Option.some.injEq] at h
    exact ⟨job, bytes, hjob, hf, h.symm⟩
  | _ => simp [hf, isFile] at h

/-- Two shares, each of which is enough alone, with different values. -/
def tiedFile : List UInt8 :=
  ("\x7b\"keys\": \x7b\"n\": 2, \"k\": 1\x7d, \"1\": \x7b\"base\": 10, \"value\": \"9\"\x7d, " ++
    "\"2\": \x7b\"base\": 10, \"value\": \"4\"\x7d\x7d").toList.map fun c => c.toNat.toUInt8

def tiedArguments : List (List Char) :=
  ["--report".toList, "a.json".toList, "--tie-break".toList, "first".toList]

def tiedJob : Job :=
  ⟨"a.json".toList, true, false, some .first⟩

def tiedEnvironment : Environment :=
  [(Settings.tieRuleVariable, "smallest".toList)]

end Quorum.CommandLine
