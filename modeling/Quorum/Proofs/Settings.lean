import Quorum.Proofs.Ballot.Plurality
import Quorum.Proofs.Numeral.Literal
import Quorum.Proofs.Text.LetterCase
import Quorum.Settings

/-!
# Settings of an environment

Whatever the variables are, the settings that come from them are valid (`ofEnvironment_valid`). What
a text sets is said by a relation for each variable: `SetsExponent` for the limit on exponents,
`SetsTieRule` and `SetsLevel` for the names. A setting is what the text of its own variable sets, or
the default if there is no text or it sets nothing (`setting_eq_iff`), so that what is chosen is
found from what each text is read as.
-/

namespace Quorum.Settings

/-- The text sets the limit: it is a literal of it, with blanks around at will. -/
def SetsExponent (text : List Char) (n : Int) : Prop :=
  0 ≤ n ∧ ∃ t, Numeral.PadsLiteral t text ∧ Numeral.SpellsUnderscored mostDigits t n

/-- Between its blanks the text is the name of a rule when it is put in small letters. -/
def SetsTieRule (text : List Char) (name : String) : Prop :=
  (∃ rule : Ballot.Rule, rule.name = name) ∧ Text.lower (Text.trim text) = name.toList

/-- Between its blanks the text is the name of a level when it is put in capitals. -/
def SetsLevel (text : List Char) (name : String) : Prop :=
  (∃ rank, (name, rank) ∈ levels) ∧ Text.upper (Text.trim text) = name.toList

/-- What is chosen is what the text sets, or the default if there is none or it sets nothing. -/
def Chosen {α : Type} (Sets : List Char → α → Prop) (default : α) (text? : Option (List Char))
    (a : α) : Prop :=
  (∃ text, text? = some text ∧ Sets text a) ∨
    (∀ text, text? = some text → ∀ b, ¬ Sets text b) ∧ a = default

/-- The settings make sense. -/
structure Valid (s : Settings) : Prop where
  exponentLimit_nonneg : 0 ≤ s.exponentLimit
  exists_rule : ∃ rule : Ballot.Rule, rule.name = s.tieRule
  exists_rank : ∃ rank, (s.logLevel, rank) ∈ levels

/-! ## What a text sets -/

theorem find?_toList_eq_some_iff {names : List String} {s : List Char} {name : String} :
    (names.find? fun n => n.toList == s) = some name ↔ name ∈ names ∧ s = name.toList := by
  constructor
  · intro h
    have hs : name.toList = s := by simpa using List.find?_some h
    exact ⟨List.mem_of_find?_eq_some h, hs.symm⟩
  · rintro ⟨hm, rfl⟩
    have hs : (names.find? fun n => n.toList == name.toList).isSome := by
      rw [List.find?_isSome]
      exact ⟨name, hm, by simp⟩
    obtain ⟨n, hn⟩ := Option.isSome_iff_exists.1 hs
    have he : n.toList = name.toList := by simpa using List.find?_some hn
    rw [hn, String.toList_injective he]

theorem exponentOf?_eq_some_iff {text : List Char} {n : Int} :
    exponentOf? text = some n ↔ SetsExponent text n := by
  rw [exponentOf?, DigitLimit.standard, Option.filter_eq_some_iff,
    Numeral.boundedLiteral?_eq_some_iff, SetsExponent, decide_eq_true_eq, and_comm]

theorem exists_rule_iff {name : String} :
    (∃ rule : Ballot.Rule, rule.name = name) ↔
      name ∈ [Ballot.Rule.smallest.name, Ballot.Rule.first.name] := by
  rw [List.mem_cons, List.mem_singleton]
  constructor
  · rintro ⟨_ | _, rfl⟩
    · exact .inl rfl
    · exact .inr rfl
  · rintro (rfl | rfl)
    · exact ⟨_, rfl⟩
    · exact ⟨_, rfl⟩

theorem tieRuleOf?_eq_some_iff {text : List Char} {name : String} :
    tieRuleOf? text = some name ↔ SetsTieRule text name := by
  rw [tieRuleOf?, find?_toList_eq_some_iff, SetsTieRule, exists_rule_iff]

theorem levelOf?_eq_some_iff {text : List Char} {name : String} :
    levelOf? text = some name ↔ SetsLevel text name := by
  rw [levelOf?, find?_toList_eq_some_iff, SetsLevel, List.mem_map]
  simp

/-- A rule is set by the texts that are its name in letters of any case. -/
theorem setsTieRule_iff {text : List Char} {name : String} :
    SetsTieRule text name ↔ (∃ rule : Ballot.Rule, rule.name = name) ∧
      List.Forall₂ Text.SmallOf (Text.trim text) name.toList := by
  have hsmall : ∀ rule : Ballot.Rule, ∀ l ∈ rule.name.toList, l.isLower = true := by
    rintro (_ | _) <;> simp [Ballot.Rule.name]
  refine and_congr_right fun hr => ?_
  obtain ⟨rule, rfl⟩ := hr
  exact Text.lower_eq_iff (hsmall rule)

/-- A level is set by the texts that are its name in letters of any case. -/
theorem setsLevel_iff {text : List Char} {name : String} :
    SetsLevel text name ↔ (∃ rank, (name, rank) ∈ levels) ∧
      List.Forall₂ Text.CapitalOf (Text.trim text) name.toList := by
  have hcapitals : ∀ e ∈ levels, ∀ l ∈ e.1.toList, l.isUpper = true := by simp [levels]
  have hjoined : ∀ e ∈ levels, ∀ pair ∈ Text.joined, ¬ pair <:+: e.1.toList := by decide
  refine and_congr_right fun hr => ?_
  obtain ⟨rank, hr⟩ := hr
  exact Text.upper_eq_iff (hcapitals _ hr) (hjoined _ hr)

/-! ## What is chosen -/

section

variable {α : Type} {env env' : Environment} {name : String}

theorem setting_congr (h : env'.get? name = env.get? name) (read : List Char → Option α)
    (default : α) : setting env' name read default = setting env name read default := by
  rw [setting, setting, h]

theorem setting_eq_iff {read : List Char → Option α} {Sets : List Char → α → Prop}
    (h : ∀ text a, read text = some a ↔ Sets text a) {default a : α} :
    setting env name read default = a ↔ Chosen Sets default (env.get? name) a := by
  rw [setting, Chosen]
  cases env.get? name with
  | none => simp [eq_comm]
  | some text =>
    rw [Option.bind_some]
    cases hr : read text with
    | none =>
      have hn : ∀ b, ¬ Sets text b := by
        intro b hb
        rw [(h text b).2 hb] at hr
        cases hr
      simp [hn, eq_comm]
    | some b =>
      have hb : ∀ c, Sets text c ↔ c = b := by
        intro c
        rw [← h, hr, Option.some.injEq, eq_comm]
      simp [hb, eq_comm]

/-- What is true of all that a text can set and of the default is true of the setting. -/
theorem Chosen.elim {Sets : List Char → α → Prop} {default a : α} {text? : Option (List Char)}
    {p : α → Prop} (h : Chosen Sets default text? a) (hs : ∀ text b, Sets text b → p b)
    (hd : p default) : p a := by
  rcases h with ⟨text, -, ht⟩ | ⟨-, rfl⟩
  · exact hs text a ht
  · exact hd

end

variable (env : Environment)

theorem exponentLimit_eq_iff {n : Int} : (ofEnvironment env).exponentLimit = n ↔
    Chosen SetsExponent Operation.defaultExponentLimit (env.get? exponentVariable) n :=
  setting_eq_iff fun _ _ => exponentOf?_eq_some_iff

theorem tieRule_eq_iff {name : String} : (ofEnvironment env).tieRule = name ↔
    Chosen SetsTieRule Ballot.Rule.smallest.name (env.get? tieRuleVariable) name :=
  setting_eq_iff fun _ _ => tieRuleOf?_eq_some_iff

theorem logLevel_eq_iff {name : String} : (ofEnvironment env).logLevel = name ↔
    Chosen SetsLevel "WARNING" (env.get? levelVariable) name :=
  setting_eq_iff fun _ _ => levelOf?_eq_some_iff

theorem valid_ofEnvironment : Valid (ofEnvironment env) where
  exponentLimit_nonneg :=
    ((exponentLimit_eq_iff env).1 rfl).elim (p := (0 ≤ ·)) (fun _ _ h => h.1) (by decide)
  exists_rule := ((tieRule_eq_iff env).1 rfl).elim (fun _ _ h => h.1) ⟨_, rfl⟩
  exists_rank := ((logLevel_eq_iff env).1 rfl).elim (fun _ _ h => h.1) ⟨30, by decide⟩

/-- A tally has a winner under a rule that has a name, if it has candidates. -/
theorem Valid.outcome_elect {s : Settings} (h : s.Valid) {t : Ballot.Tally} (ht : t ≠ []) :
    ∃ e, (Ballot.elect t s.tieRule).outcome = .ok e := by
  obtain ⟨rule, hr⟩ := h.exists_rule
  obtain ⟨v, hv⟩ := Ballot.exists_pick rule (Ballot.leaders_ne_nil ht)
  exact ⟨_, Ballot.elect_eq ht (Ballot.Rule.ofName_eq_ok_iff.2 (hr ▸ .named rule)) hv⟩

/-- The settings of every environment make sense, and no tie rule among them is refused. Each is
what the text of its own variable sets, or else the default, whatever the other variables are. The
texts that set a name are the name in letters of any case. -/
theorem ofEnvironment_valid :
    Valid (ofEnvironment env) ∧
      (∀ n, (ofEnvironment env).exponentLimit = n ↔
        Chosen SetsExponent Operation.defaultExponentLimit (env.get? exponentVariable) n) ∧
      (∀ name, (ofEnvironment env).tieRule = name ↔
        Chosen SetsTieRule Ballot.Rule.smallest.name (env.get? tieRuleVariable) name) ∧
      (∀ name, (ofEnvironment env).logLevel = name ↔
        Chosen SetsLevel "WARNING" (env.get? levelVariable) name) ∧
      (∀ env' : Environment,
        (env'.get? exponentVariable = env.get? exponentVariable →
          (ofEnvironment env').exponentLimit = (ofEnvironment env).exponentLimit) ∧
        (env'.get? tieRuleVariable = env.get? tieRuleVariable →
          (ofEnvironment env').tieRule = (ofEnvironment env).tieRule) ∧
        (env'.get? levelVariable = env.get? levelVariable →
          (ofEnvironment env').logLevel = (ofEnvironment env).logLevel)) ∧
      (∀ text name, SetsTieRule text name ↔ (∃ rule : Ballot.Rule, rule.name = name) ∧
        List.Forall₂ Text.SmallOf (Text.trim text) name.toList) ∧
      (∀ text name, SetsLevel text name ↔ (∃ rank, (name, rank) ∈ levels) ∧
        List.Forall₂ Text.CapitalOf (Text.trim text) name.toList) ∧
      ∀ t, t = [] ∧ (Ballot.elect t (ofEnvironment env).tieRule).outcome = .error .noCandidates ∨
        ∃ e, (Ballot.elect t (ofEnvironment env).tieRule).outcome = .ok e := by
  refine ⟨valid_ofEnvironment env, fun _ => exponentLimit_eq_iff env, fun _ => tieRule_eq_iff env,
    fun _ => logLevel_eq_iff env, fun env' => ⟨fun h => ?_, fun h => ?_, fun h => ?_⟩,
    fun _ _ => setsTieRule_iff, fun _ _ => setsLevel_iff, fun t => ?_⟩
  · exact setting_congr h _ _
  · exact setting_congr h _ _
  · exact setting_congr h _ _
  · by_cases ht : t = []
    · subst ht
      exact .inl ⟨rfl, Ballot.outcome_elect_nil _⟩
    · exact .inr ((valid_ofEnvironment env).outcome_elect ht)

/-- An environment with blanks, letters and digits of many kinds. -/
def spelledEnvironment : Environment :=
  [(exponentVariable, "\t+1_0٣\u00A0".toList), (tieRuleVariable, "\x1CFirst ".toList),
    (levelVariable, "ınfo".toList)]

theorem ofEnvironment_valid_spelled :
    ofEnvironment spelledEnvironment = ⟨103, "first", "INFO"⟩ ∧
      Valid (ofEnvironment spelledEnvironment) ∧
      Chosen SetsExponent Operation.defaultExponentLimit (some "\t+1_0٣\u00A0".toList) 103 ∧
      (ofEnvironment [(levelVariable, "ınfo".toList)]).logLevel = "INFO" := by
  have he : ofEnvironment spelledEnvironment = ⟨103, "first", "INFO"⟩ := by decide +kernel
  obtain ⟨hv, hn, -, -, ho, -⟩ := ofEnvironment_valid spelledEnvironment
  refine ⟨he, hv, (hn 103).1 (by rw [he]), ?_⟩
  rw [(ho [(levelVariable, "ınfo".toList)]).2.2 (by decide +kernel), he]

/-- An information separator is blank, but a limit with one beside it is not read. -/
theorem exponentLimit_of_separator :
    Text.trim ['\x1C', '5'] = ['5'] ∧ Numeral.SpellsUnderscored mostDigits ['5'] 5 ∧
      (ofEnvironment [(exponentVariable, ['\x1C', '5'])]).exponentLimit =
        Operation.defaultExponentLimit ∧
      (ofEnvironment [(exponentVariable, ['\x1C', '5'])]).exponentLimit ≠ 5 := by
  have h : (ofEnvironment [(exponentVariable, ['\x1C', '5'])]).exponentLimit =
      Operation.defaultExponentLimit := by decide +kernel
  refine ⟨by decide, .plain ⟨[5], .single ⟨0x30, by decide⟩, by decide, by decide⟩, h, ?_⟩
  rw [h]
  decide

end Quorum.Settings
