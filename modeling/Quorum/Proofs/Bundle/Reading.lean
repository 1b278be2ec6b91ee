import Quorum.Proofs.Bundle.Acceptance
import Quorum.Proofs.Json.Reading
import Quorum.Proofs.Yaml.Document
import Quorum.Bundle.Reading

/-!
# Bundles from texts

A text that is no data breaks off at a misplaced token, at a repeated key, or at what the reader of
YAML stops at (`readData_eq_error_iff`). A repeated share is named only where a number stands twice:
under two entries of the document, or as a repeated key of one of its mappings, however deep; and a
repeated key is not passed over (`repeated_keys_are_reported`). Of the reader of YAML nothing is
supposed but that it hands over the mappings of a document (`Yaml.Loader.Builds`).
-/

namespace Quorum.Bundle

/-- Two entries stand under the number. -/
def Twice (id : Int) (entries : List (Scalar × Data)) : Prop :=
  ∃ a b, [a, b].Sublist entries ∧ a.1.Denotes id ∧ b.1.Denotes id

/-- The fault tells of a repeated key: of a share if the key denotes a number. -/
inductive TellsOf (digits : DigitLimit) (key : Scalar) : Fault → Prop
  | share {id : Int} (h : key.ReadsAs digits id) :
    TellsOf digits key ((Fault.duplicateShare id).within digits)
  | key (h : ∀ id, ¬ key.Denotes id) :
    TellsOf digits key ((Fault.invalidDocument (.duplicateKey key)).within digits)
  | tooLong {e : Fault} (h : key.TooLong digits e) : TellsOf digits key (e.within digits)

variable {digits : DigitLimit} {yaml : Yaml.Loader} {HasMapping : List Char → List Yaml.Key → Prop}

theorem tellsOf_repeatedKey (digits : DigitLimit) (key : Scalar) :
    TellsOf digits key ((repeatedKey digits key).within digits) := by
  rcases readInteger_cases digits key with ⟨id, hid, hr⟩ | ⟨hn, hr⟩ | ⟨e, he, hr⟩
  · rw [repeatedKey, hr]
    exact .share hid
  · rw [repeatedKey, hr]
    exact .key hn
  · rw [repeatedKey, hr]
    exact .tooLong he

/-- A share is said to be repeated only if the key denotes its number. -/
theorem TellsOf.denotes {key : Scalar} {id : Int} (h : TellsOf digits key (.duplicateShare id)) :
    key.Denotes id := by
  generalize he : Fault.duplicateShare id = e at h
  cases h with
  | @share id' h =>
    obtain ⟨he, -⟩ := Fault.eq_of_within_eq he.symm nofun
    cases he
    exact h.1
  | key h =>
    obtain ⟨he, -⟩ := Fault.eq_of_within_eq he.symm nofun
    cases he
  | tooLong h =>
    obtain ⟨he, -⟩ := Fault.eq_of_within_eq he.symm nofun
    subst he
    cases h

/-- Data is said to repeat a share only if two of its entries stand under the number. -/
theorem twice_of_firstFault {d : Data} {id : Int} (h : FirstFault .lifted d (.duplicateShare id)) :
    ∃ entries, d = .mapping entries ∧ Twice id entries := by
  cases h with
  | totalTooLong _ h | thresholdTooLong _ _ h =>
    obtain ⟨s, -, h⟩ := h
    cases h
  | @entry entries _ _ _ _ hk hn ht hr h =>
    obtain ⟨before, a, after, rfl, -, h⟩ := h
    refine ⟨_, rfl, ?_⟩
    cases h with
    | @repeated key d _ hk h₁ h =>
      obtain ⟨b, hb, hd⟩ := h
      refine ⟨b, (key, d), ?_, hd, hk.1⟩
      exact (List.singleton_sublist.2 hb).append (.cons_cons _ (List.nil_sublist after))
    | tooLong h => cases h
    | share _ _ _ h =>
      cases h with
      | baseTooLong h =>
        obtain ⟨s, -, h⟩ := h
        cases h
      | valueTooLong _ _ _ h => cases h

/-! ## Texts -/

/-- A mapping of the text, however deep it stands, has the key for the second time. The mappings of
a YAML text are those that `HasMapping` is true of. -/
def HasRepeat (HasMapping : List Char → List Yaml.Key → Prop) (format : Format) (text : List Char)
    (key : Scalar) : Prop :=
  match format with
  | .json => Json.HasRepeat text key
  | .yaml => ∃ keys, HasMapping text keys ∧ Repeats Scalar.same (Yaml.Key.values keys) key

/-- What is wrong with the text is something at which its reader stops, and no repeated key. -/
def OfYaml (yaml : Yaml.Loader) (digits : DigitLimit) (text : List Char) (e : Fault) : Prop :=
  ∃ stop, (yaml text).BreaksAt (.stopped stop) ∧ (stopFault stop).within digits = e

/-- What a text can be given up for before there is any data. -/
inductive Unreadable (yaml : Yaml.Loader) (digits : DigitLimit) (text : List Char) :
    Format → Fault → Prop
  | jsonSyntax {rest : List Char} (h : Json.read text = .error (.misplaced rest)) :
    Unreadable yaml digits text .json ((jsonFault digits text (.misplaced rest)).within digits)
  | jsonRepeat {key : Scalar} {e : Fault} (h : Json.read text = .error (.repeated key))
    (he : TellsOf digits key e) : Unreadable yaml digits text .json e
  | yamlStop {e : Fault} (h : OfYaml yaml digits text e) : Unreadable yaml digits text .yaml e
  | yamlRepeat {key : Scalar} {e : Fault} (h : (yaml text).BreaksAt (.repeated key))
    (he : TellsOf digits key e) : Unreadable yaml digits text .yaml e

theorem unreadable_of_readData {format : Format} {text : List Char} {e : Fault}
    (h : readData yaml digits format text = .error e) : Unreadable yaml digits text format e := by
  cases format with
  | json =>
    obtain ⟨stop, hr, rfl⟩ := mapError_eq_error_iff.1 h
    cases stop with
    | misplaced rest => exact .jsonSyntax hr
    | repeated key => exact .jsonRepeat hr (tellsOf_repeatedKey digits key)
  | yaml =>
    obtain ⟨b, hr, rfl⟩ := mapError_eq_error_iff.1 h
    have hb := Yaml.Loading.check_eq_error_iff.1 hr
    cases b with
    | repeated key => exact .yamlRepeat hb (tellsOf_repeatedKey digits key)
    | stopped stop => exact .yamlStop ⟨stop, hb, rfl⟩

theorem outcome_read (yaml : Yaml.Loader) (digits : DigitLimit) (format : Format)
    (text : List Char) : (read yaml digits format text).outcome =
      readData yaml digits format text >>= fun d => (ofData .lifted d).outcome := by
  rw [read, Journal.outcome_bind, Journal.outcome_lift]

theorem outcome_read_of_error {format : Format} {text : List Char} {e : Fault}
    (h : readData yaml digits format text = .error e) :
    (read yaml digits format text).outcome = .error e := by
  rw [outcome_read, h, error_bind]

section

variable (hy : yaml.Builds HasMapping)
include hy

theorem hasRepeat_of_breaksAt {text : List Char} {key : Scalar}
    (h : (yaml text).BreaksAt (.repeated key)) : HasRepeat HasMapping .yaml text key := by
  obtain ⟨keys, hm, hr⟩ := h.repeats
  exact ⟨keys, hy.hasMapping hm, hr⟩

/-- Where a key is repeated there is no data. -/
theorem HasRepeat.readData {format : Format} {text : List Char} {key : Scalar}
    (h : HasRepeat HasMapping format text key) :
    ∃ e, Bundle.readData yaml digits format text = .error e := by
  cases format with
  | json =>
    obtain ⟨key', he⟩ := Json.HasRepeat.read h
    exact ⟨_, mapError_eq_error_iff.2 ⟨_, he, rfl⟩⟩
  | yaml =>
    obtain ⟨keys, hm, hr⟩ := h
    obtain ⟨b, hb⟩ := hy.exists_breaksAt hm (.inl ⟨key, hr⟩)
    exact ⟨_, mapError_eq_error_iff.2 ⟨b, hb.check, rfl⟩⟩

end

/-- A share is said to be repeated only where two entries of the document stand under its number, or
where a mapping of the document, however deep it stands, repeats a key that denotes the number. And
a key that is repeated in a mapping is never passed over: the fault tells of such a key, as a
share's if it denotes a number, unless the reader of a YAML text stops at something else. -/
theorem repeated_keys_are_reported (hy : yaml.Builds HasMapping) (digits : DigitLimit)
    (format : Format) (text : List Char) :
    (∀ id, (read yaml digits format text).outcome = .error (.duplicateShare id) →
      (∃ entries, readData yaml digits format text = .ok (.mapping entries) ∧ Twice id entries) ∨
        ∃ key, HasRepeat HasMapping format text key ∧ key.Denotes id) ∧
    ∀ key, HasRepeat HasMapping format text key →
      ∃ e, (read yaml digits format text).outcome = .error e ∧
        ((∃ key', HasRepeat HasMapping format text key' ∧ TellsOf digits key' e) ∨
          format = .yaml ∧ OfYaml yaml digits text e) := by
  constructor
  · intro id h
    rw [outcome_read] at h
    rcases bind_eq_error_iff.1 h with hr | ⟨d, hd, h⟩
    · have hu := unreadable_of_readData hr
      generalize he : Fault.duplicateShare id = e at hu
      cases hu with
      | jsonSyntax =>
        obtain ⟨he, -⟩ := Fault.eq_of_within_eq he.symm nofun
        cases he
      | jsonRepeat hj ht =>
        subst he
        exact .inr ⟨_, Json.hasRepeat_of_read hj, ht.denotes⟩
      | yamlStop h =>
        obtain ⟨stop, -, hs⟩ := h
        obtain ⟨he, -⟩ := Fault.eq_of_within_eq (hs.trans he.symm) nofun
        cases stop <;> cases he
      | yamlRepeat hb ht =>
        subst he
        exact .inr ⟨_, hasRepeat_of_breaksAt hy hb, ht.denotes⟩
    · obtain ⟨e, he, hw⟩ := outcome_ofData_eq_error_iff.1 h
      rw [Fault.within_lifted] at hw
      obtain ⟨entries, rfl, ht⟩ := twice_of_firstFault (hw ▸ he)
      exact .inl ⟨entries, hd, ht⟩
  · intro key h
    obtain ⟨e, he⟩ : ∃ e, readData yaml digits format text = .error e := h.readData hy
    refine ⟨e, outcome_read_of_error he, ?_⟩
    have hu := unreadable_of_readData he
    cases hu with
    | jsonSyntax hr =>
      obtain ⟨key', hk⟩ := Json.HasRepeat.read h
      cases hr.symm.trans hk
    | jsonRepeat hr ht => exact .inl ⟨_, Json.hasRepeat_of_read hr, ht⟩
    | yamlStop h => exact .inr ⟨rfl, h⟩
    | yamlRepeat hb ht => exact .inl ⟨_, hasRepeat_of_breaksAt hy hb, ht⟩

/-- A document without shares, whose only repeated key stands in a section that is passed over. -/
def nestedRepeat : List Char :=
  "\x7b\"note\":\x7b\"1\":0,\"1\":0\x7d\x7d".toList

/-- The entries of `nestedRepeat`. -/
def nestedEntries : List (Scalar × Data) :=
  [(.text "note".toList,
    .mapping ([(.text ['1'], .scalar (.int 0))] ++ [(.text ['1'], .scalar (.int 0))]))]

theorem writes_nestedRepeat :
    Json.Writes (Json.scan nestedRepeat) (.value (.mapping nestedEntries)) := by
  have hs : Json.scan nestedRepeat =
      ⟨.openMapping, nestedRepeat⟩ ::
        (⟨.text (.text "note".toList), nestedRepeat.drop 1⟩ :: ⟨.colon, nestedRepeat.drop 7⟩ ::
          (⟨.openMapping, nestedRepeat.drop 8⟩ ::
            (⟨.text (.text ['1']), nestedRepeat.drop 9⟩ :: ⟨.colon, nestedRepeat.drop 12⟩ ::
              [⟨.scalar (.int 0), nestedRepeat.drop 13⟩] ++
            ⟨.comma, nestedRepeat.drop 14⟩ ::
              ⟨.text (.text ['1']), nestedRepeat.drop 15⟩ :: ⟨.colon, nestedRepeat.drop 18⟩ ::
              [⟨.scalar (.int 0), nestedRepeat.drop 19⟩]) ++
          [⟨.closeMapping, nestedRepeat.drop 20⟩])) ++
        [⟨.closeMapping, nestedRepeat.drop 21⟩] := by
    decide
  rw [hs]
  refine .mapping rfl (.firstEntry rfl rfl (.mapping rfl ?_ rfl)) rfl
  exact .nextEntry (.firstEntry rfl rfl (.scalar rfl)) (by simp) rfl rfl rfl (.scalar rfl)

/-- Nothing but the section stands in the document, and yet a share is said to be repeated. -/
theorem duplicateShare_of_nestedRepeat :
    (read Yaml.loadEntries .standard .json nestedRepeat).outcome = .error (.duplicateShare 1) ∧
      Json.Writes (Json.scan nestedRepeat) (.value (.mapping nestedEntries)) ∧
      ¬ Twice 1 nestedEntries := by
  refine ⟨by decide, writes_nestedRepeat, ?_⟩
  rintro ⟨a, b, hs, -, -⟩
  exact absurd hs.length_le (by simp [nestedEntries])

theorem repeated_keys_are_reported_nested :
    (∃ key, HasRepeat Yaml.HasMapping .json nestedRepeat key ∧ key.Denotes 1) ∧
      ∃ e, (read Yaml.loadEntries .standard .json nestedRepeat).outcome = .error e := by
  obtain ⟨h, h'⟩ :=
    repeated_keys_are_reported (Yaml.builds_load 2) .standard .json nestedRepeat
  rcases h 1 (by decide) with ⟨entries, hd, -⟩ | ⟨key, hr, hd⟩
  · rw [show readData (Yaml.load 2) .standard .json nestedRepeat = .error (.duplicateShare 1) by
      rfl] at hd
    cases hd
  · obtain ⟨e, he, -⟩ := h' key hr
    exact ⟨⟨key, hr, hd⟩, e, he⟩

end Quorum.Bundle
