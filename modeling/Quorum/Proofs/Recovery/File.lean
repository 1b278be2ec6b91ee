import Quorum.Bundle.Reading
import Quorum.Proofs.Bundle.Entries
import Quorum.Recovery

/-!
# Recovering the secret in a file

Loading a bundle from a file and recovering its secret, under a limit on digits (`ofFile`). The limit
only matters for what is wrong: a result, or a fault of the recovery itself, is the same where the
limit is lifted (`persists_ofFile`). For that it is enough that a fault under the limit is either the
fault itself or `Foreign`.
-/

namespace Quorum

/-- The fault is none of the recovery itself. -/
def Fault.Foreign (e : Fault) : Prop :=
  e.kind? = none

theorem Fault.foreign_or_within_eq (digits : DigitLimit) (e : Fault) :
    (e.within digits).Foreign ∨ e.within digits = e := by
  by_cases hf : e.Fits digits
  · exact .inr (within_of_fits hf)
  · obtain ⟨m, -, hw⟩ := exists_within_of_not_fits hf
    exact .inl (hw ▸ rfl)

namespace Bundle

theorem foreign_or_repeatedKey_eq (digits : DigitLimit) (key : Scalar) :
    (repeatedKey digits key).Foreign ∨ repeatedKey digits key = repeatedKey .lifted key := by
  rcases readInteger_cases digits key with ⟨v, hv, hr⟩ | ⟨hn, hr⟩ | ⟨e, he, hr⟩
  · have hl : readInteger .lifted key = .ok (some v) := readInteger_eq_some_iff.2 ⟨hv.1, nofun⟩
    rw [repeatedKey, repeatedKey, hr, hl]
    exact .inr rfl
  · rw [repeatedKey, repeatedKey, hr, readInteger_eq_none_iff.2 hn]
    exact .inr rfl
  · rw [repeatedKey, hr]
    cases he
    exact .inl rfl

theorem foreign_or_within_repeatedKey_eq (digits : DigitLimit) (key : Scalar) :
    ((repeatedKey digits key).within digits).Foreign ∨
      (repeatedKey digits key).within digits = (repeatedKey .lifted key).within .lifted := by
  rw [Fault.within_lifted]
  rcases Fault.foreign_or_within_eq digits (repeatedKey digits key) with hf | he
  · exact .inl hf
  · rw [he]
    exact foreign_or_repeatedKey_eq digits key

theorem persists_readData (yaml : Yaml.Loader) (digits : DigitLimit) (format : Format)
    (text : List Char) : Persists Fault.Foreign (readData yaml digits format text)
      (readData yaml .lifted format text) := by
  cases format with
  | json =>
    refine Persists.of_mapError (fun stop => ?_) (Json.read text)
    cases stop with
    | repeated key => exact foreign_or_within_repeatedKey_eq digits key
    | misplaced rest =>
      rw [Fault.within_lifted]
      exact Fault.foreign_or_within_eq digits _
  | yaml =>
    refine Persists.of_mapError (fun stop => ?_) (yaml text).check
    cases stop with
    | repeated key => exact foreign_or_within_repeatedKey_eq digits key
    | stopped stop =>
      rw [Fault.within_lifted]
      exact Fault.foreign_or_within_eq digits _

theorem persists_load (yaml : Yaml.Loader) (digits : DigitLimit) (path : RawText) (found : Found) :
    Persists Fault.Foreign (load yaml digits path found).outcome
      (load yaml .lifted path found).outcome := by
  simp only [load, read, Journal.outcome_bind, Journal.outcome_lift]
  exact (Persists.refl _ _).bind fun text =>
    (persists_readData yaml digits _ text).bind fun d => .refl _ _

end Bundle

namespace Recovery

/-- Recovers the secret of the bundle in a file, under a limit on digits. -/
def ofFile (yaml : Yaml.Loader) (digits : DigitLimit) (settings : Settings) (path : List Char)
    (bytes : List UInt8) : Journal Recovery := do
  let bundle ← Bundle.load yaml digits (Path.tidy path) (.file bytes)
  (ofBundle settings bundle).within digits

/-- A recovery looks at the exponent limit and the tie rule, and at no log level. -/
theorem ofFile_congr {s s' : Settings} (he : s'.exponentLimit = s.exponentLimit)
    (ht : s'.tieRule = s.tieRule) (yaml : Yaml.Loader) (digits : DigitLimit) :
    ofFile yaml digits s' = ofFile yaml digits s := by
  have hb : ofBundle s' = ofBundle s := by
    funext b
    rw [ofBundle, ofBundle, he, ht]
  funext path bytes
  rw [ofFile, ofFile, hb]

/-- What a recovery comes to under a limit on digits it comes to without one, unless what is wrong is
none of its own faults. -/
theorem persists_ofFile (yaml : Yaml.Loader) (digits : DigitLimit) (settings : Settings)
    (path : List Char) (bytes : List UInt8) :
    Persists Fault.Foreign (ofFile yaml digits settings path bytes).outcome
      (ofFile yaml .lifted settings path bytes).outcome := by
  simp only [ofFile, Journal.outcome_bind, Journal.outcome_within, mapError_within_lifted]
  refine (Bundle.persists_load yaml digits _ _).bind fun b => ?_
  have hw := Persists.of_mapError (g := id) (Fault.foreign_or_within_eq digits)
    (ofBundle settings b).outcome
  rwa [mapError_id] at hw

end Recovery

end Quorum
