import Quorum.Proofs.Bundle.Reading

/-!
# Bundles from files

A file gives a bundle or a fault of documents, unless something else escapes: the path cannot be
written or holds a NUL, the file is no text, or the reader of YAML refuses something, or what is
marked as a mapping cannot be taken apart (`Escapes`). Nothing besides these escapes, and all of
them do, whatever the reader of YAML is (`load_ends`).
-/

namespace Quorum

/-- The fault is one of documents. -/
inductive Fault.OfDocument : Fault → Prop
  | document (defect : Defect) : OfDocument (.invalidDocument defect)
  | threshold (k : Int) (total : Option Int) : OfDocument (.invalidThreshold k total)
  | share (id : Int) : OfDocument (.duplicateShare id)

namespace Bundle

/-- The fault is not one of documents, and reading what is found at the path ends with it. -/
inductive Escapes (yaml : Yaml.Loader) (path : RawText) (found : Found) : Fault → Prop
  | unencodable (hp : path.isEncodable = false) : Escapes yaml path found .unencodable
  | pathHoldsNul (hp : path.isEncodable = true) (hn : '\x00' ∈ path.chars) :
    Escapes yaml path found (.refused .pathHoldsNul)
  | undecodable {bytes : List UInt8} (hp : path.isEncodable = true) (hn : '\x00' ∉ path.chars)
    (hf : found = .file bytes) (hd : Text.Utf8.decode? bytes = none) :
    Escapes yaml path found .undecodable
  | refused {text : List Char} {r : Refusal} (ht : textOf path found = .ok text)
    (hy : Format.ofPath path.chars = .yaml) (hb : (yaml text).BreaksAt (.stopped (.refused r))) :
    Escapes yaml path found (.refused r)

variable {yaml : Yaml.Loader} {path : RawText} {found : Found}

theorem outcome_load (yaml : Yaml.Loader) (digits : DigitLimit) (path : RawText) (found : Found) :
    (load yaml digits path found).outcome =
      textOf path found >>= fun text =>
        (read yaml digits (Format.ofPath path.chars) text).outcome := by
  rw [load, Journal.outcome_bind, Journal.outcome_lift]

theorem failsAs_textOf (yaml : Yaml.Loader) (path : RawText) (found : Found) :
    FailsAs (fun e => e.OfDocument ∨ Escapes yaml path found e) (textOf path found) := by
  unfold textOf
  split
  · rename_i hp
    exact .inr (.unencodable (by simpa using hp))
  rename_i hp
  have hp : path.isEncodable = true := by simpa using hp
  split
  · rename_i hn
    exact .inr (.pathHoldsNul hp (by simpa using hn))
  rename_i hn
  have hn : '\x00' ∉ path.chars := by simpa using hn
  split
  · split
    · trivial
    · rename_i hd
      exact .inr (.undecodable hp hn rfl hd)
  · exact .inl (.document _)

theorem ofDocument_of_tellsOf {key : Scalar} {e : Fault} (h : TellsOf .lifted key e) :
    e.OfDocument := by
  cases h with
  | share h =>
    rw [Fault.within_lifted]
    exact .share _
  | key h =>
    rw [Fault.within_lifted]
    exact .document _
  | tooLong h => cases h

theorem not_tooLong_lifted {fields : List (Scalar × Data)} {name : String} {e : Fault} :
    ¬ TooLong .lifted fields name e := by
  rintro ⟨s, -, h⟩
  cases h

theorem ofDocument_of_shareFault {id : Int} {d : Data} {e : Fault}
    (h : ShareFault .lifted id d e) : e.OfDocument := by
  cases h with
  | baseTooLong h => exact absurd h not_tooLong_lifted
  | valueTooLong _ _ _ h => cases h
  | _ => exact .document _

theorem ofDocument_of_firstFault {d : Data} {e : Fault} (h : FirstFault .lifted d e) :
    e.OfDocument := by
  cases h with
  | totalTooLong _ h | thresholdTooLong _ _ h => exact absurd h not_tooLong_lifted
  | range => exact .threshold _ _
  | entry _ _ _ _ h =>
    obtain ⟨before, a, after, -, -, h⟩ := h
    cases h with
    | tooLong h => cases h
    | notPositive => exact .document _
    | repeated => exact .share _
    | share _ _ _ h => exact ofDocument_of_shareFault h
  | _ => exact .document _

theorem failsAs_ofData (d : Data) : FailsAs Fault.OfDocument (ofData .lifted d).outcome := by
  cases h : (ofData .lifted d).outcome with
  | ok b => trivial
  | error e =>
    obtain ⟨e', he, rfl⟩ := outcome_ofData_eq_error_iff.1 h
    rw [Fault.within_lifted]
    exact ofDocument_of_firstFault he

theorem failsAs_readData {text : List Char} (ht : textOf path found = .ok text) :
    FailsAs (fun e => e.OfDocument ∨ Escapes yaml path found e)
      (readData yaml .lifted (Format.ofPath path.chars) text) := by
  cases h : readData yaml .lifted (Format.ofPath path.chars) text with
  | ok d => trivial
  | error e =>
    have hu := unreadable_of_readData h
    generalize hy : Format.ofPath path.chars = format at hu
    cases hu with
    | jsonSyntax hr =>
      rw [Fault.within_lifted]
      exact .inl (.document _)
    | jsonRepeat hr ht => exact .inl (ofDocument_of_tellsOf ht)
    | yamlRepeat hb ht => exact .inl (ofDocument_of_tellsOf ht)
    | yamlStop h =>
      obtain ⟨stop, hb, rfl⟩ := h
      rw [Fault.within_lifted]
      cases stop with
      | unprintable | misplaced => exact .inl (.document _)
      | refused r => exact .inr (.refused ht hy hb)

theorem failsAs_load (yaml : Yaml.Loader) (path : RawText) (found : Found) :
    FailsAs (fun e => e.OfDocument ∨ Escapes yaml path found e)
      (load yaml .lifted path found).outcome := by
  rw [outcome_load]
  have ht := failsAs_textOf yaml path found
  cases h : textOf path found with
  | ok text =>
    rw [ok_bind, outcome_read]
    exact (failsAs_readData h).bind fun d => (failsAs_ofData d).imp fun _ => .inl
  | error e => rwa [h] at ht

theorem Escapes.kind {e : Fault} (h : Escapes yaml path found e) : e.kind? = none := by
  cases h <;> rfl

theorem Escapes.outcome {e : Fault} (h : Escapes yaml path found e) :
    (load yaml .lifted path found).outcome = .error e := by
  rw [outcome_load]
  cases h with
  | unencodable hp =>
    have ht : textOf path found = .error .unencodable := if_pos (by simpa using hp)
    rw [ht, error_bind]
  | pathHoldsNul hp hn =>
    have ht : textOf path found = .error (.refused .pathHoldsNul) :=
      (if_neg (by simpa using hp)).trans (if_pos (by simpa using hn))
    rw [ht, error_bind]
  | undecodable hp hn hf hd =>
    subst hf
    rw [textOf, if_neg (by simpa using hp), if_neg (by simpa using hn), hd, error_bind]
  | refused ht hy hb =>
    have hr : readData yaml .lifted .yaml _ = .error _ :=
      mapError_eq_error_iff.2 ⟨_, hb.check, Fault.within_lifted _⟩
    rw [ht, ok_bind, hy, outcome_read_of_error hr]
    rfl

/-- What comes of a file: a bundle, a fault of documents, or one of the faults that escape; and the
faults that escape are those without a kind. -/
theorem load_ends (yaml : Yaml.Loader) (path : RawText) (found : Found) :
    ((∃ b, (load yaml .lifted path found).outcome = .ok b) ∨
      ∃ e, (load yaml .lifted path found).outcome = .error e ∧
        (e.OfDocument ∨ Escapes yaml path found e)) ∧
    ∀ e, Escapes yaml path found e ↔
      (load yaml .lifted path found).outcome = .error e ∧ e.kind? = none := by
  have hl := failsAs_load yaml path found
  refine ⟨?_, fun e => ⟨fun h => ⟨h.outcome, h.kind⟩, fun ⟨he, hk⟩ => ?_⟩⟩
  · cases h : (load yaml .lifted path found).outcome with
    | ok b => exact .inl ⟨b, rfl⟩
    | error e =>
      rw [h] at hl
      exact .inr ⟨e, rfl, hl⟩
  · rw [he] at hl
    rcases hl with hd | he
    · cases hd <;> cases hk
    · exact he

/-- A file of a single byte that starts no character, one that holds a day of a thirteenth month, and
one with a word that is marked as a mapping: all of them fail, and not with a fault of documents. -/
theorem load_of_noText_and_noDay :
    (load Yaml.loadEntries .lifted (.text "a.json".toList) (.file [0xff])).outcome =
        .error .undecodable ∧
      (load Yaml.loadEntries .lifted (.text "a.yaml".toList)
          (.file ("2024-13-45".toList.map fun c => c.toNat.toUInt8))).outcome =
        .error (.refused (.calendar .month)) ∧
      (load Yaml.loadEntries .lifted (.text "a.yaml".toList)
          (.file ("!!map foo".toList.map fun c => c.toNat.toUInt8))).outcome =
        .error (.refused .notPair) :=
  ⟨by decide, by decide +kernel, by decide +kernel⟩

end Bundle

end Quorum
