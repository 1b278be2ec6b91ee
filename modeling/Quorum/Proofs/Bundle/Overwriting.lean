import Quorum.Proofs.Bundle.Reading
import Quorum.Proofs.Json.Repeats

/-!
# No entry is overwritten

In neither format an entry takes the place of another one with the same key: a document that has a
key twice in one of its mappings, however deep, gives a fault and no bundle
(`refuses_repeated_keys`). In JSON the mapping that is closed first decides which key the fault
names, whatever follows it, unless the key has too many digits to be read (`read_longKey`).
-/

namespace Quorum.Bundle

/-- A JSON text at whose first repeated key the reader stops gives the fault of that key. -/
theorem outcome_read_of_repeated (yaml : Yaml.Loader) (digits : DigitLimit) {text : List Char}
    {key : Scalar} (h : Json.read text = .error (.repeated key)) :
    (read yaml digits .json text).outcome = .error ((repeatedKey digits key).within digits) :=
  outcome_read_of_error (mapError_eq_error_iff.2 ⟨_, h, rfl⟩)

/-- Where a mapping has a key twice, however deep it stands, there is a fault and no bundle. The
first such mapping that a JSON text closes decides: the fault tells of its first repeated key,
whatever text follows. In YAML the keys are compared as values, whatever their kinds. -/
theorem refuses_repeated_keys {yaml : Yaml.Loader}
    {HasMapping : List Char → List Yaml.Key → Prop} (hy : yaml.Builds HasMapping)
    (digits : DigitLimit) (text : List Char) :
    (∀ d entries, Json.Text text d → d.Contains (.mapping entries) →
      ¬ (entries.map Prod.fst).Nodup → ∃ e, (read yaml digits .json text).outcome = .error e) ∧
    (∀ ts rest key, Json.StartsWith text ts rest → Json.ClosesFirstRepeat ts key →
      ∃ e, (read yaml digits .json text).outcome = .error e ∧ TellsOf digits key e) ∧
    ∀ keys, HasMapping text keys → Yaml.SameKeys keys →
      ∃ e, (read yaml digits .yaml text).outcome = .error e := by
  refine ⟨fun d entries ht hc hn => ?_, fun ts rest key hs hc => ?_, fun keys hm hs => ?_⟩
  · obtain ⟨key, hr⟩ := ht.exists_read_eq hc hn
    exact ⟨_, outcome_read_of_repeated yaml digits hr⟩
  · exact ⟨_, outcome_read_of_repeated yaml digits (hs.read_eq hc), tellsOf_repeatedKey digits key⟩
  · obtain ⟨b, hb⟩ := hy.exists_breaksAt hm hs
    exact ⟨_, outcome_read_of_error (mapError_eq_error_iff.2 ⟨b, hb.check, rfl⟩)⟩

/-- A mapping with the key twice, and what cannot follow it. -/
def brokenRepeat (key : List Char) : List Char :=
  '\x7b' :: (('"' :: key ++ ['"']) ++ (':' :: '0' :: ',' ::
    (('"' :: key ++ ['"']) ++ (':' :: '0' :: '\x7d' :: "\x7d,".toList))))

theorem lexeme_zero : Json.Lexeme ['0'] (.scalar (.int 0)) :=
  Json.lexeme_of_digits ['0'] (by decide) (by decide) (by decide)

open Json (lexeme_of_plain) in
theorem exists_startsWith_brokenRepeat (key : List Char) (h : key.all Json.isPlain = true) :
    ∃ ts, Json.StartsWith (brokenRepeat key) ts "\x7d,".toList ∧
      Json.ClosesFirstRepeat ts (.text key) := by
  have hs : Json.StartsWith _ _ "\x7d,".toList :=
    .word .openMapping trivial <| .word (lexeme_of_plain key h) trivial <|
    .word .colon trivial <| .word lexeme_zero (by exact rfl) <| .word .comma trivial <|
    .word (lexeme_of_plain key h) trivial <| .word .colon trivial <|
    .word lexeme_zero (by exact rfl) <| .word .closeMapping trivial <| .nil _
  refine ⟨_, hs, Json.ClosesRepeat.first ⟨[], _, [],
    [(.text key, .scalar (.int 0))] ++ [(.text key, .scalar (.int 0))], rfl, .start, ?_,
    [.text key], [], rfl, by simp, by simp⟩ (by simp)⟩
  -- The tokens in the order in which the grammar puts them together.
  show Json.Writes (_ :: ((_ :: _ :: [_]) ++ _ :: _ :: _ :: [_]) ++ [_]) _
  exact .mapping rfl
    (.nextEntry (.firstEntry rfl rfl (.scalar rfl)) (by simp) rfl rfl rfl (.scalar rfl)) rfl

/-- A key with too many digits to be read is repeated all the same, but no share is named. -/
theorem read_longKey (yaml : Yaml.Loader) {m n : Nat} {key : List Char}
    (h : Numeral.Writes Numeral.IsDecimal 10 key n) (hp : key.all Json.isPlain = true)
    (hm : m < key.length) :
    (read yaml (.most m) .json (brokenRepeat key)).outcome =
      .error (.refused (.tooManyDigits m (some key.length))) := by
  obtain ⟨ts, hs, hc⟩ := exists_startsWith_brokenRepeat _ hp
  have hl : (Scalar.text key).TooLong (.most m) (.refused (.tooManyDigits m (some key.length))) :=
    .text (.refl _) h hm
  rw [outcome_read_of_repeated yaml _ (hs.read_eq hc), repeatedKey, readInteger_eq_error_iff.2 hl]
  rfl

/-- A YAML text in which a mapping has the same key as a number and as a truth value. -/
def mixedRepeat : List Char :=
  "a: [\x7b1: 0, true: 0\x7d]".toList

def mixedTokens : List Yaml.Token :=
  [.blockMapping, .key, .scalar true [97], .value, .flowSequence, .flowMapping, .key,
    .scalar true [49], .value, .scalar true [48], .flowEntry, .key,
    .scalar true [116, 114, 117, 101], .value, .scalar true [48], .flowMappingEnd,
    .flowSequenceEnd, .blockEnd, .streamEnd].map fun kind => ⟨kind, 0⟩

def mixedMapping : Yaml.Node :=
  .mapping 0 .mapping [(.scalar 0 .int [49], .scalar 0 .int [48]),
    (.scalar 0 .bool [116, 114, 117, 101], .scalar 0 .int [48])]

def mixedDocument : Yaml.Document :=
  ⟨.mapping 0 .mapping [(.scalar 0 .text [97], .sequence 0 .sequence [mixedMapping])], []⟩

theorem readDocument_mixedRepeat :
    Yaml.readDocument (Yaml.scan mixedRepeat) = .ok mixedDocument := by
  have hs : Yaml.scan mixedRepeat = mixedTokens := by decide +kernel
  rw [hs]
  rfl

theorem stands_mixedMapping : mixedDocument.Stands mixedMapping :=
  .item (.value .root rfl id List.mem_cons_self) rfl List.mem_cons_self fun ht => by cases ht

theorem hasMapping_mixedRepeat :
    Yaml.HasMapping mixedRepeat [.value (.int 1), .value (.bool true)] :=
  ⟨_, _, _, _, _, readDocument_mixedRepeat, stands_mixedMapping, rfl, id, by decide⟩

open Json (lexeme_of_plain) in
theorem text_nestedRepeat : Json.Text nestedRepeat (.mapping nestedEntries) := by
  have h : Json.StartsWith _ _ [] :=
    .word .openMapping trivial <| .word (lexeme_of_plain "note".toList (by decide)) trivial <|
    .word .colon trivial <| .word .openMapping trivial <|
    .word (lexeme_of_plain ['1'] (by decide)) trivial <| .word .colon trivial <|
    .word lexeme_zero (by exact rfl) <| .word .comma trivial <|
    .word (lexeme_of_plain ['1'] (by decide)) trivial <| .word .colon trivial <|
    .word lexeme_zero (by exact rfl) <| .word .closeMapping trivial <|
    .word .closeMapping trivial <| .nil []
  have h : Json.StartsWith nestedRepeat _ [] := h
  exact ⟨_, [], h, rfl, Json.scan_eq h rfl ▸ writes_nestedRepeat⟩

theorem refuses_repeated_keys_mixed :
    (∃ e, (read Yaml.loadEntries .standard .json nestedRepeat).outcome = .error e) ∧
      (∃ e, (read Yaml.loadEntries .standard .json (brokenRepeat ['1'])).outcome = .error e ∧
        TellsOf .standard (.text ['1']) e) ∧
      ∃ e, (read Yaml.loadEntries .standard .yaml mixedRepeat).outcome = .error e := by
  have hy := Yaml.builds_load 2
  obtain ⟨hn, -, -⟩ := refuses_repeated_keys hy .standard nestedRepeat
  obtain ⟨-, hb, -⟩ := refuses_repeated_keys hy .standard (brokenRepeat ['1'])
  obtain ⟨-, -, hm⟩ := refuses_repeated_keys hy .standard mixedRepeat
  obtain ⟨ts, hs, hc⟩ := exists_startsWith_brokenRepeat ['1'] (by decide)
  have hk : Yaml.SameKeys [.value (.int 1), .value (.bool true)] :=
    .inl ⟨.bool true, .int 1, .refl _, by decide⟩
  exact ⟨hn _ _ text_nestedRepeat (.entry List.mem_cons_self (.self _)) (by decide),
    hb _ _ _ hs hc, hm _ hasMapping_mixedRepeat hk⟩

/-- A number behind too many zeros to be read is the first key to be repeated, and the fault does not
tell of it as a share's. -/
theorem read_longKey_padded :
    (∃ ts rest, Json.StartsWith (brokenRepeat (Numeral.padded 4300 ['1'])) ts rest ∧
      Json.ClosesFirstRepeat ts (.text (Numeral.padded 4300 ['1']))) ∧
    (Scalar.text (Numeral.padded 4300 ['1'])).Denotes 1 ∧
    (read Yaml.loadEntries .standard .json (brokenRepeat (Numeral.padded 4300 ['1']))).outcome =
      .error (.refused (.tooManyDigits 4300 (some 4301))) := by
  have hw := Numeral.writes_padded Numeral.writes_one 4300
  have hl := Numeral.length_padded 4300 ['1']
  have hp : (Numeral.padded 4300 ['1']).all Json.isPlain = true := by
    rw [Numeral.padded, List.all_append, List.all_replicate]
    decide
  obtain ⟨ts, hs, hc⟩ := exists_startsWith_brokenRepeat _ hp
  refine ⟨⟨ts, _, hs, hc⟩, .text (.refl _) hw, ?_⟩
  have hr := read_longKey Yaml.loadEntries hw hp (m := 4300) (by rw [hl]; decide)
  rwa [hl] at hr

end Quorum.Bundle
