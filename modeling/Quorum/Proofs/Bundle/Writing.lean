import Quorum.Proofs.Bundle.Reading
import Quorum.Proofs.Json.Text
import Quorum.Proofs.Numeral.Decimal

/-!
# Bundles as JSON

A bundle is written as a mapping with the section of its counts and an entry for each share, in any
order (`Renders`). Every JSON text of such data, whatever its white space and its escapes, is read
as the bundle with its shares by number (`read_of_renders`).
-/

namespace Quorum.Bundle

/-- The entry of a share: under the decimal notation of its number, its base and its value in either
order. -/
structure IsEntry (e : Scalar × Data) (s : Share) : Prop where
  key : e.1 = .text (Numeral.decimal s.id)
  exists_fields : ∃ fields text, e.2 = .mapping fields ∧ s.raw = .text text ∧
    fields.Perm [(.text "base".toList, .scalar (.int s.base)),
      (.text "value".toList, .scalar (.text text))]

/-- The data writes the bundle: the section of its counts, and the entries of its shares, in any
order. -/
def Renders (b : Bundle) (d : Data) : Prop :=
  ∃ doc counts entries, d = .mapping doc ∧
    doc.Perm ((keysSection, .mapping counts) :: entries) ∧
    counts.Perm [(.text "n".toList, .scalar (.int b.total)),
      (.text "k".toList, .scalar (.int b.threshold))] ∧
    List.Forall₂ IsEntry entries b.shares

/-! ## Fields -/

theorem denotes_decimal {id : Int} (h : 1 ≤ id) :
    (Scalar.text (Numeral.decimal id)).Denotes id := by
  obtain ⟨n, rfl⟩ := Int.eq_ofNat_of_zero_le (le_trans (by decide) h)
  have hd : Numeral.decimal n = Numeral.natDigits n := if_neg (not_lt.2 (Int.natCast_nonneg n))
  rw [hd]
  exact .text ⟨[], [], nofun, nofun, by simp⟩ (Numeral.writes_natDigits n)

/-- Of two fields under different names, in either order, each is found under its name. -/
theorem find?_of_perm_pair {fields : List (Scalar × Data)} {a b : String} {v w : Data}
    (h : fields.Perm [(.text a.toList, v), (.text b.toList, w)]) (hab : a.toList ≠ b.toList) :
    Data.find? a fields = some v ∧ Data.find? b fields = some w := by
  have hu : ∀ {n : String} {x : Data}, (Scalar.text n.toList, x) ∈ fields →
      (∀ e ∈ [(Scalar.text a.toList, v), (Scalar.text b.toList, w)],
        e.1 = .text n.toList → e.2 = x) → Data.find? n fields = some x :=
    fun hm hx => find?_of_unique hm fun e he => hx e (h.subset he)
  constructor
  · refine hu (h.mem_iff.2 (by simp)) ?_
    simp [hab.symm]
  · refine hu (h.mem_iff.2 (by simp)) ?_
    simp [hab]

theorem IsEntry.holds {e : Scalar × Data} {s : Share} (h : IsEntry e s) :
    Holds .lifted e.2 s := by
  obtain ⟨-, fields, text, he, ht, hp⟩ := h
  obtain ⟨hb, hv⟩ := find?_of_perm_pair hp (by decide)
  exact ⟨fields, he, ⟨_, hb, readsAs_int _⟩, _, hv, ht ▸ .text text, nofun⟩

theorem holds_of_entries {entries : List (Scalar × Data)} {shares : List Share}
    (h : List.Forall₂ IsEntry entries shares) (h₁ : ∀ s ∈ shares, 1 ≤ s.id) :
    List.Forall₂ (fun e s => e.1.ReadsAs .lifted s.id ∧ Holds .lifted e.2 s) entries shares := by
  induction h with
  | nil => exact .nil
  | cons he _ ih =>
    obtain ⟨hs, hr⟩ := List.forall_mem_cons.1 h₁
    exact .cons ⟨⟨he.key ▸ denotes_decimal hs, nofun⟩, he.holds⟩ (ih hr)

/-! ## Keys -/

/-- A mapping of values without repeated keys has none itself if its keys are different texts. -/
theorem firstRepeat?_of_perm {fields fields' : List (Scalar × Data)} (h : fields.Perm fields')
    (hv : ∀ e ∈ fields', e.2.firstRepeat? = none) (ht : ∀ e ∈ fields', e.1.IsText)
    (hn : (fields'.map Prod.fst).Nodup) : (Data.mapping fields).firstRepeat? = none := by
  refine Data.firstRepeat?_mapping_eq_none_iff.2 ⟨fun e he => hv e (h.subset he), ?_⟩
  refine (firstRepeat?_eq_none_iff_nodup fun k hk => ?_).2 ((h.map Prod.fst).nodup_iff.2 hn)
  obtain ⟨e, he, rfl⟩ := List.mem_map.1 hk
  exact ht e (h.subset he)

theorem firstRepeat?_of_perm_pair {fields : List (Scalar × Data)} {a b : List Char} {v w : Scalar}
    (h : fields.Perm [(.text a, .scalar v), (.text b, .scalar w)]) (hab : a ≠ b) :
    (Data.mapping fields).firstRepeat? = none := by
  refine firstRepeat?_of_perm h ?_ ?_ (by simpa using hab)
  · simp [Data.firstRepeat?]
  · simp [Scalar.IsText.text]

theorem firstRepeat?_of_entries {entries : List (Scalar × Data)} {shares : List Share}
    (h : List.Forall₂ IsEntry entries shares) :
    ∀ e ∈ entries, e.1.IsText ∧ e.2.firstRepeat? = none := by
  induction h with
  | nil => exact nofun
  | cons he _ ih =>
    obtain ⟨hk, fields, text, hf, -, hp⟩ := he
    refine List.forall_mem_cons.2 ⟨⟨hk ▸ .text _, ?_⟩, ih⟩
    rw [hf]
    exact firstRepeat?_of_perm_pair hp (by decide)

theorem keys_of_entries {entries : List (Scalar × Data)} {shares : List Share}
    (h : List.Forall₂ IsEntry entries shares) :
    entries.map Prod.fst = shares.map fun s => .text (Numeral.decimal s.id) := by
  induction h with
  | nil => rfl
  | cons he _ ih => rw [List.map_cons, List.map_cons, he.key, ih]

/-- The keys of the entries are different from each other and from that of the section. -/
theorem nodup_keys {shares : List Share} (hn : (shares.map Share.id).Nodup)
    (h₁ : ∀ s ∈ shares, 1 ≤ s.id) :
    (keysSection :: shares.map fun s => .text (Numeral.decimal s.id)).Nodup := by
  have hd : ∀ s ∈ shares, (Scalar.text (Numeral.decimal s.id)).Denotes s.id :=
    fun s hs => denotes_decimal (h₁ s hs)
  rw [List.nodup_cons]
  constructor
  · intro hm
    obtain ⟨s, hs, he⟩ := List.mem_map.1 hm
    exact ne_keysSection_of_some (integerOf?_eq_some_iff.2 (hd s hs)) he
  · refine List.pairwise_map.2 ((List.pairwise_map.1 hn).imp_of_mem fun hs ht hne he => hne ?_)
    exact denotes_unique (he ▸ hd _ hs) (hd _ ht)

namespace Renders

variable {b : Bundle} {d : Data}

theorem firstRepeat?_eq_none (h : b.Renders d) (hn : (b.shares.map Share.id).Nodup)
    (h₁ : ∀ s ∈ b.shares, 1 ≤ s.id) : d.firstRepeat? = none := by
  obtain ⟨doc, counts, entries, rfl, hp, hc, hf⟩ := h
  have hcounts : (Data.mapping counts).firstRepeat? = none :=
    firstRepeat?_of_perm_pair hc (by decide)
  have hes := firstRepeat?_of_entries hf
  refine firstRepeat?_of_perm hp ?_ ?_ ?_
  · exact List.forall_mem_cons.2 ⟨hcounts, fun e he => (hes e he).2⟩
  · exact List.forall_mem_cons.2 ⟨.text _, fun e he => (hes e he).1⟩
  · rw [List.map_cons, keys_of_entries hf]
    exact nodup_keys hn h₁

theorem exists_lists (h : b.Renders d) (hn : (b.shares.map Share.id).Nodup)
    (h₁ : ∀ s ∈ b.shares, 1 ≤ s.id) (hr : ∀ s ∈ b.shares, 2 ≤ s.base ∧ s.base ≤ 36) :
    ∃ doc, d = .mapping doc ∧ Lists .lifted b.total b.threshold b.shares doc := by
  obtain ⟨doc, counts, entries, rfl, hp, hc, hf⟩ := h
  obtain ⟨htotal, hthreshold⟩ := find?_of_perm_pair hc (by decide)
  refine ⟨doc, rfl, ⟨counts, entries, [], ?_, ⟨_, htotal, readsAs_int _⟩,
    ⟨_, hthreshold, readsAs_int _⟩, holds_of_entries hf h₁, nofun⟩, hn, h₁, hr⟩
  rwa [List.append_nil]

end Renders

/-- A JSON text that writes a bundle is read as the bundle, its shares by ascending number. -/
theorem read_of_renders {b : Bundle} {d : Data} {text : List Char} (ht : Json.Text text d)
    (hd : b.Renders d) (hk : 1 ≤ b.threshold ∧ b.threshold ≤ b.total)
    (hn : (b.shares.map Share.id).Nodup) (h₁ : ∀ s ∈ b.shares, 1 ≤ s.id)
    (hr : ∀ s ∈ b.shares, 2 ≤ s.base ∧ s.base ≤ 36) (yaml : Yaml.Loader) (digits : DigitLimit) :
    ∃ shares, (read yaml digits .json text).outcome = .ok ⟨b.threshold, b.total, shares⟩ ∧
      shares.Perm b.shares ∧ shares.Pairwise fun s t => s.id < t.id := by
  have hj : readData yaml digits .json text = .ok d := by
    rw [readData, ht.read, hd.firstRepeat?_eq_none hn h₁]
    rfl
  obtain ⟨doc, rfl, hl⟩ := hd.exists_lists hn h₁ hr
  have ho := hl.outcome_ofData hk.1 hk.2
  refine ⟨byNumber b.shares, ?_, sortBy_perm Share.id b.shares, (wellFormed_of_ofData ho).ascending⟩
  rw [outcome_read, hj, ok_bind, ho]

/-- A document in the opposite order, with white space in it. The number of its share and the value
are escaped. -/
def escapedText : List Char :=
  (" \x7b\"\\u0031\"\t:\x7b\"value\":\"\\ud83d\\uDE00\\\"\\u0000é\",\"base\": 10\x7d\n," ++
    "\"keys\":\x7b\"k\":1,\"n\":1\x7d\x7d ").toList

def escapedShare : Share :=
  ⟨1, 10, .text "😀\"\x00é".toList⟩

def escapedData : Data :=
  .mapping [(.text ['1'], .mapping [(.text "value".toList, .scalar (.text escapedShare.value)),
      (.text "base".toList, .scalar (.int 10))]),
    (keysSection, .mapping [(.text ['k'], .scalar (.int 1)), (.text ['n'], .scalar (.int 1))])]

theorem renders_escapedData : Renders ⟨1, 1, [escapedShare]⟩ escapedData :=
  ⟨_, _, _, rfl, .swap _ _ [], .swap _ _ [], .cons ⟨by decide, _, _, rfl, rfl, .swap _ _ []⟩ .nil⟩

open Json (Lexeme SpellsCodes) in
theorem text_escapedText : Json.Text escapedText escapedData := by
  have hw : ∀ {n text}, text ≠ [] → text.all (Numeral.isDigitOf (16 : Nat)) = true →
      Numeral.magnitude 16 text = n → Numeral.Writes Numeral.IsDigit 16 text n :=
    fun hn hd hm => Numeral.writes_iff.2 ⟨⟨hn, List.all_eq_true.1 hd⟩, hm⟩
  have hone : Lexeme ['1'] (.scalar (.int 1)) :=
    Json.lexeme_of_digits ['1'] (by decide) (by decide) (by decide)
  have hten : Lexeme ['1', '0'] (.scalar (.int 10)) :=
    Json.lexeme_of_digits ['1', '0'] (by decide) (by decide) (by decide)
  have hid : SpellsCodes "\\u0031".toList [0x31] :=
    .unit (hw (by decide) (by decide) (by decide)) .nil fun h => absurd h.1 (by decide)
  have hend : SpellsCodes "\\u0000é".toList [0, 0xE9] :=
    .unit (hw (by decide) (by decide) (by decide)) (Json.spellsCodes_of_plain (by decide))
      fun h => absurd h.1 (by decide)
  have hvalue : SpellsCodes ("\\ud83d\\uDE00\\\"".toList ++ "\\u0000é".toList)
      (Json.pairCode 0xD83D 0xDE00 :: 0x22 :: [0, 0xE9]) :=
    .pair (hw (by decide) (by decide) (by decide)) ⟨by decide, by decide⟩
      (hw (by decide) (by decide) (by decide)) ⟨by decide, by decide⟩ (.letter .quote hend)
  have hplain := Json.lexeme_of_plain
  have h : Json.StartsWith _ _ [' '] :=
    @Json.StartsWith.cons [' '] _ _ _ _ _ rfl .openMapping trivial <| .word (.text hid) trivial <|
    @Json.StartsWith.cons ['\t'] _ _ _ _ _ rfl .colon trivial <| .word .openMapping trivial <|
    .word (hplain "value".toList (by decide)) trivial <| .word .colon trivial <|
    .word (.text hvalue) trivial <| .word .comma trivial <|
    .word (hplain "base".toList (by decide)) trivial <| .word .colon trivial <|
    @Json.StartsWith.cons [' '] _ _ _ _ _ rfl hten (by exact rfl) <| .word .closeMapping trivial <|
    @Json.StartsWith.cons ['\n'] _ _ _ _ _ rfl .comma trivial <|
    .word (hplain "keys".toList (by decide)) trivial <| .word .colon trivial <|
    .word .openMapping trivial <| .word (hplain "k".toList (by decide)) trivial <|
    .word .colon trivial <| .word hone (by exact rfl) <| .word .comma trivial <|
    .word (hplain "n".toList (by decide)) trivial <| .word .colon trivial <|
    .word hone (by exact rfl) <| .word .closeMapping trivial <| .word .closeMapping trivial <|
    .nil [' ']
  exact h.text rfl (by rfl)

theorem read_of_renders_escaped :
    (read Yaml.loadEntries .standard .json escapedText).outcome = .ok ⟨1, 1, [escapedShare]⟩ := by
  obtain ⟨shares, hr, hp, -⟩ := read_of_renders text_escapedText renders_escapedData (by decide)
    (by decide) (by decide) (by decide) Yaml.loadEntries .standard
  rwa [List.perm_singleton.1 hp] at hr

end Quorum.Bundle
