import Quorum.Data
import Quorum.Repeat

/-!
# Repeated keys in data

Data stands inside other data, however deep (`Data.Contains`). `Data.firstRepeat?` is the repeated
key that is met first if each mapping is looked through behind what stands in it; where there is
none, no mapping inside the data has a key twice (`Contains.firstRepeat?_eq_none`).
-/

namespace Quorum

namespace Scalar

/-- The scalar is a text, be it with code points that are no characters. -/
inductive IsText : Scalar → Prop
  | text (s : List Char) : IsText (.text s)
  | unpaired (codes : List Nat) : IsText (.unpaired codes)

/-- Texts are the same key if they are equal. -/
theorem IsText.same_iff {a b : Scalar} (ha : a.IsText) (hb : b.IsText) :
    a.same b = true ↔ a = b := by
  cases ha <;> cases hb <;> simp [same, integer?]

theorem isText_ofCodes (codes : List Nat) : (ofCodes codes).IsText := by
  unfold ofCodes
  split
  · exact .text _
  · exact .unpaired _

/-- The code points of characters make up the text with these. -/
@[simp] theorem ofCodes_map_toNat (s : List Char) : ofCodes (s.map Char.toNat) = .text s := by
  have hv : (s.map Char.toNat).all (fun n => n.isValidChar) = true := by
    simpa [List.all_eq_true] using fun c _ => c.valid
  rw [ofCodes, if_pos hv]
  simp [Function.comp_def]

end Scalar

/-- The key occurs for the second time, and none occurs twice before. -/
def FirstTwice (keys : List Scalar) (key : Scalar) : Prop :=
  ∃ before after, keys = before ++ key :: after ∧ before.Nodup ∧ key ∈ before

section

variable {keys : List Scalar} (h : ∀ k ∈ keys, k.IsText)
include h

theorem pairwise_same_iff_nodup :
    (keys.Pairwise fun b a => a.same b = false) ↔ keys.Nodup := by
  have hs : ∀ {a b}, a ∈ keys → b ∈ keys → (b.same a = false ↔ a ≠ b) := fun ha hb => by
    rw [← Bool.not_eq_true, (h _ hb).same_iff (h _ ha), eq_comm]
  exact ⟨fun hp => hp.imp_of_mem fun ha hb => (hs ha hb).1,
    fun hn => List.Pairwise.imp_of_mem (fun ha hb => (hs ha hb).2) hn⟩

/-- Among texts no key is repeated if none occurs twice. -/
theorem firstRepeat?_eq_none_iff_nodup :
    firstRepeat? Scalar.same [] keys = none ↔ keys.Nodup := by
  rw [firstRepeat?_eq_none_iff, pairwise_same_iff_nodup h]

/-- Among texts the first one that is repeated is the first to occur for the second time. -/
theorem firstRepeat?_eq_some_iff_firstTwice {key : Scalar} :
    firstRepeat? Scalar.same [] keys = some key ↔ FirstTwice keys key := by
  rw [firstRepeat?_eq_some_iff]
  refine exists_congr fun before => exists_congr fun after => and_congr_right fun he => ?_
  have hb : ∀ k ∈ before, k.IsText := fun k hk => h k (he ▸ List.mem_append_left _ hk)
  have hk : key.IsText := h key (he ▸ List.mem_append_right _ List.mem_cons_self)
  refine and_congr (pairwise_same_iff_nodup hb) ?_
  constructor
  · rintro ⟨b, hm, hs⟩
    rwa [(hk.same_iff (hb b hm)).1 hs]
  · exact fun hm => ⟨key, hm, (hk.same_iff hk).2 rfl⟩

end

namespace Data

/-- The second is the first or stands in it, however deep. -/
inductive Contains : Data → Data → Prop
  | self (d : Data) : Contains d d
  | item {items : List Data} {d v : Data} (hv : v ∈ items) (h : Contains v d) :
    Contains (.list items) d
  | entry {entries : List (Scalar × Data)} {d : Data} {e : Scalar × Data} (he : e ∈ entries)
    (h : Contains e.2 d) : Contains (.mapping entries) d

/-- All keys in the data, however deep, are texts. -/
def TextKeys (d : Data) : Prop :=
  ∀ entries, d.Contains (.mapping entries) → ∀ k ∈ entries.map Prod.fst, k.IsText

mutual

/-- The first repeated key; a mapping's own keys come behind those of the mappings that stand in
it. -/
def firstRepeat? : Data → Option Scalar
  | .scalar _ => none
  | .list items => firstOfItems? items
  | .mapping entries =>
    (firstOfEntries? entries).or (Quorum.firstRepeat? Scalar.same [] (entries.map Prod.fst))

/-- The first repeated key in the items of a list. -/
def firstOfItems? : List Data → Option Scalar
  | [] => none
  | v :: r => v.firstRepeat?.or (firstOfItems? r)

/-- The first repeated key in the values of a mapping. -/
def firstOfEntries? : List (Scalar × Data) → Option Scalar
  | [] => none
  | (_, v) :: r => v.firstRepeat?.or (firstOfEntries? r)

end

theorem firstOfItems?_eq (items : List Data) :
    firstOfItems? items = items.findSome? firstRepeat? := by
  induction items with
  | nil => rw [firstOfItems?, List.findSome?_nil]
  | cons v r ih =>
    rw [firstOfItems?, ih, List.findSome?_cons]
    cases v.firstRepeat? <;> rfl

theorem firstOfEntries?_eq (entries : List (Scalar × Data)) :
    firstOfEntries? entries = entries.findSome? fun e => e.2.firstRepeat? := by
  induction entries with
  | nil => rw [firstOfEntries?, List.findSome?_nil]
  | cons e r ih =>
    rw [firstOfEntries?, ih, List.findSome?_cons]
    cases e.2.firstRepeat? <;> rfl

theorem firstOfItems?_singleton (v : Data) : firstOfItems? [v] = v.firstRepeat? := by
  simp [firstOfItems?]

theorem firstOfEntries?_singleton (e : Scalar × Data) :
    firstOfEntries? [e] = e.2.firstRepeat? := by
  simp [firstOfEntries?]

theorem firstOfItems?_concat (items : List Data) (v : Data) :
    firstOfItems? (items ++ [v]) = (firstOfItems? items).or v.firstRepeat? := by
  simp [firstOfItems?_eq, List.findSome?_append]

theorem firstOfEntries?_concat (entries : List (Scalar × Data)) (e : Scalar × Data) :
    firstOfEntries? (entries ++ [e]) = (firstOfEntries? entries).or e.2.firstRepeat? := by
  simp [firstOfEntries?_eq, List.findSome?_append]

theorem firstRepeat?_mapping_eq_none_iff {entries : List (Scalar × Data)} :
    firstRepeat? (.mapping entries) = none ↔ (∀ e ∈ entries, e.2.firstRepeat? = none) ∧
      Quorum.firstRepeat? Scalar.same [] (entries.map Prod.fst) = none := by
  rw [firstRepeat?, Option.or_eq_none_iff, firstOfEntries?_eq, List.findSome?_eq_none_iff]

/-- No repeated key escapes, however deep the mapping stands. -/
theorem Contains.firstRepeat?_eq_none {d v : Data} (h : d.Contains v)
    (hn : d.firstRepeat? = none) : v.firstRepeat? = none := by
  induction h with
  | self d => exact hn
  | item hv h ih =>
    rw [firstRepeat?, firstOfItems?_eq, List.findSome?_eq_none_iff] at hn
    exact ih (hn _ hv)
  | entry he h ih => exact ih ((firstRepeat?_mapping_eq_none_iff.1 hn).1 _ he)

end Data

end Quorum
