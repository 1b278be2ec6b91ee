import Quorum.Proofs.Json.Text

/-!
# Repeated keys in JSON texts

The keys of a JSON text are texts, and equal ones are the same key. A document in which a mapping,
however deep, has a key twice is not read (`Text.exists_read_eq`). And whatever follows the first
mapping that is closed with a key twice, the reader stops at the first such key of that mapping
(`StartsWith.read_eq`).
-/

namespace Quorum.Json

/-- The tokens end with a mapping, where a value may stand, in which the key is the first to occur
for the second time. -/
def ClosesRepeat (ts : List Token) (key : Scalar) : Prop :=
  ∃ before us st entries, ts = before ++ us ∧ Leads before st ∧
    Writes us (.value (.mapping entries)) ∧ FirstTwice (entries.map Prod.fst) key

/-- The tokens end with the first mapping to be closed that has a key twice. -/
def ClosesFirstRepeat (ts : List Token) (key : Scalar) : Prop :=
  ClosesRepeat ts key ∧ ∀ us vs, ts = us ++ vs → vs ≠ [] → ∀ key', ¬ ClosesRepeat us key'

/-- Where no other mapping is closed in front of it, the mapping is the first. -/
theorem ClosesRepeat.first {ts : List Token} {key : Scalar} (h : ClosesRepeat ts key)
    (hl : ∀ t ∈ ts.dropLast, t.kind ≠ .closeMapping) : ClosesFirstRepeat ts key := by
  refine ⟨h, ?_⟩
  rintro _ vs rfl hn key' ⟨before, us, st, entries, rfl, -, hw, -⟩
  cases hw with
  | @mapping o c us _ ho he hc =>
    rw [List.dropLast_append_of_ne_nil hn] at hl
    exact hl c (by simp) hc

/-! ## Keys are texts -/

/-- The keys among the tokens are texts. -/
def TextKeys (ts : List Token) : Prop :=
  ∀ t ∈ ts, ∀ key, t.kind = .text key → key.IsText

theorem StartsWith.textKeys {text rest : List Char} {ts : List Token}
    (h : StartsWith text ts rest) : TextKeys ts := by
  induction h with
  | nil => exact nofun
  | @cons blanks s after rest kind ts hb hl he h ih =>
    refine List.forall_mem_cons.2 ⟨?_, ih⟩
    rintro key rfl
    cases hl with
    | text => exact Scalar.isText_ofCodes _

/-- All keys in the phrase are texts. -/
def Phrase.TextKeys : Phrase → Prop
  | .value v => v.TextKeys
  | .items vs => ∀ v ∈ vs, v.TextKeys
  | .entries es => ∀ e ∈ es, e.1.IsText ∧ e.2.TextKeys

theorem textKeys_of_writes {ts : List Token} {p : Phrase} (h : Writes ts p) (ht : TextKeys ts) :
    p.TextKeys := by
  induction h with
  | text h | scalar h =>
    intro entries hc
    cases hc
  | @list o c ts vs ho h hc ih =>
    have hv := ih fun t hm => ht t (by simp [hm])
    intro entries hc
    cases hc with
    | item hm hc => exact hv _ hm entries hc
  | @mapping o c ts es ho h hc ih =>
    have hv := ih fun t hm => ht t (by simp [hm])
    intro entries hc
    cases hc with
    | self => exact List.forall_mem_map.2 fun e he => (hv e he).1
    | entry he hc => exact (hv _ he).2 entries hc
  | noItems => exact nofun
  | firstItem h ih => exact List.forall_mem_singleton.2 (ih ht)
  | @nextItem comma ts us v vs h hn hc hv ih ihv =>
    have hvs := ih fun t hm => ht t (by simp [hm])
    have hv := ihv fun t hm => ht t (by simp [hm])
    exact List.forall_mem_append.2 ⟨hvs, List.forall_mem_singleton.2 hv⟩
  | noEntries => exact nofun
  | @firstEntry k colon key ts v hk hc hv ih =>
    have hv := ih fun t hm => ht t (by simp [hm])
    exact List.forall_mem_singleton.2 ⟨ht k (by simp) key hk, hv⟩
  | @nextEntry comma k colon key ts us v es h hn hs hk hc hv ih ihv =>
    have hes := ih fun t hm => ht t (by simp [hm])
    have hv := ihv fun t hm => ht t (by simp [hm])
    have hkey := ht k (by simp) key hk
    exact List.forall_mem_append.2 ⟨hes, List.forall_mem_singleton.2 ⟨hkey, hv⟩⟩

/-! ## Documents -/

/-- A document in which a mapping has a key twice is not read. -/
theorem Text.exists_read_eq {text : List Char} {d : Data} {entries : List (Scalar × Data)}
    (h : Text text d) (hc : d.Contains (.mapping entries))
    (hn : ¬ (entries.map Prod.fst).Nodup) : ∃ key, Json.read text = .error (.repeated key) := by
  have hr := h.read
  obtain ⟨ts, rest, hs, -, hw⟩ := h
  have hk := textKeys_of_writes hw hs.textKeys entries hc
  split at hr
  · rename_i hf
    have hf := (Data.firstRepeat?_mapping_eq_none_iff.1 (hc.firstRepeat?_eq_none hf)).2
    exact absurd ((firstRepeat?_eq_none_iff_nodup hk).1 hf) hn
  · exact ⟨_, hr⟩

/-! ## Texts of which the start is known -/

theorem EndsInRepeat.exists_closesRepeat {ts : List Token} {key : Scalar}
    (h : EndsInRepeat ts key) (ht : TextKeys ts) : ∃ key', ClosesRepeat ts key' := by
  obtain ⟨before, us, st, entries, rfl, hl, hw, hr⟩ := h
  have hk := textKeys_of_writes hw (fun t hm => ht t (List.mem_append_right _ hm)) entries (.self _)
  obtain ⟨key', hf⟩ := exists_firstRepeat? hr
  exact ⟨key', before, us, st, entries, rfl, hl, hw,
    (firstRepeat?_eq_some_iff_firstTwice hk).1 hf⟩

/-- The first mapping to be closed with a key twice stops the reader, at the first such key. -/
theorem ClosesFirstRepeat.run {ts : List Token} {key : Scalar} (h : ClosesFirstRepeat ts key)
    (ht : TextKeys ts) : Json.run ts (.value, []) = .error (.repeated key) := by
  obtain ⟨⟨before, us, st, entries, rfl, hl, hw, hf⟩, hfirst⟩ := h
  have hk := textKeys_of_writes hw (fun t hm => ht t (List.mem_append_right _ hm)) entries (.self _)
  obtain ⟨stage, key?, hs, hp⟩ := run_of_leads hl
  have hr := run_append_of hp (read_of_writes hw stage st hs)
  cases hw with
  | @mapping o c us _ ho he hc =>
    -- No mapping that is closed in front of the last token has a key twice.
    have hpre := run_append_of (run_append_to hp (run_openMapping hs ho)) (read_of_writes he st)
    rw [List.append_assoc, List.singleton_append] at hpre
    have hn : key?.or (Data.firstOfEntries? entries) = none := by
      cases hn : key?.or (Data.firstOfEntries? entries) with
      | none => rfl
      | some k =>
        have ha := assemble_append (before ++ o :: us) [] (.value, [])
        rw [hpre, hn, List.append_nil] at ha
        obtain ⟨us₁, us₂, hu, hend⟩ := endsInRepeat_of_assemble (.value .start) ha
        rw [List.nil_append] at hend
        have hsplit : before ++ (o :: us ++ [c]) = us₁ ++ (us₂ ++ [c]) := by
          rw [← List.append_assoc, ← List.append_assoc, hu]
        obtain ⟨key', hc'⟩ := hend.exists_closesRepeat fun t hm =>
          ht t (hsplit ▸ List.mem_append_left _ hm)
        exact absurd hc' (hfirst us₁ (us₂ ++ [c]) hsplit (by simp) key')
    rw [hr, Data.firstRepeat?, ← Option.or_assoc, hn,
      (firstRepeat?_eq_some_iff_firstTwice hk).2 hf]
    rfl

/-- Whatever follows the first mapping to be closed with a key twice, the reader stops at the first
such key. -/
theorem StartsWith.read_eq {text rest : List Char} {ts : List Token} {key : Scalar}
    (h : StartsWith text ts rest) (hc : ClosesFirstRepeat ts key) :
    Json.read text = .error (.repeated key) := by
  obtain ⟨us, hs⟩ := exists_scan_eq h
  rw [Json.read, hs, assemble_append ts us (.value, []), hc.run h.textKeys, error_bind]

end Quorum.Json
