import Quorum.Proofs.Data
import Quorum.Proofs.Journal
import Quorum.Proofs.Json.Grammar

/-!
# Reading JSON

Tokens that write a value take the reader to the stage behind the value, unless it stops before at
the first repeated key (`read_of_writes`, `read_eq_of_writes`). So it reads exactly the documents of
the grammar in which no key is repeated (`read_eq_ok_iff`), and in all other texts with a repeated
key it stops at one (`HasRepeat.read`).
-/

namespace Quorum.Json

/-- The stage and the stack behind the tokens. -/
def run (ts : List Token) (p : Stage × List Open) : Except Stop (Stage × List Open) :=
  ts.foldlM (fun p t => step t p.1 p.2) p

/-- Goes on to what is given last, unless a repeated key has been found before. -/
def orRepeated (key? : Option Scalar) (reached : Stage × List Open) :
    Except Stop (Stage × List Open) :=
  match key? with
  | none => .ok reached
  | some key => .error (.repeated key)

theorem run_append (ts us : List Token) (p : Stage × List Open) :
    run (ts ++ us) p = run ts p >>= run us :=
  List.foldlM_append

theorem run_singleton (t : Token) (p : Stage × List Open) : run [t] p = step t p.1 p.2 := by
  rw [run, List.foldlM_cons]
  cases step t p.1 p.2 <;> rfl

/-- All tokens are taken one after the other. -/
theorem assemble_append (ts more : List Token) (p : Stage × List Open) :
    assemble (ts ++ more) p.1 p.2 = run ts p >>= fun r => assemble more r.1 r.2 := by
  induction ts generalizing p with
  | nil => rfl
  | cons t r ih =>
    rw [List.cons_append, assemble, run, List.foldlM_cons]
    cases step t p.1 p.2 with
    | ok q => exact ih q
    | error e => rfl

theorem run_append_of_ok {ts us : List Token} {p q : Stage × List Open} (h : run ts p = .ok q) :
    run (ts ++ us) p = run us q := by
  rw [run_append, h, ok_bind]

theorem run_append_to {ts us : List Token} {p q r : Stage × List Open} {key? : Option Scalar}
    (h : run ts p = orRepeated key? q) (h' : run us q = .ok r) :
    run (ts ++ us) p = orRepeated key? r := by
  rw [run_append, h]
  cases key? with
  | none => exact h'
  | some key => rfl

/-- The first key that is found repeated decides. -/
theorem run_append_of {ts us : List Token} {p q r : Stage × List Open} {key? key?' : Option Scalar}
    (h : run ts p = orRepeated key? q) (h' : run us q = orRepeated key?' r) :
    run (ts ++ us) p = orRepeated (key?.or key?') r := by
  rw [run_append, h]
  cases key? with
  | none => exact h'
  | some key => rfl

/-- A value may stand at the stage. -/
def Stage.TakesValue (stage : Stage) : Prop :=
  stage = .value ∨ stage = .item

/-- Behind so many items of a list. -/
def Stage.behindItems : List Data → Stage
  | [] => .item
  | _ :: _ => .afterItem

/-- Behind so many entries of a mapping. -/
def Stage.behindEntries : List (Scalar × Data) → Stage
  | [] => .firstKey
  | _ :: _ => .afterEntry

theorem Stage.behindItems_of_ne_nil {vs : List Data} (hn : vs ≠ []) :
    behindItems vs = .afterItem := by
  cases vs with
  | nil => exact absurd rfl hn
  | cons v vs => rfl

theorem Stage.behindEntries_of_ne_nil {es : List (Scalar × Data)} (hn : es ≠ []) :
    behindEntries es = .afterEntry := by
  cases es with
  | nil => exact absurd rfl hn
  | cons e es => rfl

theorem step_of_takesValue {t : Token} {stage : Stage} {st : List Open} (hs : stage.TakesValue)
    (ht : t.kind ≠ .closeList) : step t stage st = startValue t st := by
  rcases hs with rfl | rfl
  · rfl
  · rw [step, if_neg ht]

theorem step_behindItems {c : Token} (vs : List Data) (st : List Open)
    (hc : c.kind = .closeList) :
    step c (.behindItems vs) (.list vs.reverse :: st) = .ok (complete (.list vs) st) := by
  cases vs <;> simp [Stage.behindItems, step, hc, closeList]

theorem step_behindEntries {c : Token} (es : List (Scalar × Data)) (st : List Open)
    (hc : c.kind = .closeMapping) :
    step c (.behindEntries es) (.mapping es.reverse :: st) =
      closeMapping (.mapping es.reverse :: st) := by
  cases es <;> simp [Stage.behindEntries, step, hc]

theorem run_openList {o : Token} {stage : Stage} {st : List Open} (hs : stage.TakesValue)
    (ho : o.kind = .openList) : run [o] (stage, st) = .ok (.item, .list [] :: st) := by
  rw [run_singleton, step_of_takesValue hs (by simp [ho]), startValue, ho]

theorem run_openMapping {o : Token} {stage : Stage} {st : List Open} (hs : stage.TakesValue)
    (ho : o.kind = .openMapping) : run [o] (stage, st) = .ok (.firstKey, .mapping [] :: st) := by
  rw [run_singleton, step_of_takesValue hs (by simp [ho]), startValue, ho]

theorem run_commaOfItems {comma : Token} {st : List Open} {vs : List Data} (hn : vs ≠ [])
    (hc : comma.kind = .comma) : run [comma] (.behindItems vs, st) = .ok (.value, st) := by
  simp [run_singleton, Stage.behindItems_of_ne_nil hn, step, hc]

theorem run_commaOfEntries {comma : Token} {st : List Open} {es : List (Scalar × Data)}
    (hn : es ≠ []) (hc : comma.kind = .comma) :
    run [comma] (.behindEntries es, st) = .ok (.key, st) := by
  simp [run_singleton, Stage.behindEntries_of_ne_nil hn, step, hc]

/-- A key may stand at the stage. -/
def Stage.TakesKey (stage : Stage) : Prop :=
  stage = .key ∨ stage = .firstKey

theorem run_key {k colon : Token} {key : Scalar} {stage : Stage} {st : List Open}
    {es : List (Scalar × Data)} (hs : stage.TakesKey) (hk : k.kind = .text key)
    (hc : colon.kind = .colon) :
    run [k, colon] (stage, .mapping es :: st) = .ok (.value, .entry es key :: st) := by
  have h₁ : run [k] (stage, .mapping es :: st) = .ok (.colon, .entry es key :: st) := by
    rw [run_singleton]
    rcases hs with rfl | rfl <;> simp [step, hk, startKey, awaitValue]
  exact (run_append_of_ok h₁).trans (by simp [run_singleton, step, hc])

/-- What reading the tokens of a phrase leads to. -/
def Phrase.Read (ts : List Token) : Phrase → Prop
  | .value v => ∀ stage st, stage.TakesValue →
    run ts (stage, st) = orRepeated v.firstRepeat? (complete v st)
  | .items vs => ∀ st, run ts (.item, .list [] :: st) =
    orRepeated (Data.firstOfItems? vs) (.behindItems vs, .list vs.reverse :: st)
  | .entries es => ∀ st, run ts (.firstKey, .mapping [] :: st) =
    orRepeated (Data.firstOfEntries? es) (.behindEntries es, .mapping es.reverse :: st)

theorem read_of_writes {ts : List Token} {p : Phrase} (h : Writes ts p) : p.Read ts := by
  induction h with
  | text h =>
    intro stage st hs
    rw [run_singleton, step_of_takesValue hs (by simp [h]), startValue, h]
    rfl
  | scalar h =>
    intro stage st hs
    rw [run_singleton, step_of_takesValue hs (by simp [h]), startValue, h]
    rfl
  | @list o c ts vs ho h hc ih =>
    intro stage st hs
    have hv : run (o :: ts) (stage, st) = _ := (run_append_of_ok (run_openList hs ho)).trans (ih st)
    have hc : run [c] (.behindItems vs, .list vs.reverse :: st) =
        orRepeated none (complete (.list vs) st) := by
      rw [run_singleton, step_behindItems vs st hc]
      rfl
    rw [run_append_of hv hc, Option.or_none, Data.firstRepeat?]
  | @mapping o c ts es ho h hc ih =>
    intro stage st hs
    have hv : run (o :: ts) (stage, st) = _ :=
      (run_append_of_ok (run_openMapping hs ho)).trans (ih st)
    have hc : run [c] (.behindEntries es, .mapping es.reverse :: st) =
        orRepeated (firstRepeat? Scalar.same [] (es.map Prod.fst)) (complete (.mapping es) st) := by
      rw [run_singleton, step_behindEntries es st hc, closeMapping, List.reverse_reverse]
      cases firstRepeat? Scalar.same [] (es.map Prod.fst) <;> rfl
    rw [run_append_of hv hc, Data.firstRepeat?]
  | noItems => exact fun st => rfl
  | @firstItem ts v h ih =>
    intro st
    rw [ih .item (.list [] :: st) (.inr rfl), Data.firstOfItems?_singleton]
    rfl
  | @nextItem comma ts us v vs h hn hc hv ih ihv =>
    intro st
    have hv := ihv .value (.list vs.reverse :: st) (.inl rfl)
    have hc := (run_append_of_ok (run_commaOfItems hn hc)).trans hv
    refine (run_append_of (ih st) hc).trans ?_
    rw [Stage.behindItems_of_ne_nil (by simp), List.reverse_concat, Data.firstOfItems?_concat]
    rfl
  | noEntries => exact fun st => rfl
  | @firstEntry k colon key ts v hk hc hv ih =>
    intro st
    have hv := ih .value (.entry [] key :: st) (.inl rfl)
    have hk := (run_append_of_ok (run_key (.inr rfl) hk hc)).trans hv
    refine Eq.trans hk ?_
    rw [Data.firstOfEntries?_singleton]
    rfl
  | @nextEntry comma k colon key ts us v es h hn hs hk hc hv ih ihv =>
    intro st
    have hv := ihv .value (.entry es.reverse key :: st) (.inl rfl)
    have hk := (run_append_of_ok (run_key (.inl rfl) hk hc)).trans hv
    have hs := (run_append_of_ok (run_commaOfEntries hn hs)).trans hk
    refine (run_append_of (ih st) hs).trans ?_
    rw [Stage.behindEntries_of_ne_nil (by simp), List.reverse_concat, Data.firstOfEntries?_concat]
    rfl

/-- Tokens that lead up to a value lead the reader to a stage where one may stand. -/
theorem run_of_leads {ts : List Token} {st : List Open} (h : Leads ts st) :
    ∃ stage key?, stage.TakesValue ∧ run ts (.value, []) = orRepeated key? (stage, st) := by
  induction h with
  | start => exact ⟨.value, none, .inl rfl, rfl⟩
  | @item o ts us st vs h ho hb ih =>
    obtain ⟨stage, key?, hs, hp⟩ := ih
    have ho := run_append_to hp (run_openList hs ho)
    cases hb with
    | first => exact ⟨.item, _, .inr rfl, ho⟩
    | next h hn hc =>
      have hc := run_append_to (read_of_writes h st) (run_commaOfItems hn hc)
      exact ⟨.value, _, .inl rfl, by simpa using run_append_of ho hc⟩
  | @entry o k colon key ts us st es h ho hb hk hc ih =>
    obtain ⟨stage, key?, hs, hp⟩ := ih
    have ho := run_append_to hp (run_openMapping hs ho)
    cases hb with
    | first =>
      exact ⟨.value, _, .inl rfl, run_append_to ho (run_key (.inr rfl) hk hc)⟩
    | next h hn hs =>
      have hs := run_append_to (read_of_writes h st) (run_commaOfEntries hn hs)
      have hk := run_append_to (run_append_of ho hs) (run_key (.inl rfl) hk hc)
      exact ⟨.value, _, .inl rfl, by simpa using hk⟩

theorem EndsInRepeat.run {ts : List Token} {key : Scalar} (h : EndsInRepeat ts key) :
    ∃ key', Json.run ts (.value, []) = .error (.repeated key') := by
  obtain ⟨ts₀, us, st, es, rfl, hl, hw, hr⟩ := h
  obtain ⟨stage, key?, hs, hp⟩ := run_of_leads hl
  rw [run_append_of hp (read_of_writes hw stage st hs)]
  obtain ⟨key', hk⟩ := exists_firstRepeat? hr
  rw [Data.firstRepeat?, hk]
  cases key? with
  | some k => exact ⟨k, rfl⟩
  | none => cases Data.firstOfEntries? es with
    | some k => exact ⟨k, rfl⟩
    | none => exact ⟨key', rfl⟩

/-! ## Documents -/

/-- The text has a mapping with the key for the second time. -/
def HasRepeat (s : List Char) (key : Scalar) : Prop :=
  ∃ ts us, scan s = ts ++ us ∧ EndsInRepeat ts key

theorem hasRepeat_of_read {s : List Char} {key : Scalar} (h : read s = .error (.repeated key)) :
    HasRepeat s key := by
  obtain ⟨us₁, us₂, hs, he⟩ := endsInRepeat_of_assemble (.value .start) h
  exact ⟨us₁, us₂, hs, he⟩

/-- Where a key is repeated, the reader stops at a repeated key. -/
theorem HasRepeat.read {s : List Char} {key : Scalar} (h : HasRepeat s key) :
    ∃ key', read s = .error (.repeated key') := by
  obtain ⟨ts, us, hs, he⟩ := h
  obtain ⟨key', hr⟩ := he.run
  exact ⟨key', by rw [Json.read, hs, assemble_append ts us (.value, []), hr, error_bind]⟩

/-- A document of the grammar is read, unless a key is repeated. -/
theorem read_eq_of_writes {s : List Char} {d : Data} (h : Writes (scan s) (.value d)) :
    Json.read s = match d.firstRepeat? with
      | none => .ok d
      | some key => .error (.repeated key) := by
  have hr := assemble_append (scan s) [] (.value, [])
  rw [List.append_nil, read_of_writes h .value [] (.inl rfl)] at hr
  rw [Json.read, hr]
  cases d.firstRepeat? <;> rfl

/-- The documents that are read are those of the grammar in which no key is repeated. -/
theorem read_eq_ok_iff {s : List Char} {d : Data} :
    read s = .ok d ↔ Writes (scan s) (.value d) ∧ ∀ key, ¬ HasRepeat s key := by
  constructor
  · refine fun h => ⟨writes_of_assemble (.value .start) h, fun key hr => ?_⟩
    obtain ⟨key', he⟩ := hr.read
    rw [h] at he
    cases he
  · rintro ⟨hw, hn⟩
    have hr := read_eq_of_writes hw
    split at hr
    · exact hr
    · exact absurd (hasRepeat_of_read hr) (hn _)

end Quorum.Json
