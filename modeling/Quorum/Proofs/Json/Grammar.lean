import Quorum.Json.Assembly

/-!
# The grammar of JSON

Which tokens write which data (`Writes`), and which lead up to a value inside collections that are
still open (`Leads`), said without a reader. The reader takes tokens along this grammar (`At.step`):
what it makes of a text is what the text writes (`writes_of_assemble`), and where a repeated key
stops it, a mapping that repeats the key ends (`endsInRepeat_of_assemble`).
-/

namespace Quorum.Json

/-- What a run of tokens can write: a value, or what stands between the brackets of a list or a
mapping. -/
inductive Phrase where
  | value (v : Data)
  | items (vs : List Data)
  | entries (es : List (Scalar × Data))

/-- The tokens write the phrase. -/
inductive Writes : List Token → Phrase → Prop
  | text {t : Token} {s : Scalar} (h : t.kind = .text s) : Writes [t] (.value (.scalar s))
  | scalar {t : Token} {s : Scalar} (h : t.kind = .scalar s) : Writes [t] (.value (.scalar s))
  | list {o c : Token} {ts : List Token} {vs : List Data} (ho : o.kind = .openList)
    (h : Writes ts (.items vs)) (hc : c.kind = .closeList) :
    Writes (o :: ts ++ [c]) (.value (.list vs))
  | mapping {o c : Token} {ts : List Token} {es : List (Scalar × Data)}
    (ho : o.kind = .openMapping) (h : Writes ts (.entries es)) (hc : c.kind = .closeMapping) :
    Writes (o :: ts ++ [c]) (.value (.mapping es))
  | noItems : Writes [] (.items [])
  | firstItem {ts : List Token} {v : Data} (h : Writes ts (.value v)) : Writes ts (.items [v])
  | nextItem {comma : Token} {ts us : List Token} {v : Data} {vs : List Data}
    (h : Writes ts (.items vs)) (hn : vs ≠ []) (hc : comma.kind = .comma)
    (hv : Writes us (.value v)) : Writes (ts ++ comma :: us) (.items (vs ++ [v]))
  | noEntries : Writes [] (.entries [])
  | firstEntry {k colon : Token} {key : Scalar} {ts : List Token} {v : Data}
    (hk : k.kind = .text key) (hc : colon.kind = .colon) (hv : Writes ts (.value v)) :
    Writes (k :: colon :: ts) (.entries [(key, v)])
  | nextEntry {comma k colon : Token} {key : Scalar} {ts us : List Token} {v : Data}
    {es : List (Scalar × Data)} (h : Writes ts (.entries es)) (hn : es ≠ [])
    (hs : comma.kind = .comma) (hk : k.kind = .text key) (hc : colon.kind = .colon)
    (hv : Writes us (.value v)) :
    Writes (ts ++ comma :: k :: colon :: us) (.entries (es ++ [(key, v)]))

/-- What stands in a list in front of an item. -/
inductive BeforeItem : List Token → List Data → Prop
  | first : BeforeItem [] []
  | next {comma : Token} {ts : List Token} {vs : List Data} (h : Writes ts (.items vs))
    (hn : vs ≠ []) (hc : comma.kind = .comma) : BeforeItem (ts ++ [comma]) vs

/-- What stands in a mapping in front of an entry. -/
inductive BeforeEntry : List Token → List (Scalar × Data) → Prop
  | first : BeforeEntry [] []
  | next {comma : Token} {ts : List Token} {es : List (Scalar × Data)}
    (h : Writes ts (.entries es)) (hn : es ≠ []) (hc : comma.kind = .comma) :
    BeforeEntry (ts ++ [comma]) es

/-- The tokens lead up to a value inside the open collections, the innermost of which is the first;
these hold their items and entries in reverse. -/
inductive Leads : List Token → List Open → Prop
  | start : Leads [] []
  | item {o : Token} {ts us : List Token} {st : List Open} {vs : List Data} (h : Leads ts st)
    (ho : o.kind = .openList) (hb : BeforeItem us vs) :
    Leads (ts ++ o :: us) (.list vs.reverse :: st)
  | entry {o k colon : Token} {key : Scalar} {ts us : List Token} {st : List Open}
    {es : List (Scalar × Data)} (h : Leads ts st) (ho : o.kind = .openMapping)
    (hb : BeforeEntry us es) (hk : k.kind = .text key) (hc : colon.kind = .colon) :
    Leads (ts ++ o :: us ++ [k, colon]) (.entry es.reverse key :: st)

theorem BeforeItem.append {ts us : List Token} {vs : List Data} {v : Data} (h : BeforeItem ts vs)
    (hv : Writes us (.value v)) : Writes (ts ++ us) (.items (vs ++ [v])) := by
  cases h with
  | first => exact .firstItem hv
  | next h hn hc =>
    rw [List.append_assoc]
    exact .nextItem h hn hc hv

theorem BeforeEntry.append {k colon : Token} {key : Scalar} {ts us : List Token}
    {es : List (Scalar × Data)} {v : Data} (h : BeforeEntry ts es) (hk : k.kind = .text key)
    (hc : colon.kind = .colon) (hv : Writes us (.value v)) :
    Writes (ts ++ k :: colon :: us) (.entries (es ++ [(key, v)])) := by
  cases h with
  | first => exact .firstEntry hk hc hv
  | next h hn hs =>
    rw [List.append_assoc]
    exact .nextEntry h hn hs hk hc hv

/-! ## Reading along the grammar -/

/-- Where the reader is after the tokens. -/
inductive At : List Token → Stage → List Open → Prop
  | value {ts : List Token} {st : List Open} (h : Leads ts st) : At ts .value st
  | item {o : Token} {ts : List Token} {st : List Open} (h : Leads ts st)
    (ho : o.kind = .openList) : At (ts ++ [o]) .item (.list [] :: st)
  | firstKey {o : Token} {ts : List Token} {st : List Open} (h : Leads ts st)
    (ho : o.kind = .openMapping) : At (ts ++ [o]) .firstKey (.mapping [] :: st)
  | key {o : Token} {ts us : List Token} {st : List Open} {es : List (Scalar × Data)}
    (h : Leads ts st) (ho : o.kind = .openMapping) (hb : BeforeEntry us es) :
    At (ts ++ o :: us) .key (.mapping es.reverse :: st)
  | colon {o k : Token} {key : Scalar} {ts us : List Token} {st : List Open}
    {es : List (Scalar × Data)} (h : Leads ts st) (ho : o.kind = .openMapping)
    (hb : BeforeEntry us es) (hk : k.kind = .text key) :
    At (ts ++ o :: us ++ [k]) .colon (.entry es.reverse key :: st)
  | afterItem {o : Token} {ts us : List Token} {st : List Open} {vs : List Data} (h : Leads ts st)
    (ho : o.kind = .openList) (hv : Writes us (.items vs)) (hn : vs ≠ []) :
    At (ts ++ o :: us) .afterItem (.list vs.reverse :: st)
  | afterEntry {o : Token} {ts us : List Token} {st : List Open} {es : List (Scalar × Data)}
    (h : Leads ts st) (ho : o.kind = .openMapping) (he : Writes us (.entries es)) (hn : es ≠ []) :
    At (ts ++ o :: us) .afterEntry (.mapping es.reverse :: st)
  | done {ts : List Token} {v : Data} (h : Writes ts (.value v)) : At ts (.done v) []

theorem At.complete {ts us : List Token} {st : List Open} {v : Data} (h : Leads ts st)
    (hv : Writes us (.value v)) : At (ts ++ us) (complete v st).1 (complete v st).2 := by
  cases h with
  | start => exact .done hv
  | @item o ts us' st vs h ho hb =>
    have ha := At.afterItem h ho (hb.append hv) (by simp)
    simpa [Json.complete] using ha
  | @entry o k colon key ts us' st es h ho hb hk hc =>
    have ha := At.afterEntry h ho (hb.append hk hc hv) (by simp)
    simpa [Json.complete] using ha

/-- The tokens end with a mapping, where a value may stand, that has the key for the second time. -/
def EndsInRepeat (ts : List Token) (key : Scalar) : Prop :=
  ∃ ts₀ us st entries, ts = ts₀ ++ us ∧ Leads ts₀ st ∧ Writes us (.value (.mapping entries)) ∧
    Repeats Scalar.same (entries.map Prod.fst) key

/-- What may come of taking the last of the tokens. -/
inductive Follows (ts : List Token) : Except Stop (Stage × List Open) → Prop
  | goesOn {stage : Stage} {st : List Open} (h : At ts stage st) : Follows ts (.ok (stage, st))
  | misplaced (place : List Char) : Follows ts (.error (.misplaced place))
  | repeated {key : Scalar} (h : EndsInRepeat ts key) : Follows ts (.error (.repeated key))

theorem follows_startValue {ts : List Token} {st : List Open} (t : Token) (h : Leads ts st) :
    Follows (ts ++ [t]) (startValue t st) := by
  unfold startValue
  split
  · exact .goesOn (.firstKey h ‹_›)
  · exact .goesOn (.item h ‹_›)
  · exact .goesOn (.complete h (.text ‹_›))
  · exact .goesOn (.complete h (.scalar ‹_›))
  · exact .misplaced _
  · exact .misplaced _

theorem follows_startKey {o : Token} {ts us : List Token} {st : List Open}
    {es : List (Scalar × Data)} (t : Token) (h : Leads ts st) (ho : o.kind = .openMapping)
    (hb : BeforeEntry us es) :
    Follows (ts ++ o :: us ++ [t]) (startKey t (.mapping es.reverse :: st)) := by
  unfold startKey
  split
  · exact .goesOn (.colon h ho hb ‹_›)
  · exact .misplaced _
  · exact .misplaced _

theorem follows_closeList {o c : Token} {ts us : List Token} {st : List Open} {vs : List Data}
    (h : Leads ts st) (ho : o.kind = .openList) (hv : Writes us (.items vs))
    (hc : c.kind = .closeList) :
    Follows (ts ++ o :: us ++ [c]) (.ok (closeList (.list vs.reverse :: st))) := by
  rw [closeList, List.reverse_reverse, List.append_assoc]
  exact .goesOn (.complete h (.list ho hv hc))

theorem follows_closeMapping {o c : Token} {ts us : List Token} {st : List Open}
    {es : List (Scalar × Data)} (h : Leads ts st) (ho : o.kind = .openMapping)
    (he : Writes us (.entries es)) (hc : c.kind = .closeMapping) :
    Follows (ts ++ o :: us ++ [c]) (closeMapping (.mapping es.reverse :: st)) := by
  have hw := Writes.mapping ho he hc
  rw [closeMapping, List.reverse_reverse, List.append_assoc]
  split
  · exact .repeated ⟨ts, _, st, es, rfl, h, hw, repeats_of_firstRepeat? ‹_›⟩
  · exact .goesOn (.complete h hw)

/-- Every token takes the reader further along the grammar, unless it is misplaced or ends a mapping
with a repeated key. -/
theorem At.step {ts : List Token} {stage : Stage} {st : List Open} (t : Token)
    (h : At ts stage st) : Follows (ts ++ [t]) (step t stage st) := by
  cases h with
  | value h => exact follows_startValue t h
  | item h ho =>
    rw [Json.step]
    split
    · exact follows_closeList h ho .noItems ‹_›
    · exact follows_startValue t (.item h ho .first)
  | firstKey h ho =>
    rw [Json.step]
    split
    · exact follows_closeMapping h ho .noEntries ‹_›
    · exact follows_startKey t h ho .first
  | key h ho hb => exact follows_startKey t h ho hb
  | colon h ho hb hk =>
    rw [Json.step]
    split
    · rw [List.append_assoc]
      exact .goesOn (.value (.entry h ho hb hk ‹_›))
    · exact .misplaced _
  | afterItem h ho hv hn =>
    rw [Json.step]
    split
    · exact follows_closeList h ho hv ‹_›
    split
    · rw [List.append_assoc]
      exact .goesOn (.value (.item h ho (.next hv hn ‹_›)))
    · exact .misplaced _
  | afterEntry h ho he hn =>
    rw [Json.step]
    split
    · exact follows_closeMapping h ho he ‹_›
    split
    · rw [List.append_assoc]
      exact .goesOn (.key h ho (.next he hn ‹_›))
    · exact .misplaced _
  | done h => exact .misplaced _

theorem writes_of_assemble {ts us : List Token} {stage : Stage} {st : List Open} {d : Data}
    (h : At ts stage st) (hr : assemble us stage st = .ok d) : Writes (ts ++ us) (.value d) := by
  induction us generalizing ts stage st with
  | nil =>
    cases h <;> simp [assemble] at hr
    · subst hr
      simpa
  | cons t r ih =>
    have hs := h.step t
    rw [assemble] at hr
    split at hr
    · rename_i hg
      rw [hg] at hs
      cases hs with
      | goesOn h => simpa using ih h hr
    · cases hr

theorem endsInRepeat_of_assemble {ts us : List Token} {stage : Stage} {st : List Open}
    {key : Scalar} (h : At ts stage st) (hr : assemble us stage st = .error (.repeated key)) :
    ∃ us₁ us₂, us = us₁ ++ us₂ ∧ EndsInRepeat (ts ++ us₁) key := by
  induction us generalizing ts stage st with
  | nil => cases h <;> simp [assemble] at hr
  | cons t r ih =>
    have hs := h.step t
    rw [assemble] at hr
    split at hr
    · rename_i hg
      rw [hg] at hs
      cases hs with
      | goesOn h =>
        obtain ⟨us₁, us₂, rfl, he⟩ := ih h hr
        exact ⟨t :: us₁, us₂, rfl, by simpa using he⟩
    · rename_i hg
      cases hr
      rw [hg] at hs
      cases hs with
      | repeated he => exact ⟨[t], r, rfl, he⟩

end Quorum.Json
