import Quorum.Proofs.Json.Lexeme
import Quorum.Proofs.Json.Reading

/-!
# JSON texts

A text starts with tokens if it has their characters one after the other, with white space between
them (`StartsWith`), and it is a document if the tokens write data and nothing but white space
follows (`Text`). These are the tokens that the reader sees (`exists_scan_eq`), so a document is
read as its data unless a key is repeated in it (`Text.read`).
-/

namespace Quorum.Json

/-- The text starts with the tokens, and the rest is behind them. -/
inductive StartsWith : List Char → List Token → List Char → Prop
  | nil (s : List Char) : StartsWith s [] s
  | cons {blanks s after rest : List Char} {kind : Kind} {ts : List Token}
    (hb : blanks.all isSpace = true) (hl : Lexeme s kind) (he : kind.EndsBefore after)
    (h : StartsWith after ts rest) :
    StartsWith (blanks ++ (s ++ after)) (⟨kind, s ++ after⟩ :: ts) rest

/-- The text is a document with the data. -/
def Text (text : List Char) (d : Data) : Prop :=
  ∃ ts rest, StartsWith text ts rest ∧ rest.all isSpace = true ∧ Writes ts (.value d)

theorem StartsWith.word {s after rest : List Char} {kind : Kind} {ts : List Token}
    (hl : Lexeme s kind) (he : kind.EndsBefore after) (h : StartsWith after ts rest) :
    StartsWith (s ++ after) (⟨kind, s ++ after⟩ :: ts) rest :=
  .cons List.all_nil hl he h

/-! ## Scanning -/

theorem scanFrom_cons {blanks s after : List Char} {kind : Kind} (fuel : Nat)
    (hb : blanks.all isSpace = true) (hl : Lexeme s kind) (he : kind.EndsBefore after) :
    scanFrom (fuel + 1) (blanks ++ (s ++ after)) = ⟨kind, s ++ after⟩ :: scanFrom fuel after := by
  have hk := readKind_of_lexeme hl he
  cases s with
  | nil => exact absurd rfl hl.ne_nil
  | cons c r =>
    have hc : isSpace c = false := hl.head_not_isSpace c rfl
    have hd : (blanks ++ (c :: r ++ after)).dropWhile isSpace = c :: (r ++ after) := by
      rw [List.dropWhile_append_of_pos (List.all_eq_true.1 hb), List.cons_append,
        List.dropWhile_cons_of_neg (by simp [hc])]
    rw [List.cons_append] at hk ⊢
    rw [List.cons_append] at hd
    rw [scanFrom, hd]
    simp only [hk]

theorem exists_scanFrom_eq {text rest : List Char} {ts : List Token} (h : StartsWith text ts rest)
    (fuel : Nat) (hf : text.length ≤ fuel) :
    ∃ fuel', scanFrom fuel text = ts ++ scanFrom fuel' rest := by
  induction h generalizing fuel with
  | nil s => exact ⟨fuel, rfl⟩
  | @cons blanks s after rest kind ts hb hl he h ih =>
    have hs := List.length_pos_iff.2 hl.ne_nil
    simp only [List.length_append] at hf
    obtain ⟨fuel, rfl⟩ : ∃ n, fuel = n + 1 := Nat.exists_eq_add_one.2 (by omega)
    obtain ⟨fuel', hr⟩ := ih fuel (by omega)
    exact ⟨fuel', by rw [scanFrom_cons fuel hb hl he, hr, List.cons_append]⟩

theorem scanFrom_blank {s : List Char} (fuel : Nat) (hb : s.all isSpace = true) :
    scanFrom fuel s = [] := by
  cases fuel with
  | zero => rfl
  | succ fuel => rw [scanFrom, List.dropWhile_eq_nil_iff.2 (List.all_eq_true.1 hb)]

/-- The reader sees the tokens that the text starts with. -/
theorem exists_scan_eq {text rest : List Char} {ts : List Token} (h : StartsWith text ts rest) :
    ∃ us, scan text = ts ++ us := by
  obtain ⟨fuel, hs⟩ := exists_scanFrom_eq h text.length le_rfl
  exact ⟨_, hs⟩

/-- The reader sees no other tokens if nothing but white space follows. -/
theorem scan_eq {text rest : List Char} {ts : List Token} (h : StartsWith text ts rest)
    (hb : rest.all isSpace = true) : scan text = ts := by
  obtain ⟨fuel, he⟩ := exists_scanFrom_eq h text.length le_rfl
  rw [scan, he, scanFrom_blank fuel hb, List.append_nil]

theorem Text.writes {text : List Char} {d : Data} (h : Text text d) :
    Writes (scan text) (.value d) := by
  obtain ⟨ts, rest, hs, hb, hw⟩ := h
  rwa [scan_eq hs hb]

/-- A document is read as its data, unless a key is repeated. -/
theorem Text.read {text : List Char} {d : Data} (h : Text text d) :
    Json.read text = match d.firstRepeat? with
      | none => .ok d
      | some key => .error (.repeated key) :=
  read_eq_of_writes h.writes

/-- The tokens of a text are a document if they can be put together. -/
theorem StartsWith.text {text rest : List Char} {ts : List Token} {d : Data}
    (h : StartsWith text ts rest) (hb : rest.all isSpace = true)
    (hr : assemble ts .value [] = .ok d) : Text text d :=
  ⟨ts, rest, h, hb, writes_of_assemble (.value .start) hr⟩

end Quorum.Json
