/-!
# Scanners with marks

A table gives the next state and a mark for every symbol. The marks delimit tokens: a token begins
with the symbol that is marked as its start, and the symbol that is marked as its end is not a part
of it. A scanner that has the whole text may keep the position of the start in place of the symbols.
-/

namespace CoLinux.Lib

inductive ScanMark
  | none
  | start
  | stop
  deriving DecidableEq, Repr

/-- A table whose marks alternate: the states with `inside` are those behind a start. -/
structure MarkedTable (σ α : Type) where
  next : σ → α → σ
  mark : σ → α → ScanMark
  inside : σ → Bool
  start_inside : ∀ s a, mark s a = .start → inside (next s a) = true
  stop_inside : ∀ s a, mark s a = .stop → inside s = true ∧ inside (next s a) = false
  keep_inside : ∀ s a, mark s a = .none → inside (next s a) = inside s

namespace MarkedTable

variable {σ α : Type} (t : MarkedTable σ α)

/-- The tokens that end in a text; `token` are the symbols since the last start. -/
def tokens : σ → List α → List α → List (List α)
  | _, _, [] => []
  | s, token, a :: as =>
    match t.mark s a with
    | .start => tokens (t.next s a) [a] as
    | .stop => token :: tokens (t.next s a) [] as
    | .none => tokens (t.next s a) (token ++ [a]) as

theorem tokens_start {s : σ} {a : α} (h : t.mark s a = .start) (token as : List α) :
    t.tokens s token (a :: as) = t.tokens (t.next s a) [a] as := by
  rw [tokens, h]

theorem tokens_stop {s : σ} {a : α} (h : t.mark s a = .stop) (token as : List α) :
    t.tokens s token (a :: as) = token :: t.tokens (t.next s a) [] as := by
  rw [tokens, h]

theorem tokens_none {s : σ} {a : α} (h : t.mark s a = .none) (token as : List α) :
    t.tokens s token (a :: as) = t.tokens (t.next s a) (token ++ [a]) as := by
  rw [tokens, h]

/-- `start` is the position of the token in the text, `pos` is the one of the scanner. -/
structure TokenAt (text token : List α) (start pos : Nat) : Prop where
  le : start ≤ pos
  eq : (text.drop start).take (pos - start) = token

variable {text token rest : List α} {start pos : Nat} {a : α}

theorem drop_succ (h : text.drop pos = a :: rest) : text.drop (pos + 1) = rest := by
  rw [← List.drop_drop, h, List.drop_one, List.tail_cons]

theorem tokenAt_start (h : text.drop pos = a :: rest) : TokenAt text [a] pos (pos + 1) := by
  refine ⟨Nat.le_succ pos, ?_⟩
  rw [h, Nat.add_sub_cancel_left]
  rfl

theorem TokenAt.next (h : text.drop pos = a :: rest) (at' : TokenAt text token start pos) :
    TokenAt text (token ++ [a]) start (pos + 1) := by
  obtain ⟨le, eq⟩ := at'
  have here : (text.drop start)[pos - start]? = some a := by
    rw [List.getElem?_drop, Nat.add_sub_cancel' le, ← List.head?_drop, h, List.head?_cons]
  refine ⟨Nat.le_succ_of_le le, ?_⟩
  rw [Nat.succ_sub le, List.take_add_one, eq, here]
  rfl

end MarkedTable

end CoLinux.Lib
