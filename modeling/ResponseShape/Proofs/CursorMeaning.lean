import ResponseShape.Proofs.CursorRuns
import ResponseShape.Proofs.Declarations

/-! The machine does what a program means, wherever the meaning does not stall. Main statement:
`plays_program`. -/
namespace ResponseShape.Cursor

open ResponseShape.Parser Stage

variable {α β σ : Type} {s : TokenStream} {i : Nat}

def Unstalled (result : Except ParseError (α × TokenStream)) : Prop :=
  Outcome (fun _ _ => True) result

namespace Unstalled

variable {p : Parser α} {f : α → Parser β}

theorem of_outcome {R : α → TokenStream → Prop} {result : Except ParseError (α × TokenStream)}
    (h : Outcome R result) : Unstalled result := by
  cases result with
  | ok r => trivial
  | error e => exact h

theorem left (h : Unstalled ((p >>= f) s)) : Unstalled (p s) := by
  cases run : p s with
  | ok r => trivial
  | error e =>
    rw [bind_error run] at h
    exact h

theorem right {a : α} {rest : TokenStream} (h : Unstalled ((p >>= f) s))
    (run : p s = .ok (a, rest)) : Unstalled (f a rest) := by
  rw [bind_ok run] at h
  exact h

section

variable {round : σ → Parser (σ ⊕ α)} {state state' : σ} {rest : TokenStream}

theorem firstRound (h : Unstalled (iterate round state s)) : Unstalled (round state s) := by
  cases run : round state s with
  | ok r => trivial
  | error e =>
    rw [iterate_error run] at h
    exact h

theorem shorter (h : Unstalled (iterate round state s))
    (run : round state s = .ok (.inl state', rest)) : rest.left < s.left := by
  refine Nat.lt_of_not_le fun stalled => ?_
  rw [iterate, run] at h
  dsimp only at h
  rw [if_neg (Nat.not_lt.2 stalled)] at h
  exact h rfl

/-- A loop that does not stall is its first round and what it does next. -/
theorem iterate_bind (h : Unstalled (iterate round state s)) (f : α → Parser β) :
    (iterate round state >>= f) s =
      (round state >>= fun x => x.elim (fun state' => iterate round state' >>= f) f) s := by
  cases run : round state s with
  | error e => rw [bind_error (iterate_error run), bind_error run]
  | ok r =>
    rw [bind_ok run]
    obtain ⟨state' | a, rest⟩ := r
    · change (iterate round state s >>= _) = (iterate round state' rest >>= _)
      rw [iterate_again run (h.shorter run)]
    · exact bind_ok (iterate_done run) f

end

end Unstalled

theorem Delimiters.not_opens (d : Delimiters) {k : TokenKind} (h : d.closes k = true) :
    ¬ d.opens k = true :=
  fun opens => Bool.eq_false_iff.1 (d.apart k opens) h

section Count

variable {d : Delimiters} {depth : Nat} {kept : List Token} {t : Token}

theorem count_opens (h : d.opens t.kind = true) :
    (Skip.group d).count depth kept t = some (.inl (depth + 1, kept)) := if_pos h

theorem count_closes (h : d.closes t.kind = true) :
    (Skip.group d).count (depth + 2) kept t = some (.inl (depth + 1, kept)) :=
  (if_neg (d.not_opens h)).trans (if_pos h)

theorem count_closed (h : d.closes t.kind = true) :
    (Skip.group d).count 1 kept t = some (.inr kept) :=
  (if_neg (d.not_opens h)).trans (if_pos h)

theorem count_inside (noOpen : ¬ d.opens t.kind = true) (noClose : ¬ d.closes t.kind = true) :
    (Skip.group d).count depth kept t =
      some (.inl (depth, if depth = 1 then kept ++ [t] else kept)) :=
  (if_neg noOpen).trans (if_neg noClose)

/-- A token between the start and the semicolon leaves a level at which it would not end the loop
if it were read again. -/
theorem count_semicolon (depth : Nat) (kept : List Token) (t : Token) :
    (∃ depth', Skip.semicolon.count depth kept t = some (.inl (depth', kept)) ∧
      Skip.semicolon.Stays depth' t ∧
      ∀ rest, afterSemicolon? depth (t :: rest) = afterSemicolon? depth' rest) ∨
    Skip.semicolon.count depth kept t = some (.inr kept) ∧
      ∀ rest, afterSemicolon? depth (t :: rest) = some rest := by
  simp only [Skip.count, afterSemicolon?]
  repeat' split
  · exact .inl ⟨_, rfl, fun _ => Nat.succ_pos depth, fun _ => rfl⟩
  · rename_i closing
    refine .inl ⟨_, rfl, fun semicolon => ?_, fun _ => rfl⟩
    rw [semicolon] at closing
    exact absurd closing (by decide)
  · exact .inr ⟨rfl, fun _ => rfl⟩
  · rename_i other
    refine .inl ⟨_, rfl, fun semicolon => Nat.pos_of_ne_zero ?_, fun _ => rfl⟩
    rintro rfl
    rw [semicolon] at other
    exact other (by decide)

end Count

section Skipping

variable {k : Skip} {depth depth' j : Nat} {kept kept' tokens : List Token} {t : Token}
  {next : List Token → Program α} {result : Except ParseError (α × TokenStream)}

theorem plays_again (read : advanced s i = .ok (t, j))
    (counted : k.count depth kept t = some (.inl (depth', kept')))
    (later : (skipping k depth' kept' next j).Plays s result) :
    (skipping k depth kept next i).Plays s result :=
  .step (advances_skipping k depth kept next) (by simp only [Goes, move, read, counted]) later

theorem plays_closed (read : advanced s i = .ok (t, j))
    (counted : k.count depth kept t = some (.inr kept'))
    (later : (running (next kept') j).Plays s result) :
    (skipping k depth kept next i).Plays s result :=
  .step (advances_skipping k depth kept next) (by simp only [Goes, move, read, counted]) later

/-- Where a token that closes a level is the last one, it closes all of them. -/
theorem plays_closing {d : Delimiters} (last : s.tokens[s.left - 1]? = some t)
    (closes : d.closes t.kind = true) (later : (running (next kept) s.left).Plays s result) :
    (skipping (.group d) (depth + 1) kept next s.left).Plays s result := by
  have read := advanced_end (Nat.zero_lt_of_lt (List.getElem?_eq_some_iff.1 last).1) last
  induction depth with
  | zero => exact plays_closed read (count_closed closes) later
  | succ depth ih => exact plays_again read (count_closes closes) ih

theorem plays_group {d : Delimiters} {last : Token} (read : s.tokens[i]? = some last)
    (here : (past s (i + 1)).tokens = tokens)
    (closed : ∀ inner j, closeGroup? d.opens d.closes (depth + 1) last.kind tokens =
      some (inner, (past s j).tokens) → j ≤ s.left →
      (running (next (kept ++ inner)) j).Plays s result) :
    (skipping (.group d) (depth + 1) kept next (i + 1)).Plays s result := by
  have inside : i < s.left := (List.getElem?_eq_some_iff.1 read).1
  induction tokens generalizing i depth kept last with
  | nil =>
    have ended : i + 1 = s.left := Nat.le_antisymm inside (List.drop_eq_nil_iff.1 here)
    have atLast : s.tokens[s.left - 1]? = some last := by rw [← ended]; exact read
    rw [ended]
    by_cases closes : d.closes last.kind = true
    · have later := closed [] s.left (by rw [closeGroup?, if_pos closes, past_left])
      rw [List.append_nil] at later
      exact plays_closing atLast closes (later (Nat.le_refl _))
    · exact .lost (.inl ⟨rfl, last, atLast, Bool.eq_false_iff.2 closes⟩)
  | cons t tokens ih =>
    obtain ⟨read', here'⟩ := of_past_cons here
    have inside' : i + 1 < s.left := (List.getElem?_eq_some_iff.1 read').1
    have token := advanced_inside read'
    by_cases opens : d.opens t.kind = true
    · refine plays_again token (count_opens opens)
        (ih read' here' (fun inner j found => ?_) inside')
      exact closed inner j (by rw [closeGroup?, if_pos opens, found])
    by_cases closes : d.closes t.kind = true
    · cases depth with
      | zero =>
        have later := closed [] (i + 2)
          (by rw [closeGroup?, if_neg opens, if_pos closes, closeGroup?, here'])
        rw [List.append_nil] at later
        exact plays_closed token (count_closed closes) (later inside')
      | succ depth =>
        refine plays_again token (count_closes closes)
          (ih read' here' (fun inner j found => ?_) inside')
        exact closed inner j (by rw [closeGroup?, if_neg opens, if_pos closes, found])
    · refine plays_again token (count_inside opens closes)
        (ih read' here' (fun inner j found => ?_) inside')
      have later := closed (if depth = 0 then t :: inner else inner) j (by
        rw [closeGroup?, if_neg opens, if_neg closes, found, Option.map_some]
        split <;> rfl)
      cases depth with
      | zero => simpa using later
      | succ depth => simpa using later

theorem plays_semicolon (here : (past s i).tokens = tokens) (le : i ≤ s.left)
    (stays : tokens = [] → ∃ t, s.tokens[s.left - 1]? = some t ∧ Skip.semicolon.Stays depth t)
    (closed : ∀ j, afterSemicolon? depth tokens = some (past s j).tokens → j ≤ s.left →
      (running (next kept) j).Plays s result) :
    (skipping .semicolon depth kept next i).Plays s result := by
  induction tokens generalizing i depth with
  | nil =>
    have ended : i = s.left := Nat.le_antisymm le (List.drop_eq_nil_iff.1 here)
    exact .lost (.inl ⟨ended, stays rfl⟩)
  | cons t tokens ih =>
    obtain ⟨read, here'⟩ := of_past_cons here
    have inside : i + 1 ≤ s.left := (List.getElem?_eq_some_iff.1 read).1
    have token := advanced_inside read
    have last (h : tokens = []) : s.tokens[s.left - 1]? = some t := by
      have ended : i + 1 = s.left := Nat.le_antisymm inside (List.drop_eq_nil_iff.1 (here'.trans h))
      rw [← ended]
      exact read
    obtain ⟨depth', counted, stays', same⟩ | ⟨counted, same⟩ := count_semicolon depth kept t
    · refine plays_again token counted (ih here' inside (fun h => ⟨t, last h, stays'⟩) ?_)
      exact fun j found => closed j ((same _).trans found)
    · exact plays_closed token counted (closed (i + 1) (by rw [same, here']) inside)

/-- A loop that skips does what it means. -/
theorem plays_skip {g : List Token → Parser α} (le : i ≤ s.left)
    (moves : Unstalled ((k.parser >>= g) (past s i)))
    (later : ∀ kept j, k.parser (past s i) = .ok (kept, past s j) → j ≤ s.left →
      (running (next kept) j).Plays s (g kept (past s j))) :
    (running (.skip k next) i).Plays s ((k.parser >>= g) (past s i)) := by
  have more : (past s i).tokens ≠ [] := fun empty => by
    have stalled := moves.left
    rw [Skip.parser, empty] at stalled
    exact stalled rfl
  obtain ⟨t, tokens, here⟩ := List.exists_cons_of_ne_nil more
  obtain ⟨read, here'⟩ := of_past_cons here
  have bare : k.parser (past s i) = k.bare (past s i) := by
    rw [Skip.parser, here]
    rfl
  cases k with
  | group d =>
    have token := advanced_inside read
    have goes : (running (.skip (.group d) next) i).Goes s
        (skipping (.group d) 1 [] next (i + 1)) := by simp only [Goes, move, token]
    refine .step trivial goes (plays_group read here' fun inner j found le' => ?_)
    have run : (Skip.group d).parser (past s i) = .ok (inner, past s j) := by
      rw [bare, Skip.bare, Parser.group, here]
      dsimp only
      rw [found]
      rfl
    rw [bind_ok run]
    exact later inner j run le'
  | semicolon =>
    have goes : (running (.skip .semicolon next) i).Goes s
        (skipping .semicolon 0 [] next i) := by simp only [Goes, move, cells_eq le]
    refine .step trivial goes
      (plays_semicolon here le (fun h => absurd h (List.cons_ne_nil t tokens)) fun j found le' => ?_)
    have run : Skip.semicolon.parser (past s i) = .ok ([], past s j) := by
      rw [bare, Skip.bare, map_run, passSemicolon, here, found]
      rfl
    rw [bind_ok run]
    exact later [] j run le'

end Skipping

/-- Nested phrases are read as the machine reads them. -/
structure Played (N : Nested) (s : TokenStream) : Prop where
  expression : ∀ {min i}, i ≤ s.left → Unstalled (N.expression min (past s i)) →
    (running (Program.expressionAt min) i).Plays s (N.expression min (past s i))
  statement : ∀ {i}, i ≤ s.left → Unstalled (N.statement (past s i)) →
    (running Program.anyStatement i).Plays s (N.statement (past s i))

variable {N : Nested}

theorem plays_loop {round : σ → Program (σ ⊕ β)} {next : β → Program α}
    (rounds : ∀ state {i}, i ≤ s.left → Unstalled ((round state).parser N (past s i)) →
      (running (round state) i).Plays s ((round state).parser N (past s i)))
    (later : ∀ b {i}, i ≤ s.left → Unstalled ((next b).parser N (past s i)) →
      (running (next b) i).Plays s ((next b).parser N (past s i)))
    (state : σ) (le : i ≤ s.left)
    (moves : Unstalled ((Program.loop round state next).parser N (past s i))) :
    (running (.loop round state next) i).Plays s
      ((Program.loop round state next).parser N (past s i)) := by
  induction left : s.left - i using Nat.strongRecOn generalizing i state with
  | ind n ih =>
    have plays := rounds state le moves.left.firstRound
    have unfolded := moves.left.iterate_bind fun b => (next b).parser N
    have again {state' : σ} {j : Nat}
        (run : (round state).parser N (past s i) = .ok (.inl state', past s j)) : i < j := by
      have shorter := moves.left.shorter run
      rw [left_past, left_past] at shorter
      omega
    have advances : (running (.loop round state next) i).Advances s := fun state' j reached =>
      again (plays.reaches reached).eq_ok.1
    rw [Program.parser, unfolded] at moves ⊢
    refine .step advances rfl (plays.andThen fun x j run le' => ?_)
    have moves' := moves.right run
    cases x with
    | inl state' =>
      have further : s.left - j < n := by
        have := again run
        omega
      exact ih _ further state' le' moves' rfl
    | inr b => exact later b le' moves'

theorem plays_of_unstalled (played : Played N s) (p : Program α) (le : i ≤ s.left)
    (moves : Unstalled (p.parser N (past s i))) :
    (running p i).Plays s (p.parser N (past s i)) := by
  induction p generalizing i with
  | done a => exact .answer le
  | fail error => exact .failure (by simp only [move, cells_eq le])
  | peek next ih =>
    rw [Program.parser, bind_ok (next?_past s i)] at moves ⊢
    exact .step trivial (by simp only [Goes, move, cells_eq le]) (ih _ le moves)
  | peekSecond next ih =>
    rw [Program.parser, bind_ok (secondKind?_past s i)] at moves ⊢
    exact .step trivial (by simp only [Goes, move, cells_join]) (ih _ le moves)
  | peekCast next ih =>
    rw [Program.parser, bind_ok (seesCast_past s i)] at moves ⊢
    cases ahead : castAhead s i s.tokens[i]? with
    | false =>
      rw [ahead] at moves
      have goes : (running (.peekCast next) i).Goes s (running (next false) i) := by
        simp only [Goes, move, cells_eq le, ahead]
        rfl
      exact .step trivial goes (ih _ le moves)
    | true =>
      rw [ahead] at moves
      have goes : (running (.peekCast next) i).Goes s (castWord next i) := by
        simp only [Goes, move, cells_eq le, ahead, if_true]
      refine .step trivial goes (.step trivial ?_ (ih _ le moves))
      simp only [Goes, move, cells_eq (castAhead_inside ahead), Bool.true_and]
  | advance next ih =>
    rw [Program.parser, bind_ok (p := Parser.advance) rfl, dropFirst_past] at moves ⊢
    rcases Nat.lt_or_eq_of_le le with inside | rfl
    · have token := advanced_inside (List.getElem?_eq_getElem inside)
      exact .step trivial (by simp only [Goes, move, token]) (ih inside moves)
    · rw [past_end] at moves ⊢
      rcases Nat.eq_zero_or_pos s.left with none | more
      · exact .lost (.inr ⟨.beforeFirst, by simp only [move, advanced_empty none]⟩)
      · have token := advanced_end more (List.getElem?_eq_getElem (Nat.sub_lt more Nat.one_pos))
        exact .step trivial (by simp only [Goes, move, token]) (ih le moves)
  | skip k next ih =>
    refine plays_skip le moves fun kept j run le' => ih kept le' (moves.right run)
  | loop round state next ihRound ih => exact plays_loop ihRound ih state le moves
  | expression min next ih =>
    refine .step trivial rfl ((played.expression le moves.left).andThen fun e j run le' => ?_)
    exact ih e le' (moves.right run)
  | statement next ih =>
    refine .step trivial rfl ((played.statement le moves.left).andThen fun o j run le' => ?_)
    exact ih o le' (moves.right run)

open Grammar

theorem below_played {n : Nat} {p : Parser α} {c : Stage α}
    (played : (past s i).left < n → c.Plays s (p (past s i)))
    (moves : Unstalled (below n p (past s i))) : c.Plays s (below n p (past s i)) := by
  unfold below at moves ⊢
  split at moves
  · rw [if_pos ‹_›]
    exact played ‹_›
  · exact (moves rfl).elim

theorem guarded_played {n m : Nat}
    (expressions : ∀ {i}, i ≤ s.left → (past s i).left < n → ∀ min,
      (running (Program.expressionAt min) i).Plays s (expression min (past s i)))
    (statements : ∀ {i}, i ≤ s.left → (past s i).left < m →
      (running Program.anyStatement i).Plays s (statement (past s i))) :
    Played (guarded n m) s :=
  ⟨fun le moves => below_played (fun short => expressions le short _) moves,
    fun le moves => below_played (statements le) moves⟩

theorem expression_unstalled (min : Precedence) (s : TokenStream) :
    Unstalled (expression min s) :=
  .of_outcome ((phrases_agree _).expression (Nat.lt_succ_self _)).outcome

theorem statement_unstalled (s : TokenStream) : Unstalled (statement s) :=
  .of_outcome ((phrases_agree _).statement (Nat.lt_succ_self _)).outcome

theorem plays_phrases (s : TokenStream) (n : Nat) :
    (∀ {i}, i ≤ s.left → (past s i).left < n → ∀ min,
      (running (Program.expressionAt min) i).Plays s (expression min (past s i))) ∧
    ∀ {i}, i ≤ s.left → (past s i).left < n →
      (running Program.anyStatement i).Plays s (statement (past s i)) := by
  induction n with
  | zero => exact ⟨nofun, nofun⟩
  | succ n ih =>
    -- a statement may begin with an expression that has all its tokens, so expressions go first
    have expressions : ∀ {i}, i ≤ s.left → (past s i).left < n + 1 → ∀ min,
        (running (Program.expressionAt min) i).Plays s (expression min (past s i)) := by
      intro i le short min
      have played : Played (guarded (past s i).left (past s i).left) s :=
        guarded_played (fun le' short' => ih.1 le' (by omega)) fun le' short' => ih.2 le' (by omega)
      have moves := expression_unstalled min (past s i)
      rw [expression_run, ← Program.parser_expressionAt] at moves ⊢
      exact plays_of_unstalled played _ le moves
    refine ⟨expressions, fun {i} le short => ?_⟩
    have played : Played (guarded ((past s i).left + 1) (past s i).left) s :=
      guarded_played (fun le' short' => expressions le' (by omega))
        fun le' short' => ih.2 le' (by omega)
    have moves := statement_unstalled (past s i)
    rw [statement_run, ← Program.parser_anyStatement] at moves ⊢
    exact plays_of_unstalled played _ le moves

theorem phrases_played (s : TokenStream) : Played phrases s :=
  ⟨fun le _ => (plays_phrases s _).1 le (Nat.lt_succ_self _) _,
    fun le _ => (plays_phrases s _).2 le (Nat.lt_succ_self _)⟩

theorem plays_program {p : Program α} (le : i ≤ s.left)
    (moves : Unstalled (p.parser phrases (past s i))) :
    (running p i).Plays s (p.parser phrases (past s i)) :=
  plays_of_unstalled (phrases_played s) p le moves

end ResponseShape.Cursor
