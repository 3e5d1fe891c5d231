import ResponseShape.Proofs.CursorSteps

/-! What a run of the machine comes to: an answer, or nothing where it stays in a loop that skips at
the end of the row or has panicked. Main statements: `Plays.bind` for programs in a row, and
`Plays.reaches`, `Plays.eq_of_halts` and `Plays.halts` for what a run says of its stages. -/
namespace ResponseShape.Cursor

open ResponseShape.Parser

variable {α β σ : Type} {s : TokenStream} {i j : Nat}

theorem left_past (s : TokenStream) (i : Nat) : (past s i).left = s.left - i := List.length_drop

theorem head?_past (s : TokenStream) (i : Nat) : (past s i).tokens.head? = s.tokens[i]? :=
  List.head?_drop

theorem dropFirst_past (s : TokenStream) (i : Nat) : (past s i).dropFirst = past s (i + 1) :=
  congrArg (TokenStream.mk · s.stop) List.tail_drop

theorem cells_join (s : TokenStream) (i : Nat) : (cells s)[i]?.join = s.tokens[i]? := by
  rcases Nat.lt_or_ge s.left i with outside | le
  · rw [List.getElem?_eq_none (by simpa [cells, TokenStream.left] using Nat.succ_le_of_lt outside),
      List.getElem?_eq_none (Nat.le_of_lt outside), Option.join_none]
  · rw [cells_eq le, Option.join_some]

theorem of_past_cons {t : Token} {tokens : List Token} (here : (past s i).tokens = t :: tokens) :
    s.tokens[i]? = some t ∧ (past s (i + 1)).tokens = tokens := by
  rw [← head?_past, ← dropFirst_past, TokenStream.dropFirst, here]
  exact ⟨rfl, rfl⟩

theorem past_left (s : TokenStream) : (past s s.left).tokens = [] := List.drop_length

theorem past_end (s : TokenStream) : past s (s.left + 1) = past s s.left := by
  rw [← dropFirst_past, TokenStream.dropFirst, past_left]
  exact congrArg (TokenStream.mk · s.stop) (past_left s).symm

theorem next?_past (s : TokenStream) (i : Nat) :
    Parser.next? (past s i) = .ok (s.tokens[i]?, past s i) := by
  rw [Parser.next?, head?_past]

theorem secondKind?_past (s : TokenStream) (i : Nat) :
    Parser.secondKind? (past s i) = .ok (s.tokens[i + 1]?.map Token.kind, past s i) := by
  rw [Parser.secondKind?, ← head?_past, ← dropFirst_past]
  rfl

theorem seesCast_past (s : TokenStream) (i : Nat) :
    Nested.seesCast (past s i) =
      .ok (castAhead s i s.tokens[i]? &&
        Nested.castTypes.contains (Text.foldCase (s.tokens[i + 1]?.elim "" Token.lexeme)),
        past s i) := by
  have place (k : Nat) : s.tokens[i + k]? = (past s i).tokens[k]? := List.getElem?_drop.symm
  rw [castAhead, cells_join, cells_join, place 1, place 2, show s.tokens[i]? = _ from place 0,
    Nested.seesCast]
  split
  · rename_i cast
    simp [cast]
  · rename_i other
    refine congrArg (fun b => Except.ok (b, past s i)) (Eq.symm (Bool.and_eq_false_imp.2 ?_))
    intro ahead
    simp only [Bool.and_eq_true, beq_iff_eq, Option.map_eq_some_iff] at ahead
    obtain ⟨⟨⟨⟨_, _, _⟩, first, rfl⟩, ⟨_, _, _⟩, second, rfl⟩, ⟨_, _, _⟩, third, rfl⟩ := ahead
    generalize (past s i).tokens = tokens at first second third other
    rcases tokens with _ | ⟨a, _ | ⟨b, _ | ⟨c, tail⟩⟩⟩
    · cases first
    · cases second
    · cases third
    · cases first
      cases second
      cases third
      exact (other _ _ _ _ _ _ _ rfl).elim

namespace Stage

def bind (f : α → Program β) : Stage α → Stage β
  | running p i => running (p.bind f) i
  | skipping k depth kept next i => skipping k depth kept (fun kept => (next kept).bind f) i
  | castWord next i => castWord (fun b => (next b).bind f) i

end Stage

/-- How a step is one of a run that goes on with `f`. -/
inductive Move.Within (f : α → Program β) : Move α → Move β → Prop
  | goes (c : Stage α) : Within f (.goes c) (.goes (c.bind f))
  | answers (a : α) (m : Move β) : Within f (.ends (.ok a)) m
  | fails (e : ParseError) : Within f (.ends (.error e)) (.ends (.error e))
  | panics (p : Panic) : Within f (.panics p) (.panics p)

namespace Move.Within

variable {f : α → Program β} {c : Stage α} {m : Move β} {e : ParseError} {p : Panic}

theorem eq_goes (h : Move.Within f (.goes c) m) : m = .goes (c.bind f) := by
  cases h
  rfl

theorem eq_fails (h : Move.Within f (.ends (.error e)) m) : m = .ends (.error e) := by
  cases h
  rfl

theorem eq_panics (h : Move.Within f (.panics p) m) : m = .panics p := by
  cases h
  rfl

end Move.Within

theorem Program.turn_bind (round : σ → Program (σ ⊕ β)) {γ : Type} (next : β → Program α)
    (f : α → Program γ) :
    (fun x => (turn round next x).bind f) = turn round fun b => (next b).bind f := by
  funext x
  cases x <;> rfl

namespace Stage

theorem move_bind (s : TokenStream) (f : α → Program β) (c : Stage α) :
    Move.Within f (c.move s) ((c.bind f).move s) := by
  cases c with
  | running p i =>
    cases p with
    | done a => exact .answers a _
    | fail error =>
      simp only [bind, Program.bind, move]
      split
      · exact .panics _
      · exact .fails _
    | peek next =>
      simp only [bind, Program.bind, move]
      split
      · exact .panics _
      · exact .goes _
    | peekSecond next => exact .goes _
    | peekCast next =>
      simp only [bind, Program.bind, move]
      split
      · exact .panics _
      · split
        · exact .goes (castWord next i)
        · exact .goes _
    | advance next =>
      simp only [bind, Program.bind, move]
      split
      · exact .panics _
      · exact .goes _
    | skip k next =>
      cases k with
      | group d =>
        simp only [bind, Program.bind, move]
        split
        · exact .panics _
        · exact .goes (skipping _ _ _ next _)
      | semicolon =>
        simp only [bind, Program.bind, move]
        split
        · exact .panics _
        · exact .goes (skipping _ _ _ next _)
    | loop round state next =>
      have step := Move.Within.goes (f := f)
        (running ((round state).bind (Program.turn round next)) i)
      rw [bind, Program.bind_bind, Program.turn_bind] at step
      exact step
    | expression min next =>
      have step := Move.Within.goes (f := f) (running ((Program.expressionAt min).bind next) i)
      rw [bind, Program.bind_bind] at step
      exact step
    | statement next =>
      have step := Move.Within.goes (f := f) (running (Program.anyStatement.bind next) i)
      rw [bind, Program.bind_bind] at step
      exact step
  | skipping k depth kept next i =>
    simp only [bind, move]
    split
    · exact .panics _
    · split
      · exact .panics _
      · exact .goes (skipping _ _ _ next _)
      · exact .goes _
  | castWord next i =>
    simp only [bind, move]
    split
    · exact .panics _
    · exact .goes _

theorem Goes.bind {c c' : Stage α} {f : α → Program β} (h : c.Goes s c') :
    (c.bind f).Goes s (c'.bind f) := by
  have step := move_bind s f c
  rw [h] at step
  exact step.eq_goes

/-- A loop that goes round again has moved the cursor, unless it skips and is at the end. -/
def Advances (s : TokenStream) : Stage α → Prop
  | running (.loop round state _) i =>
    ∀ state' j, (running (round state) i).Reaches s (running (.done (.inl state')) j) → i < j
  | skipping k depth kept next i =>
    i < s.left → ∀ c', (skipping k depth kept next i).Goes s c' → i < c'.cursor
  | _ => True

def IsOpen (s : TokenStream) : Stage α → Prop
  | skipping _ _ _ _ i => i = s.left
  | _ => False

end Stage

/-- Where the last token is read again and again, it never ends the loop. -/
def Skip.Stays (depth : Nat) (t : Token) : Skip → Prop
  | group d => d.closes t.kind = false
  | semicolon => t.kind = .symbol .semicolon → 0 < depth

theorem Skip.Stays.count {k : Skip} {depth : Nat} {t : Token} (h : k.Stays depth t)
    (kept : List Token) :
    ∃ depth' kept', k.count depth kept t = some (.inl (depth', kept')) ∧ k.Stays depth' t := by
  cases k with
  | group d =>
    dsimp only [Skip.count]
    split
    · exact ⟨_, _, rfl, h⟩
    · rw [if_neg (Bool.eq_false_iff.1 h)]
      exact ⟨_, _, rfl, h⟩
  | semicolon =>
    dsimp only [Skip.count]
    repeat' split
    · exact ⟨_, _, rfl, fun _ => Nat.succ_pos depth⟩
    · rename_i closing
      refine ⟨_, _, rfl, fun semicolon => ?_⟩
      rw [semicolon] at closing
      exact absurd closing (by decide)
    · rename_i ended
      rw [Bool.and_eq_true, beq_iff_eq, beq_iff_eq] at ended
      exact absurd (h ended.1) (Nat.not_lt.2 (Nat.le_of_eq ended.2))
    · exact ⟨_, _, rfl, h⟩

namespace Stage

/-- The run never ends, in a loop that skips. -/
def IsStuck (s : TokenStream) : Stage α → Prop
  | skipping k depth _ _ i =>
    i = s.left ∧ ∃ t, s.tokens[s.left - 1]? = some t ∧ k.Stays depth t
  | _ => False

def IsLost (s : TokenStream) (c : Stage α) : Prop :=
  c.IsStuck s ∨ ∃ p, c.move s = .panics p

theorem IsStuck.again {c : Stage α} (h : c.IsStuck s) : ∃ c', c.Goes s c' ∧ c'.IsStuck s := by
  cases c with
  | running p i => exact h.elim
  | castWord next i => exact h.elim
  | skipping k depth kept next i =>
    obtain ⟨rfl, t, last, stays⟩ := h
    have more : 0 < s.left := Nat.zero_lt_of_lt (List.getElem?_eq_some_iff.1 last).1
    have read := advanced_end more last
    obtain ⟨depth', kept', counted, stays⟩ := stays.count kept
    exact ⟨skipping k depth' kept' next s.left, by simp only [Goes, move, read, counted],
      rfl, t, last, stays⟩

theorem IsStuck.goes {c c' : Stage α} (h : c.IsStuck s) (goes : c.Goes s c') : c'.IsStuck s := by
  obtain ⟨c'', goes', stuck⟩ := h.again
  cases goes'.symm.trans goes
  exact stuck

theorem IsStuck.bind {c : Stage α} {f : α → Program β} (h : c.IsStuck s) :
    (c.bind f).IsStuck s := by
  cases c with
  | running p i => exact h
  | castWord next i => exact h
  | skipping k depth kept next i => exact h

theorem IsLost.bind {c : Stage α} {f : α → Program β} (h : c.IsLost s) : (c.bind f).IsLost s := by
  rcases h with stuck | ⟨p, panics⟩
  · exact .inl stuck.bind
  · have step := move_bind s f c
    rw [panics] at step
    exact .inr ⟨p, step.eq_panics⟩

theorem IsLost.goes {c c' : Stage α} (h : c.IsLost s) (goes : c.Goes s c') : c'.IsLost s := by
  rcases h with stuck | ⟨p, panics⟩
  · exact .inl (stuck.goes goes)
  · cases panics.symm.trans goes

theorem advances_skipping (k : Skip) (depth : Nat) (kept : List Token)
    (next : List Token → Program α) : (skipping k depth kept next i).Advances s := by
  intro inside c' goes
  rw [Goes, move, advanced_inside (List.getElem?_eq_getElem inside)] at goes
  dsimp only at goes
  split at goes
  · cases goes
  · cases goes
    exact Nat.lt_succ_self i
  · cases goes
    exact Nat.lt_succ_self i

theorem Advances.bind {c c' : Stage α} {f : α → Program β} (h : c.Advances s)
    (goes : c.Goes s c') : (c.bind f).Advances s := by
  cases c with
  | running p i =>
    cases p with
    | done a => cases goes
    | loop round state next => exact h
    | _ => trivial
  | skipping k depth kept next i => exact advances_skipping k depth kept _
  | castWord next i => trivial

/-- The run of a stage comes to this answer, or to nothing. -/
inductive Plays (s : TokenStream) : Stage α → Except ParseError (α × TokenStream) → Prop
  | answer {a : α} {i : Nat} (le : i ≤ s.left) : Plays s (running (.done a) i) (.ok (a, past s i))
  | failure {c : Stage α} {e : ParseError} (fails : c.move s = .ends (.error e)) :
    Plays s c (.error e)
  | lost {c : Stage α} {result} (lost : c.IsLost s) : Plays s c result
  | step {c c' : Stage α} {result} (advances : c.Advances s) (goes : c.Goes s c')
    (later : Plays s c' result) : Plays s c result

namespace Plays

variable {c c' : Stage α} {result : Except ParseError (α × TokenStream)}

theorem bind {f : α → Program β} {g : α → Parser β} (h : Plays s c result)
    (next : ∀ a j, result = .ok (a, past s j) → j ≤ s.left →
      Plays s (running (f a) j) (g a (past s j))) :
    Plays s (c.bind f) (result >>= fun r => g r.1 r.2) := by
  induction h with
  | answer le => exact next _ _ rfl le
  | @failure c e fails =>
    have step := move_bind s f c
    rw [fails] at step
    exact .failure step.eq_fails
  | lost h => exact .lost h.bind
  | step advances goes later ih => exact .step (advances.bind goes) (Goes.bind goes) (ih next)

theorem andThen {p : Program α} {q : Parser α} {start : TokenStream} {f : α → Program β}
    {g : α → Parser β} (h : Plays s (running p i) (q start))
    (next : ∀ a j, q start = .ok (a, past s j) → j ≤ s.left →
      Plays s (running (f a) j) (g a (past s j))) :
    Plays s (running (p.bind f) i) ((q >>= g) start) := h.bind next

theorem goes (h : Plays s c result) (goes : c.Goes s c') : Plays s c' result := by
  cases h with
  | answer le => cases goes
  | failure fails => cases fails.symm.trans goes
  | lost h => exact .lost (h.goes goes)
  | step _ goes' later =>
    cases goes'.symm.trans goes
    exact later

theorem reaches (h : Plays s c result) (reached : c.Reaches s c') : Plays s c' result := by
  induction reached with
  | refl => exact h
  | tail _ goes ih => exact ih.goes goes

theorem advances (h : Plays s c result) : c.Advances s := by
  cases c with
  | castWord next i => trivial
  | skipping k depth kept next i => exact advances_skipping k depth kept next
  | running p i =>
    cases p with
    | loop round state next =>
      cases h with
      | failure fails => cases fails
      | lost h => rcases h with stuck | ⟨p, panics⟩ <;> contradiction
      | step advances => exact advances
    | _ => trivial

theorem eq_ok {a : α} (h : Plays s (running (.done a) j) result) :
    result = .ok (a, past s j) ∧ j ≤ s.left := by
  cases h with
  | answer le => exact ⟨rfl, le⟩
  | failure fails => cases fails
  | lost h => rcases h with stuck | ⟨p, panics⟩ <;> contradiction
  | step _ goes => cases goes

/-- A run that ends, ends with the answer that it plays. -/
theorem eq_of_halts {ended : Except ParseError α} (h : Plays s c result)
    (halts : c.Halts s ended) : ended = result.map Prod.fst := by
  obtain ⟨c', reached, ends⟩ := halts
  cases h.reaches reached with
  | answer le =>
    cases ends
    rfl
  | failure fails =>
    cases fails.symm.trans ends
    rfl
  | lost lost =>
    rcases lost with stuck | ⟨p, panics⟩
    · obtain ⟨c'', goes, -⟩ := stuck.again
      cases goes.symm.trans ends
    · cases panics.symm.trans ends
  | step _ goes _ => cases goes.symm.trans ends

theorem halts (h : Plays s c result) (found : ∀ c', c.Reaches s c' → ¬ c'.IsLost s) :
    c.Halts s (result.map Prod.fst) := by
  induction h with
  | answer le => exact ⟨_, .refl, rfl⟩
  | failure fails => exact ⟨_, .refl, fails⟩
  | lost h => exact absurd h (found _ .refl)
  | step _ goes _ ih =>
    obtain ⟨c', reached, ends⟩ := ih fun c' reached => found c' (.head goes reached)
    exact ⟨c', .head goes reached, ends⟩

end Plays

end Stage

end ResponseShape.Cursor
