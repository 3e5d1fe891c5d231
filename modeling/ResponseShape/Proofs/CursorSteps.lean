import Mathlib.Logic.Relation
import ResponseShape.Proofs.CursorDeclarations

/-! The machine that runs programs of the cursor, step by step. A step goes on, ends the run, or
panics: where a place outside the row is read, and where the cursor or a counter would fall below
zero. Main statement: `Safe.reaches`, over a row that is not empty no run panics. -/
namespace ResponseShape.Cursor

open ResponseShape.Parser

/-- The row: the tokens, and behind them the mark for the end of the file. -/
def cells (s : TokenStream) : List (Option Token) := s.tokens.map some ++ [none]

inductive Panic where
  /-- A place outside the row is read. -/
  | outOfBounds
  /-- The token before the first one is read. -/
  | beforeFirst
  /-- A counter of levels falls below zero. -/
  | belowZero

/-- Where a run is: in a program, in a loop that skips, or at the word of a cast, and always with
the cursor at some place of the row. -/
inductive Stage (α : Type) : Type 1 where
  | running (p : Program α) (cursor : Nat)
  | skipping (k : Skip) (depth : Nat) (kept : List Token) (next : List Token → Program α)
      (cursor : Nat)
  | castWord (next : Bool → Program α) (cursor : Nat)

inductive Move (α : Type) : Type 1 where
  | goes (c : Stage α)
  | ends (result : Except ParseError α)
  | panics (p : Panic)

/-- Moves the cursor past the next token and reads that token. At the end the cursor stays, and the
last token is read again. -/
def advanced (s : TokenStream) (i : Nat) : Except Panic (Token × Nat) :=
  match (cells s)[i]? with
  | none => .error .outOfBounds
  | some (some t) => .ok (t, i + 1)
  | some none =>
    if i = 0 then .error .beforeFirst
    else
      match (cells s)[i - 1]? with
      | some (some t) => .ok (t, i)
      | _ => .error .outOfBounds

/-- What one round of a loop that skips makes of the token it reads: it goes on at some level, with
the tokens of the first one, or it ends. It fails where a counter would fall below zero. -/
def Skip.count (k : Skip) (depth : Nat) (kept : List Token) (t : Token) :
    Option (Nat × List Token ⊕ List Token) :=
  match k with
  | group d =>
    if d.opens t.kind then some (.inl (depth + 1, kept))
    else if d.closes t.kind then
      match depth with
      | 0 => none
      | 1 => some (.inr kept)
      | depth + 2 => some (.inl (depth + 1, kept))
    else some (.inl (depth, if depth = 1 then kept ++ [t] else kept))
  | semicolon =>
    if opensLevel t.kind then some (.inl (depth + 1, kept))
    else if closesLevel t.kind then some (.inl (depth - 1, kept))
    else if t.kind == .symbol .semicolon && depth == 0 then some (.inr kept)
    else some (.inl (depth, kept))

def past (s : TokenStream) (i : Nat) : TokenStream := { s with tokens := s.tokens.drop i }

def Program.turn {α β σ : Type} (round : σ → Program (σ ⊕ β)) (next : β → Program α) :
    σ ⊕ β → Program α
  | .inl state => .loop round state next
  | .inr b => next b

def castAhead (s : TokenStream) (i : Nat) (t : Option Token) : Bool :=
  t.map Token.kind == some (.symbol .leftParen) &&
    (cells s)[i + 1]?.join.map Token.kind == some .identifier &&
    (cells s)[i + 2]?.join.map Token.kind == some (.symbol .rightParen)

namespace Stage

variable {α : Type}

def cursor : Stage α → Nat
  | running _ i | skipping _ _ _ _ i | castWord _ i => i

def move (s : TokenStream) : Stage α → Move α
  | running (.done a) _ => .ends (.ok a)
  | running (.fail error) i =>
    match (cells s)[i]? with
    | none => .panics .outOfBounds
    | some _ => .ends (.error (error (past s i)))
  | running (.peek next) i =>
    match (cells s)[i]? with
    | none => .panics .outOfBounds
    | some t => .goes (running (next t) i)
  -- a look at the token after the next may leave the row, and then sees nothing
  | running (.peekSecond next) i =>
    .goes (running (next ((cells s)[i + 1]?.join.map Token.kind)) i)
  | running (.peekCast next) i =>
    match (cells s)[i]? with
    | none => .panics .outOfBounds
    | some t =>
      if castAhead s i t then .goes (castWord next i) else .goes (running (next false) i)
  | running (.advance next) i =>
    match advanced s i with
    | .error p => .panics p
    | .ok (_, j) => .goes (running next j)
  | running (.skip (.group d) next) i =>
    match advanced s i with
    | .error p => .panics p
    | .ok (_, j) => .goes (skipping (.group d) 1 [] next j)
  | running (.skip .semicolon next) i =>
    match (cells s)[i]? with
    | none => .panics .outOfBounds
    | some _ => .goes (skipping .semicolon 0 [] next i)
  | running (.loop round state next) i =>
    .goes (running ((round state).bind (Program.turn round next)) i)
  | running (.expression min next) i => .goes (running ((Program.expressionAt min).bind next) i)
  | running (.statement next) i => .goes (running (Program.anyStatement.bind next) i)
  | skipping k depth kept next i =>
    match advanced s i with
    | .error p => .panics p
    | .ok (t, j) =>
      match k.count depth kept t with
      | none => .panics .belowZero
      | some (.inl (depth, kept)) => .goes (skipping k depth kept next j)
      | some (.inr kept) => .goes (running (next kept) j)
  | castWord next i =>
    match (cells s)[i + 1]? with
    | none => .panics .outOfBounds
    | some t =>
      .goes (running (next (Nested.castTypes.contains (Text.foldCase (t.elim "" Token.lexeme)))) i)

def Goes (s : TokenStream) (c c' : Stage α) : Prop := c.move s = .goes c'

abbrev Reaches (s : TokenStream) : Stage α → Stage α → Prop := Relation.ReflTransGen (Goes s)

/-- The run comes to an end, with this result. -/
def Halts (s : TokenStream) (c : Stage α) (result : Except ParseError α) : Prop :=
  ∃ c', c.Reaches s c' ∧ c'.move s = .ends result

end Stage

variable {s : TokenStream} {i : Nat}

theorem cells_eq (le : i ≤ s.left) : (cells s)[i]? = some s.tokens[i]? := by
  rcases Nat.lt_or_eq_of_le le with inside | rfl
  · have known : s.tokens[i]? = some (s.tokens.get ⟨i, inside⟩) := List.getElem?_eq_getElem inside
    rw [cells, List.getElem?_append_left (by simpa [TokenStream.left] using inside),
      List.getElem?_map, known]
    rfl
  · have ended : s.tokens[s.left]? = none := List.getElem?_eq_none (Nat.le_refl _)
    rw [ended, cells, List.getElem?_append_right (by simp [TokenStream.left])]
    simp [TokenStream.left]

theorem advanced_inside {t : Token} (h : s.tokens[i]? = some t) :
    advanced s i = .ok (t, i + 1) := by
  have inside : i < s.left := (List.getElem?_eq_some_iff.1 h).1
  rw [advanced, cells_eq (Nat.le_of_lt inside), h]

theorem advanced_end (more : 0 < s.left) {t : Token} (last : s.tokens[s.left - 1]? = some t) :
    advanced s s.left = .ok (t, s.left) := by
  have ended : s.tokens[s.left]? = none := List.getElem?_eq_none (Nat.le_refl _)
  rw [advanced, cells_eq (Nat.le_refl _), ended]
  dsimp only
  rw [if_neg (Nat.ne_of_gt more), cells_eq (Nat.sub_le _ _), last]

theorem advanced_empty (none : s.left = 0) : advanced s s.left = .error .beforeFirst := by
  have ended : s.tokens[s.left]? = Option.none := List.getElem?_eq_none (Nat.le_refl _)
  rw [advanced, cells_eq (Nat.le_refl _), ended]
  exact if_pos none

theorem exists_advanced (more : 0 < s.left) (le : i ≤ s.left) :
    ∃ t j, advanced s i = .ok (t, j) ∧ i ≤ j ∧ j ≤ s.left := by
  rcases Nat.lt_or_eq_of_le le with inside | rfl
  · exact ⟨_, _, advanced_inside (List.getElem?_eq_getElem inside), Nat.le_succ i, inside⟩
  · have inside : s.left - 1 < s.left := Nat.sub_lt more Nat.one_pos
    exact ⟨_, _, advanced_end more (List.getElem?_eq_getElem inside), Nat.le_refl _,
      Nat.le_refl _⟩

theorem castAhead_inside (h : castAhead s i s.tokens[i]? = true) : i + 1 ≤ s.left := by
  rw [castAhead, Bool.and_eq_true, Bool.and_eq_true] at h
  obtain ⟨t, found, -⟩ := Option.map_eq_some_iff.1 (beq_iff_eq.1 h.1.1)
  exact (List.getElem?_eq_some_iff.1 found).1

/-- A level that a loop may count down from. A semicolon is looked for at any level, and the
counter stops at zero. -/
def Skip.IsLevel (depth : Nat) : Skip → Prop
  | group _ => 0 < depth
  | semicolon => True

theorem Skip.count_level {k : Skip} {depth : Nat} (level : k.IsLevel depth) (kept : List Token)
    (t : Token) :
    (∃ depth' kept', k.count depth kept t = some (.inl (depth', kept')) ∧ k.IsLevel depth') ∨
      ∃ kept', k.count depth kept t = some (.inr kept') := by
  cases k with
  | group d =>
    dsimp only [count]
    split
    · exact .inl ⟨_, _, rfl, Nat.succ_pos depth⟩
    · split
      · match depth, level with
        | 1, _ => exact .inr ⟨_, rfl⟩
        | depth + 2, _ => exact .inl ⟨_, _, rfl, Nat.succ_pos depth⟩
      · exact .inl ⟨_, _, rfl, level⟩
  | semicolon =>
    dsimp only [count]
    repeat' split
    · exact .inl ⟨_, _, rfl, trivial⟩
    · exact .inl ⟨_, _, rfl, trivial⟩
    · exact .inr ⟨_, rfl⟩
    · exact .inl ⟨_, _, rfl, trivial⟩

def Move.Fine {α : Type} (safe : Stage α → Prop) : Move α → Prop
  | .goes c => safe c
  | .ends _ => True
  | .panics _ => False

namespace Stage

variable {α : Type} {c c' : Stage α}

/-- The cursor is in the row, the word of a cast is, and a loop that skips is at a level that it
may count down from. -/
def Safe (s : TokenStream) : Stage α → Prop
  | running _ i => i ≤ s.left
  | skipping k depth _ _ i => i ≤ s.left ∧ k.IsLevel depth
  | castWord _ i => i + 1 ≤ s.left

theorem Safe.cursor_le (h : c.Safe s) : c.cursor ≤ s.left := by
  cases c with
  | running p i => exact h
  | skipping k depth kept next i => exact h.1
  | castWord next i => exact Nat.le_of_succ_le h

theorem Safe.move (more : 0 < s.left) (h : c.Safe s) : (c.move s).Fine (Safe s) := by
  cases c with
  | running p i =>
    obtain ⟨t, j, read, -, le⟩ := exists_advanced more h
    cases p with
    | done a => trivial
    | fail error =>
      rw [Stage.move, cells_eq h]
      trivial
    | peek next =>
      rw [Stage.move, cells_eq h]
      exact h
    | peekSecond next => exact h
    | peekCast next =>
      rw [Stage.move, cells_eq h]
      dsimp only
      split
      · exact castAhead_inside ‹_›
      · exact h
    | advance next =>
      rw [Stage.move, read]
      exact le
    | skip k next =>
      cases k with
      | group d =>
        rw [Stage.move, read]
        exact ⟨le, Nat.one_pos⟩
      | semicolon =>
        rw [Stage.move, cells_eq h]
        exact ⟨h, trivial⟩
    | loop round state next => exact h
    | expression min next => exact h
    | statement next => exact h
  | skipping k depth kept next i =>
    obtain ⟨t, j, read, -, le⟩ := exists_advanced more h.1
    rw [Stage.move, read]
    dsimp only
    obtain ⟨depth', kept', counted, level⟩ | ⟨kept', counted⟩ := Skip.count_level h.2 kept t
    · rw [counted]
      exact ⟨le, level⟩
    · rw [counted]
      exact le
  | castWord next i =>
    rw [Stage.move, cells_eq h]
    exact Nat.le_of_succ_le h

theorem Safe.reaches (more : 0 < s.left) (h : c.Safe s) (reached : c.Reaches s c') : c'.Safe s := by
  induction reached with
  | refl => exact h
  | tail _ goes safe =>
    have fine := safe.move more
    rw [goes] at fine
    exact fine

end Stage

end ResponseShape.Cursor
