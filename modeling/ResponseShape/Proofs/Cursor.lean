import ResponseShape.Grammar.Declaration

/-! Parsers as the steps of a cursor over a row of tokens that ends in a mark for the end of the
file. The cursor can leave the row and a counter can fall below zero, and nothing says beforehand
that a loop comes to an end. What a program means is a parser; that the machine does what the
program means is proved elsewhere. -/
namespace ResponseShape.Cursor

open ResponseShape.Parser

/-- What a loop counts that skips a group: the delimiters that open a level and those that close
one. -/
structure Delimiters where
  opens : TokenKind → Bool
  closes : TokenKind → Bool
  /-- What is wrong with a group that has no end. -/
  fault : Fault
  apart : ∀ k, opens k = true → closes k = false

inductive Skip where
  | group (d : Delimiters)
  | semicolon

/-- What one function does from one look at the tokens to the next. A loop runs rounds from one
state to the next until a round has the answer. -/
inductive Program : Type → Type 1 where
  | done {α : Type} (a : α) : Program α
  /-- An error that tells of the next token. -/
  | fail {α : Type} (error : TokenStream → ParseError) : Program α
  | peek {α : Type} (next : Option Token → Program α) : Program α
  | peekSecond {α : Type} (next : Option TokenKind → Program α) : Program α
  | peekCast {α : Type} (next : Bool → Program α) : Program α
  | advance {α : Type} (next : Program α) : Program α
  | skip {α : Type} (k : Skip) (next : List Token → Program α) : Program α
  | loop {α β σ : Type} (round : σ → Program (σ ⊕ β)) (state : σ) (next : β → Program α) :
      Program α
  | expression {α : Type} (min : Precedence) (next : Expr → Program α) : Program α
  | statement {α : Type} (next : Option Stmt → Program α) : Program α

namespace Program

variable {α β γ σ : Type}

protected def bind : Program α → (α → Program β) → Program β
  | done a, f => f a
  | fail error, _ => fail error
  | peek next, f => peek fun t => (next t).bind f
  | peekSecond next, f => peekSecond fun k => (next k).bind f
  | peekCast next, f => peekCast fun b => (next b).bind f
  | advance next, f => advance (next.bind f)
  | skip k next, f => skip k fun kept => (next kept).bind f
  | loop round state next, f => loop round state fun b => (next b).bind f
  | expression min next, f => expression min fun e => (next e).bind f
  | statement next, f => statement fun o => (next o).bind f

instance : Monad Program where
  pure := done
  bind := Program.bind

theorem bind_bind (p : Program α) (f : α → Program β) (g : β → Program γ) :
    (p.bind f).bind g = p.bind fun a => (f a).bind g := by
  induction p with
  | done a => rfl
  | fail error => rfl
  | advance next ih => exact congrArg advance (ih f)
  | peek next ih => exact congrArg peek (funext fun t => ih t f)
  | peekSecond next ih => exact congrArg peekSecond (funext fun k => ih k f)
  | peekCast next ih => exact congrArg peekCast (funext fun b => ih b f)
  | skip k next ih => exact congrArg (skip k) (funext fun kept => ih kept f)
  | loop round state next _ ih => exact congrArg (loop round state) (funext fun b => ih b f)
  | expression min next ih => exact congrArg (expression min) (funext fun e => ih e f)
  | statement next ih => exact congrArg statement (funext fun o => ih o f)

end Program

namespace Skip

def bare : Skip → Parser (List Token)
  | group d => Parser.group d.opens d.closes d.fault
  | semicolon => (fun _ => []) <$> passSemicolon

def parser (k : Skip) : Parser (List Token) := fun s =>
  if s.tokens.isEmpty then .error ⟨.stalled, s.here⟩ else k.bare s

end Skip

/-- The parser that a program describes, given those for nested phrases. -/
def Program.parser (N : Nested) {α : Type} : Program α → Parser α
  | done a => pure a
  | fail error => fun s => .error (error s)
  | peek next => next? >>= fun t => (next t).parser N
  | peekSecond next => secondKind? >>= fun k => (next k).parser N
  | peekCast next => Nested.seesCast >>= fun b => (next b).parser N
  | advance next => Parser.advance >>= fun _ => next.parser N
  | skip k next => k.parser >>= fun kept => (next kept).parser N
  | loop round state next =>
    iterate (fun state => (round state).parser N) state >>= fun b => (next b).parser N
  | expression min next => N.expression min >>= fun e => (next e).parser N
  | statement next => N.statement >>= fun o => (next o).parser N

namespace Program

variable {α β σ : Type} (N : Nested)

@[simp] theorem parser_pure (a : α) : (pure a : Program α).parser N = pure a := rfl

@[simp] theorem parser_done (a : α) : (done a).parser N = pure a := rfl

@[simp] theorem parser_bind (p : Program α) (f : α → Program β) :
    (p >>= f).parser N = p.parser N >>= fun a => (f a).parser N := by
  change (p.bind f).parser N = _
  induction p with
  | done a => rfl
  | fail error => rfl
  | advance next ih => simp only [Program.bind, parser, bind_assoc, ih]
  | peek next ih => simp only [Program.bind, parser, bind_assoc, ih]
  | peekSecond next ih => simp only [Program.bind, parser, bind_assoc, ih]
  | peekCast next ih => simp only [Program.bind, parser, bind_assoc, ih]
  | skip k next ih => simp only [Program.bind, parser, bind_assoc, ih]
  | loop round state next _ ih => simp only [Program.bind, parser, bind_assoc, ih]
  | expression min next ih => simp only [Program.bind, parser, bind_assoc, ih]
  | statement next ih => simp only [Program.bind, parser, bind_assoc, ih]

@[simp] theorem parser_map (f : α → β) (p : Program α) :
    (f <$> p).parser N = f <$> p.parser N :=
  (parser_bind N p _).trans (bind_pure_comp _ _)

@[simp] theorem parser_ite (c : Prop) [Decidable c] (p q : Program α) :
    (if c then p else q).parser N = if c then p.parser N else q.parser N :=
  apply_ite (parser N) c p q

def next? : Program (Option Token) := peek done

def kind? : Program (Option TokenKind) := peek fun t => done (t.map Token.kind)

def secondKind? : Program (Option TokenKind) := peekSecond done

def seesCast : Program Bool := peekCast done

def atEnd : Program Bool := peek fun t => done t.isNone

def read : Program Unit := advance (done ())

def failAt (p : Position) (fault : Fault) : Program α := fail fun _ => ⟨fault, p⟩

def reject (expectation : Expectation) : Program α :=
  fail fun s => ⟨.unmet expectation (s.tokens.head?.map Token.lexeme), s.here⟩

def sees (kind : TokenKind) : Program Bool := do return (← kind?) == some kind

def seesSymbol (s : Symbol) : Program Bool := sees (.symbol s)

def seesKeyword (k : Keyword) : Program Bool := sees (.keyword k)

def accept (kind : TokenKind) : Program Bool := do
  if ← sees kind then
    read
    return true
  else return false

def acceptSymbol (s : Symbol) : Program Bool := accept (.symbol s)

def acceptKeyword (k : Keyword) : Program Bool := accept (.keyword k)

def expect (s : Symbol) (expectation : Expectation) : Program Unit := do
  if ← acceptSymbol s then return () else reject expectation

def identifier (expectation : Expectation) : Program String := do
  match ← next? with
  | some ⟨.identifier, lexeme, _⟩ =>
    read
    return lexeme
  | _ => reject expectation

def memberName (expectation : Expectation) : Program String := do
  match ← next? with
  | some ⟨.identifier, lexeme, _⟩ | some ⟨.keyword _, lexeme, _⟩ =>
    read
    return lexeme
  | some ⟨.var name, _, _⟩ =>
    read
    return "$" ++ name
  | _ => reject expectation

def iterate (round : σ → Program (σ ⊕ α)) (state : σ) : Program α := loop round state done

def expressionOf (min : Precedence) : Program Expr := expression min done

def anyExpression : Program Expr := expressionOf .lowest

def someStatement : Program (Option Stmt) := statement done

def skipping (k : Skip) : Program (List Token) := skip k done

section
variable (expectation : Expectation)

@[simp] theorem parser_next? : next?.parser N = Parser.next? := bind_pure _

@[simp] theorem parser_kind? : kind?.parser N = Parser.kind? := rfl

@[simp] theorem parser_secondKind? : secondKind?.parser N = Parser.secondKind? := bind_pure _

@[simp] theorem parser_seesCast : seesCast.parser N = Nested.seesCast := bind_pure _

@[simp] theorem parser_atEnd : atEnd.parser N = Parser.atEnd := by
  funext s
  cases s with | mk tokens stop => cases tokens <;> rfl

@[simp] theorem parser_read : read.parser N = Parser.advance := bind_pure _

theorem parser_bind_next {f : Option Token → Program α} {g : Option Token → Parser α}
    (h : ∀ t, (f t).parser N = g t) : (next? >>= f).parser N = Parser.next? >>= g := by
  rw [parser_bind, parser_next?, funext h]

theorem parser_bind_kind {f : Option TokenKind → Program α} {g : Option TokenKind → Parser α}
    (h : ∀ k, (f k).parser N = g k) : (kind? >>= f).parser N = Parser.kind? >>= g := by
  rw [parser_bind, parser_kind?, funext h]

theorem parser_bind_read {f : Unit → Program α} {g : Unit → Parser α}
    (h : (f ()).parser N = g ()) : (read >>= f).parser N = Parser.advance >>= g := by
  rw [parser_bind, parser_read, show (fun u => (f u).parser N) = g from funext fun _ => h]

@[simp] theorem parser_failAt (p : Position) (fault : Fault) :
    (failAt p fault : Program α).parser N = Parser.failAt p fault := rfl

@[simp] theorem parser_reject : (reject expectation : Program α).parser N =
    Parser.reject expectation := rfl

@[simp] theorem parser_sees (kind : TokenKind) : (sees kind).parser N = Parser.sees kind := by
  simp [sees, Parser.sees]

@[simp] theorem parser_seesSymbol (s : Symbol) :
    (seesSymbol s).parser N = Parser.seesSymbol s :=
  parser_sees N _

@[simp] theorem parser_seesKeyword (k : Keyword) :
    (seesKeyword k).parser N = Parser.seesKeyword k :=
  parser_sees N _

@[simp] theorem parser_accept (kind : TokenKind) :
    (accept kind).parser N = Parser.accept kind := by
  simp [accept, Parser.accept]

@[simp] theorem parser_acceptSymbol (s : Symbol) :
    (acceptSymbol s).parser N = Parser.acceptSymbol s :=
  parser_accept N _

@[simp] theorem parser_acceptKeyword (k : Keyword) :
    (acceptKeyword k).parser N = Parser.acceptKeyword k :=
  parser_accept N _

@[simp] theorem parser_expect (s : Symbol) :
    (expect s expectation).parser N = Parser.expect s expectation := by
  simp [expect, Parser.expect]

@[simp] theorem parser_identifier :
    (identifier expectation).parser N = Parser.identifier expectation :=
  parser_bind_next N fun t => by split <;> simp

@[simp] theorem parser_memberName :
    (memberName expectation).parser N = Parser.memberName expectation :=
  parser_bind_next N fun t => by split <;> simp

@[simp] theorem parser_iterate (round : σ → Program (σ ⊕ α)) (state : σ) :
    (iterate round state).parser N = Parser.iterate (fun state => (round state).parser N) state :=
  bind_pure (m := Parser) _

@[simp] theorem parser_expressionOf (min : Precedence) :
    (expressionOf min).parser N = N.expression min :=
  bind_pure _

@[simp] theorem parser_anyExpression : anyExpression.parser N = N.anyExpression := bind_pure _

@[simp] theorem parser_someStatement : someStatement.parser N = N.statement := bind_pure _

@[simp] theorem parser_skipping (k : Skip) : (skipping k).parser N = k.parser := bind_pure _

end

end Program

end ResponseShape.Cursor
