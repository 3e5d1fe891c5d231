import ResponseShape.Source.Fault
import ResponseShape.Token.Basic

/-!
Parsers of token streams. A parser answers with a value and the tokens it leaves, or with the
first error. A repetition goes on only while its rounds read tokens.
-/

namespace ResponseShape

def TokenStream.here (s : TokenStream) : Position :=
  match s.tokens with
  | [] => s.stop
  | t :: _ => t.position

def TokenStream.left (s : TokenStream) : Nat := s.tokens.length

def TokenStream.dropFirst (s : TokenStream) : TokenStream := { s with tokens := s.tokens.tail }

abbrev Parser := StateT TokenStream (Except ParseError)

namespace Parser

def failAt (p : Position) (fault : Fault) : Parser α := fun _ => .error ⟨fault, p⟩

def reject (expectation : Expectation) : Parser α := fun s =>
  .error ⟨.unmet expectation (s.tokens.head?.map Token.lexeme), s.here⟩

def next? : Parser (Option Token) := fun s => .ok (s.tokens.head?, s)

def kind? : Parser (Option TokenKind) := fun s => .ok (s.tokens.head?.map Token.kind, s)

def secondKind? : Parser (Option TokenKind) := fun s => .ok (s.tokens.tail.head?.map Token.kind, s)

def atEnd : Parser Bool := fun s => .ok (s.tokens.isEmpty, s)

def advance : Parser Unit := fun s => .ok ((), s.dropFirst)

def sees (kind : TokenKind) : Parser Bool := do return (← kind?) == some kind

def seesSymbol (s : Symbol) : Parser Bool := sees (.symbol s)

def seesKeyword (k : Keyword) : Parser Bool := sees (.keyword k)

def accept (kind : TokenKind) : Parser Bool := do
  if ← sees kind then
    advance
    return true
  else return false

def acceptSymbol (s : Symbol) : Parser Bool := accept (.symbol s)

def acceptKeyword (k : Keyword) : Parser Bool := accept (.keyword k)

def expect (s : Symbol) (expectation : Expectation) : Parser Unit := do
  if ← acceptSymbol s then return () else reject expectation

def identifier (expectation : Expectation) : Parser String := do
  match ← next? with
  | some ⟨.identifier, lexeme, _⟩ =>
    advance
    return lexeme
  | _ => reject expectation

/-- The name of a member. Keywords may name one, and so may a variable, with its sign. -/
def memberName (expectation : Expectation) : Parser String := do
  match ← next? with
  | some ⟨.identifier, lexeme, _⟩ | some ⟨.keyword _, lexeme, _⟩ =>
    advance
    return lexeme
  | some ⟨.var name, _, _⟩ =>
    advance
    return "$" ++ name
  | _ => reject expectation

/-- Runs rounds from one state to the next until a round has the answer. -/
def iterate (round : σ → Parser (σ ⊕ α)) (state : σ) (s : TokenStream) :
    Except ParseError (α × TokenStream) :=
  match round state s with
  | .error e => .error e
  | .ok (.inr answer, rest) => .ok (answer, rest)
  | .ok (.inl state, rest) =>
    if rest.left < s.left then iterate round state rest else .error ⟨.stalled, rest.here⟩
termination_by s.left

/-- The parser where fewer than `n` tokens are left. -/
def below (n : Nat) (p : Parser α) : Parser α := fun s =>
  if s.left < n then p s else .error ⟨.stalled, s.here⟩

end Parser

end ResponseShape
