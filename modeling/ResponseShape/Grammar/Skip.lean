import ResponseShape.Grammar.Parser

/-!
Passing over parts of a source that say nothing about responses. When the text stops inside a
group, its last token is read again and again: if that token closes a level of the group it closes
all of them, and if it does not the group has no end.
-/

namespace ResponseShape.Parser

/-- The tokens of a group up to its end, of which those on the first level are kept, and the
tokens after it. The group is `depth` levels deep and `last` is the token read before. -/
def closeGroup? (opens closes : TokenKind → Bool) :
    Nat → TokenKind → List Token → Option (List Token × List Token)
  | 0, _, rest => some ([], rest)
  | _ + 1, last, [] => if closes last then some ([], []) else none
  | depth + 1, _, t :: rest =>
    if opens t.kind then closeGroup? opens closes (depth + 2) t.kind rest
    else if closes t.kind then closeGroup? opens closes depth t.kind rest
    else
      (closeGroup? opens closes (depth + 1) t.kind rest).map fun r =>
        if depth = 0 then (t :: r.1, r.2) else r

def group (opens closes : TokenKind → Bool) (fault : Fault) : Parser (List Token) := fun s =>
  match s.tokens with
  | [] => .error ⟨fault, s.here⟩
  | t :: rest =>
    match closeGroup? opens closes 1 t.kind rest with
    | none => .error ⟨fault, t.position⟩
    | some (inner, rest) => .ok (inner, { s with tokens := rest })

def passGroup (opening closing : Symbol) : Parser Unit := do
  if ← seesSymbol opening then
    let _ ← group (· == .symbol opening) (· == .symbol closing) .unbalancedDelimiters
  else reject .openingDelimiter

def opensBracket (k : TokenKind) : Bool :=
  k == .symbol .leftBracket || k == .symbol .attributeOpen

def passAttribute : Parser Unit := do
  let _ ← group opensBracket (· == .symbol .rightBracket) .unterminatedAttribute

def variableName? (t : Token) : Option String :=
  match t.kind with
  | .var name => some name
  | _ => none

/-- The names of a parameter list. Types, default values and attributes are passed over. -/
def parameters : Parser (List String) := do
  if ← seesSymbol .leftParen then
    let inner ← group (fun k => k == .symbol .leftParen || opensBracket k)
      (fun k => k == .symbol .rightParen || k == .symbol .rightBracket) .unterminatedParameters
    return inner.filterMap variableName?
  else reject .parameterList

def opensLevel (k : TokenKind) : Bool :=
  k == .symbol .leftParen || k == .symbol .leftBrace || opensBracket k

def closesLevel (k : TokenKind) : Bool :=
  k == .symbol .rightParen || k == .symbol .rightBracket || k == .symbol .rightBrace

/-- What follows the next semicolon outside all groups. A closing token outside of them is passed
over. -/
def afterSemicolon? : Nat → List Token → Option (List Token)
  | _, [] => none
  | depth, t :: rest =>
    if opensLevel t.kind then afterSemicolon? (depth + 1) rest
    else if closesLevel t.kind then afterSemicolon? (depth - 1) rest
    else if t.kind == .symbol .semicolon && depth == 0 then some rest
    else afterSemicolon? depth rest

def passSemicolon : Parser Unit := fun s =>
  match afterSemicolon? 0 s.tokens with
  | none => .error ⟨.missingSemicolon, s.here⟩
  | some rest => .ok ((), { s with tokens := rest })

/-- Passes over tokens up to one that is wanted; without one the expectation is not met. -/
def passTo (wanted : TokenKind → Bool) (expectation : Expectation) : Parser Unit := fun s =>
  let rest : TokenStream := { s with tokens := s.tokens.dropWhile fun t => !wanted t.kind }
  if rest.tokens.isEmpty then reject expectation rest else .ok ((), rest)

def passReturnType : Parser Unit := do
  if ← seesSymbol .colon then
    passTo (fun k => k == .symbol .leftBrace || k == .symbol .semicolon || k == .symbol .fatArrow)
      .returnTypeEnd

end ResponseShape.Parser
