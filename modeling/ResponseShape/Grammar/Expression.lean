import ResponseShape.Grammar.Precedence
import ResponseShape.Grammar.Skip

/-!
The forms of expressions. The phrases nested in a form are read by parsers that the form is given,
so that every form is a plain definition.
-/

namespace ResponseShape

/-- Parsers for the phrases nested in a phrase. A statement may be empty. -/
structure Nested where
  expression : Precedence → Parser Expr
  statement : Parser (Option Stmt)

namespace Nested

open ResponseShape.Parser

variable (nested : Nested)

def anyExpression : Parser Expr := nested.expression .lowest

/-- One item of an array. A reference mark before a value changes nothing. -/
def arrayItem : Parser ArrayItem := do
  if ← acceptSymbol .ellipsis then
    return ⟨none, ← nested.anyExpression, true⟩
  let _ ← acceptSymbol .ampersand
  let first ← nested.anyExpression
  if ← acceptSymbol .fatArrow then
    let _ ← acceptSymbol .ampersand
    return ⟨some first, ← nested.anyExpression, false⟩
  return ⟨none, first, false⟩

/-- Reads one more item of a list up to `closing`; a comma in its place is an empty slot. -/
def arrayRound (closing : Symbol) (items : List ArrayItem) :
    Parser (List ArrayItem ⊕ List ArrayItem) := do
  if ← seesSymbol closing then return .inr items
  if ← acceptSymbol .comma then return .inl items
  let items := items ++ [← nested.arrayItem]
  if ← acceptSymbol .comma then return .inl items
  return .inr items

def arrayItems (closing : Symbol) : Parser Expr := do
  let items ← iterate (nested.arrayRound closing) []
  expect closing .arrayEnd
  return .array items

def passArgumentName : Parser Unit := do
  if (← sees .identifier) && (← secondKind?) == some (.symbol .colon) then
    advance
    advance

def argumentRound (args : List Expr) : Parser (List Expr ⊕ List Expr) := do
  if ← seesSymbol .rightParen then return .inr args
  if ← acceptSymbol .ellipsis then
    if ← seesSymbol .rightParen then return .inr args
  passArgumentName
  let args := args ++ [← nested.anyExpression]
  if ← acceptSymbol .comma then return .inl args
  return .inr args

def arguments : Parser (List Expr) := do
  expect .leftParen .arguments
  let args ← iterate nested.argumentRound []
  expect .rightParen .argumentsEnd
  return args

def blockRound (body : List Stmt) : Parser (List Stmt ⊕ List Stmt) := do
  if ← acceptSymbol .rightBrace then return .inr body
  if ← atEnd then reject .blockEnd
  return .inl (body ++ (← nested.statement).toList)

def block : Parser (List Stmt) := do
  expect .leftBrace .block
  iterate nested.blockRound []

def construction : Parser Expr := do
  advance
  let owner ← match ← next? with
    | some ⟨.identifier, lexeme, _⟩ => do
      advance
      pure (Name.ofWritten lexeme)
    | some ⟨.keyword .kwStatic, _, _⟩ => do
      advance
      pure (Name.ofWritten "static")
    | some ⟨.keyword .kwClass, _, _⟩ => reject .namedClass
    | _ => reject .constructedClass
  if ← seesSymbol .leftParen then
    return .new owner (← nested.arguments)
  return .new owner []

def arrowFunction : Parser Expr := do
  advance
  let _ ← acceptSymbol .ampersand
  let params ← parameters
  passReturnType
  expect .fatArrow .arrowBody
  return .arrowFunction params (← nested.anyExpression)

def closure : Parser Expr := do
  advance
  let _ ← acceptSymbol .ampersand
  let params ← parameters
  if ← acceptKeyword .kwUse then
    passGroup .leftParen .rightParen
  passReturnType
  return .closure params (← nested.block)

/-- What a word stands for that is no keyword of the grammar. -/
def wordExpression (lexeme : String) : Parser Expr := do
  match Text.foldCase lexeme with
  | "true" => return .bool true
  | "false" => return .bool false
  | "null" => return .null
  | "array" =>
    if ← acceptSymbol .leftParen then nested.arrayItems .rightParen
    else return .constant (Name.ofWritten lexeme)
  | _ => return .constant (Name.ofWritten lexeme)

def primary : Parser Expr := do
  match ← next? with
  | none => fun s => .error ⟨.unexpectedToken "", s.here⟩
  | some ⟨kind, lexeme, position⟩ =>
    match kind with
    | .string value =>
      advance
      return .string value
    | .interpolated raw =>
      advance
      return .interpolated raw
    | .number value =>
      advance
      return .number value
    | .var name =>
      advance
      return .var name
    | .symbol .leftBracket =>
      advance
      nested.arrayItems .rightBracket
    | .symbol .leftParen =>
      advance
      let inner ← nested.anyExpression
      expect .rightParen .groupingEnd
      return inner
    | .keyword .kwNew => nested.construction
    | .keyword .kwFn => nested.arrowFunction
    | .keyword .kwFunction => nested.closure
    | .keyword .kwStatic =>
      advance
      if ← seesKeyword .kwFn then nested.arrowFunction
      else if ← seesKeyword .kwFunction then nested.closure
      else return .constant (Name.ofWritten "static")
    | .identifier =>
      advance
      nested.wordExpression lexeme
    | _ => failAt position (.unexpectedToken lexeme)

def memberAccess (target : Expr) (nullsafe : Bool) : Parser Expr := do
  advance
  let name ← memberName .memberName
  if ← seesSymbol .leftParen then
    return .methodCall target name (← nested.arguments) nullsafe
  return .property target name nullsafe

/-- `::`, which is next. Only a class name may stand before it. -/
def staticAccess (target : Expr) : Parser Expr := do
  match target with
  | .constant owner =>
    advance
    let name ← memberName .staticMemberName
    if ← seesSymbol .leftParen then
      return .staticCall owner name (← nested.arguments)
    return .classConstant owner name
  | _ => reject .classBeforeDoubleColon

def indexing (target : Expr) : Parser Expr := do
  advance
  let index ← if ← seesSymbol .rightBracket then pure none else some <$> nested.anyExpression
  expect .rightBracket .indexEnd
  return .index target index

def suffixRound (target : Expr) : Parser (Expr ⊕ Expr) := do
  match ← kind? with
  | some (.symbol .arrow) => return .inl (← nested.memberAccess target false)
  | some (.symbol .nullsafeArrow) => return .inl (← nested.memberAccess target true)
  | some (.symbol .doubleColon) => return .inl (← nested.staticAccess target)
  | some (.symbol .leftParen) => return .inl (.call target (← nested.arguments))
  | some (.symbol .leftBracket) => return .inl (← nested.indexing target)
  | _ => return .inr target

def castTypes : List String :=
  ["int", "integer", "float", "double", "string", "bool", "boolean", "array", "object"]

def seesCast : Parser Bool := fun s =>
  match s.tokens with
  | ⟨.symbol .leftParen, _, _⟩ :: ⟨.identifier, lexeme, _⟩ :: ⟨.symbol .rightParen, _, _⟩ :: _ =>
    .ok (castTypes.contains (Text.foldCase lexeme), s)
  | _ => .ok (false, s)

/-- An operand. A cast, a plus sign and `@` change nothing about it. -/
def operand : Parser Expr := do
  match ← kind? with
  | some (.symbol .bang) =>
    advance
    return .unary .not (← nested.expression .unary)
  | some (.symbol .minus) =>
    advance
    return .unary .neg (← nested.expression .unary)
  | some (.symbol .plus) | some (.symbol .atSign) =>
    advance
    nested.expression .unary
  | _ =>
    if ← seesCast then
      advance
      advance
      advance
      nested.expression .unary
    else iterate nested.suffixRound (← nested.primary)

def rightPart (lhs : Expr) : Infix → Parser Expr
  | .assign => do
    let _ ← acceptSymbol .ampersand
    return .assign lhs (← nested.anyExpression)
  | .ternary => do
    let middle ← if ← seesSymbol .colon then pure none else some <$> nested.anyExpression
    expect .colon .ternaryColon
    return .ternary lhs middle (← nested.expression .ternary)
  | .binary op => return .binary op lhs (← nested.expression op.precedence)

def operatorRound (min : Precedence) (lhs : Expr) : Parser (Expr ⊕ Expr) := do
  match (← kind?).bind Infix.ofKind? with
  | none => return .inr lhs
  | some o =>
    if o.continuesAt min then
      advance
      return .inl (← nested.rightPart lhs o)
    else return .inr lhs

def expressionAt (min : Precedence) : Parser Expr := do
  iterate (nested.operatorRound min) (← nested.operand)

end Nested

end ResponseShape
