import ResponseShape.Grammar.Expression

/-!
The forms of statements. Loops and `try` are kept as the blocks they run, `switch` is passed over
whole.
-/

namespace ResponseShape.Nested

open ResponseShape.Parser

variable (nested : Nested)

def body : Parser (List Stmt) := do
  if ← seesSymbol .leftBrace then nested.block
  else return (← nested.statement).toList

/-- The end of a simple statement: a semicolon, or the end of the input. -/
def statementEnd (expectation : Expectation) : Parser Unit := do
  if ← acceptSymbol .semicolon then return ()
  if ← atEnd then return ()
  reject expectation

def returnStatement : Parser Stmt := do
  advance
  if ← acceptSymbol .semicolon then return .ret none
  let value ← nested.anyExpression
  statementEnd .semicolonAfterReturn
  return .ret (some value)

def condition : Parser Expr := do
  expect .leftParen .condition
  let e ← nested.anyExpression
  expect .rightParen .conditionEnd
  return e

def elseRound (elseIfs : List ElseIf) :
    Parser (List ElseIf ⊕ (List ElseIf × Option (List Stmt))) := do
  if ← acceptKeyword .kwElseIf then
    let e ← nested.condition
    return .inl (elseIfs ++ [⟨e, ← nested.body⟩])
  if ← acceptKeyword .kwElse then
    return .inr (elseIfs, some (← nested.body))
  return .inr (elseIfs, none)

def ifStatement : Parser Stmt := do
  advance
  let e ← nested.condition
  let body ← nested.body
  let (elseIfs, otherwise) ← iterate nested.elseRound []
  return .branch e body elseIfs otherwise

def foreachTarget : Parser Expr := do
  let _ ← acceptSymbol .ampersand
  nested.anyExpression

def foreachStatement : Parser Stmt := do
  advance
  expect .leftParen .foreachHeader
  let subject ← nested.anyExpression
  if ← acceptKeyword .kwAs then
    let first ← nested.foreachTarget
    let (key, value) ←
      if ← acceptSymbol .fatArrow then pure (some first, ← nested.foreachTarget)
      else pure (none, first)
    expect .rightParen .foreachHeaderEnd
    return .foreach subject key value (← nested.body)
  else reject .foreachAs

def loopStatement : Parser Stmt := do
  advance
  passGroup .leftParen .rightParen
  return .block (← nested.body)

def seesWord (word : String) : Parser Bool := do
  match ← next? with
  | some ⟨.identifier, lexeme, _⟩ => return Text.foldCase lexeme == word
  | _ => return false

def handlerRound (blocks : List Stmt) : Parser (List Stmt ⊕ List Stmt) := do
  if ← seesWord "catch" then
    advance
    passGroup .leftParen .rightParen
    return .inl (blocks ++ [.block (← nested.block)])
  if ← seesWord "finally" then
    advance
    return .inl (blocks ++ [.block (← nested.block)])
  return .inr blocks

def tryStatement : Parser Stmt := do
  advance
  return .block (← iterate nested.handlerRound [.block (← nested.block)])

def switchStatement : Parser Stmt := do
  advance
  passGroup .leftParen .rightParen
  passGroup .leftBrace .rightBrace
  return .block []

def expressionStatement : Parser Stmt := do
  let e ← nested.anyExpression
  statementEnd .semicolonAfterExpression
  return .expr e

def wordStatement (lexeme : String) : Parser Stmt := do
  match Text.foldCase lexeme with
  | "while" | "for" => nested.loopStatement
  | "try" => nested.tryStatement
  | "switch" => switchStatement
  | "echo" | "throw" =>
    if (← secondKind?) != some (.symbol .leftParen) then advance
    nested.expressionStatement
  | _ => nested.expressionStatement

/-- A statement; a semicolon or a documentation comment alone is none. -/
def anyStatement : Parser (Option Stmt) := do
  match ← next? with
  | some ⟨.symbol .semicolon, _, _⟩ | some ⟨.docComment _, _, _⟩ =>
    advance
    return none
  | some ⟨.symbol .leftBrace, _, _⟩ => return some (.block (← nested.block))
  | some ⟨.keyword .kwReturn, _, _⟩ => return some (← nested.returnStatement)
  | some ⟨.keyword .kwIf, _, _⟩ => return some (← nested.ifStatement)
  | some ⟨.keyword .kwForeach, _, _⟩ => return some (← nested.foreachStatement)
  | some ⟨.identifier, lexeme, _⟩ => return some (← nested.wordStatement lexeme)
  | _ => return some (← nested.expressionStatement)

end ResponseShape.Nested
