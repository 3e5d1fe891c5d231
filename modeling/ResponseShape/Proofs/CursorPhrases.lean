import ResponseShape.Proofs.Cursor
import ResponseShape.Proofs.Parsing

/-! The functions that read expressions and statements, as programs of the cursor. Each means the
form that it is named for; a loop that skips is only entered at a token. -/
namespace ResponseShape.Cursor

open ResponseShape.Parser

/-- The parsers do the same wherever a token is next. -/
def SameAhead {α : Type} (p q : Parser α) : Prop := ∀ s : TokenStream, 0 < s.left → p s = q s

section SameAhead

variable {α β : Type} {p q : Parser α}

theorem SameAhead.of_eq (h : p = q) : SameAhead p q := fun s _ => congrFun h s

theorem SameAhead.bind (h : SameAhead p q) (f : α → Parser β) :
    SameAhead (p >>= f) (q >>= f) := fun s more => by
  change (p s >>= _) = (q s >>= _)
  rw [h s more]

theorem sees_congr (k : TokenKind) {f g : Bool → Parser α} (seen : SameAhead (f true) (g true))
    (other : f false = g false) : sees k >>= f = sees k >>= g := by
  funext s
  rw [bind_ok (p := sees k) rfl, bind_ok (p := sees k) rfl]
  by_cases h : s.tokens.head?.map Token.kind = some k
  · rw [beq_iff_eq.2 h]
    exact seen s (left_pos_of_head? h)
  · rw [beq_false_of_ne h, other]

theorem SameAhead.sees (k : TokenKind) {f g : Bool → Parser α}
    (next : ∀ b, SameAhead (f b) (g b)) : SameAhead (sees k >>= f) (Parser.sees k >>= g) :=
  fun s more => next (s.tokens.head?.map Token.kind == some k) s more

theorem kind_congr {f g : Option TokenKind → Parser α} (ended : f none = g none)
    (next : ∀ k, SameAhead (f (some k)) (g (some k))) : kind? >>= f = kind? >>= g := by
  funext s
  rw [bind_ok (p := kind?) rfl, bind_ok (p := kind?) rfl]
  cases h : s.tokens.head?.map Token.kind with
  | none => rw [ended]
  | some k => exact next k s (left_pos_of_head? h)

theorem Skip.parser_ahead (k : Skip) : SameAhead k.parser k.bare := by
  intro s more
  refine if_neg fun empty => ?_
  rw [TokenStream.left, List.isEmpty_iff.1 empty] at more
  exact Nat.lt_irrefl 0 more

end SameAhead

namespace Delimiters

def between (opening closing : Symbol) (apart : opening ≠ closing) : Delimiters where
  opens k := k == .symbol opening
  closes k := k == .symbol closing
  fault := .unbalancedDelimiters
  apart k h := by
    rw [beq_iff_eq.1 h]
    exact beq_false_of_ne fun same => apart (TokenKind.symbol.inj same)

def brackets : Delimiters where
  opens := opensBracket
  closes k := k == .symbol .rightBracket
  fault := .unterminatedAttribute
  apart k h := by
    refine beq_false_of_ne ?_
    rintro rfl
    exact absurd h (by decide)

def parameters : Delimiters where
  opens k := k == .symbol .leftParen || opensBracket k
  closes k := k == .symbol .rightParen || k == .symbol .rightBracket
  fault := .unterminatedParameters
  apart k h := by
    refine Bool.eq_false_iff.2 fun closing => ?_
    rw [Bool.or_eq_true, beq_iff_eq, beq_iff_eq] at closing
    rcases closing with rfl | rfl
    all_goals exact absurd h (by decide)

end Delimiters

namespace Program

variable (N : Nested)

def passGroup (opening closing : Symbol) (apart : opening ≠ closing) : Program Unit := do
  if ← seesSymbol opening then
    let _ ← skipping (.group (.between opening closing apart))
  else reject .openingDelimiter

def passParens : Program Unit := passGroup .leftParen .rightParen (by decide)

def passBraces : Program Unit := passGroup .leftBrace .rightBrace (by decide)

def passAttribute : Program Unit := do
  let _ ← skipping (.group .brackets)

def parameters : Program (List String) := do
  if ← seesSymbol .leftParen then
    let inner ← skipping (.group .parameters)
    return inner.filterMap variableName?
  else reject .parameterList

def passSemicolon : Program Unit := do
  let _ ← skipping .semicolon

def passToRound (wanted : TokenKind → Bool) (expectation : Expectation) (_ : Unit) :
    Program (Unit ⊕ Unit) := do
  match ← kind? with
  | none => reject expectation
  | some kind =>
    if wanted kind then return .inr ()
    read
    return .inl ()

def passTo (wanted : TokenKind → Bool) (expectation : Expectation) : Program Unit :=
  iterate (passToRound wanted expectation) ()

def passReturnType : Program Unit := do
  if ← seesSymbol .colon then
    passTo (fun k => k == .symbol .leftBrace || k == .symbol .semicolon || k == .symbol .fatArrow)
      .returnTypeEnd

theorem passAttribute_ahead : SameAhead (passAttribute.parser N) Parser.passAttribute := by
  rw [passAttribute, parser_bind, parser_skipping]
  exact (Skip.parser_ahead _).bind _

theorem passSemicolon_ahead : SameAhead (passSemicolon.parser N) Parser.passSemicolon := by
  have bare : Parser.passSemicolon = Skip.bare .semicolon >>= fun _ => pure () := by
    simp [Skip.bare]
  rw [passSemicolon, parser_bind, parser_skipping, bare]
  exact (Skip.parser_ahead _).bind _

@[simp] theorem parser_passGroup (opening closing : Symbol) (apart : opening ≠ closing) :
    (passGroup opening closing apart).parser N = Parser.passGroup opening closing := by
  simp only [passGroup, parser_bind, parser_seesSymbol, parser_ite, parser_skipping,
    Parser.passGroup]
  exact sees_congr _ ((Skip.parser_ahead _).bind _) rfl

@[simp] theorem parser_passParens :
    passParens.parser N = Parser.passGroup .leftParen .rightParen := parser_passGroup N _ _ _

@[simp] theorem parser_passBraces :
    passBraces.parser N = Parser.passGroup .leftBrace .rightBrace := parser_passGroup N _ _ _

@[simp] theorem parser_parameters : parameters.parser N = Parser.parameters := by
  simp only [parameters, parser_bind, parser_seesSymbol, parser_ite, parser_skipping,
    Parser.parameters]
  exact sees_congr _ ((Skip.parser_ahead _).bind _) rfl

@[simp] theorem parser_passTo (wanted : TokenKind → Bool) (expectation : Expectation) :
    (passTo wanted expectation).parser N = Parser.passTo wanted expectation := by
  have ended (stop : Position) : (passToRound wanted expectation ()).parser N ⟨[], stop⟩ =
      Parser.reject expectation ⟨[], stop⟩ := rfl
  have next (t : Token) (rest : List Token) (stop : Position) :
      (passToRound wanted expectation ()).parser N ⟨t :: rest, stop⟩ =
        if wanted t.kind then .ok (.inr (), ⟨t :: rest, stop⟩)
        else .ok (.inl (), ⟨rest, stop⟩) := by
    simp only [passToRound, parser_bind, parser_kind?]
    rw [bind_ok (p := Parser.kind?) rfl]
    by_cases h : wanted t.kind
    · simp [h]
      rfl
    · simp [h]
      rfl
  rw [passTo, parser_iterate]
  funext s
  obtain ⟨tokens, stop⟩ := s
  induction tokens with
  | nil => exact iterate_error (ended stop)
  | cons t rest ih =>
    have here := next t rest stop
    by_cases h : wanted t.kind
    · rw [iterate_done (here.trans (if_pos h))]
      simp [Parser.passTo, h]
    · rw [iterate_again (here.trans (if_neg h)) (Nat.lt_succ_self _)]
      refine ih.trans ?_
      simp [Parser.passTo, h]

@[simp] theorem parser_passReturnType : passReturnType.parser N = Parser.passReturnType := by
  simp [passReturnType, Parser.passReturnType]

def arrayItem : Program ArrayItem := do
  if ← acceptSymbol .ellipsis then
    return ⟨none, ← anyExpression, true⟩
  let _ ← acceptSymbol .ampersand
  let first ← anyExpression
  if ← acceptSymbol .fatArrow then
    let _ ← acceptSymbol .ampersand
    return ⟨some first, ← anyExpression, false⟩
  return ⟨none, first, false⟩

@[simp] theorem parser_arrayItem : arrayItem.parser N = N.arrayItem := by
  simp [arrayItem, Nested.arrayItem]

def arrayRound (closing : Symbol) (items : List ArrayItem) :
    Program (List ArrayItem ⊕ List ArrayItem) := do
  if ← seesSymbol closing then return .inr items
  if ← acceptSymbol .comma then return .inl items
  let items := items ++ [← arrayItem]
  if ← acceptSymbol .comma then return .inl items
  return .inr items

@[simp] theorem parser_arrayRound (closing : Symbol) (items : List ArrayItem) :
    (arrayRound closing items).parser N = N.arrayRound closing items := by
  simp [arrayRound, Nested.arrayRound]

def arrayItems (closing : Symbol) : Program Expr := do
  let items ← iterate (arrayRound closing) []
  expect closing .arrayEnd
  return .array items

@[simp] theorem parser_arrayItems (closing : Symbol) :
    (arrayItems closing).parser N = N.arrayItems closing := by
  simp [arrayItems, Nested.arrayItems]

def passArgumentName : Program Unit := do
  if (← sees .identifier) && (← secondKind?) == some (.symbol .colon) then
    read
    read

@[simp] theorem parser_passArgumentName : passArgumentName.parser N = Nested.passArgumentName := by
  simp [passArgumentName, Nested.passArgumentName]

def argumentRound (args : List Expr) : Program (List Expr ⊕ List Expr) := do
  if ← seesSymbol .rightParen then return .inr args
  if ← acceptSymbol .ellipsis then
    if ← seesSymbol .rightParen then return .inr args
  passArgumentName
  let args := args ++ [← anyExpression]
  if ← acceptSymbol .comma then return .inl args
  return .inr args

@[simp] theorem parser_argumentRound (args : List Expr) :
    (argumentRound args).parser N = N.argumentRound args := by
  simp [argumentRound, Nested.argumentRound]

def arguments : Program (List Expr) := do
  expect .leftParen .arguments
  let args ← iterate argumentRound []
  expect .rightParen .argumentsEnd
  return args

@[simp] theorem parser_arguments : arguments.parser N = N.arguments := by
  simp [arguments, Nested.arguments]

def blockRound (body : List Stmt) : Program (List Stmt ⊕ List Stmt) := do
  if ← acceptSymbol .rightBrace then return .inr body
  if ← atEnd then reject .blockEnd
  return .inl (body ++ (← someStatement).toList)

@[simp] theorem parser_blockRound (body : List Stmt) :
    (blockRound body).parser N = N.blockRound body := by
  simp [blockRound, Nested.blockRound]

def block : Program (List Stmt) := do
  expect .leftBrace .block
  iterate blockRound []

@[simp] theorem parser_block : block.parser N = N.block := by
  simp [block, Nested.block]

def construction : Program Expr := do
  read
  let owner ← match ← next? with
    | some ⟨.identifier, lexeme, _⟩ => do
      read
      pure (Name.ofWritten lexeme)
    | some ⟨.keyword .kwStatic, _, _⟩ => do
      read
      pure (Name.ofWritten "static")
    | some ⟨.keyword .kwClass, _, _⟩ => reject .namedClass
    | _ => reject .constructedClass
  if ← seesSymbol .leftParen then
    return .new owner (← arguments)
  return .new owner []

@[simp] theorem parser_construction : construction.parser N = N.construction :=
  parser_bind_read N <| parser_bind_next N fun t => by split <;> simp

def arrowFunction : Program Expr := do
  read
  let _ ← acceptSymbol .ampersand
  let params ← parameters
  passReturnType
  expect .fatArrow .arrowBody
  return .arrowFunction params (← anyExpression)

@[simp] theorem parser_arrowFunction : arrowFunction.parser N = N.arrowFunction := by
  simp [arrowFunction, Nested.arrowFunction]

def closure : Program Expr := do
  read
  let _ ← acceptSymbol .ampersand
  let params ← parameters
  if ← acceptKeyword .kwUse then
    passParens
  passReturnType
  return .closure params (← block)

@[simp] theorem parser_closure : closure.parser N = N.closure := by
  simp [closure, Nested.closure]

def wordExpression (lexeme : String) : Program Expr := do
  match Text.foldCase lexeme with
  | "true" => return .bool true
  | "false" => return .bool false
  | "null" => return .null
  | "array" =>
    if ← acceptSymbol .leftParen then arrayItems .rightParen
    else return .constant (Name.ofWritten lexeme)
  | _ => return .constant (Name.ofWritten lexeme)

@[simp] theorem parser_wordExpression (lexeme : String) :
    (wordExpression lexeme).parser N = N.wordExpression lexeme := by
  unfold wordExpression Nested.wordExpression
  split <;> simp [*]

def primary : Program Expr := do
  match ← next? with
  | none => fail fun s => ⟨.unexpectedToken "", s.here⟩
  | some ⟨kind, lexeme, position⟩ =>
    match kind with
    | .string value =>
      read
      return .string value
    | .interpolated raw =>
      read
      return .interpolated raw
    | .number value =>
      read
      return .number value
    | .var name =>
      read
      return .var name
    | .symbol .leftBracket =>
      read
      arrayItems .rightBracket
    | .symbol .leftParen =>
      read
      let inner ← anyExpression
      expect .rightParen .groupingEnd
      return inner
    | .keyword .kwNew => construction
    | .keyword .kwFn => arrowFunction
    | .keyword .kwFunction => closure
    | .keyword .kwStatic =>
      read
      if ← seesKeyword .kwFn then arrowFunction
      else if ← seesKeyword .kwFunction then closure
      else return .constant (Name.ofWritten "static")
    | .identifier =>
      read
      wordExpression lexeme
    | _ => failAt position (.unexpectedToken lexeme)

@[simp] theorem parser_primary : primary.parser N = N.primary :=
  parser_bind_next N fun t => by
    split
    · rfl
    · split <;> simp

def memberAccess (target : Expr) (nullsafe : Bool) : Program Expr := do
  read
  let name ← memberName .memberName
  if ← seesSymbol .leftParen then
    return .methodCall target name (← arguments) nullsafe
  return .property target name nullsafe

@[simp] theorem parser_memberAccess (target : Expr) (nullsafe : Bool) :
    (memberAccess target nullsafe).parser N = N.memberAccess target nullsafe := by
  simp [memberAccess, Nested.memberAccess]

def staticAccess (target : Expr) : Program Expr := do
  match target with
  | .constant owner =>
    read
    let name ← memberName .staticMemberName
    if ← seesSymbol .leftParen then
      return .staticCall owner name (← arguments)
    return .classConstant owner name
  | _ => reject .classBeforeDoubleColon

@[simp] theorem parser_staticAccess (target : Expr) :
    (staticAccess target).parser N = N.staticAccess target := by
  unfold staticAccess Nested.staticAccess
  split <;> simp [*]

def indexing (target : Expr) : Program Expr := do
  read
  let index ← if ← seesSymbol .rightBracket then pure none else some <$> anyExpression
  expect .rightBracket .indexEnd
  return .index target index

@[simp] theorem parser_indexing (target : Expr) :
    (indexing target).parser N = N.indexing target := by
  simp [indexing, Nested.indexing]

def suffixRound (target : Expr) : Program (Expr ⊕ Expr) := do
  match ← kind? with
  | some (.symbol .arrow) => return .inl (← memberAccess target false)
  | some (.symbol .nullsafeArrow) => return .inl (← memberAccess target true)
  | some (.symbol .doubleColon) => return .inl (← staticAccess target)
  | some (.symbol .leftParen) => return .inl (.call target (← arguments))
  | some (.symbol .leftBracket) => return .inl (← indexing target)
  | _ => return .inr target

@[simp] theorem parser_suffixRound (target : Expr) :
    (suffixRound target).parser N = N.suffixRound target :=
  parser_bind_kind N fun k => by split <;> simp

def operand : Program Expr := do
  match ← kind? with
  | some (.symbol .bang) =>
    read
    return .unary .not (← expressionOf .unary)
  | some (.symbol .minus) =>
    read
    return .unary .neg (← expressionOf .unary)
  | some (.symbol .plus) | some (.symbol .atSign) =>
    read
    expressionOf .unary
  | _ =>
    if ← seesCast then
      read
      read
      read
      expressionOf .unary
    else iterate suffixRound (← primary)

@[simp] theorem parser_operand : operand.parser N = N.operand :=
  parser_bind_kind N fun k => by split <;> simp

def rightPart (lhs : Expr) : Infix → Program Expr
  | .assign => do
    let _ ← acceptSymbol .ampersand
    return .assign lhs (← anyExpression)
  | .ternary => do
    let middle ← if ← seesSymbol .colon then pure none else some <$> anyExpression
    expect .colon .ternaryColon
    return .ternary lhs middle (← expressionOf .ternary)
  | .binary op => return .binary op lhs (← expressionOf op.precedence)

@[simp] theorem parser_rightPart (lhs : Expr) (o : Infix) :
    (rightPart lhs o).parser N = N.rightPart lhs o := by
  cases o <;> simp [rightPart, Nested.rightPart]

def operatorRound (min : Precedence) (lhs : Expr) : Program (Expr ⊕ Expr) := do
  match (← kind?).bind Infix.ofKind? with
  | none => return .inr lhs
  | some o =>
    if o.continuesAt min then
      read
      return .inl (← rightPart lhs o)
    else return .inr lhs

@[simp] theorem parser_operatorRound (min : Precedence) (lhs : Expr) :
    (operatorRound min lhs).parser N = N.operatorRound min lhs :=
  parser_bind_kind N fun k => by split <;> simp [*]

def expressionAt (min : Precedence) : Program Expr := do
  iterate (operatorRound min) (← operand)

@[simp] theorem parser_expressionAt (min : Precedence) :
    (expressionAt min).parser N = N.expressionAt min := by
  simp [expressionAt, Nested.expressionAt]

def body : Program (List Stmt) := do
  if ← seesSymbol .leftBrace then block
  else return (← someStatement).toList

@[simp] theorem parser_body : body.parser N = N.body := by
  simp [body, Nested.body]

def statementEnd (expectation : Expectation) : Program Unit := do
  if ← acceptSymbol .semicolon then return ()
  if ← atEnd then return ()
  reject expectation

@[simp] theorem parser_statementEnd (expectation : Expectation) :
    (statementEnd expectation).parser N = Nested.statementEnd expectation := by
  simp [statementEnd, Nested.statementEnd]

def returnStatement : Program Stmt := do
  read
  if ← acceptSymbol .semicolon then return .ret none
  let value ← anyExpression
  statementEnd .semicolonAfterReturn
  return .ret (some value)

@[simp] theorem parser_returnStatement : returnStatement.parser N = N.returnStatement := by
  simp [returnStatement, Nested.returnStatement]

def condition : Program Expr := do
  expect .leftParen .condition
  let e ← anyExpression
  expect .rightParen .conditionEnd
  return e

@[simp] theorem parser_condition : condition.parser N = N.condition := by
  simp [condition, Nested.condition]

def elseRound (elseIfs : List ElseIf) :
    Program (List ElseIf ⊕ (List ElseIf × Option (List Stmt))) := do
  if ← acceptKeyword .kwElseIf then
    let e ← condition
    return .inl (elseIfs ++ [⟨e, ← body⟩])
  if ← acceptKeyword .kwElse then
    return .inr (elseIfs, some (← body))
  return .inr (elseIfs, none)

@[simp] theorem parser_elseRound (elseIfs : List ElseIf) :
    (elseRound elseIfs).parser N = N.elseRound elseIfs := by
  simp [elseRound, Nested.elseRound]

def ifStatement : Program Stmt := do
  read
  let e ← condition
  let body ← body
  let (elseIfs, otherwise) ← iterate elseRound []
  return .branch e body elseIfs otherwise

@[simp] theorem parser_ifStatement : ifStatement.parser N = N.ifStatement := by
  simp [ifStatement, Nested.ifStatement]

def foreachTarget : Program Expr := do
  let _ ← acceptSymbol .ampersand
  anyExpression

@[simp] theorem parser_foreachTarget : foreachTarget.parser N = N.foreachTarget := by
  simp [foreachTarget, Nested.foreachTarget]

def foreachStatement : Program Stmt := do
  read
  expect .leftParen .foreachHeader
  let subject ← anyExpression
  if ← acceptKeyword .kwAs then
    let first ← foreachTarget
    let (key, value) ←
      if ← acceptSymbol .fatArrow then pure (some first, ← foreachTarget)
      else pure (none, first)
    expect .rightParen .foreachHeaderEnd
    return .foreach subject key value (← body)
  else reject .foreachAs

@[simp] theorem parser_foreachStatement : foreachStatement.parser N = N.foreachStatement := by
  simp [foreachStatement, Nested.foreachStatement]

def loopStatement : Program Stmt := do
  read
  passParens
  return .block (← body)

@[simp] theorem parser_loopStatement : loopStatement.parser N = N.loopStatement := by
  simp [loopStatement, Nested.loopStatement]

def seesWord (word : String) : Program Bool := do
  match ← next? with
  | some ⟨.identifier, lexeme, _⟩ => return Text.foldCase lexeme == word
  | _ => return false

@[simp] theorem parser_seesWord (word : String) :
    (seesWord word).parser N = Nested.seesWord word :=
  parser_bind_next N fun t => by split <;> simp

def handlerRound (blocks : List Stmt) : Program (List Stmt ⊕ List Stmt) := do
  if ← seesWord "catch" then
    read
    passParens
    return .inl (blocks ++ [.block (← block)])
  if ← seesWord "finally" then
    read
    return .inl (blocks ++ [.block (← block)])
  return .inr blocks

@[simp] theorem parser_handlerRound (blocks : List Stmt) :
    (handlerRound blocks).parser N = N.handlerRound blocks := by
  simp [handlerRound, Nested.handlerRound]

def tryStatement : Program Stmt := do
  read
  return .block (← iterate handlerRound [.block (← block)])

@[simp] theorem parser_tryStatement : tryStatement.parser N = N.tryStatement := by
  simp [tryStatement, Nested.tryStatement]

def switchStatement : Program Stmt := do
  read
  passParens
  passBraces
  return .block []

@[simp] theorem parser_switchStatement : switchStatement.parser N = Nested.switchStatement := by
  simp [switchStatement, Nested.switchStatement]

def expressionStatement : Program Stmt := do
  let e ← anyExpression
  statementEnd .semicolonAfterExpression
  return .expr e

@[simp] theorem parser_expressionStatement :
    expressionStatement.parser N = N.expressionStatement := by
  simp [expressionStatement, Nested.expressionStatement]

def wordStatement (lexeme : String) : Program Stmt := do
  match Text.foldCase lexeme with
  | "while" | "for" => loopStatement
  | "try" => tryStatement
  | "switch" => switchStatement
  | "echo" | "throw" =>
    if (← secondKind?) != some (.symbol .leftParen) then read
    expressionStatement
  | _ => expressionStatement

@[simp] theorem parser_wordStatement (lexeme : String) :
    (wordStatement lexeme).parser N = N.wordStatement lexeme := by
  unfold wordStatement Nested.wordStatement
  split <;> simp [*]

def anyStatement : Program (Option Stmt) := do
  match ← next? with
  | some ⟨.symbol .semicolon, _, _⟩ | some ⟨.docComment _, _, _⟩ =>
    read
    return none
  | some ⟨.symbol .leftBrace, _, _⟩ => return some (.block (← block))
  | some ⟨.keyword .kwReturn, _, _⟩ => return some (← returnStatement)
  | some ⟨.keyword .kwIf, _, _⟩ => return some (← ifStatement)
  | some ⟨.keyword .kwForeach, _, _⟩ => return some (← foreachStatement)
  | some ⟨.identifier, lexeme, _⟩ => return some (← wordStatement lexeme)
  | _ => return some (← expressionStatement)

@[simp] theorem parser_anyStatement : anyStatement.parser N = N.anyStatement :=
  parser_bind_next N fun t => by split <;> simp

end Program

end ResponseShape.Cursor
