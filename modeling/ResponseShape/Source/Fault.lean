import ResponseShape.Text.Position

/-!
What can be wrong with a source text, and the sentences that report it.
-/

namespace ResponseShape

/-- What the grammar asks for, or refuses, at a place. -/
inductive Expectation where
  | semicolonAfterNamespace
  | importedName
  | groupMember
  | groupClose
  | semicolonAfterUse
  | importAlias
  | semicolonAfterDeclare
  | classKind
  | className
  | parentName
  | interfaceName
  | classBody
  | classBodyEnd
  | traitUseEnd
  | methodName
  | parameterList
  | returnTypeEnd
  | block
  | blockEnd
  | semicolonAfterReturn
  | condition
  | conditionEnd
  | foreachHeader
  | foreachAs
  | foreachHeaderEnd
  | semicolonAfterExpression
  | ternaryColon
  | memberName
  | classBeforeDoubleColon
  | staticMemberName
  | indexEnd
  | groupingEnd
  | arrayEnd
  | arguments
  | argumentsEnd
  | namedClass
  | constructedClass
  | arrowBody
  | openingDelimiter
  deriving DecidableEq, Repr

def Expectation.message : Expectation → String
  | semicolonAfterNamespace => "expected ';' after namespace declaration"
  | importedName => "expected imported name"
  | groupMember => "expected name in group use"
  | groupClose => "expected '\x7d' closing group use"
  | semicolonAfterUse => "expected ';' after use declaration"
  | importAlias => "expected alias after 'as'"
  | semicolonAfterDeclare => "expected ';' after declare"
  | classKind => "expected 'class', 'interface' or 'trait'"
  | className => "expected class name"
  | parentName => "expected parent class name"
  | interfaceName => "expected interface name"
  | classBody => "expected '\x7b' to open class body"
  | classBodyEnd => "unterminated class body"
  | traitUseEnd => "unterminated trait use"
  | methodName => "expected method name"
  | parameterList => "expected '(' to open parameter list"
  | returnTypeEnd => "unterminated return type"
  | block => "expected '\x7b'"
  | blockEnd => "unterminated block"
  | semicolonAfterReturn => "expected ';' after return value"
  | condition => "expected '(' before condition"
  | conditionEnd => "expected ')' after condition"
  | foreachHeader => "expected '(' after foreach"
  | foreachAs => "expected 'as' in foreach"
  | foreachHeaderEnd => "expected ')' after foreach header"
  | semicolonAfterExpression => "expected ';' after expression"
  | ternaryColon => "expected ':' in ternary expression"
  | memberName => "expected property or method name"
  | classBeforeDoubleColon => "'::' is only supported after a class name"
  | staticMemberName => "expected member name after '::'"
  | indexEnd => "expected ']' after index"
  | groupingEnd => "expected ')' after expression"
  | arrayEnd => "expected end of array literal"
  | arguments => "expected '('"
  | argumentsEnd => "expected ')' after arguments"
  | namedClass => "anonymous classes are not supported"
  | constructedClass => "expected class name after 'new'"
  | arrowBody => "expected '=>' in arrow function"
  | openingDelimiter => "expected opening delimiter"

inductive Fault where
  | unterminatedComment
  | missingVariableName
  | unterminatedString
  | unexpectedCharacter (c : Char)
  | unexpectedToken (lexeme : String)
  /-- The token met instead, or `none` at the end of the input. -/
  | unmet (expectation : Expectation) (found : Option String)
  | unterminatedAttribute
  | unbalancedDelimiters
  | unterminatedParameters
  | missingSemicolon
  /-- A round of a repetition read nothing. -/
  | stalled
  deriving DecidableEq, Repr

def Fault.message : Fault → String
  | unterminatedComment => "unterminated comment"
  | missingVariableName => "expected variable name after '$'"
  | unterminatedString => "unterminated string literal"
  | unexpectedCharacter c => "unexpected character '" ++ String.singleton c ++ "'"
  | unexpectedToken lexeme => "unexpected token '" ++ lexeme ++ "'"
  | unmet expectation none => expectation.message ++ ", found end of input"
  | unmet expectation (some lexeme) => expectation.message ++ ", found '" ++ lexeme ++ "'"
  | unterminatedAttribute => "unterminated attribute"
  | unbalancedDelimiters => "unbalanced delimiters"
  | unterminatedParameters => "unterminated parameter list"
  | missingSemicolon => "expected ';'"
  | stalled => "no progress"

structure ParseError where
  fault : Fault
  position : Position
  deriving DecidableEq, Repr

def ParseError.message (e : ParseError) : String :=
  toString e.position.line ++ ":" ++ toString e.position.column ++ ": " ++ e.fault.message

end ResponseShape
