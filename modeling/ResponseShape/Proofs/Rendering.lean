import ResponseShape.Grammar.Precedence
import ResponseShape.Source.Tree

/-! Syntax trees written out as tokens. A compound expression stands in parentheses wherever an
operator, an access, a call or a semicolon is next to it, an atom never does. Tokens come without
positions, and only words have a lexeme, as only words are read by it. -/
namespace ResponseShape

def Name.written (n : Name) : String :=
  match n.form with
  | .fullyQualified => String.singleton separator ++ n.text
  | .unqualified | .qualified => n.text

namespace Token

def word (text : String) : Token := ⟨.identifier, text, Position.start⟩

def ofKind (kind : TokenKind) : Token := ⟨kind, "", Position.start⟩

def symbol (s : Symbol) : Token := ofKind (.symbol s)

def keyword (k : Keyword) : Token := ofKind (.keyword k)

/-- A class name or a constant. `static` is a keyword also where it names a class. -/
def ofName (n : Name) : Token :=
  if n.written = "static" then keyword .kwStatic else word n.written

/-- The name of a member, which may be a keyword or begin with a dollar sign. -/
def member (name : String) : Token :=
  match name.toList with
  | '$' :: rest => ofKind (.var (String.ofList rest))
  | _ =>
    match Keyword.ofWord? name with
    | some k => ⟨.keyword k, name, Position.start⟩
    | none => word name

def grouped (inner : List Token) : List Token :=
  symbol .leftParen :: inner ++ [symbol .rightParen]

def braced (inner : List Token) : List Token :=
  symbol .leftBrace :: inner ++ [symbol .rightBrace]

theorem grouped_append (inner rest : List Token) :
    grouped inner ++ rest = symbol .leftParen :: (inner ++ symbol .rightParen :: rest) := by
  simp [grouped]

theorem braced_append (inner rest : List Token) :
    braced inner ++ rest = symbol .leftBrace :: (inner ++ symbol .rightBrace :: rest) := by
  simp [braced]

def separated : List (List Token) → List Token
  | [] => []
  | [ts] => ts
  | ts :: more :: rest => ts ++ symbol .comma :: separated (more :: rest)

def params (names : List String) : List Token :=
  grouped (separated (names.map fun name => [ofKind (.var name)]))

end Token

def BinaryOp.kind : BinaryOp → TokenKind
  | coalesce => .symbol .doubleQuestion
  | or => .symbol .doublePipe
  | and => .symbol .doubleAmpersand
  | equal => .symbol .doubleEqual
  | notEqual => .symbol .bangEqual
  | identical => .symbol .tripleEqual
  | notIdentical => .symbol .bangDoubleEqual
  | less => .symbol .less
  | lessEqual => .symbol .lessEqual
  | greater => .symbol .greater
  | greaterEqual => .symbol .greaterEqual
  | concat => .symbol .dot
  | add => .symbol .plus
  | sub => .symbol .minus
  | mul => .symbol .star
  | div => .symbol .slash
  | mod => .symbol .percent
  | instanceOf => .keyword .kwInstanceof

def UnaryOp.symbol : UnaryOp → Symbol
  | not => .bang
  | neg => .minus

namespace Expr

def isAtom : Expr → Bool
  | string _ | interpolated _ | number _ | bool _ | null | var _ | constant _ => true
  | _ => false

def statementWords : List String := ["while", "for", "try", "switch", "echo", "throw"]

def isStatementWord : Expr → Bool
  | constant name => statementWords.contains (Text.foldCase name.written)
  | _ => false

/-- The tokens of an expression where it is an operand, a target or an argument. -/
def enclose (e : Expr) (tokens : List Token) : List Token :=
  if e.isAtom then tokens else Token.grouped tokens

/-- The tokens of an expression where it is a statement. -/
def standAlone (e : Expr) (tokens : List Token) : List Token :=
  if e.isAtom && !e.isStatementWord then tokens else Token.grouped tokens

end Expr

mutual

def Expr.tokens : Expr → List Token
  | .string value => [.ofKind (.string value)]
  | .interpolated raw => [.ofKind (.interpolated raw)]
  | .number value => [.ofKind (.number value)]
  | .bool true => [.word "true"]
  | .bool false => [.word "false"]
  | .null => [.word "null"]
  | .var name => [.ofKind (.var name)]
  | .constant name => [.ofName name]
  | .array items =>
    .symbol .leftBracket :: Token.separated (tokensOfItems items) ++ [.symbol .rightBracket]
  | .property target name nullsafe =>
    target.enclose target.tokens ++
      [.symbol (if nullsafe then .nullsafeArrow else .arrow), .member name]
  | .methodCall target method args nullsafe =>
    target.enclose target.tokens ++
      .symbol (if nullsafe then .nullsafeArrow else .arrow) :: .member method ::
        Token.grouped (Token.separated (tokensOfArgs args))
  | .staticCall owner method args =>
    .ofName owner :: .symbol .doubleColon :: .member method ::
      Token.grouped (Token.separated (tokensOfArgs args))
  | .classConstant owner name => [.ofName owner, .symbol .doubleColon, .member name]
  | .call callee args =>
    callee.enclose callee.tokens ++ Token.grouped (Token.separated (tokensOfArgs args))
  | .new owner args =>
    .keyword .kwNew :: .ofName owner :: Token.grouped (Token.separated (tokensOfArgs args))
  | .arrowFunction params body =>
    .keyword .kwFn :: Token.params params ++ .symbol .fatArrow :: body.tokens
  | .closure params body =>
    .keyword .kwFunction :: Token.params params ++ Token.braced (tokensOfBody body)
  | .index target none =>
    target.enclose target.tokens ++ [.symbol .leftBracket, .symbol .rightBracket]
  | .index target (some index) =>
    target.enclose target.tokens ++
      .symbol .leftBracket :: index.tokens ++ [.symbol .rightBracket]
  | .binary op lhs rhs =>
    lhs.enclose lhs.tokens ++ .ofKind op.kind :: rhs.enclose rhs.tokens
  | .unary op operand => .symbol op.symbol :: operand.enclose operand.tokens
  | .ternary condition none otherwise =>
    condition.enclose condition.tokens ++
      .symbol .question :: .symbol .colon :: otherwise.enclose otherwise.tokens
  | .ternary condition (some middle) otherwise =>
    condition.enclose condition.tokens ++
      .symbol .question :: middle.enclose middle.tokens ++
        .symbol .colon :: otherwise.enclose otherwise.tokens
  | .assign target value =>
    target.enclose target.tokens ++ .symbol .equal :: value.enclose value.tokens

def tokensOfArgs : List Expr → List (List Token)
  | [] => []
  | e :: rest => e.enclose e.tokens :: tokensOfArgs rest

def tokensOfItems : List ArrayItem → List (List Token)
  | [] => []
  | .mk none value false :: rest => value.tokens :: tokensOfItems rest
  | .mk none value true :: rest => (.symbol .ellipsis :: value.tokens) :: tokensOfItems rest
  | .mk (some key) value _ :: rest =>
    (key.tokens ++ .symbol .fatArrow :: value.tokens) :: tokensOfItems rest

def Stmt.tokens : Stmt → List Token
  | .ret none => [.keyword .kwReturn, .symbol .semicolon]
  | .ret (some value) => .keyword .kwReturn :: value.tokens ++ [.symbol .semicolon]
  | .expr e => e.standAlone e.tokens ++ [.symbol .semicolon]
  | .branch condition body elseIfs none =>
    .keyword .kwIf :: Token.grouped condition.tokens ++
      Token.braced (tokensOfBody body) ++ tokensOfElseIfs elseIfs
  | .branch condition body elseIfs (some otherwise) =>
    .keyword .kwIf :: Token.grouped condition.tokens ++
      Token.braced (tokensOfBody body) ++ tokensOfElseIfs elseIfs ++
        .keyword .kwElse :: Token.braced (tokensOfBody otherwise)
  | .foreach subject none value body =>
    .keyword .kwForeach ::
      Token.grouped (subject.tokens ++ .keyword .kwAs :: value.tokens) ++
        Token.braced (tokensOfBody body)
  | .foreach subject (some key) value body =>
    .keyword .kwForeach ::
      Token.grouped (subject.tokens ++ .keyword .kwAs :: key.tokens ++
        .symbol .fatArrow :: value.tokens) ++
        Token.braced (tokensOfBody body)
  | .block body => Token.braced (tokensOfBody body)

def tokensOfBody : List Stmt → List Token
  | [] => []
  | s :: rest => s.tokens ++ tokensOfBody rest

def tokensOfElseIfs : List ElseIf → List Token
  | [] => []
  | .mk condition body :: rest =>
    .keyword .kwElseIf :: Token.grouped condition.tokens ++
      Token.braced (tokensOfBody body) ++ tokensOfElseIfs rest

end

def Expr.operandTokens (e : Expr) : List Token := e.enclose e.tokens

def ArrayItem.tokens : ArrayItem → List Token
  | .mk none value false => value.tokens
  | .mk none value true => .symbol .ellipsis :: value.tokens
  | .mk (some key) value _ => key.tokens ++ .symbol .fatArrow :: value.tokens

def ElseIf.tokens : ElseIf → List Token
  | .mk condition body =>
    .keyword .kwElseIf :: Token.grouped condition.tokens ++ Token.braced (tokensOfBody body)

theorem Stmt.tokens_pos (s : Stmt) : 0 < s.tokens.length := by
  cases s with
  | ret value => cases value <;> exact Nat.succ_pos _
  | expr e => rw [tokens, List.length_append]; exact Nat.succ_pos _
  | branch _ _ _ otherwise => cases otherwise <;> exact Nat.succ_pos _
  | «foreach» _ key _ _ => cases key <;> exact Nat.succ_pos _
  | block body => exact Nat.succ_pos _

theorem tokensOfArgs_eq_map (args : List Expr) :
    tokensOfArgs args = args.map Expr.operandTokens := by
  induction args with
  | nil => rfl
  | cons e rest ih => rw [tokensOfArgs, ih]; rfl

theorem tokensOfItems_eq_map (items : List ArrayItem) :
    tokensOfItems items = items.map ArrayItem.tokens := by
  induction items with
  | nil => rfl
  | cons item rest ih =>
    obtain ⟨_ | key, value, _ | _⟩ := item <;> rw [tokensOfItems, ih] <;> rfl

theorem tokensOfBody_eq_flatMap (body : List Stmt) :
    tokensOfBody body = body.flatMap Stmt.tokens := by
  induction body with
  | nil => rfl
  | cons s rest ih => rw [tokensOfBody, ih, List.flatMap_cons]

theorem tokensOfElseIfs_eq_flatMap (elseIfs : List ElseIf) :
    tokensOfElseIfs elseIfs = elseIfs.flatMap ElseIf.tokens := by
  induction elseIfs with
  | nil => rfl
  | cons elseIf rest ih =>
    obtain ⟨condition, body⟩ := elseIf
    rw [tokensOfElseIfs, ih, List.flatMap_cons, ElseIf.tokens]

def Import.aliasTokens (i : Import) : List Token :=
  match i.alias? with
  | none => []
  | some name => [.keyword .kwAs, .word name]

def Import.tokens (i : Import) : List Token :=
  .keyword .kwUse :: .word i.name.written :: i.aliasTokens ++ [.symbol .semicolon]

def Method.tokens (m : Method) : List Token :=
  .keyword .kwFunction :: .member m.name :: Token.params m.params ++
    match m.body with
    | none => [.symbol .semicolon]
    | some body => Token.braced (tokensOfBody body)

namespace ClassDecl

def docTokens (c : ClassDecl) : List Token :=
  c.docComment.toList.map fun text => .ofKind (.docComment text)

def parentTokens (c : ClassDecl) : List Token :=
  match c.parent with
  | none => []
  | some parent => [.keyword .kwExtends, .word parent.written]

def interfaceTokens (c : ClassDecl) : List Token :=
  match c.interfaces with
  | [] => []
  | names => .keyword .kwImplements :: Token.separated (names.map fun n => [.word n.written])

def tokens (c : ClassDecl) : List Token :=
  c.docTokens ++ .keyword .kwClass :: .word c.name :: c.parentTokens ++ c.interfaceTokens ++
    Token.braced (c.methods.flatMap Method.tokens)

end ClassDecl

namespace SourceFile

def namespaceTokens (f : SourceFile) : List Token :=
  match f.namespaceName with
  | none => []
  | some name => [.keyword .kwNamespace, .word name.written, .symbol .semicolon]

def tokens (f : SourceFile) : List Token :=
  f.namespaceTokens ++ f.imports.flatMap Import.tokens ++ f.classes.flatMap ClassDecl.tokens

end SourceFile

end ResponseShape
