import ResponseShape.Grammar.Phrase
import ResponseShape.Token.Stream

/-!
Declarations: namespaces, imports, classes with their methods, and whole source files. Whatever
else a file or a class holds is passed over.
-/

namespace ResponseShape

namespace Grammar

open ResponseShape.Parser

def method : Parser Method := do
  advance
  let _ ← acceptSymbol .ampersand
  let name ← memberName .methodName
  let params ← parameters
  passReturnType
  if ← acceptSymbol .semicolon then return ⟨name, params, none⟩
  return ⟨name, params, some (← phrases.block)⟩

def passTraitUse : Parser Unit := do
  advance
  passTo (fun k => k == .symbol .semicolon || k == .symbol .leftBrace) .traitUseEnd
  if ← seesSymbol .leftBrace then passGroup .leftBrace .rightBrace
  else advance

def interfaceName : Parser Name := do
  return Name.ofWritten (← identifier .interfaceName)

def moreInterfacesRound (names : List Name) : Parser (List Name ⊕ List Name) := do
  if ← acceptSymbol .comma then return .inl (names ++ [← interfaceName])
  return .inr names

/-- The class that is extended, and the further ones that an interface may extend. -/
def parents : Parser (Option Name × List Name) := do
  if ← acceptKeyword .kwExtends then
    let parent := Name.ofWritten (← identifier .parentName)
    return (some parent, ← iterate moreInterfacesRound [])
  return (none, [])

def interfaces (names : List Name) : Parser (List Name) := do
  if ← acceptKeyword .kwImplements then
    iterate moreInterfacesRound (names ++ [← interfaceName])
  else return names

def memberRound (methods : List Method) : Parser (List Method ⊕ List Method) := do
  match ← kind? with
  | none => reject .classBodyEnd
  | some kind =>
    match kind with
    | .symbol .rightBrace =>
      advance
      return .inr methods
    | .docComment _ | .symbol .semicolon =>
      advance
      return .inl methods
    | .symbol .attributeOpen =>
      passAttribute
      return .inl methods
    | .keyword .kwUse =>
      passTraitUse
      return .inl methods
    | .keyword .kwPublic | .keyword .kwProtected | .keyword .kwPrivate | .keyword .kwStatic
    | .keyword .kwAbstract | .keyword .kwFinal | .keyword .kwReadonly | .keyword .kwVar =>
      advance
      return .inl methods
    | .keyword .kwFunction => return .inl (methods ++ [← method])
    | _ =>
      passSemicolon
      return .inl methods

def modifierRound (_ : Unit) : Parser (Unit ⊕ Unit) := do
  match ← kind? with
  | some (.keyword .kwAbstract) | some (.keyword .kwFinal) | some (.keyword .kwReadonly) =>
    advance
    return .inl ()
  | _ => return .inr ()

def classDecl (docComment : Option String) : Parser ClassDecl := do
  iterate modifierRound ()
  match ← kind? with
  | some (.keyword .kwClass) | some (.keyword .kwInterface) | some (.keyword .kwTrait) => advance
  | _ => reject .classKind
  let name ← identifier .className
  let (parent, names) ← parents
  let names ← interfaces names
  expect .leftBrace .classBody
  let methods ← iterate memberRound []
  return ⟨name, docComment, parent, names, methods⟩

def importAlias : Parser (Option String) := do
  if ← acceptKeyword .kwAs then return some (← identifier .importAlias)
  return none

/-- One member of a group of imports that share the beginning of their names. -/
def groupRound (base : String) (imports : List Import) :
    Parser (List Import ⊕ List Import) := do
  if ← seesSymbol .rightBrace then return .inr imports
  let name ← identifier .groupMember
  let imports := imports ++ [⟨Name.ofWritten (base ++ name), ← importAlias⟩]
  if ← acceptSymbol .comma then return .inl imports
  return .inr imports

/-- A name with an alias, or a group behind a name that ends in a separator. -/
def importRound (imports : List Import) : Parser (List Import ⊕ List Import) := do
  let name ← identifier .importedName
  let grouped ← seesSymbol .leftBrace
  let imports ←
    if name.toList.getLast? = some separator ∧ grouped then do
      advance
      let imports ← iterate (groupRound name) imports
      expect .rightBrace .groupClose
      pure imports
    else pure (imports ++ [⟨Name.ofWritten name, ← importAlias⟩])
  if ← acceptSymbol .comma then return .inl imports
  return .inr imports

/-- `use`, which is next, with the classes it imports. Imported functions and constants are passed
over. -/
def importDecl : Parser (List Import) := do
  advance
  if (← seesKeyword .kwFunction) || (← seesKeyword .kwConst) then
    passSemicolon
    return []
  let imports ← iterate importRound []
  expect .semicolon .semicolonAfterUse
  return imports

structure Progress where
  found : SourceFile
  /-- A documentation comment that belongs to the class that may follow. -/
  pendingDoc : Option String
  inBraces : Bool

def Progress.start : Progress := ⟨⟨none, [], []⟩, none, false⟩

def namespaceDecl : Parser (Option Name × Bool) := do
  advance
  let name ← match ← next? with
    | some ⟨.identifier, lexeme, _⟩ => do
      advance
      pure (some (Name.ofWritten lexeme))
    | _ => pure none
  if ← acceptSymbol .leftBrace then return (name, true)
  expect .semicolon .semicolonAfterNamespace
  return (name, false)

def itemRound (kind : TokenKind) (p : Progress) : Parser Progress := do
  match kind with
  | .keyword .kwNamespace =>
    let (name, inBraces) ← namespaceDecl
    let namespaceName := name.or p.found.namespaceName
    return ⟨{ p.found with namespaceName }, none, inBraces⟩
  | .keyword .kwUse =>
    let imports ← importDecl
    return ⟨{ p.found with imports := p.found.imports ++ imports }, none, p.inBraces⟩
  | .keyword .kwDeclare =>
    advance
    passGroup .leftParen .rightParen
    expect .semicolon .semicolonAfterDeclare
    return { p with pendingDoc := none }
  | .keyword .kwAbstract | .keyword .kwFinal | .keyword .kwReadonly | .keyword .kwClass
  | .keyword .kwInterface | .keyword .kwTrait =>
    let c ← classDecl p.pendingDoc
    return ⟨{ p.found with classes := p.found.classes ++ [c] }, none, p.inBraces⟩
  | .keyword .kwFunction =>
    if (← secondKind?) == some .identifier then
      let _ ← method
    else
      let _ ← phrases.statement
    return { p with pendingDoc := none }
  | .keyword .kwConst =>
    passSemicolon
    return { p with pendingDoc := none }
  | .symbol .rightBrace =>
    if p.inBraces then
      advance
      return { p with pendingDoc := none, inBraces := false }
    else
      let _ ← phrases.statement
      return { p with pendingDoc := none }
  | .symbol .semicolon =>
    advance
    return { p with pendingDoc := none }
  | _ =>
    let _ ← phrases.statement
    return { p with pendingDoc := none }

def fileRound (p : Progress) : Parser (Progress ⊕ SourceFile) := do
  match ← kind? with
  | none => return .inr p.found
  | some (.docComment text) =>
    advance
    return .inl { p with pendingDoc := some text }
  | some (.symbol .attributeOpen) =>
    passAttribute
    return .inl p
  | some kind => return .inl (← itemRound kind p)

def sourceFile : Parser SourceFile := iterate fileRound Progress.start

end Grammar

def SourceFile.ofText (source : String) : Except ParseError SourceFile :=
  match TokenStream.ofText source with
  | .error e => .error e
  | .ok s => (Grammar.sourceFile s).map Prod.fst

def Expr.ofText (source : String) : Except ParseError Expr :=
  match TokenStream.ofText source with
  | .error e => .error e
  | .ok s => (Grammar.expression .lowest s).map Prod.fst

end ResponseShape
