import ResponseShape.Proofs.CursorPhrases

/-! The functions that read declarations and files, as programs of the cursor. Main statement:
`Program.parser_sourceFile`. -/
namespace ResponseShape.Cursor.Program

open ResponseShape.Parser ResponseShape.Grammar

def method : Program Method := do
  read
  let _ ← acceptSymbol .ampersand
  let name ← memberName .methodName
  let params ← parameters
  passReturnType
  if ← acceptSymbol .semicolon then return ⟨name, params, none⟩
  return ⟨name, params, some (← block)⟩

@[simp] theorem parser_method : method.parser phrases = Grammar.method := by
  simp [method, Grammar.method]

def passTraitUse : Program Unit := do
  read
  passTo (fun k => k == .symbol .semicolon || k == .symbol .leftBrace) .traitUseEnd
  if ← seesSymbol .leftBrace then passBraces
  else read

@[simp] theorem parser_passTraitUse : passTraitUse.parser phrases = Grammar.passTraitUse := by
  simp [passTraitUse, Grammar.passTraitUse]

def interfaceName : Program Name := do
  return Name.ofWritten (← identifier .interfaceName)

@[simp] theorem parser_interfaceName : interfaceName.parser phrases = Grammar.interfaceName := by
  simp [interfaceName, Grammar.interfaceName]

def moreInterfacesRound (names : List Name) : Program (List Name ⊕ List Name) := do
  if ← acceptSymbol .comma then return .inl (names ++ [← interfaceName])
  return .inr names

@[simp] theorem parser_moreInterfacesRound (names : List Name) :
    (moreInterfacesRound names).parser phrases = Grammar.moreInterfacesRound names := by
  simp [moreInterfacesRound, Grammar.moreInterfacesRound]

def parents : Program (Option Name × List Name) := do
  if ← acceptKeyword .kwExtends then
    let parent := Name.ofWritten (← identifier .parentName)
    return (some parent, ← iterate moreInterfacesRound [])
  return (none, [])

@[simp] theorem parser_parents : parents.parser phrases = Grammar.parents := by
  simp [parents, Grammar.parents]

def interfaces (names : List Name) : Program (List Name) := do
  if ← acceptKeyword .kwImplements then
    iterate moreInterfacesRound (names ++ [← interfaceName])
  else return names

@[simp] theorem parser_interfaces (names : List Name) :
    (interfaces names).parser phrases = Grammar.interfaces names := by
  simp [interfaces, Grammar.interfaces]

def memberRound (methods : List Method) : Program (List Method ⊕ List Method) := do
  match ← kind? with
  | none => reject .classBodyEnd
  | some kind =>
    match kind with
    | .symbol .rightBrace =>
      read
      return .inr methods
    | .docComment _ | .symbol .semicolon =>
      read
      return .inl methods
    | .symbol .attributeOpen =>
      passAttribute
      return .inl methods
    | .keyword .kwUse =>
      passTraitUse
      return .inl methods
    | .keyword .kwPublic | .keyword .kwProtected | .keyword .kwPrivate | .keyword .kwStatic
    | .keyword .kwAbstract | .keyword .kwFinal | .keyword .kwReadonly | .keyword .kwVar =>
      read
      return .inl methods
    | .keyword .kwFunction => return .inl (methods ++ [← method])
    | _ =>
      passSemicolon
      return .inl methods

@[simp] theorem parser_memberRound (methods : List Method) :
    (memberRound methods).parser phrases = Grammar.memberRound methods := by
  simp only [memberRound, Grammar.memberRound, parser_bind, parser_kind?]
  refine kind_congr rfl fun k => ?_
  dsimp only
  split
  case h_4 =>
    rw [parser_bind]
    exact (passAttribute_ahead _).bind _
  case h_15 => simpa [*] using (passSemicolon_ahead phrases).bind fun _ => pure (Sum.inl methods)
  all_goals exact .of_eq (by simp)

def modifierRound (_ : Unit) : Program (Unit ⊕ Unit) := do
  match ← kind? with
  | some (.keyword .kwAbstract) | some (.keyword .kwFinal) | some (.keyword .kwReadonly) =>
    read
    return .inl ()
  | _ => return .inr ()

@[simp] theorem parser_modifierRound (u : Unit) :
    (modifierRound u).parser phrases = Grammar.modifierRound u :=
  parser_bind_kind phrases fun k => by split <;> simp

def classDecl (docComment : Option String) : Program ClassDecl := do
  iterate modifierRound ()
  match ← kind? with
  | some (.keyword .kwClass) | some (.keyword .kwInterface) | some (.keyword .kwTrait) => read
  | _ => reject .classKind
  let name ← identifier .className
  let (parent, names) ← parents
  let names ← interfaces names
  expect .leftBrace .classBody
  let methods ← iterate memberRound []
  return ⟨name, docComment, parent, names, methods⟩

@[simp] theorem parser_classDecl (docComment : Option String) :
    (classDecl docComment).parser phrases = Grammar.classDecl docComment := by
  simp only [classDecl, Grammar.classDecl, parser_bind, parser_iterate, parser_modifierRound,
    parser_kind?]
  congr 1
  funext _
  congr 1
  funext k
  split <;> simp

def importAlias : Program (Option String) := do
  if ← acceptKeyword .kwAs then return some (← identifier .importAlias)
  return none

@[simp] theorem parser_importAlias : importAlias.parser phrases = Grammar.importAlias := by
  simp [importAlias, Grammar.importAlias]

def groupRound (base : String) (imports : List Import) :
    Program (List Import ⊕ List Import) := do
  if ← seesSymbol .rightBrace then return .inr imports
  let name ← identifier .groupMember
  let imports := imports ++ [⟨Name.ofWritten (base ++ name), ← importAlias⟩]
  if ← acceptSymbol .comma then return .inl imports
  return .inr imports

@[simp] theorem parser_groupRound (base : String) (imports : List Import) :
    (groupRound base imports).parser phrases = Grammar.groupRound base imports := by
  simp [groupRound, Grammar.groupRound]

def importRound (imports : List Import) : Program (List Import ⊕ List Import) := do
  let name ← identifier .importedName
  let grouped ← seesSymbol .leftBrace
  let imports ←
    if name.toList.getLast? = some separator ∧ grouped then do
      read
      let imports ← iterate (groupRound name) imports
      expect .rightBrace .groupClose
      pure imports
    else pure (imports ++ [⟨Name.ofWritten name, ← importAlias⟩])
  if ← acceptSymbol .comma then return .inl imports
  return .inr imports

@[simp] theorem parser_importRound (imports : List Import) :
    (importRound imports).parser phrases = Grammar.importRound imports := by
  simp [importRound, Grammar.importRound]

def importDecl : Program (List Import) := do
  read
  if (← seesKeyword .kwFunction) || (← seesKeyword .kwConst) then
    passSemicolon
    return []
  let imports ← iterate importRound []
  expect .semicolon .semicolonAfterUse
  return imports

@[simp] theorem parser_importDecl : importDecl.parser phrases = Grammar.importDecl := by
  simp only [importDecl, Grammar.importDecl, parser_bind, parser_read, parser_seesKeyword,
    parser_ite, parser_iterate, parser_importRound, parser_expect, parser_pure]
  congr 1
  funext _
  -- either keyword is a token, so the loop that skips begins at one
  have skipped : SameAhead (passSemicolon.parser phrases >>= fun _ => pure ([] : List Import))
      (Parser.passSemicolon >>= fun _ => pure []) := (passSemicolon_ahead _).bind _
  refine sees_congr _ (.sees _ fun c => ?_) (sees_congr _ ?_ rfl)
  · rw [Bool.true_or, if_pos rfl, if_pos rfl]
    exact skipped
  · rw [Bool.false_or, if_pos rfl, if_pos rfl]
    exact skipped

def namespaceDecl : Program (Option Name × Bool) := do
  read
  let name ← match ← next? with
    | some ⟨.identifier, lexeme, _⟩ => do
      read
      pure (some (Name.ofWritten lexeme))
    | _ => pure none
  if ← acceptSymbol .leftBrace then return (name, true)
  expect .semicolon .semicolonAfterNamespace
  return (name, false)

@[simp] theorem parser_namespaceDecl : namespaceDecl.parser phrases = Grammar.namespaceDecl :=
  parser_bind_read phrases <| parser_bind_next phrases fun t => by split <;> simp

def itemRound (kind : TokenKind) (p : Progress) : Program Progress := do
  match kind with
  | .keyword .kwNamespace =>
    let (name, inBraces) ← namespaceDecl
    let namespaceName := name.or p.found.namespaceName
    return ⟨{ p.found with namespaceName }, none, inBraces⟩
  | .keyword .kwUse =>
    let imports ← importDecl
    return ⟨{ p.found with imports := p.found.imports ++ imports }, none, p.inBraces⟩
  | .keyword .kwDeclare =>
    read
    passParens
    expect .semicolon .semicolonAfterDeclare
    return { p with pendingDoc := none }
  | .keyword .kwAbstract | .keyword .kwFinal | .keyword .kwReadonly | .keyword .kwClass
  | .keyword .kwInterface | .keyword .kwTrait =>
    let c ← classDecl p.pendingDoc
    return ⟨{ p.found with classes := p.found.classes ++ [c] }, none, p.inBraces⟩
  | .keyword .kwFunction =>
    if (← secondKind?) == some .identifier then
      let _ ← method
    else
      let _ ← someStatement
    return { p with pendingDoc := none }
  | .keyword .kwConst =>
    passSemicolon
    return { p with pendingDoc := none }
  | .symbol .rightBrace =>
    if p.inBraces then
      read
      return { p with pendingDoc := none, inBraces := false }
    else
      let _ ← someStatement
      return { p with pendingDoc := none }
  | .symbol .semicolon =>
    read
    return { p with pendingDoc := none }
  | _ =>
    let _ ← someStatement
    return { p with pendingDoc := none }

theorem itemRound_ahead (kind : TokenKind) (p : Progress) :
    SameAhead ((itemRound kind p).parser phrases) (Grammar.itemRound kind p) := by
  unfold itemRound Grammar.itemRound
  split
  case h_11 =>
    rw [parser_bind]
    exact (passSemicolon_ahead _).bind _
  all_goals exact .of_eq (by simp [*])

def fileRound (p : Progress) : Program (Progress ⊕ SourceFile) := do
  match ← kind? with
  | none => return .inr p.found
  | some (.docComment text) =>
    read
    return .inl { p with pendingDoc := some text }
  | some (.symbol .attributeOpen) =>
    passAttribute
    return .inl p
  | some kind => return .inl (← itemRound kind p)

@[simp] theorem parser_fileRound (p : Progress) :
    (fileRound p).parser phrases = Grammar.fileRound p := by
  simp only [fileRound, Grammar.fileRound, parser_bind, parser_kind?]
  refine kind_congr rfl fun k => ?_
  split
  case h_1 same => cases same
  case h_2 same =>
    cases same
    exact .of_eq (by simp)
  case h_3 same =>
    cases same
    rw [parser_bind]
    exact (passAttribute_ahead _).bind _
  case h_4 kind plain closed same =>
    cases same
    simpa [*] using (itemRound_ahead _ p).bind fun p => pure (Sum.inl p)

def sourceFile : Program SourceFile := iterate fileRound Progress.start

theorem parser_sourceFile : sourceFile.parser phrases = Grammar.sourceFile := by
  simp only [sourceFile, Grammar.sourceFile, parser_iterate, parser_fileRound]

end ResponseShape.Cursor.Program
