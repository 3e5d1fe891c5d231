import Mathlib.Data.List.Induction
import ResponseShape.Proofs.Parsing
import ResponseShape.Proofs.Workspace
import ResponseShape.Grammar.Declaration

/-! Namespaces of the classes of a file. A file is read item by item, and the items tell which
namespace encloses a class; the file keeps the last namespace that is named, and has all its
classes in it. Main statement: `Workspace.addText_namespaces`. -/
namespace ResponseShape

open ResponseShape.Parser

/-- What a file is made of, as far as its classes and their names go. -/
inductive FileItem
  | namespaceStart (name : Option Name) (inBraces : Bool)
  /-- The brace that closes a namespace. -/
  | namespaceEnd
  | imports (imports : List Import)
  | classDecl (c : ClassDecl)
  | docComment (text : String)
  | attributes
  | other

namespace FileItem

def class? : FileItem → Option ClassDecl
  | classDecl c => some c
  | _ => none

def named? : FileItem → Option Name
  | namespaceStart name _ => name
  | _ => none

def classes (items : List FileItem) : List ClassDecl := items.filterMap class?

/-- The namespace that is named last, be it in front of the classes or behind them. -/
def lastNamed? (items : List FileItem) : Option Name := (items.filterMap named?).getLast?

/-- The classes, each with the namespace it stands in: that of the innermost open braces, or else
the one declared last without braces. Unnamed braces, and no namespace at all, are the global
namespace. -/
def enclosed (spaces : List (Option Name)) : List FileItem → List (Option Name × ClassDecl)
  | [] => []
  | namespaceStart name inBraces :: rest =>
    enclosed (if inBraces then name :: spaces else [name]) rest
  | namespaceEnd :: rest => enclosed spaces.tail rest
  | classDecl c :: rest => (spaces.head?.join, c) :: enclosed spaces rest
  | imports _ :: rest | docComment _ :: rest | attributes :: rest | other :: rest =>
    enclosed spaces rest

def qualified (space : Option Name) (className : String) : String :=
  match space with
  | some space => Scope.join space.text className
  | none => className

def named (classes : List (Option Name × ClassDecl)) : List (String × ClassDecl) :=
  classes.map fun e => (qualified e.1 e.2.name, e.2)

/-- The classes under the names that they have if all are in the namespace that is named last. -/
def registered (items : List FileItem) : List (String × ClassDecl) :=
  named ((classes items).map fun c => (lastNamed? items, c))

theorem classes_append (items more : List FileItem) :
    classes (items ++ more) = classes items ++ classes more :=
  List.filterMap_append

theorem lastNamed?_append (items more : List FileItem) :
    lastNamed? (items ++ more) = (lastNamed? more).or (lastNamed? items) := by
  unfold lastNamed?
  rw [List.filterMap_append, List.getLast?_append]

theorem map_snd_enclosed (spaces : List (Option Name)) (items : List FileItem) :
    (enclosed spaces items).map Prod.snd = classes items := by
  fun_induction enclosed spaces items with
  | case1 => rfl
  | case4 spaces c rest ih => exact congrArg (c :: ·) ih
  | _ => assumption

end FileItem

namespace Grammar

/-- What an item adds. A namespace without a name leaves the one that was named before. -/
def Progress.after (p : Progress) : FileItem → Progress
  | .namespaceStart name inBraces =>
    let namespaceName := name.or p.found.namespaceName
    ⟨{ p.found with namespaceName }, none, inBraces⟩
  | .namespaceEnd => { p with pendingDoc := none, inBraces := false }
  | .imports imports =>
    ⟨{ p.found with imports := p.found.imports ++ imports }, none, p.inBraces⟩
  | .classDecl c => ⟨{ p.found with classes := p.found.classes ++ [c] }, none, p.inBraces⟩
  | .docComment text => { p with pendingDoc := some text }
  | .attributes => p
  | .other => { p with pendingDoc := none }

def Progress.ofItems (items : List FileItem) : Progress := items.foldl after start

def passItem (kind : TokenKind) : Parser Unit := do
  match kind with
  | .keyword .kwDeclare =>
    advance
    passGroup .leftParen .rightParen
    expect .semicolon .semicolonAfterDeclare
  | .keyword .kwFunction =>
    if (← secondKind?) == some .identifier then
      let _ ← method
    else
      let _ ← phrases.statement
  | .keyword .kwConst => passSemicolon
  | .symbol .semicolon => advance
  | _ =>
    let _ ← phrases.statement

/-- One item. A brace closes a namespace only while one is open. -/
def fileItem (p : Progress) (kind : TokenKind) : Parser FileItem := do
  match kind with
  | .docComment text =>
    advance
    return .docComment text
  | .symbol .attributeOpen =>
    passAttribute
    return .attributes
  | .keyword .kwNamespace =>
    let (name, inBraces) ← namespaceDecl
    return .namespaceStart name inBraces
  | .keyword .kwUse => return .imports (← importDecl)
  | .keyword .kwAbstract | .keyword .kwFinal | .keyword .kwReadonly | .keyword .kwClass
  | .keyword .kwInterface | .keyword .kwTrait => return .classDecl (← classDecl p.pendingDoc)
  | .symbol .rightBrace =>
    if p.inBraces then
      advance
      return .namespaceEnd
    else
      passItem kind
      return .other
  | _ =>
    passItem kind
    return .other

def itemsRound (items : List FileItem) : Parser (List FileItem ⊕ List FileItem) := do
  match ← kind? with
  | none => return .inr items
  | some kind => return .inl (items ++ [← fileItem (.ofItems items) kind])

def fileItems : Parser (List FileItem) := iterate itemsRound []

end Grammar

/-- The items of a text, or what is wrong with it. -/
def FileItem.ofText (source : String) : Except ParseError (List FileItem) :=
  match TokenStream.ofText source with
  | .error e => .error e
  | .ok s => (Grammar.fileItems s).map Prod.fst

namespace Grammar

theorem itemRound_eq {kind : TokenKind} (plain : ∀ text, kind ≠ .docComment text)
    (closed : kind ≠ .symbol .attributeOpen) (p : Progress) :
    itemRound kind p = p.after <$> fileItem p kind := by
  unfold itemRound fileItem
  split
  case h_10 =>
    simp only [passItem, bind_assoc, map_bind]
    congr 1
    funext second
    split <;> simp [Progress.after]
  case h_12 => split <;> simp [Progress.after, passItem]
  case h_14 =>
    -- a kind without a case of its own in files has none as an item
    split
    case h_12 => simp [Progress.after, passItem, *]
    all_goals simp_all
  all_goals simp [Progress.after, passItem]

theorem fileRound_eq (p : Progress) :
    fileRound p = kind? >>= fun
      | none => return .inr p.found
      | some kind => return .inl (p.after (← fileItem p kind)) := by
  unfold fileRound
  congr 1
  funext kind
  split
  case h_1 => rfl
  case h_4 kind plain closed => simp [itemRound_eq plain closed]
  all_goals simp [fileItem, Progress.after]

theorem Progress.ofItems_concat (items : List FileItem) (item : FileItem) :
    ofItems (items ++ [item]) = (ofItems items).after item := by
  simp only [ofItems, List.foldl_append, List.foldl_cons, List.foldl_nil]

theorem itemsRound_inStep (items : List FileItem) :
    fileRound (.ofItems items) =
      Sum.map Progress.ofItems (fun items => (Progress.ofItems items).found) <$>
        itemsRound items := by
  rw [fileRound_eq, itemsRound, map_bind]
  congr 1
  funext kind
  cases kind with
  | none => rfl
  | some kind => simp [Progress.ofItems_concat]

end Grammar

namespace SourceFile

def ofItems (items : List FileItem) : SourceFile := (Grammar.Progress.ofItems items).found

theorem ofText_eq (source : String) :
    ofText source = (FileItem.ofText source).map ofItems := by
  unfold ofText FileItem.ofText
  cases TokenStream.ofText source with
  | error e => rfl
  | ok s =>
    have inStep : Grammar.sourceFile s = (Grammar.fileItems s).map (Prod.map ofItems id) :=
      iterate_map Grammar.itemsRound_inStep [] s
    dsimp only
    rw [inStep]
    cases Grammar.fileItems s with
    | error e => rfl
    | ok r => rfl

theorem classes_ofItems (items : List FileItem) :
    (ofItems items).classes = FileItem.classes items := by
  induction items using List.reverseRecOn with
  | nil => rfl
  | append_singleton items item ih =>
    rw [FileItem.classes_append, ← ih, ofItems, Grammar.Progress.ofItems_concat]
    cases item with
    | classDecl c => rfl
    | _ => exact (List.append_nil _).symm

theorem namespaceName_ofItems (items : List FileItem) :
    (ofItems items).namespaceName = FileItem.lastNamed? items := by
  induction items using List.reverseRecOn with
  | nil => rfl
  | append_singleton items item ih =>
    rw [FileItem.lastNamed?_append, ← ih, ofItems, Grammar.Progress.ofItems_concat]
    cases item with
    | namespaceStart name inBraces => cases name <;> rfl
    | _ => rfl

theorem named_resourceClasses (items : List FileItem) (path : Option String) :
    ((ofItems items).resourceClasses path).map (fun t => (t.name, t.decl)) =
      FileItem.registered items := by
  have own (name : String) : (Scope.ofFile (ofItems items)).ownName name =
      FileItem.qualified (FileItem.lastNamed? items) name := by
    rw [← namespaceName_ofItems]
    unfold Scope.ownName Scope.ofFile FileItem.qualified
    cases (ofItems items).namespaceName with
    | none => rfl
    | some space => rfl
  unfold resourceClasses FileItem.registered FileItem.named
  simp only [List.map_map, classes_ofItems]
  exact List.map_congr_left fun c _ => congrArg (·, c) (own c.name)

end SourceFile

theorem Scope.join_ne (space name : String) : join space name ≠ name := by
  intro same
  have lengths := congrArg String.length same
  unfold join at lengths
  rw [String.length_append, String.length_append, String.length_singleton] at lengths
  omega

namespace FileItem

theorem qualified_eq_iff {space other : Option Name} (className : String) :
    qualified space className = qualified other className ↔
      space.map Name.text = other.map Name.text := by
  cases space with
  | none =>
    cases other with
    | none => exact iff_of_true rfl rfl
    | some other => exact iff_of_false (Scope.join_ne other.text className).symm nofun
  | some space =>
    cases other with
    | none => exact iff_of_false (Scope.join_ne space.text className) nofun
    | some other =>
      simp only [qualified, Scope.join, String.append_left_inj, Option.map_some,
        Option.some.injEq]

theorem registered_eq_iff {items : List FileItem} :
    registered items = named (enclosed [] items) ↔
      ∀ e ∈ enclosed [] items, e.1.map Name.text = (lastNamed? items).map Name.text := by
  unfold registered named
  rw [← map_snd_enclosed [] items, List.map_map, List.map_map, List.map_inj_left]
  refine forall₂_congr fun e _ => ?_
  rw [eq_comm, ← qualified_eq_iff e.2.name]
  exact ⟨congrArg Prod.fst, congrArg (·, e.2)⟩

end FileItem

namespace Workspace

theorem map_decl_find? (ts : List ResourceClass) (fullName : String) :
    (ts.find? fun t => t.name == fullName).map ResourceClass.decl =
      Association.find? fullName (ts.map fun t => (t.name, t.decl)) := by
  induction ts with
  | nil => rfl
  | cons t rest ih =>
    rw [List.find?_cons, List.map_cons, Association.find?, ← ih]
    by_cases same : t.name = fullName
    · rw [if_pos same, beq_iff_eq.2 same, Option.map_some]
    · rw [if_neg same, beq_eq_false_iff_ne.2 same]

/-- A text adds its classes under the namespace that it names last, wherever they stand. These are
their own full names just if every class is in a namespace of that name. -/
theorem addText_namespaces (w : Workspace) (path : Option String) {source : String}
    {u : SourceFile} (accepted : SourceFile.ofText source = .ok u) :
    ∃ items w', FileItem.ofText source = .ok items ∧ w.addText path source = .ok w' ∧
      (FileItem.enclosed [] items).map Prod.snd = u.classes ∧
      (∀ fullName, (w'.find? fullName).map ResourceClass.decl =
        ((w.find? fullName).map ResourceClass.decl).or
          (Association.find? fullName (FileItem.registered items))) ∧
      (FileItem.registered items = FileItem.named (FileItem.enclosed [] items) ↔
        ∀ e ∈ FileItem.enclosed [] items,
          e.1.map Name.text = (FileItem.lastNamed? items).map Name.text) := by
  have read := SourceFile.ofText_eq source
  rw [accepted] at read
  cases found : FileItem.ofText source with
  | error e =>
    rw [found] at read
    cases read
  | ok items =>
    rw [found] at read
    cases read
    refine ⟨items, w.addFile path (.ofItems items), rfl, ?_, ?_, fun fullName => ?_,
      FileItem.registered_eq_iff⟩
    · rw [addText, accepted]
      rfl
    · rw [FileItem.map_snd_enclosed, SourceFile.classes_ofItems]
    · rw [addFile_eq, find?_addClasses, Option.map_or, map_decl_find?,
        SourceFile.named_resourceClasses]

/-- A namespace that is opened twice, with a global one in between that has no class. -/
def reopened : String :=
  "<?php namespace A \x7b class X \x7b\x7d \x7d namespace \x7b f(); \x7d " ++
    "namespace A \x7b use B\\C; class Y \x7b\x7d \x7d"

theorem addText_namespaces_reopened :
    ∃ u items w', SourceFile.ofText reopened = .ok u ∧ FileItem.ofText reopened = .ok items ∧
      empty.addText none reopened = .ok w' ∧
      ∀ fullName, (w'.find? fullName).map ResourceClass.decl =
        Association.find? fullName (FileItem.named (FileItem.enclosed [] items)) := by
  have read : FileItem.ofText reopened = .ok
      [.namespaceStart (some ⟨"A", .unqualified⟩) true, .classDecl ⟨"X", none, none, [], []⟩,
        .namespaceEnd, .namespaceStart none true, .other, .namespaceEnd,
        .namespaceStart (some ⟨"A", .unqualified⟩) true, .imports [⟨⟨"B\\C", .qualified⟩, none⟩],
        .classDecl ⟨"Y", none, none, [], []⟩, .namespaceEnd] := by
    with_unfolding_all rfl
  have accepted := SourceFile.ofText_eq reopened
  rw [read] at accepted
  obtain ⟨items, w', read', added, -, found, own⟩ := addText_namespaces empty none accepted
  cases read.symm.trans read'
  refine ⟨_, _, w', accepted, read, added, fun fullName => ?_⟩
  have same := own.2 (by decide)
  rw [found, same]
  rfl

def severalNamespaces : String :=
  "<?php namespace A \x7b class X \x7b\x7d \x7d namespace B \x7b class Y \x7b\x7d \x7d " ++
    "namespace \x7b class Z \x7b\x7d \x7d"

/-- All classes get into the namespace that is named last. -/
theorem classes_outside_their_namespaces :
    (FileItem.ofText severalNamespaces).map
        (fun items => (FileItem.named (FileItem.enclosed [] items)).map Prod.fst) =
          .ok ["A\\X", "B\\Y", "Z"] ∧
      (empty.addText none severalNamespaces).map classNames =
        .ok ["B\\X", "B\\Y", "B\\Z"] := by
  have read : FileItem.ofText severalNamespaces = .ok
      [.namespaceStart (some ⟨"A", .unqualified⟩) true, .classDecl ⟨"X", none, none, [], []⟩,
        .namespaceEnd, .namespaceStart (some ⟨"B", .unqualified⟩) true,
        .classDecl ⟨"Y", none, none, [], []⟩, .namespaceEnd, .namespaceStart none true,
        .classDecl ⟨"Z", none, none, [], []⟩, .namespaceEnd] := by
    with_unfolding_all rfl
  rw [addText, SourceFile.ofText_eq, read]
  exact ⟨rfl, rfl⟩

end Workspace

end ResponseShape
