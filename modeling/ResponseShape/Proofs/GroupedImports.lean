import ResponseShape.Proofs.DraftText
import ResponseShape.Proofs.ImportForms
import ResponseShape.Proofs.Namespaces

/-! Lists and groups of imports say no more than their names one by one: a file with one import for
each of them has the same imports and the same scope. Main statement: `ungrouped_same`. -/
namespace ResponseShape

open ResponseShape.Parser ResponseShape.Grammar

/-- An import uses up the documentation comment before it, so a group without a member is the one
form that does something besides importing. -/
def ClassDecl.undocumented (c : ClassDecl) : ClassDecl := { c with docComment := none }

def FileItem.undocumented : FileItem → FileItem
  | classDecl c => classDecl c.undocumented
  | docComment _ => other
  | item => item

def SourceFile.undocumented (f : SourceFile) : SourceFile :=
  { f with classes := f.classes.map ClassDecl.undocumented }

namespace Grammar

def Progress.undocumented (p : Progress) : Progress :=
  { p with found := p.found.undocumented, pendingDoc := none }

theorem Progress.undocumented_undocumented (p : Progress) :
    p.undocumented.undocumented = p.undocumented := by
  simp [undocumented, SourceFile.undocumented, ClassDecl.undocumented]

theorem Progress.undocumented_after (p : Progress) (item : FileItem) :
    (p.after item).undocumented = p.undocumented.after item.undocumented := by
  cases item <;>
    simp [undocumented, after, SourceFile.undocumented, FileItem.undocumented]

theorem fileItem_undocumented (p : Progress) (kind : TokenKind) :
    FileItem.undocumented <$> fileItem p.undocumented kind =
      FileItem.undocumented <$> fileItem p kind := by
  unfold fileItem
  split
  case h_5 | h_6 | h_7 | h_8 | h_9 | h_10 =>
    simp only [classDecl_eq, bind_assoc, pure_bind, map_bind, map_pure, FileItem.undocumented,
      ClassDecl.undocumented]
  all_goals rfl

/-- What a round finds, up to documentation comments. -/
def plainRound (p : Progress) : Parser (Progress ⊕ SourceFile) :=
  Sum.map Progress.undocumented SourceFile.undocumented <$> fileRound p

theorem plainRound_eq (p : Progress) :
    plainRound p = kind? >>= fun
      | none => return .inr p.undocumented.found
      | some kind => (fun item => .inl (p.undocumented.after item)) <$>
          (FileItem.undocumented <$> fileItem p kind) := by
  unfold plainRound
  rw [fileRound_eq, map_bind]
  congr 1
  funext kind
  cases kind with
  | none => rfl
  | some kind => simp [Progress.undocumented_after]

theorem plainRound_undocumented (p : Progress) : plainRound p.undocumented = plainRound p := by
  rw [plainRound_eq, plainRound_eq, Progress.undocumented_undocumented]
  simp only [fileItem_undocumented]

/-- What a file comes to from here on, up to documentation comments. -/
def plainFile (p : Progress) (s : TokenStream) : Except ParseError (SourceFile × TokenStream) :=
  (iterate fileRound p s).map (Prod.map SourceFile.undocumented id)

/-- The comment that is pending makes no difference. -/
theorem plainFile_eq_of_undocumented {p p' : Progress} (same : p.undocumented = p'.undocumented)
    (s : TokenStream) : plainFile p s = plainFile p' s := by
  have plain (p : Progress) : plainFile p s = iterate plainRound p.undocumented s :=
    (iterate_map (fun p => plainRound_undocumented p) p s).symm
  rw [plain, plain, same]

def Progress.importing (p : Progress) (imports : List Import) : Progress :=
  { p with found := { p.found with imports := p.found.imports ++ imports } }

theorem reads_importItem (p : Progress) (d : ImportDeclaration) (rest : List Token) :
    Reads (fileRound p) (d.tokens ++ rest)
      (.inl { p.importing d.imports with pendingDoc := none }) rest :=
  .kind rfl (.bind ((d.reads_tokens rest).bind .pure) .pure)

theorem iterate_imports {p : Progress} (noDoc : p.pendingDoc = none)
    (decls : List ImportDeclaration) (later : List Token) (stop : Position) :
    iterate fileRound p ⟨decls.flatMap ImportDeclaration.tokens ++ later, stop⟩ =
      iterate fileRound (p.importing (decls.flatMap ImportDeclaration.imports)) ⟨later, stop⟩ := by
  induction decls generalizing p with
  | nil => simp [Progress.importing]
  | cons d more ih =>
    have shorter : (more.flatMap ImportDeclaration.tokens ++ later).length <
        (d.tokens ++ (more.flatMap ImportDeclaration.tokens ++ later)).length := by
      simp [ImportDeclaration.tokens]
      omega
    rw [List.flatMap_cons, List.append_assoc, iterate_again (reads_importItem p d _ stop) shorter,
      ih rfl]
    simp [Progress.importing, noDoc]

theorem plainFile_imports (p : Progress) (decls : List ImportDeclaration) (later : List Token)
    (stop : Position) :
    plainFile p ⟨decls.flatMap ImportDeclaration.tokens ++ later, stop⟩ =
      plainFile (p.importing (decls.flatMap ImportDeclaration.imports)) ⟨later, stop⟩ := by
  have plain : p.undocumented = Progress.undocumented { p with pendingDoc := none } := rfl
  have plain' : (p.importing (decls.flatMap ImportDeclaration.imports)).undocumented =
    (Progress.importing { p with pendingDoc := none } _).undocumented := rfl
  rw [plainFile_eq_of_undocumented plain, plainFile_eq_of_undocumented plain', plainFile,
    iterate_imports rfl, plainFile]

theorem plainFile_ungrouped (p : Progress) (decls : List ImportDeclaration) (later : List Token)
    (stop : Position) :
    plainFile p ⟨decls.flatMap ImportDeclaration.tokens ++ later, stop⟩ =
      plainFile p ⟨(decls.flatMap ImportDeclaration.ungrouped).flatMap ImportDeclaration.tokens ++
        later, stop⟩ := by
  rw [plainFile_imports, plainFile_imports, List.flatMap_assoc]
  simp only [ImportDeclaration.imports_ungrouped]

/-- The items of a file up to `later` are in `front`, and `p` is what they come to. -/
def EndsItem (front later : List Token) (p : Progress) : Prop :=
  ∀ stop, sourceFile ⟨front ++ later, stop⟩ = iterate fileRound p ⟨later, stop⟩

end Grammar

/-- The imports of a file, and what short names mean in it. -/
def SourceFile.names (f : SourceFile) : List Import × Scope := (f.imports, Scope.ofFile f)

theorem HasTokens.toOption_ofText {source : String} {ts : List Token}
    (written : HasTokens source ts) (stop : Position) :
    (SourceFile.ofText source).toOption = (sourceFile ⟨ts, stop⟩).toOption.map Prod.fst := by
  obtain ⟨s, read, alike⟩ := written
  have together := sourceFile_together (show TokenStream.Alike ⟨ts, stop⟩ s from alike)
  unfold SourceFile.ofText
  rw [read]
  unfold Together at together
  dsimp only
  cases printed : sourceFile ⟨ts, stop⟩ with
  | error e =>
    cases parsed : sourceFile s with
    | error e' => rfl
    | ok r => rw [printed, parsed] at together; exact together.elim
  | ok r =>
    cases parsed : sourceFile s with
    | error e' => rw [printed, parsed] at together; exact together.elim
    | ok r' =>
      rw [printed, parsed] at together
      exact congrArg some together.1.symm

theorem names_of_hasTokens {front later : List Token} {p : Progress} {source : String}
    (written : HasTokens source (front ++ later)) (item : EndsItem front later p)
    (stop : Position) :
    (SourceFile.ofText source).toOption.map SourceFile.names =
      (plainFile p ⟨later, stop⟩).toOption.map fun r => r.1.names := by
  rw [written.toOption_ofText stop, item stop, plainFile]
  cases iterate fileRound p ⟨later, stop⟩ with
  | error e => rfl
  | ok r => rfl

theorem names_ungrouped {p : Progress} (front : List Token) (decls : List ImportDeclaration)
    {later : List Token} {source source' : String}
    (written : HasTokens source (front ++ (decls.flatMap ImportDeclaration.tokens ++ later)))
    (item : EndsItem front (decls.flatMap ImportDeclaration.tokens ++ later) p)
    (written' : HasTokens source' (front ++ ((decls.flatMap ImportDeclaration.ungrouped).flatMap
      ImportDeclaration.tokens ++ later)))
    (item' : EndsItem front ((decls.flatMap ImportDeclaration.ungrouped).flatMap
      ImportDeclaration.tokens ++ later) p) :
    (SourceFile.ofText source).toOption.map SourceFile.names =
      (SourceFile.ofText source').toOption.map SourceFile.names := by
  rw [names_of_hasTokens written item .start, names_of_hasTokens written' item' .start,
    plainFile_ungrouped]

open Segment TokenStream

theorem isNameStart_of_isDigit {c : Char} (digit : c.isDigit = true) : isNameStart c = false := by
  have bounds : 48 ≤ c.toNat ∧ c.toNat ≤ 57 := by
    simpa [Char.isDigit, UInt32.le_iff_toNat_le] using digit
  have small : c.toNat < 0x80 := by omega
  have other : c ≠ '_' := by
    rintro rfl
    exact absurd bounds.2 (by decide)
  have letter : c.isAlpha = (decide (c.val ≥ 'A'.val ∧ c.val ≤ 'Z'.val) ||
      decide (c.val ≥ 'a'.val) && decide (c.val ≤ 'z'.val)) := rfl
  simp [isNameStart, Text.isLetter, small, other, letter, UInt32.le_iff_toNat_le]
  omega

theorem first_word {c : Char} (starts : isNameStart c ∨ c = '\\') (rest : List Char) :
    first c rest = .ok (some (word (c :: rest))) := by
  have apart {d : Char} (noStart : isNameStart d = false) (noSlash : d ≠ '\\') : c ≠ d := by
    rintro rfl
    rcases starts with start | rfl
    · exact Bool.false_ne_true (noStart.symm.trans start)
    · exact noSlash rfl
  have noDigit : ¬c.isDigit := by
    intro digit
    rcases starts with start | rfl
    · exact Bool.false_ne_true ((isNameStart_of_isDigit digit).symm.trans start)
    · exact absurd digit (by decide)
  have noBlank : ¬isGapBlank c := by
    rw [isGapBlank_iff]
    rintro (h | h | h | h)
    all_goals exact apart (by decide) (by decide) h
  have unmarked : Unmarked c rest.head? :=
    { noBlank
      noSlashes := fun h => apart (by decide) (by decide) h.1
      noHash := apart (by decide) (by decide)
      noBlock := fun h => apart (by decide) (by decide) h.1
      noClosing := fun h => apart (by decide) (by decide) h.1
      noDollar := apart (by decide) (by decide)
      noSingle := apart (by decide) (by decide)
      noDouble := apart (by decide) (by decide) }
  exact Opening.first_eq (.word unmarked noDigit starts)

/-- The lexer reads the text in one piece, as a token of the kind. -/
structure IsWord (k : TokenKind) (text : String) : Prop where
  starts : ∃ c rest, text.toList = c :: rest ∧ (isNameStart c ∨ c = '\\')
  letters : ∀ c ∈ text.toList, isNameChar c ∨ c = '\\'
  kind : wordKind text.toList = k

instance (k : TokenKind) (text : String) : Decidable (IsWord k text) :=
  decidable_of_iff
    (text.toList.head?.any (fun c => isNameStart c || c = '\\') = true ∧
      text.toList.all (fun c => isNameChar c || c = '\\') = true ∧ wordKind text.toList = k)
    (by
      simp only [Option.any_eq_true, List.all_eq_true, Bool.or_eq_true, decide_eq_true_eq]
      constructor
      · rintro ⟨⟨c, first, starts⟩, letters, kind⟩
        obtain ⟨rest, chars⟩ := List.head?_eq_some_iff.1 first
        exact ⟨⟨c, rest, chars, starts⟩, letters, kind⟩
      · rintro ⟨⟨c, rest, chars, starts⟩, letters, kind⟩
        exact ⟨⟨c, by rw [chars]; rfl, starts⟩, letters, kind⟩)

theorem IsWord.scans {k : TokenKind} {text : String} (word : IsWord k text) {rest : List Char}
    {ts : List Token} (ends : Scans.Ends rest) (later : Scans rest ts) :
    Scans (text.toList ++ rest) (⟨k, text, Position.start⟩ :: ts) := by
  obtain ⟨⟨c, more, chars, starts⟩, letters, kind⟩ := word
  rw [chars] at letters kind ⊢
  have letters' : ((c :: more).all fun d => isNameChar d || d = '\\') = true := by
    simpa using letters
  have scanned := Scans.word c more (fun text => first_word starts text) letters' kind ends later
  rwa [← chars, String.ofList_toList] at scanned

open Draft (ScansValue listed)

theorem scans_listed {α : Type} {text : α → List Char} {tokens : α → List Token} {xs : List α}
    (each : ∀ x ∈ xs, ScansValue (text x) (tokens x)) :
    ScansValue (listed (xs.map text)) (Token.separated (xs.map tokens)) := by
  intro rest ts ends later
  induction xs with
  | nil => exact later
  | cons x more ih =>
    have here := each x List.mem_cons_self
    cases more with
    | nil => exact here rest ts ends later
    | cons y more =>
      have tail := ih fun z mem => each z (List.mem_cons_of_mem _ mem)
      have comma := Scans.mark (c := ',') (s := .comma) (by decide) (.blank tail)
      simp only [List.map_cons, listed, Token.separated, List.append_assoc, List.cons_append]
        at comma ⊢
      exact here _ _ ⟨',', _, rfl, by decide⟩ comma

namespace ImportedName

def text (n : ImportedName) : List Char :=
  n.written.toList ++ match n.alias? with
    | none => []
    | some a => ' ' :: (a.word.toList ++ ' ' :: a.name.toList)

structure Proper (n : ImportedName) : Prop where
  written : IsWord .identifier n.written
  word : ∀ a ∈ n.alias?, IsWord (.keyword .kwAs) a.word
  name : ∀ a ∈ n.alias?, IsWord .identifier a.name

instance (n : ImportedName) : Decidable n.Proper :=
  decidable_of_iff
    (IsWord .identifier n.written ∧ (∀ a ∈ n.alias?, IsWord (.keyword .kwAs) a.word) ∧
      ∀ a ∈ n.alias?, IsWord .identifier a.name)
    ⟨fun h => ⟨h.1, h.2.1, h.2.2⟩, fun h => ⟨h.written, h.word, h.name⟩⟩

theorem Proper.scans {n : ImportedName} (proper : n.Proper) : ScansValue n.text n.tokens := by
  obtain ⟨written, other⟩ := n
  intro rest ts ends later
  cases other with
  | none =>
    rw [text, List.append_nil]
    exact proper.written.scans ends later
  | some a =>
    have name := (proper.name a rfl).scans ends later
    have word := (proper.word a rfl).scans ⟨' ', _, rfl, by decide⟩ (.blank name)
    have whole := proper.written.scans ⟨' ', _, rfl, by decide⟩ (.blank word)
    simpa [text, tokens, aliasTokens, Token.word, Token.spelled] using whole

theorem Proper.within {n : ImportedName} (proper : n.Proper) {space : String}
    (opening : IsWord .identifier (ImportPart.opening space)) : (n.within space).Proper where
  written := by
    obtain ⟨⟨c, more, chars, starts⟩, letters, -⟩ := opening
    have joined : (n.within space).written.toList =
        (ImportPart.opening space).toList ++ n.written.toList := String.toList_append ..
    refine ⟨⟨c, more ++ n.written.toList, ?_, starts⟩, fun d mem => ?_, if_pos ?_⟩
    · rw [joined, chars, List.cons_append]
    · rw [joined, List.mem_append] at mem
      exact mem.elim (letters d) (proper.written.letters d)
    · simp [ImportedName.within, Scope.join, separator]
  word := proper.word
  name := proper.name

end ImportedName

namespace ImportPart

def memberText (members : List ImportedName) (trailingComma : Bool) : List Char :=
  listed (members.map ImportedName.text) ++ if trailsComma members trailingComma then [','] else []

def text : ImportPart → List Char
  | single name => name.text
  | group space members trailingComma =>
    (opening space).toList ++ '\x7b' :: (memberText members trailingComma ++ ['\x7d'])

def Proper : ImportPart → Prop
  | single name => name.Proper
  | group space members _ => IsWord .identifier (opening space) ∧ ∀ n ∈ members, n.Proper

instance : ∀ part : ImportPart, Decidable part.Proper
  | single name => inferInstanceAs (Decidable name.Proper)
  | group _ _ _ => inferInstanceAs (Decidable (_ ∧ _))

theorem scans_members {members : List ImportedName} (proper : ∀ n ∈ members, n.Proper)
    (trailingComma : Bool) {rest : List Char} {ts : List Token}
    (later : Scans rest ts) (ends : Scans.Ends rest) :
    Scans (memberText members trailingComma ++ rest)
      (memberTokens members trailingComma ++ ts) := by
  have names := scans_listed fun n mem => (proper n mem).scans
  rw [memberText, memberTokens, List.append_assoc, List.append_assoc]
  cases trailsComma members trailingComma with
  | false => exact names _ _ ends later
  | true => exact names _ _ ⟨',', _, rfl, by decide⟩ (.mark (by decide) later)

theorem Proper.scans {part : ImportPart} (proper : part.Proper) :
    ScansValue part.text part.tokens := by
  cases part with
  | single n => exact ImportedName.Proper.scans proper
  | group space members trailingComma =>
    intro rest ts _ later
    have inner := scans_members proper.2 trailingComma
      (.mark (c := '\x7d') (s := .rightBrace) (by decide) later) ⟨'\x7d', rest, rfl, by decide⟩
    have braces := Scans.mark (c := '\x7b') (s := .leftBrace) (by decide) inner
    have whole := proper.1.scans ⟨'\x7b', _, rfl, by decide⟩ braces
    simpa [text, tokens, Token.braced, Token.word] using whole

theorem Proper.names {part : ImportPart} (proper : part.Proper) :
    ∀ n ∈ part.names, n.Proper := by
  cases part with
  | single n => exact List.forall_mem_singleton.2 proper
  | group space members trailingComma =>
    rintro _ mem
    obtain ⟨n, known, rfl⟩ := List.mem_map.1 mem
    exact (proper.2 n known).within proper.1

end ImportPart

namespace ImportKind

def text : ImportKind → List Char
  | classes => []
  | functions word | constants word => word.toList ++ [' ']

def Proper : ImportKind → Prop
  | classes => True
  | functions word => IsWord (.keyword .kwFunction) word
  | constants word => IsWord (.keyword .kwConst) word

instance : ∀ kind : ImportKind, Decidable kind.Proper
  | classes => inferInstanceAs (Decidable True)
  | functions _ | constants _ => inferInstanceAs (Decidable (IsWord _ _))

theorem Proper.scans {kind : ImportKind} (proper : kind.Proper) {rest : List Char}
    {ts : List Token} (later : Scans rest ts) :
    Scans (kind.text ++ rest) (kind.tokens ++ ts) := by
  cases kind with
  | classes => exact later
  | functions word | constants word =>
    have scanned := IsWord.scans proper ⟨' ', _, rfl, by decide⟩ (.blank later)
    rwa [text, List.append_assoc]

end ImportKind

namespace ImportDeclaration

def text (d : ImportDeclaration) : List Char :=
  ' ' :: (d.word.toList ++
    ' ' :: (d.kind.text ++ (listed (d.parts.map ImportPart.text) ++ [';'])))

/-- The lexer reads every word of the declaration as it is meant. -/
structure Proper (d : ImportDeclaration) : Prop where
  word : IsWord (.keyword .kwUse) d.word
  kind : d.kind.Proper
  parts : ∀ part ∈ d.parts, part.Proper

instance (d : ImportDeclaration) : Decidable d.Proper :=
  decidable_of_iff
    (IsWord (.keyword .kwUse) d.word ∧ d.kind.Proper ∧ ∀ part ∈ d.parts, part.Proper)
    ⟨fun h => ⟨h.1, h.2.1, h.2.2⟩, fun h => ⟨h.word, h.kind, h.parts⟩⟩

theorem Proper.scans {d : ImportDeclaration} (proper : d.Proper) {rest : List Char}
    {ts : List Token} (later : Scans rest ts) : Scans (d.text ++ rest) (d.tokens ++ ts) := by
  have parts := scans_listed fun part mem => (proper.parts part mem).scans
  have ended := parts _ _ ⟨';', rest, rfl, by decide⟩ (.mark (s := .semicolon) (by decide) later)
  have word := proper.word.scans ⟨' ', _, rfl, by decide⟩ (.blank (proper.kind.scans ended))
  have whole := Scans.blank word
  simpa [text, tokens, Token.spelled] using whole

theorem Proper.ungrouped {d : ImportDeclaration} (proper : d.Proper) :
    ∀ d' ∈ d.ungrouped, d'.Proper := by
  rintro _ mem
  obtain ⟨n, named, rfl⟩ := List.mem_map.1 mem
  obtain ⟨part, known, named⟩ := List.mem_flatMap.1 named
  exact ⟨proper.word, proper.kind,
    List.forall_mem_singleton.2 ((proper.parts part known).names n named)⟩

end ImportDeclaration

def importingText (decls : List ImportDeclaration) (later : List Char) : String :=
  String.ofList (openTag ++ (decls.flatMap ImportDeclaration.text ++ later))

theorem hasTokens_importingText {decls : List ImportDeclaration} (proper : ∀ d ∈ decls, d.Proper)
    {later : List Char} {ts : List Token} (scans : Scans later ts) :
    HasTokens (importingText decls later) (decls.flatMap ImportDeclaration.tokens ++ ts) := by
  refine Scans.hasTokens ?_
  induction decls with
  | nil => exact scans
  | cons d more ih =>
    rw [List.flatMap_cons, List.flatMap_cons, List.append_assoc, List.append_assoc]
    exact (proper d List.mem_cons_self).scans
      (ih fun d mem => proper d (List.mem_cons_of_mem _ mem))

theorem ofText_importingText {decls : List ImportDeclaration} (proper : ∀ d ∈ decls, d.Proper) :
    SourceFile.ofText (importingText decls []) =
      .ok ⟨none, decls.flatMap ImportDeclaration.imports, []⟩ := by
  refine (hasTokens_importingText proper .nil).ofText fun stop => ?_
  rw [Grammar.sourceFile, iterate_imports rfl]
  exact iterate_done rfl

/-- One import for each name, in place of lists and groups, gives the same imports in the same
order and the same scope, wherever the imports stand between the items of a file. A text in which
every word is one for the lexer is read to the declarations that are written in it. -/
theorem ungrouped_same (decls : List ImportDeclaration) :
    (∀ (front later : List Token) (p : Progress) (source source' : String),
      HasTokens source (front ++ (decls.flatMap ImportDeclaration.tokens ++ later)) →
      EndsItem front (decls.flatMap ImportDeclaration.tokens ++ later) p →
      HasTokens source' (front ++ ((decls.flatMap ImportDeclaration.ungrouped).flatMap
        ImportDeclaration.tokens ++ later)) →
      EndsItem front ((decls.flatMap ImportDeclaration.ungrouped).flatMap
        ImportDeclaration.tokens ++ later) p →
      (SourceFile.ofText source).toOption.map SourceFile.names =
        (SourceFile.ofText source').toOption.map SourceFile.names) ∧
    ((∀ d ∈ decls, d.Proper) → ∀ (later : List Char) (ts : List Token), Scans later ts →
      (SourceFile.ofText (importingText decls later)).toOption.map SourceFile.names =
        (SourceFile.ofText (importingText (decls.flatMap ImportDeclaration.ungrouped)
          later)).toOption.map SourceFile.names) ∧
    ((∀ d ∈ decls, d.Proper) →
      SourceFile.ofText (importingText decls []) =
        .ok ⟨none, decls.flatMap ImportDeclaration.imports, []⟩ ∧
      SourceFile.ofText (importingText (decls.flatMap ImportDeclaration.ungrouped) []) =
        .ok ⟨none, decls.flatMap ImportDeclaration.imports, []⟩) := by
  have ungrouped (proper : ∀ d ∈ decls, d.Proper) :
      ∀ d ∈ decls.flatMap ImportDeclaration.ungrouped, d.Proper := fun d mem => by
    obtain ⟨d', known, mem⟩ := List.mem_flatMap.1 mem
    exact (proper d' known).ungrouped d mem
  refine ⟨fun _ _ _ _ _ written item written' item' => ?_, fun proper later ts scans => ?_,
    fun proper => ⟨ofText_importingText proper, ?_⟩⟩
  · exact names_ungrouped _ decls written item written' item'
  · exact names_ungrouped [] decls (hasTokens_importingText proper scans)
      (fun _ => rfl) (hasTokens_importingText (ungrouped proper) scans) (fun _ => rfl)
  · rw [ofText_importingText (ungrouped proper), List.flatMap_assoc]
    simp only [ImportDeclaration.imports_ungrouped]

def mixedImports : List ImportDeclaration :=
  [⟨"use", .classes, .group "App\\Models"
      [⟨"User", none⟩, ⟨"Post", some ⟨"AS", "Article"⟩⟩, ⟨"Blog\\Comment", none⟩] true,
      [.single ⟨"Gate", none⟩]⟩,
    ⟨"use", .functions "function", .group "App" [⟨"first", none⟩, ⟨"last", none⟩] false, []⟩,
    ⟨"Use", .classes, .group "App\\Http" [⟨"User", none⟩] false, [.group "App" [] false]⟩]

example : importingText mixedImports [] =
    "<?php use App\\Models\\\x7bUser, Post AS Article, Blog\\Comment,\x7d, Gate;" ++
      " use function App\\\x7bfirst, last\x7d; Use App\\Http\\\x7bUser\x7d, App\\\x7b\x7d;" := by
  decide +kernel

example : importingText (mixedImports.flatMap ImportDeclaration.ungrouped) [] =
    "<?php use App\\Models\\User; use App\\Models\\Post AS Article;" ++
      " use App\\Models\\Blog\\Comment; use Gate; use function App\\first;" ++
      " use function App\\last; Use App\\Http\\User;" := by
  decide +kernel

theorem ungrouped_same_mixedImports :
    (∀ d ∈ mixedImports, d.Proper) ∧
      SourceFile.ofText (importingText (mixedImports.flatMap ImportDeclaration.ungrouped) []) =
        SourceFile.ofText (importingText mixedImports []) ∧
      (SourceFile.ofText (importingText mixedImports [])).toOption.map SourceFile.names =
        some (mixedImports.flatMap ImportDeclaration.imports,
          ⟨none, .ofList [("User", "App\\Models\\User"), ("Article", "App\\Models\\Post"),
            ("Comment", "App\\Models\\Blog\\Comment"), ("Gate", "Gate"),
            ("User", "App\\Http\\User")]⟩) := by
  have proper : ∀ d ∈ mixedImports, d.Proper := by decide +kernel
  have read := (ungrouped_same mixedImports).2.2 proper
  refine ⟨proper, read.2.trans read.1.symm, ?_⟩
  rw [read.1]
  rfl

end ResponseShape
