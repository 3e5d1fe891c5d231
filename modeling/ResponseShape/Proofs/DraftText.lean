import ResponseShape.Proofs.Accepted
import ResponseShape.Proofs.DraftTokens
import ResponseShape.Proofs.Scanning
import ResponseShape.Proofs.Workspace

/-! Drafts as source text. Whatever characters are in its keys, the text is scanned to the tokens of
the draft, and so the class in it gets the schema of the draft. Main statements:
`Draft.ofText_source` and `Draft.inferClass_source`. -/
namespace ResponseShape

namespace Draft

def escape (c : Char) : List Char := if c = '\\' ∨ c = '\'' then ['\\', c] else [c]

def quote (key : String) : List Char := '\'' :: (key.toList.flatMap escape ++ ['\''])

def writtenValue (required : Bool) (value : List Char) : List Char :=
  if required then value else "$this->when($c, ".toList ++ (value ++ [')'])

def listed : List (List Char) → List Char
  | [] => []
  | [entry] => entry
  | entry :: more :: rest => entry ++ ',' :: ' ' :: listed (more :: rest)

mutual

def written : Draft → List Char
  | text => "'x'".toList
  | property => "$this->p".toList
  | nested fields => '[' :: (listed (entries fields) ++ [']'])

def entries : List DraftField → List (List Char)
  | [] => []
  | .mk key required content :: rest =>
    (quote key ++ " => ".toList ++ writtenValue required content.written) :: entries rest

end

theorem written_nested (fields : List DraftField) :
    (nested fields).written = '[' :: (listed (entries fields) ++ [']']) := rfl

theorem listed_entries (key : String) (required : Bool) (content : Draft) (f : DraftField)
    (fields : List DraftField) :
    listed (entries (.mk key required content :: f :: fields)) =
      quote key ++ " => ".toList ++ writtenValue required content.written ++
        ',' :: ' ' :: listed (entries (f :: fields)) := by
  cases f
  rfl

def source (fields : List DraftField) : String :=
  String.ofList ("<?php class R \x7b function toArray() \x7b return ".toList ++
    ((nested fields).written ++ "; \x7d \x7d".toList))

example : source [.mk "it's" true .text, .mk "b" false (.nested [.mk "c" true .property])] =
    "<?php class R \x7b function toArray() \x7b return ['it\\'s' => 'x', " ++
      "'b' => $this->when($c, ['c' => $this->p])]; \x7d \x7d" := by
  decide +kernel

end Draft

namespace TokenStream

open Segment

/-- The text is scanned to tokens that say the same as these. -/
def Scans (text : List Char) (ts : List Token) : Prop :=
  ∀ p, ∃ s, scan p text = .ok s ∧ List.Forall₂ Token.Alike ts s.tokens

namespace Scans

variable {c : Char} {rest later lexeme : List Char} {k : TokenKind} {t : Token} {ts : List Token}

theorem nil : Scans [] [] := fun p => ⟨⟨[], p⟩, scan_nil, .nil⟩

theorem blank (h : Scans rest ts) : Scans (' ' :: rest) ts := by
  intro p
  obtain ⟨s, scanned, alike⟩ := h (p.advance [' '])
  have read : first ' ' rest = .ok (some ⟨none, [' '], rest⟩) := rfl
  exact ⟨s, by rw [scan_cons read, scanned]; rfl, alike⟩

theorem token (read : first c rest = .ok (some ⟨some k, lexeme, later⟩))
    (alike : ∀ p, t.Alike ⟨k, String.ofList lexeme, p⟩) (h : Scans later ts) :
    Scans (c :: rest) (t :: ts) := by
  intro p
  obtain ⟨s, scanned, alike'⟩ := h (p.advance lexeme)
  exact ⟨_, by rw [scan_cons read, scanned]; rfl, .cons (alike p) alike'⟩

theorem sign (read : first c rest = .ok (some ⟨some k, lexeme, later⟩))
    (noWord : k ≠ .identifier) (noKeyword : ∀ w, k ≠ .keyword w) (h : Scans later ts) :
    Scans (c :: rest) (.ofKind k :: ts) := by
  refine token read (fun _ => ⟨rfl, ?_⟩) h
  rintro (same | ⟨w, same⟩)
  · exact absurd same noWord
  · exact absurd same (noKeyword w)

/-- The symbols of one character that begin no longer one. -/
def marks : List (Char × Symbol) :=
  [('(', .leftParen), (')', .rightParen), ('[', .leftBracket), (']', .rightBracket),
    ('\x7b', .leftBrace), ('\x7d', .rightBrace), (',', .comma), (';', .semicolon)]

theorem first_mark : ∀ m ∈ marks, ∀ tail,
    first m.1 tail = .ok (some ⟨some (.symbol m.2), [m.1], tail⟩) := by
  simp only [marks, List.forall_mem_cons]
  refine ⟨?_, ?_, ?_, ?_, ?_, ?_, ?_, ?_, List.forall_mem_nil _⟩
  all_goals
    intro tail
    with_unfolding_all rfl

theorem mark {s : Symbol} (known : (c, s) ∈ marks) (h : Scans rest ts) :
    Scans (c :: rest) (.symbol s :: ts) :=
  sign (first_mark _ known rest) nofun nofun h

theorem spelled (read : first c rest = .ok (some ⟨some k, lexeme, later⟩)) (h : Scans later ts) :
    Scans (c :: rest) (⟨k, String.ofList lexeme, Position.start⟩ :: ts) :=
  token read (fun _ => ⟨rfl, fun _ => rfl⟩) h

/-- No word goes on here. -/
def Ends (rest : List Char) : Prop :=
  ∃ c more, rest = c :: more ∧ (isNameChar c || c = '\\') = false

theorem word (c : Char) (name : List Char)
    (starts : ∀ text, first c text = .ok (some (Segment.word (c :: text))))
    (letters : ((c :: name).all fun d => isNameChar d || d = '\\') = true)
    (kind : wordKind (c :: name) = k) (ends : Ends rest) (h : Scans rest ts) :
    Scans (c :: (name ++ rest)) (⟨k, String.ofList (c :: name), Position.start⟩ :: ts) := by
  obtain ⟨d, more, rfl, stop⟩ := ends
  refine spelled ?_ h
  have read := starts (name ++ d :: more)
  rw [Segment.word, run, ← List.cons_append,
    List.takeWhile_append_of_pos (List.all_eq_true.1 letters),
    List.dropWhile_append_of_pos (List.all_eq_true.1 letters)] at read
  simp only [List.takeWhile_cons, List.dropWhile_cons, stop, List.append_nil, kind,
    Bool.false_eq_true, if_false] at read
  exact read

end Scans

end TokenStream

/-- The tokens of the text say the same as these. -/
def HasTokens (source : String) (ts : List Token) : Prop :=
  ∃ s, TokenStream.ofText source = .ok s ∧ List.Forall₂ Token.Alike ts s.tokens

theorem TokenStream.Scans.hasTokens {text : List Char} {ts : List Token} (h : Scans text ts) :
    HasTokens (String.ofList (openTag ++ text)) ts := by
  obtain ⟨s, scanned, alike⟩ := h (Position.start.advance openTag)
  refine ⟨s, ?_, alike⟩
  have tagged := openTagLength_tagged (List.forall_mem_nil _) text
  rw [List.nil_append] at tagged
  unfold ofText
  dsimp only
  rw [String.toList_ofList, tagged]
  exact scanned

theorem HasTokens.ofText {source : String} {ts : List Token} {f : SourceFile}
    (written : HasTokens source ts) (read : Parser.Reads Grammar.sourceFile ts f []) :
    SourceFile.ofText source = .ok f := by
  obtain ⟨s, tokens, alike⟩ := written
  have same : TokenStream.Alike ⟨ts, Position.start⟩ s := alike
  obtain ⟨rest, parsed, -⟩ := (Grammar.sourceFile_together same).answer (read Position.start)
  exact SourceFile.ofText_ok_iff.2 ⟨s, rest, tokens, parsed⟩

namespace Draft

open Segment TokenStream

theorem singleQuoted?_escape (key rest : List Char) :
    singleQuoted? (key.flatMap escape ++ '\'' :: rest) =
      some ⟨key, false, key.flatMap escape ++ ['\''], rest⟩ := by
  induction key with
  | nil => cases rest <;> simp [singleQuoted?]
  | cons c key ih =>
    rw [List.flatMap_cons, List.append_assoc, escape]
    split_ifs with special
    · have escaped : c = '\'' ∨ c = '\\' := special.symm
      simp [singleQuoted?, escaped, ih, Quoted.cons]
    · obtain ⟨noSlash, noQuote⟩ := not_or.1 special
      obtain ⟨d, more, next⟩ : ∃ d more, key.flatMap escape ++ '\'' :: rest = d :: more :=
        List.exists_cons_of_ne_nil (by simp)
      rw [next] at ih ⊢
      simp [singleQuoted?, noSlash, noQuote, ih, Quoted.cons]

theorem first_quote (key : String) (rest : List Char) :
    first '\'' (key.toList.flatMap escape ++ '\'' :: rest) =
      .ok (some ⟨some (.string key), quote key, rest⟩) := by
  have opens : ∀ text, first '\'' text = quoted '\'' singleQuoted? text := fun _ => rfl
  rw [opens, quoted, singleQuoted?_escape]
  simp [stringKind, quote]

theorem scans_quote (key : String) {rest : List Char} {ts : List Token} (h : Scans rest ts) :
    Scans (quote key ++ rest) (.ofKind (.string key) :: ts) := by
  rw [quote, List.cons_append, List.append_assoc]
  exact .sign (first_quote key rest) (by simp) (by simp) h

theorem scans_instance {text : List Char} {ts : List Token} (h : Scans text ts) :
    Scans ("$this->".toList ++ text) (.ofKind (.var "this") :: .symbol .arrow :: ts) := by
  have this : ∀ tail, first '$' ("this->".toList ++ tail) =
      .ok (some ⟨some (.var "this"), "$this".toList, "->".toList ++ tail⟩) := fun _ => by
    with_unfolding_all rfl
  have arrow : ∀ tail, first '-' ('>' :: tail) =
      .ok (some ⟨some (.symbol .arrow), "->".toList, tail⟩) := fun _ => by
    with_unfolding_all rfl
  exact .sign (this _) nofun nofun (.sign (arrow _) nofun nofun h)

/-- A value is read where no word goes on behind it. -/
def ScansValue (text : List Char) (value : List Token) : Prop :=
  ∀ rest ts, Scans.Ends rest → Scans rest ts → Scans (text ++ rest) (value ++ ts)

theorem scansValue_text : ScansValue text.written text.tokens := fun _ _ _ h => scans_quote "x" h

theorem scansValue_property : ScansValue property.written property.tokens := fun _ _ ends h =>
  scans_instance (.word 'p' [] (fun _ => by with_unfolding_all rfl) (by decide)
    (by with_unfolding_all rfl) ends h)

theorem ScansValue.conditional {value : List Char} {tokens : List Token}
    (h : ScansValue value tokens) (required : Bool) :
    ScansValue (writtenValue required value) (valueTokens required tokens) := by
  cases required with
  | true => exact h
  | false =>
    intro rest ts _ later
    have condition : ∀ tail, first '$' ('c' :: ',' :: tail) =
        .ok (some ⟨some (.var "c"), "$c".toList, ',' :: tail⟩) := fun _ => by
      with_unfolding_all rfl
    have word : wordKind "when".toList = .identifier := by with_unfolding_all rfl
    have inner := h _ _ ⟨')', rest, rfl, by decide⟩ (.mark (s := .rightParen) (by decide) later)
    have args := Scans.mark (c := '(') (s := .leftParen) (by decide)
      (.sign (condition _) nofun nofun (.mark (s := .comma) (by decide) (.blank inner)))
    have called := Scans.word 'w' "hen".toList (fun _ => by with_unfolding_all rfl) (by decide)
      word ⟨_, _, rfl, by decide⟩ args
    have whole := scans_instance called
    simpa [writtenValue, valueTokens, Token.grouped, Token.separated, Token.word] using whole

theorem ScansValue.entry {value : List Char} {tokens : List Token} (h : ScansValue value tokens)
    (key : String) :
    ScansValue (quote key ++ " => ".toList ++ value)
      (.ofKind (.string key) :: .symbol .fatArrow :: tokens) := by
  intro rest ts ends later
  have arrow : ∀ tail, first '=' ('>' :: tail) =
      .ok (some ⟨some (.symbol .fatArrow), "=>".toList, tail⟩) := fun _ => by
    with_unfolding_all rfl
  have value := Scans.sign (arrow _) nofun nofun (.blank (h rest ts ends later))
  have whole := scans_quote key (.blank value)
  rw [List.append_assoc, List.append_assoc]
  exact whole

def ScansEntries (fields : List DraftField) : Prop :=
  ∀ rest ts, Scans rest ts → Scans (listed (entries fields) ++ ']' :: rest)
    (Token.separated (tokensOfFields fields) ++ .symbol .rightBracket :: ts)

theorem scansValue_nested {fields : List DraftField} (h : ScansEntries fields) :
    ScansValue (nested fields).written (nested fields).tokens := by
  intro rest ts _ later
  have inner := h rest ts later
  have text :
      (nested fields).written ++ rest = '[' :: (listed (entries fields) ++ ']' :: rest) := by
    simp [written_nested]
  have value : (nested fields).tokens ++ ts = .symbol .leftBracket ::
      (Token.separated (tokensOfFields fields) ++ .symbol .rightBracket :: ts) := by
    simp [tokens]
  rw [text, value]
  exact .mark (by decide) inner

mutual

theorem scansValue : ∀ content : Draft, ScansValue content.written content.tokens
  | text => scansValue_text
  | property => scansValue_property
  | nested fields => scansValue_nested (scansEntries fields)

theorem scansEntries : ∀ fields : List DraftField, ScansEntries fields
  | [], _, _, h => .mark (by decide) h
  | [.mk key required content], rest, ts, h => by
    have entry := ((scansValue content).conditional required).entry key
    exact entry _ _ ⟨']', rest, rfl, by decide⟩ (.mark (by decide) h)
  | .mk key required content :: f :: fields, rest, ts, h => by
    have entry := ((scansValue content).conditional required).entry key
    have later := scansEntries (f :: fields) rest ts h
    have comma := Scans.mark (c := ',') (s := .comma) (by decide) (.blank later)
    rw [listed_entries, separated_tokensOfFields, List.append_assoc, List.append_assoc (_ :: _)]
    exact entry _ _ ⟨',', _, rfl, by decide⟩ comma

end

theorem scans_file (fields : List DraftField) :
    Scans (" class R \x7b function toArray() \x7b return ".toList ++
      ((nested fields).written ++ "; \x7d \x7d".toList)) (fileTokens fields) := by
  have ended : Scans [';', ' ', '\x7d', ' ', '\x7d']
      [.symbol .semicolon, .symbol .rightBrace, .symbol .rightBrace] :=
    .mark (by decide) (.blank (.mark (by decide) (.blank (.mark (by decide) .nil))))
  have array := scansValue (nested fields) _ _ ⟨';', _, rfl, by decide⟩ ended
  have body := Scans.word 'r' "eturn".toList (fun _ => by with_unfolding_all rfl) (by decide)
    (by with_unfolding_all rfl : wordKind "return".toList = .keyword .kwReturn)
    ⟨' ', _, rfl, by decide⟩ (.blank array)
  have params := Scans.mark (c := '(') (s := .leftParen) (by decide)
    (.mark (c := ')') (s := .rightParen) (by decide)
      (.blank (.mark (c := '\x7b') (s := .leftBrace) (by decide) (.blank body))))
  have method := Scans.word 't' "oArray".toList (fun _ => by with_unfolding_all rfl) (by decide)
    (by with_unfolding_all rfl : wordKind "toArray".toList = .identifier)
    ⟨'(', _, rfl, by decide⟩ params
  have function := Scans.word 'f' "unction".toList (fun _ => by with_unfolding_all rfl) (by decide)
    (by with_unfolding_all rfl : wordKind "function".toList = .keyword .kwFunction)
    ⟨' ', _, rfl, by decide⟩ (.blank method)
  have name := Scans.word 'R' [] (fun _ => by with_unfolding_all rfl) (by decide)
    (by with_unfolding_all rfl : wordKind ['R'] = .identifier) ⟨' ', _, rfl, by decide⟩
    (.blank (.mark (c := '\x7b') (s := .leftBrace) (by decide) (.blank function)))
  have whole := Scans.word 'c' "lass".toList (fun _ => by with_unfolding_all rfl) (by decide)
    (by with_unfolding_all rfl : wordKind "class".toList = .keyword .kwClass)
    ⟨' ', _, rfl, by decide⟩ (.blank name)
  simpa [fileTokens, methodTokens, keyword, Token.params, Token.braced, Token.grouped,
    Token.separated, Token.word] using Scans.blank whole

theorem ofText_source (fields : List DraftField) :
    SourceFile.ofText (source fields) = .ok (file fields) :=
  (scans_file fields).hasTokens.ofText (reads_fileTokens fields)

/-- A workspace that does not have the class yet takes the text of a draft, and the class gets the
schema of the draft, without anything lost, renamed or flagged otherwise. -/
theorem inferClass_source {w : Workspace} (free : w.declares "R" = false) (path : Option String)
    {fields : List DraftField} (proper : AreProper fields) :
    ∃ w', w.addText path (source fields) = .ok w' ∧
      Inference.inferClass .standard w' "R" .empty =
        (some ⟨"R"⟩, Registry.empty.store "R" (.object (properties fields))) := by
  have added : w.addText path (source fields) = .ok (w.addFile path (file fields)) := by
    rw [Workspace.addText, ofText_source]
    rfl
  have found : (w.addFile path (file fields)).find? "R" =
      some ⟨"R", ⟨"R", none, none, [],
        [⟨"toArray", [], some [.ret (some (.array (items fields)))]⟩]⟩,
        .ofFile (file fields), path⟩ := by
    have absent : w.find? "R" = none :=
      Option.isNone_iff_eq_none.1 (Option.isSome_eq_false_iff.1 free)
    exact (Workspace.find?_addClass w _ "R").trans (by rw [absent]; rfl)
  have named : Text.sameIgnoringCase "toArray" Config.standard.method = true := by
    with_unfolding_all rfl
  have array : Inference.array? .standard (w.addFile path (file fields)) "R" =
      some (.ofFile (file fields), items fields) := by
    rw [Inference.array?, found]
    simp [ResourceClass.body?, ClassDecl.method?, named, returnValue?, returnsOfBody, Stmt.returns]
  exact ⟨_, added, Inference.inferClass_items array proper⟩

/-- A draft whose keys hold a quote, a backslash, a comment and a closing tag. -/
def awkward : List DraftField :=
  [.mk "it's" true .text, .mk "a\\b /* ?>" false (.nested [.mk "it's" true .property])]

theorem inferClass_source_awkward :
    ∃ w', Workspace.empty.addText none (source awkward) = .ok w' ∧
      Inference.inferClass .standard w' "R" .empty =
        (some ⟨"R"⟩, Registry.empty.store "R" (.object (properties awkward))) :=
  have proper : AreProper awkward :=
    ⟨by decide, trivial, by decide, ⟨nofun, by decide, trivial, trivial⟩, trivial⟩
  inferClass_source rfl none proper

end Draft

end ResponseShape
