import ResponseShape.Source.Fault
import ResponseShape.Text.Letter
import ResponseShape.Token.Basic

/-!
The segment a text begins with: a blank, a comment or a token, and what follows it. What may be read
is told once, by `Opening`. The main statement is `first_covers`: a segment and the rest together are
the text, and a segment is never empty.
-/

namespace ResponseShape

structure Segment where
  /-- `none` for blanks and comments. -/
  kind : Option TokenKind
  lexeme : List Char
  rest : List Char
  deriving DecidableEq, Repr

namespace Segment

def isGapBlank (c : Char) : Bool := c = ' ' || c = '\t' || c = '\r' || c = '\n'

def isNameStart (c : Char) : Bool := Text.isLetter c || c = '_'

def isNameChar (c : Char) : Bool := Text.isLetterOrNumber c || c = '_'

def run (p : Char → Bool) (kind : List Char → Option TokenKind) (text : List Char) : Segment :=
  let lexeme := text.takeWhile p
  ⟨kind lexeme, lexeme, text.dropWhile p⟩

def commentEnd? : List Char → Option (List Char × List Char)
  | [] => none
  | [_] => none
  | c :: d :: rest =>
    if c = '*' ∧ d = '/' then some ([c, d], rest)
    else (commentEnd? (d :: rest)).map fun r => (c :: r.1, r.2)

/-- A block comment, opened by `/*`. One that begins with a second star is a token, unless that
star closes it. -/
def blockComment? (text : List Char) : Option Segment :=
  (commentEnd? text).map fun (body, rest) =>
    let lexeme := '/' :: '*' :: body
    let isDoc := body.head? = some '*' ∧ body ≠ ['*', '/']
    ⟨if isDoc then some (.docComment (String.ofList lexeme)) else none, lexeme, rest⟩

/-- A string as far as it is read: its value, whether it has variable parts, its text. -/
structure Quoted where
  value : List Char
  interpolated : Bool
  text : List Char
  rest : List Char

namespace Quoted

def cons (value text : List Char) (marks : Bool) (q : Quoted) : Quoted :=
  ⟨value ++ q.value, marks || q.interpolated, text ++ q.text, q.rest⟩

end Quoted

/-- The rest of a string in single quotes. A backslash escapes a quote and a backslash only. -/
def singleQuoted? : List Char → Option Quoted
  | [] => none
  | c :: rest =>
    if c = '\'' then some ⟨[], false, [c], rest⟩
    else
      match rest with
      | [] => none
      | d :: rest =>
        if c = '\\' ∧ (d = '\'' ∨ d = '\\') then
          (singleQuoted? rest).map (·.cons [d] [c, d] false)
        else (singleQuoted? (d :: rest)).map (·.cons [c] [c] false)

def unescape (c : Char) : List Char :=
  if c = 'n' then ['\n']
  else if c = 't' then ['\t']
  else if c = 'r' then ['\r']
  else if c = '"' ∨ c = '\\' ∨ c = '$' then [c]
  else ['\\', c]

def opensPart (c d : Char) : Bool :=
  (c = '$' && (isNameStart d || d = '\x7b')) || (c = '\x7b' && d = '$')

def doubleQuoted? : List Char → Option Quoted
  | [] => none
  | c :: rest =>
    if c = '"' then some ⟨[], false, [c], rest⟩
    else
      match rest with
      | [] => none
      | d :: rest =>
        if c = '\\' then (doubleQuoted? rest).map (·.cons (unescape d) [c, d] false)
        else (doubleQuoted? (d :: rest)).map (·.cons [c] [c] (opensPart c d))

def stringKind (q : Quoted) : TokenKind :=
  if q.interpolated then .interpolated (String.ofList q.value) else .string (String.ofList q.value)

def quoted (quote : Char) (read : List Char → Option Quoted) (text : List Char) :
    Except Fault (Option Segment) :=
  match read text with
  | none => .error .unterminatedString
  | some q => .ok (some ⟨some (stringKind q), quote :: q.text, q.rest⟩)

/-- The characters of a number: digits and underscores, and one point before a digit. -/
def numberRun : Bool → List Char → List Char × List Char
  | _, [] => ([], [])
  | pointed, c :: rest =>
    if c.isDigit ∨ c = '_' then
      let (taken, rest) := numberRun pointed rest
      (c :: taken, rest)
    else if c = '.' ∧ pointed = false ∧ (rest.head?.any Char.isDigit) = true then
      let (taken, rest) := numberRun true rest
      (c :: taken, rest)
    else ([], c :: rest)

def numberValue (lexeme : List Char) : Binary64 :=
  let digits := lexeme.filter Char.isDigit
  let places := ((lexeme.dropWhile (· ≠ '.')).filter Char.isDigit).length
  .ofDecimal (digits.foldl (fun n c => n * 10 + (c.toNat - 48)) 0) places

def number (text : List Char) : Segment :=
  let (lexeme, rest) := numberRun false text
  ⟨some (.number (numberValue lexeme)), lexeme, rest⟩

/-- A word is a keyword if it spells one and has no namespace separator. -/
def wordKind (lexeme : List Char) : TokenKind :=
  if '\\' ∈ lexeme then .identifier
  else (Keyword.ofWord? (String.ofList lexeme)).elim .identifier .keyword

def word (text : List Char) : Segment :=
  run (fun c => isNameChar c || c = '\\') (fun lexeme => some (wordKind lexeme)) text

def symbol? (text : List Char) : Option Segment :=
  Symbol.spellings.findSome? fun (spelling, s) =>
    let lexeme := spelling.toList
    if lexeme.isPrefixOf text then some ⟨some (.symbol s), lexeme, text.drop lexeme.length⟩
    else none

/-- The segment at the head of a text that begins with `c`; `none` at a closing tag, after which
nothing is read. -/
def first (c : Char) (rest : List Char) : Except Fault (Option Segment) :=
  let next := rest.head?
  let lineComment := .ok (some (run (· ≠ '\n') (fun _ => none) (c :: rest)))
  if isGapBlank c then .ok (some ⟨none, [c], rest⟩)
  else if c = '/' ∧ next = some '/' then lineComment
  else if c = '#' ∧ next = some '[' then
    .ok (some ⟨some (.symbol .attributeOpen), ['#', '['], rest.tail⟩)
  else if c = '#' then lineComment
  else if c = '/' ∧ next = some '*' then
    match blockComment? (rest.tail) with
    | none => .error .unterminatedComment
    | some s => .ok (some s)
  else if c = '?' ∧ next = some '>' then .ok none
  else if c = '$' then
    let name := rest.takeWhile isNameChar
    if name = [] then .error .missingVariableName
    else .ok (some ⟨some (.var (String.ofList name)), c :: name, rest.dropWhile isNameChar⟩)
  else if c = '\'' then quoted c singleQuoted? rest
  else if c = '"' then quoted c doubleQuoted? rest
  else if c.isDigit then .ok (some (number (c :: rest)))
  else if isNameStart c ∨ c = '\\' then .ok (some (word (c :: rest)))
  else
    match symbol? (c :: rest) with
    | none => .error (.unexpectedCharacter c)
    | some s => .ok (some s)

/-- A text with this head begins with no blank, comment, closing tag, variable or string. -/
structure Unmarked (c : Char) (next : Option Char) : Prop where
  noBlank : ¬isGapBlank c
  noSlashes : ¬(c = '/' ∧ next = some '/')
  noHash : c ≠ '#'
  noBlock : ¬(c = '/' ∧ next = some '*')
  noClosing : ¬(c = '?' ∧ next = some '>')
  noDollar : c ≠ '$'
  noSingle : c ≠ '\''
  noDouble : c ≠ '"'

/-- What is read at the head of a text that begins with `c`, with what leads to it. -/
inductive Opening : Char → List Char → Option Segment → Prop
  | blank {c : Char} {rest : List Char} :
      isGapBlank c → Opening c rest (some ⟨none, [c], rest⟩)
  | slashes (rest : List Char) :
      Opening '/' ('/' :: rest) (some (run (· ≠ '\n') (fun _ => none) ('/' :: '/' :: rest)))
  | «attribute» (rest : List Char) :
      Opening '#' ('[' :: rest) (some ⟨some (.symbol .attributeOpen), ['#', '['], rest⟩)
  | hash {rest : List Char} :
      rest.head? ≠ some '[' →
      Opening '#' rest (some (run (· ≠ '\n') (fun _ => none) ('#' :: rest)))
  | block {rest : List Char} {s : Segment} :
      blockComment? rest = some s → Opening '/' ('*' :: rest) (some s)
  | closing (rest : List Char) : Opening '?' ('>' :: rest) none
  | «variable» {rest : List Char} :
      rest.takeWhile isNameChar ≠ [] →
      Opening '$' rest (some ⟨some (.var (String.ofList (rest.takeWhile isNameChar))),
        '$' :: rest.takeWhile isNameChar, rest.dropWhile isNameChar⟩)
  | single {rest : List Char} {s : Segment} :
      quoted '\'' singleQuoted? rest = .ok (some s) → Opening '\'' rest (some s)
  | double {rest : List Char} {s : Segment} :
      quoted '"' doubleQuoted? rest = .ok (some s) → Opening '"' rest (some s)
  | number {c : Char} {rest : List Char} :
      Unmarked c rest.head? → c.isDigit → Opening c rest (some (number (c :: rest)))
  | word {c : Char} {rest : List Char} :
      Unmarked c rest.head? → ¬c.isDigit → isNameStart c ∨ c = '\\' →
      Opening c rest (some (word (c :: rest)))
  | symbol {c : Char} {rest : List Char} {s : Segment} :
      Unmarked c rest.head? → ¬c.isDigit → ¬(isNameStart c ∨ c = '\\') →
      symbol? (c :: rest) = some s → Opening c rest (some s)

section Opening
variable {c : Char} {rest : List Char} {answer : Option Segment}

theorem branch_of_ite {α : Type} {p : Prop} [Decidable p] {a b x : α}
    (h : (if p then a else b) = x) : p ∧ a = x ∨ ¬p ∧ b = x := by
  by_cases hp : p
  · exact .inl ⟨hp, by rwa [if_pos hp] at h⟩
  · exact .inr ⟨hp, by rwa [if_neg hp] at h⟩

theorem exists_of_quoted {quote : Char} {read : List Char → Option Quoted}
    (h : quoted quote read rest = .ok answer) :
    ∃ q, read rest = some q ∧
      answer = some ⟨some (stringKind q), quote :: q.text, q.rest⟩ := by
  unfold quoted at h
  split at h
  · cases h
  · next q found =>
    cases h
    exact ⟨q, found, rfl⟩

theorem Opening.of_first (h : first c rest = .ok answer) : Opening c rest answer := by
  unfold first at h
  dsimp only at h
  rcases branch_of_ite h with ⟨blank, read⟩ | ⟨noBlank, h⟩
  · cases read
    exact .blank blank
  rcases branch_of_ite h with ⟨⟨rfl, head⟩, read⟩ | ⟨noSlashes, h⟩
  · cases read
    obtain ⟨rest, rfl⟩ := List.head?_eq_some_iff.1 head
    exact .slashes rest
  rcases branch_of_ite h with ⟨⟨rfl, head⟩, read⟩ | ⟨noAttribute, h⟩
  · cases read
    obtain ⟨rest, rfl⟩ := List.head?_eq_some_iff.1 head
    exact .«attribute» rest
  rcases branch_of_ite h with ⟨rfl, read⟩ | ⟨noHash, h⟩
  · cases read
    exact .hash fun head => noAttribute ⟨rfl, head⟩
  rcases branch_of_ite h with ⟨⟨rfl, head⟩, read⟩ | ⟨noBlock, h⟩
  · obtain ⟨rest, rfl⟩ := List.head?_eq_some_iff.1 head
    split at read
    · cases read
    · next found =>
      cases read
      exact .block found
  rcases branch_of_ite h with ⟨⟨rfl, head⟩, read⟩ | ⟨noClosing, h⟩
  · cases read
    obtain ⟨rest, rfl⟩ := List.head?_eq_some_iff.1 head
    exact .closing rest
  rcases branch_of_ite h with ⟨rfl, read⟩ | ⟨noDollar, h⟩
  · rcases branch_of_ite read with ⟨_, read⟩ | ⟨named, read⟩
    · cases read
    · cases read
      exact .«variable» named
  rcases branch_of_ite h with ⟨rfl, read⟩ | ⟨noSingle, h⟩
  · obtain ⟨q, -, rfl⟩ := exists_of_quoted read
    exact .single read
  rcases branch_of_ite h with ⟨rfl, read⟩ | ⟨noDouble, h⟩
  · obtain ⟨q, -, rfl⟩ := exists_of_quoted read
    exact .double read
  have unmarked : Unmarked c rest.head? :=
    ⟨noBlank, noSlashes, noHash, noBlock, noClosing, noDollar, noSingle, noDouble⟩
  rcases branch_of_ite h with ⟨digit, read⟩ | ⟨noDigit, h⟩
  · cases read
    exact .number unmarked digit
  rcases branch_of_ite h with ⟨name, read⟩ | ⟨noName, h⟩
  · cases read
    exact .word unmarked noDigit name
  split at h
  · cases h
  · next found =>
    cases h
    exact .symbol unmarked noDigit noName found

theorem Unmarked.first_eq (h : Unmarked c rest.head?) :
    first c rest =
      if c.isDigit then .ok (some (number (c :: rest)))
      else if isNameStart c ∨ c = '\\' then .ok (some (word (c :: rest)))
      else
        match symbol? (c :: rest) with
        | none => .error (.unexpectedCharacter c)
        | some s => .ok (some s) := by
  have noAttribute : ¬(c = '#' ∧ rest.head? = some '[') := fun here => h.noHash here.1
  unfold first
  dsimp only
  rw [if_neg h.noBlank, if_neg h.noSlashes, if_neg noAttribute, if_neg h.noHash,
    if_neg h.noBlock, if_neg h.noClosing, if_neg h.noDollar, if_neg h.noSingle, if_neg h.noDouble]

theorem Opening.first_eq (h : Opening c rest answer) : first c rest = .ok answer := by
  cases h with
  | blank blank => exact if_pos blank
  | slashes | «attribute» | closing => rfl
  | hash noAttribute => simp [first, isGapBlank, noAttribute]
  | block read => simp [first, isGapBlank, read]
  | «variable» named => simp [first, isGapBlank, named]
  | single read => exact read
  | double read => exact read
  | number unmarked digit => rw [unmarked.first_eq, if_pos digit]
  | word unmarked noDigit name => rw [unmarked.first_eq, if_neg noDigit, if_pos name]
  | symbol unmarked noDigit noName read =>
    rw [unmarked.first_eq, if_neg noDigit, if_neg noName, read]

end Opening

theorem commentEnd?_covers {text body rest : List Char} (h : commentEnd? text = some (body, rest)) :
    body ++ rest = text := by
  fun_induction commentEnd? text generalizing body rest with
  | case1 => simp at h
  | case2 => simp at h
  | case3 c d tail _ =>
    cases h
    rfl
  | case4 c d tail _ ih =>
    obtain ⟨⟨b, r⟩, hr, he⟩ := Option.map_eq_some_iff.1 h
    cases he
    simp [ih hr]

theorem singleQuoted?_covers {text : List Char} {q : Quoted} (h : singleQuoted? text = some q) :
    q.text ++ q.rest = text := by
  fun_induction singleQuoted? text generalizing q with
  | case1 => simp at h
  | case2 => cases h; simp
  | case3 => simp at h
  | case4 c _ d tail _ ih =>
    obtain ⟨q', hq, rfl⟩ := Option.map_eq_some_iff.1 h
    simp [Quoted.cons, ih hq]
  | case5 c _ d tail _ ih =>
    obtain ⟨q', hq, rfl⟩ := Option.map_eq_some_iff.1 h
    simp [Quoted.cons, ih hq]

theorem doubleQuoted?_covers {text : List Char} {q : Quoted} (h : doubleQuoted? text = some q) :
    q.text ++ q.rest = text := by
  fun_induction doubleQuoted? text generalizing q with
  | case1 => simp at h
  | case2 => cases h; simp
  | case3 => simp at h
  | case4 d tail _ ih =>
    obtain ⟨q', hq, rfl⟩ := Option.map_eq_some_iff.1 h
    simp [Quoted.cons, ih hq]
  | case5 c _ d tail _ ih =>
    obtain ⟨q', hq, rfl⟩ := Option.map_eq_some_iff.1 h
    simp [Quoted.cons, ih hq]

theorem numberRun_covers (pointed : Bool) (text : List Char) :
    (numberRun pointed text).1 ++ (numberRun pointed text).2 = text := by
  fun_induction numberRun pointed text with
  | case1 => rfl
  | case2 pointed c tail _ taken rest he ih => simp_all
  | case3 pointed c tail _ _ taken rest he ih => simp_all
  | case4 => rfl

def Covers (s : Segment) (text : List Char) : Prop := s.lexeme ++ s.rest = text ∧ s.lexeme ≠ []

theorem run_covers {p : Char → Bool} {kind : List Char → Option TokenKind} {c : Char}
    {rest : List Char} (h : p c = true) : Covers (run p kind (c :: rest)) (c :: rest) := by
  refine ⟨List.takeWhile_append_dropWhile, ?_⟩
  simp [run, h]

theorem exists_of_symbol? {text : List Char} {s : Segment} (h : symbol? text = some s) :
    ∃ e ∈ Symbol.spellings, ∃ rest, e.1.toList ++ rest = text ∧
      s = ⟨some (.symbol e.2), e.1.toList, rest⟩ := by
  obtain ⟨e, member, read⟩ := List.exists_of_findSome?_eq_some h
  dsimp only at read
  rcases branch_of_ite read with ⟨opens, same⟩ | ⟨-, same⟩
  · obtain ⟨rest, rfl⟩ := List.isPrefixOf_iff_prefix.1 opens
    cases same
    exact ⟨e, member, rest, rfl, by rw [List.drop_left]⟩
  · cases same

theorem symbol?_covers {text : List Char} {s : Segment} (h : symbol? text = some s) :
    Covers s text := by
  have nonempty : ∀ e ∈ Symbol.spellings, e.1.toList ≠ [] := by decide +kernel
  obtain ⟨e, member, rest, covers, rfl⟩ := exists_of_symbol? h
  exact ⟨covers, nonempty e member⟩

theorem quoted_covers {quote : Char} {read : List Char → Option Quoted} {rest : List Char}
    {s : Segment} (covers : ∀ q, read rest = some q → q.text ++ q.rest = rest)
    (h : quoted quote read rest = .ok (some s)) : Covers s (quote :: rest) := by
  obtain ⟨q, found, same⟩ := exists_of_quoted h
  cases same
  exact ⟨by simp [covers q found], by simp⟩

theorem blockComment?_covers {text : List Char} {s : Segment} (h : blockComment? text = some s) :
    Covers s ('/' :: '*' :: text) := by
  obtain ⟨⟨body, rest⟩, hr, rfl⟩ := Option.map_eq_some_iff.1 h
  exact ⟨by simp [commentEnd?_covers hr], by simp⟩

theorem word_covers {c : Char} {rest : List Char} (h : isNameStart c ∨ c = '\\') :
    Covers (word (c :: rest)) (c :: rest) := by
  refine run_covers ?_
  rcases h with name | rfl
  · have inside : isNameChar c = true := by
      unfold isNameStart at name
      unfold isNameChar
      rw [Bool.or_eq_true] at name ⊢
      exact name.imp_left Text.isLetterOrNumber_of_isLetter
    rw [inside, Bool.true_or]
  · exact Bool.or_true _

theorem first_covers {c : Char} {rest : List Char} {s : Segment}
    (h : first c rest = .ok (some s)) : Covers s (c :: rest) := by
  cases Opening.of_first h with
  | blank => exact ⟨rfl, List.cons_ne_nil _ _⟩
  | slashes | hash => exact run_covers (by decide)
  | «attribute» => exact ⟨rfl, List.cons_ne_nil _ _⟩
  | block read => exact blockComment?_covers read
  | «variable» named =>
    exact ⟨congrArg (List.cons '$') List.takeWhile_append_dropWhile, List.cons_ne_nil _ _⟩
  | single read => exact quoted_covers (fun _ => singleQuoted?_covers) read
  | double read => exact quoted_covers (fun _ => doubleQuoted?_covers) read
  | number _ digit =>
    refine ⟨numberRun_covers false (c :: rest), ?_⟩
    simp [number, numberRun, digit]
  | word _ _ name => exact word_covers name
  | symbol _ _ _ read => exact symbol?_covers read

end Segment

end ResponseShape
