import Mathlib
import ResponseShape.Proofs.DraftText
import ResponseShape.Proofs.Pieces

/-! String literals. What is written in quotes with its special characters escaped is read as it
was, and a text in double quotes has a variable part just if a dollar sign or a brace that no
backslash takes opens one. Main statement: `TokenStream.ofText_quotes`. -/
namespace ResponseShape

namespace Segment

/-- What may stand in double quotes: a backslash takes the character behind it, whatever it is, and
no other character is a double quote. -/
inductive IsBody : List Char → Prop
  | nil : IsBody []
  | plain {c : Char} {body : List Char} (noQuote : c ≠ '"') (noSlash : c ≠ '\\')
      (later : IsBody body) : IsBody (c :: body)
  | escaped {c : Char} {body : List Char} (later : IsBody body) : IsBody ('\\' :: c :: body)

/-- A dollar sign before a name or a brace, or a brace before a dollar sign. -/
def OpensPart (c d : Char) : Prop :=
  c = '$' ∧ (Text.isLetter d = true ∨ d = '_' ∨ d = '\x7b') ∨ c = '\x7b' ∧ d = '$'

/-- Somewhere a part is opened by a character that no backslash takes. -/
def HasPart (body : List Char) : Prop :=
  ∃ before c d after, IsBody before ∧ body = before ++ c :: d :: after ∧ OpensPart c d

theorem opensPart_iff {c d : Char} : opensPart c d = true ↔ OpensPart c d := by
  simp [opensPart, OpensPart, isNameStart, or_assoc]

theorem not_opensPart_quote {c : Char} : ¬OpensPart c '"' := by
  have noLetter : Text.isLetter '"' = false := by decide
  simp [OpensPart, noLetter]

theorem not_hasPart_nil : ¬HasPart [] := by
  rintro ⟨before, c, d, after, -, split, -⟩
  simp at split

theorem hasPart_escaped {c : Char} {body : List Char} :
    HasPart ('\\' :: c :: body) ↔ HasPart body := by
  constructor
  · rintro ⟨before, d, e, after, whole, split, opens⟩
    cases whole with
    | nil =>
      obtain ⟨rfl, -⟩ := List.cons.inj split
      rcases opens with ⟨h, -⟩ | ⟨h, -⟩ <;> cases h
    | plain _ noSlash _ => exact absurd (List.cons.inj split).1.symm noSlash
    | escaped later =>
      exact ⟨_, d, e, after, later, (List.cons.inj (List.cons.inj split).2).2, opens⟩
  · rintro ⟨before, d, e, after, whole, rfl, opens⟩
    exact ⟨'\\' :: c :: before, d, e, after, .escaped whole, rfl, opens⟩

theorem hasPart_plain {c : Char} {body : List Char} (noQuote : c ≠ '"') (noSlash : c ≠ '\\') :
    HasPart (c :: body) ↔ (∃ d ∈ body.head?, OpensPart c d) ∨ HasPart body := by
  constructor
  · rintro ⟨before, d, e, after, whole, split, opens⟩
    cases whole with
    | nil =>
      obtain ⟨rfl, rfl⟩ := List.cons.inj split
      exact .inl ⟨e, rfl, opens⟩
    | plain _ _ later => exact .inr ⟨_, d, e, after, later, (List.cons.inj split).2, opens⟩
    | escaped later => exact absurd (List.cons.inj split).1 noSlash
  · rintro (⟨d, next, opens⟩ | ⟨before, d, e, after, whole, rfl, opens⟩)
    · obtain ⟨after, rfl⟩ := List.head?_eq_some_iff.1 next
      exact ⟨[], c, d, after, .nil, rfl, opens⟩
    · exact ⟨c :: before, d, e, after, .plain noQuote noSlash whole, rfl, opens⟩

theorem exists_opensPart_iff {c d : Char} {body more rest : List Char}
    (next : body ++ '"' :: rest = d :: more) :
    (∃ e ∈ body.head?, OpensPart c e) ↔ OpensPart c d := by
  cases body with
  | nil =>
    obtain ⟨rfl, -⟩ := List.cons.inj next
    simp [not_opensPart_quote]
  | cons e body =>
    obtain ⟨rfl, -⟩ := List.cons.inj next
    simp

theorem doubleQuoted?_body {body : List Char} (h : IsBody body) (rest : List Char) :
    ∃ value interpolated, doubleQuoted? (body ++ '"' :: rest) =
      some ⟨value, interpolated, body ++ ['"'], rest⟩ ∧ (interpolated = true ↔ HasPart body) := by
  induction h with
  | nil =>
    refine ⟨[], false, ?_, by simp [not_hasPart_nil]⟩
    cases rest <;> simp [doubleQuoted?]
  | @plain c body noQuote noSlash _ ih =>
    obtain ⟨value, interpolated, read, parts⟩ := ih
    obtain ⟨d, more, next⟩ : ∃ d more, body ++ '"' :: rest = d :: more :=
      List.exists_cons_of_ne_nil (by simp)
    refine ⟨c :: value, opensPart c d || interpolated, ?_, ?_⟩
    · rw [List.cons_append, next]
      rw [next] at read
      simp [doubleQuoted?, noQuote, noSlash, read, Quoted.cons]
    · rw [Bool.or_eq_true, opensPart_iff, parts, hasPart_plain noQuote noSlash,
        exists_opensPart_iff next]
  | @escaped c body _ ih =>
    obtain ⟨value, interpolated, read, parts⟩ := ih
    refine ⟨unescape c ++ value, interpolated, ?_, parts.trans hasPart_escaped.symm⟩
    simp [doubleQuoted?, read, Quoted.cons]

theorem exists_body_of_doubleQuoted? {text : List Char} {q : Quoted}
    (h : doubleQuoted? text = some q) : ∃ body, IsBody body ∧ text = body ++ '"' :: q.rest := by
  fun_induction doubleQuoted? text generalizing q with
  | case1 => cases h
  | case2 rest =>
    cases h
    exact ⟨[], .nil, rfl⟩
  | case3 => cases h
  | case4 d tail _ ih =>
    obtain ⟨q', later, rfl⟩ := Option.map_eq_some_iff.1 h
    obtain ⟨body, whole, rfl⟩ := ih later
    exact ⟨'\\' :: d :: body, .escaped whole, rfl⟩
  | case5 c notQuote d tail plain ih =>
    obtain ⟨q', later, rfl⟩ := Option.map_eq_some_iff.1 h
    obtain ⟨body, whole, split⟩ := ih later
    exact ⟨c :: body, .plain notQuote plain whole, by rw [split]; rfl⟩

def escapeDouble (c : Char) : List Char :=
  if c = '\\' ∨ c = '"' ∨ c = '$' then ['\\', c] else [c]

def doubleQuote (v : String) : List Char := '"' :: (v.toList.flatMap escapeDouble ++ ['"'])

theorem ne_dollar_of_escapeDouble {v rest more : List Char} {d : Char}
    (next : v.flatMap escapeDouble ++ '"' :: rest = d :: more) : d ≠ '$' := by
  cases v with
  | nil =>
    obtain ⟨rfl, -⟩ := List.cons.inj next
    decide
  | cons c v =>
    rw [List.flatMap_cons, escapeDouble] at next
    split_ifs at next with special
    · obtain ⟨rfl, -⟩ := List.cons.inj next
      decide
    · obtain ⟨rfl, -⟩ := List.cons.inj next
      exact fun dollar => special (.inr (.inr dollar))

theorem doubleQuoted?_escapeDouble (v rest : List Char) :
    doubleQuoted? (v.flatMap escapeDouble ++ '"' :: rest) =
      some ⟨v, false, v.flatMap escapeDouble ++ ['"'], rest⟩ := by
  induction v with
  | nil => cases rest <;> simp [doubleQuoted?]
  | cons c v ih =>
    rw [List.flatMap_cons, List.append_assoc, escapeDouble]
    split_ifs with special
    · have itself : unescape c = [c] := by rcases special with rfl | rfl | rfl <;> rfl
      simp [doubleQuoted?, itself, ih, Quoted.cons]
    · obtain ⟨noSlash, noQuote, noDollar⟩ : c ≠ '\\' ∧ c ≠ '"' ∧ c ≠ '$' := by
        simpa using special
      obtain ⟨d, more, next⟩ : ∃ d more, v.flatMap escapeDouble ++ '"' :: rest = d :: more :=
        List.exists_cons_of_ne_nil (by simp)
      have closed : opensPart c d = false := by
        simp [opensPart, noDollar, ne_dollar_of_escapeDouble next]
      rw [next] at ih ⊢
      simp [doubleQuoted?, noQuote, noSlash, closed, ih, Quoted.cons]

theorem first_eq_quoted (text : List Char) : first '"' text = quoted '"' doubleQuoted? text := rfl

theorem first_doubleQuote (v : String) (rest : List Char) :
    first '"' (v.toList.flatMap escapeDouble ++ '"' :: rest) =
      .ok (some ⟨some (.string v), doubleQuote v, rest⟩) := by
  rw [first_eq_quoted, quoted, doubleQuoted?_escapeDouble]
  simp [stringKind, doubleQuote]

structure TellsPart (body : List Char) (kind : TokenKind) : Prop where
  interpolated_iff : (∃ value, kind = .interpolated value) ↔ HasPart body
  string_iff : (∃ value, kind = .string value) ↔ ¬HasPart body

theorem tellsPart_stringKind {body : List Char} {q : Quoted}
    (parts : q.interpolated = true ↔ HasPart body) : TellsPart body (stringKind q) := by
  unfold stringKind
  split_ifs with interpolated
  · have part := parts.1 interpolated
    exact ⟨by simp [part], by simp [part]⟩
  · have part := mt parts.2 interpolated
    exact ⟨by simp [part], by simp [part]⟩

theorem first_body {body : List Char} (h : IsBody body) (rest : List Char) :
    ∃ kind, first '"' (body ++ '"' :: rest) =
      .ok (some ⟨some kind, '"' :: (body ++ ['"']), rest⟩) ∧ TellsPart body kind := by
  obtain ⟨value, interpolated, read, parts⟩ := doubleQuoted?_body h rest
  refine ⟨_, ?_, tellsPart_stringKind (q := ⟨value, interpolated, body ++ ['"'], rest⟩) parts⟩
  rw [first_eq_quoted, quoted, read]

end Segment

namespace TokenStream

open Segment

theorem ofText_single {quote : Char} {text : List Char} {kind : TokenKind}
    (isQuote : quote = '\'' ∨ quote = '"')
    (read : first quote text = .ok (some ⟨some kind, quote :: text, []⟩)) :
    ofText (String.ofList (quote :: text)) =
      .ok ⟨[⟨kind, String.ofList (quote :: text), Position.start⟩],
        Position.start.advance (quote :: text)⟩ := by
  have untagged : openTagLength (quote :: text) = 0 := by
    have noBlank : Text.isBlank quote = false := by rcases isQuote with rfl | rfl <;> decide
    have noTag : quote ≠ '<' := by rcases isQuote with rfl | rfl <;> decide
    simp [openTagLength, openTag, noBlank, noTag.symm]
  unfold ofText
  dsimp only
  rw [String.toList_ofList, untagged, List.drop_zero, scan_cons read, scan_nil]
  rfl

theorem exists_body_of_mem {source : String} {s : TokenStream} (read : ofText source = .ok s)
    {t : Token} (member : t ∈ s.tokens) (opens : t.lexeme.toList.head? = some '"') :
    ∃ body, IsBody body ∧ t.lexeme = String.ofList ('"' :: (body ++ ['"'])) ∧
      TellsPart body t.kind := by
  obtain ⟨c, rest, segment, segmentRead, known, lexeme⟩ := exists_first_of_mem read member
  obtain ⟨covers, some⟩ := first_covers segmentRead
  obtain ⟨more, begins⟩ := exists_cons covers some
  obtain rfl : c = '"' := by
    rw [← lexeme, String.toList_ofList, begins] at opens
    exact Option.some.inj opens
  obtain ⟨q, found, -⟩ := exists_of_quoted (first_eq_quoted rest ▸ segmentRead)
  obtain ⟨body, whole, split⟩ := exists_body_of_doubleQuoted? found
  obtain ⟨kind, bodyRead, tells⟩ := first_body whole q.rest
  rw [← split, segmentRead] at bodyRead
  cases bodyRead
  cases known
  exact ⟨body, whole, lexeme.symm, tells⟩

/-- Any text is read back from single and from double quotes. In double quotes there is a variable
part just if something opens one, in a source that is the literal alone and in any other. -/
theorem ofText_quotes :
    (∀ v : String, ofText (String.ofList (Draft.quote v)) =
      .ok ⟨[⟨.string v, String.ofList (Draft.quote v), Position.start⟩],
        Position.start.advance (Draft.quote v)⟩) ∧
    (∀ v : String, ofText (String.ofList (doubleQuote v)) =
      .ok ⟨[⟨.string v, String.ofList (doubleQuote v), Position.start⟩],
        Position.start.advance (doubleQuote v)⟩) ∧
    (∀ body, IsBody body → ∃ kind, TellsPart body kind ∧
      ofText (String.ofList ('"' :: (body ++ ['"']))) =
        .ok ⟨[⟨kind, String.ofList ('"' :: (body ++ ['"'])), Position.start⟩],
          Position.start.advance ('"' :: (body ++ ['"']))⟩) ∧
    ∀ source s, ofText source = .ok s → ∀ t ∈ s.tokens, t.lexeme.toList.head? = some '"' →
      ∃ body, IsBody body ∧ t.lexeme = String.ofList ('"' :: (body ++ ['"'])) ∧
        TellsPart body t.kind := by
  refine ⟨fun v => ?_, fun v => ?_, fun body whole => ?_, fun source s read t member opens => ?_⟩
  · exact ofText_single (.inl rfl) (Draft.first_quote v [])
  · exact ofText_single (.inr rfl) (first_doubleQuote v [])
  · obtain ⟨kind, read, tells⟩ := first_body whole []
    exact ⟨kind, tells, ofText_single (.inr rfl) read⟩
  · exact exists_body_of_mem read member opens

theorem ofText_quotes_taken :
    IsBody "\\$a$b".toList ∧ HasPart "\\$a$b".toList ∧
      (∃ value stop, ofText "\"\\$a$b\"" =
        .ok ⟨[⟨.interpolated value, "\"\\$a$b\"", Position.start⟩], stop⟩) ∧
      ∃ s, ofText "$c \"\\$a\"" = .ok s ∧
        ∃ t ∈ s.tokens, t.lexeme = "\"\\$a\"" ∧ t.kind = .string "$a" ∧
          ∃ body, IsBody body ∧ t.lexeme = String.ofList ('"' :: (body ++ ['"'])) ∧
            ¬HasPart body := by
  have free : IsBody ['\\', '$', 'a'] := .escaped (.plain (by decide) (by decide) .nil)
  have whole : IsBody "\\$a$b".toList :=
    .escaped (.plain (by decide) (by decide) (.plain (by decide) (by decide)
      (.plain (by decide) (by decide) .nil)))
  have part : HasPart "\\$a$b".toList :=
    ⟨['\\', '$', 'a'], '$', 'b', [], free, rfl, .inl ⟨rfl, .inl (by decide)⟩⟩
  have read : ofText "$c \"\\$a\"" =
      .ok ⟨[⟨.var "c", "$c", ⟨1, 1⟩⟩, ⟨.string "$a", "\"\\$a\"", ⟨1, 4⟩⟩], ⟨1, 9⟩⟩ := by
    cbv
  obtain ⟨-, -, alone, inSource⟩ := ofText_quotes
  obtain ⟨kind, tells, single⟩ := alone _ whole
  obtain ⟨value, rfl⟩ := tells.interpolated_iff.2 part
  have member : (⟨.string "$a", "\"\\$a\"", ⟨1, 4⟩⟩ : Token) ∈
      [⟨.var "c", "$c", ⟨1, 1⟩⟩, ⟨.string "$a", "\"\\$a\"", ⟨1, 4⟩⟩] :=
    List.mem_cons_of_mem _ List.mem_cons_self
  obtain ⟨body, isBody, lexeme, told⟩ := inSource _ _ read _ member rfl
  exact ⟨whole, part, ⟨value, _, single⟩, _, read, _, member, rfl, rfl, body, isBody, lexeme,
    told.string_iff.1 ⟨_, rfl⟩⟩

end TokenStream

end ResponseShape
