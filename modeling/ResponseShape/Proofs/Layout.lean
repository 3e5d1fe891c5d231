import Mathlib
import ResponseShape.Proofs.Comments

/-! Where the tokens of a source stand. The source is its open tag, its tokens with blanks and
comments between them, and what a closing tag cuts off; a token is placed by the lines and the
characters in front of it. Main statement: `TokenStream.nonempty_layout`. -/
namespace ResponseShape

/-- What may stand between tokens: blanks and comments, none of them a documentation. -/
inductive IsGap : List Char → Prop
  | nil : IsGap []
  | blank {c : Char} {gap : List Char} (blank : Segment.isGapBlank c = true) (later : IsGap gap) :
      IsGap (c :: gap)
  | comment {comment gap : List Char} (isComment : IsComment comment) (later : IsGap gap) :
      IsGap (comment ++ gap)

theorem IsGap.append {gap more : List Char} (h : IsGap gap) (later : IsGap more) :
    IsGap (gap ++ more) := by
  induction h with
  | nil => exact later
  | blank isBlank _ ih => exact .blank isBlank ih
  | comment isComment _ ih =>
    rw [List.append_assoc]
    exact .comment isComment ih

/-- A token and the gap in front of it. -/
structure Spaced where
  gap : List Char
  token : Token

def Spaced.text (x : Spaced) : List Char := x.gap ++ x.token.lexeme.toList

namespace TokenStream

open Segment Piece

/-- How a text is made up of the tokens of a stream. -/
structure Layout (text : List Char) (s : TokenStream) where
  opening : List Char
  parts : List Spaced
  /-- The gap behind the last token. -/
  ending : List Char
  /-- What is not read. -/
  tail : List Char
  covers : text = opening ++ (parts.flatMap Spaced.text ++ (ending ++ tail))
  tokens : s.tokens = parts.map Spaced.token
  opens : Opens text opening
  gaps : ∀ x ∈ parts, IsGap x.gap
  lexemes : ∀ x ∈ parts, x.token.lexeme ≠ ""
  /-- At the end of a text a line comment needs no line break. -/
  ends : IsGap ending ∨ tail = [] ∧ IsGap (ending ++ ['\n'])
  finished : Finished tail
  places : ∀ before x later, parts = before ++ x :: later →
    x.token.position = Position.after (opening ++ (before.flatMap Spaced.text ++ x.gap))
  stops : s.stop = Position.after (opening ++ (parts.flatMap Spaced.text ++ ending))

/-- Pieces gathered into tokens with the gaps in front of them, and the gap behind the last token.
The first gap goes on from `gap`, which ends at `p`. -/
def spaced (gap : List Char) (p : Position) : List Piece → List Spaced × List Char
  | [] => ([], gap)
  | ⟨none, text⟩ :: more => spaced (gap ++ text) (p.advance text) more
  | ⟨some k, text⟩ :: more =>
    (⟨gap, ⟨k, String.ofList text, p⟩⟩ :: (spaced [] (p.advance text) more).1,
      (spaced [] (p.advance text) more).2)

theorem text_spaced (gap : List Char) (p : Position) (pieces : List Piece) :
    (spaced gap p pieces).1.flatMap Spaced.text ++ (spaced gap p pieces).2 =
      gap ++ joined pieces := by
  fun_induction spaced gap p pieces with
  | case1 gap => simp [joined]
  | case2 gap p text more ih => rw [ih, joined_cons, List.append_assoc]
  | case3 gap p k text more ih =>
    rw [List.flatMap_cons, List.append_assoc, ih, List.nil_append, joined_cons, Spaced.text,
      String.toList_ofList, List.append_assoc]

theorem token_spaced (gap : List Char) (p : Position) (pieces : List Piece) :
    (spaced gap p pieces).1.map Spaced.token = placed p pieces := by
  fun_induction spaced gap p pieces with
  | case1 => rfl
  | case2 gap p text more ih => exact ih
  | case3 gap p k text more ih => exact congrArg (_ :: ·) ih

theorem position_spaced {gap : List Char} {p q : Position} (begins : p = q.advance gap)
    (pieces : List Piece) {before later : List Spaced} {x : Spaced}
    (split : (spaced gap p pieces).1 = before ++ x :: later) :
    x.token.position = q.advance (before.flatMap Spaced.text ++ x.gap) := by
  fun_induction spaced gap p pieces generalizing q before with
  | case1 => simp at split
  | case2 gap p text more ih =>
    exact ih (by rw [begins, Position.advance_append]) split
  | case3 gap p k text more ih =>
    cases before with
    | nil =>
      obtain ⟨rfl, -⟩ := List.cons.inj split
      exact begins
    | cons y before =>
      obtain ⟨rfl, inside⟩ := List.cons.inj split
      have here := ih (Position.advance_nil _).symm inside
      rw [here, begins, ← Position.advance_append, ← Position.advance_append]
      simp [Spaced.text]

theorem exists_of_commentEnd? {text body rest : List Char}
    (h : commentEnd? text = some (body, rest)) :
    ∃ inner, body = inner ++ ['*', '/'] ∧ ¬['*', '/'] <:+: inner := by
  fun_induction commentEnd? text generalizing body rest with
  | case1 => cases h
  | case2 => cases h
  | case3 c d tail ends =>
    cases h
    obtain ⟨rfl, rfl⟩ := ends
    exact ⟨[], rfl, by simp⟩
  | case4 c d tail goesOn ih =>
    obtain ⟨⟨b, r⟩, later, same⟩ := Option.map_eq_some_iff.1 h
    cases same
    obtain ⟨inner, rfl, unclosed⟩ := ih later
    refine ⟨c :: inner, rfl, fun closed => ?_⟩
    rcases List.infix_cons_iff.1 closed with opens | inside
    · obtain ⟨rfl, slash⟩ := List.cons_prefix_cons.1 opens
      obtain ⟨more, rfl⟩ := slash
      have covers := commentEnd?_covers later
      exact goesOn ⟨rfl, (List.cons.inj covers).1.symm⟩
    · exact unclosed inside

theorem isComment_of_block {text : List Char} {s : Segment} (read : blockComment? text = some s)
    (quiet : s.kind = none) : IsComment s.lexeme := by
  obtain ⟨⟨body, rest⟩, ends, rfl⟩ := Option.map_eq_some_iff.1 read
  obtain ⟨inner, rfl, unclosed⟩ := exists_of_commentEnd? ends
  refine .block unclosed fun star => ?_
  obtain ⟨more, rfl⟩ := List.head?_eq_some_iff.1 star
  simp at quiet
  exact absurd quiet (by cases more <;> simp)

theorem isComment_of_line {text : List Char}
    (opens : ['/', '/'] <+: text ∨ ['#'] <+: text ∧ ¬['#', '['] <+: text) :
    IsComment (text.takeWhile (· ≠ '\n') ++ ['\n']) := by
  have line : ∀ body : List Char, '\n' ∉ body.takeWhile (· ≠ '\n') := fun body inside => by
    simpa using List.mem_takeWhile_imp inside
  rcases opens with ⟨body, rfl⟩ | ⟨⟨body, rfl⟩, noAttribute⟩
  · exact .slashes (line body)
  · refine .hash (line body) fun bracket => noAttribute ?_
    have bracket : (body.takeWhile (· ≠ '\n')).head? = some '[' := bracket
    obtain ⟨more, opens⟩ := List.head?_eq_some_iff.1 bracket
    obtain ⟨rest, split⟩ := List.takeWhile_prefix (l := body) (· ≠ '\n')
    rw [← split, opens]
    exact ⟨more ++ rest, rfl⟩

/-- What has been gathered of a gap: its last comment may still wait for its line break. -/
def Pending (gap text : List Char) : Prop :=
  IsGap gap ∨ IsGap (gap ++ ['\n']) ∧ ∀ c ∈ text.head?, c = '\n'

theorem Pending.closed {gap rest : List Char} {c : Char} (h : Pending gap (c :: rest))
    (other : c ≠ '\n') : IsGap gap :=
  h.resolve_right fun waits => other (waits.2 c rfl)

/-- A piece that is no token goes on with the gap. -/
theorem Pending.next {gap rest : List Char} {c : Char} {s : Segment}
    (h : Pending gap (c :: rest)) (quiet : Quiet (c :: rest) (some s)) (noToken : s.kind = none) :
    Pending (gap ++ s.lexeme) s.rest := by
  cases quiet with
  | blank blank =>
    refine .inl ?_
    rcases h with h | ⟨h, lineBreak⟩
    · exact h.append (.blank blank .nil)
    · obtain rfl := lineBreak c rfl
      exact h
  | line opens =>
    have gap := h.closed (by rcases opens with ⟨_, same⟩ | ⟨⟨_, same⟩, -⟩ <;>
      (obtain ⟨rfl, -⟩ := List.cons.inj same; decide))
    refine .inr ⟨?_, fun d next => ?_⟩
    · have comment := IsGap.comment (isComment_of_line opens) .nil
      rw [List.append_nil] at comment
      rw [List.append_assoc]
      exact gap.append comment
    · have stopped := List.head?_dropWhile_not (· ≠ '\n') (c :: rest)
      have next : ((c :: rest).dropWhile (· ≠ '\n')).head? = some d := next
      rw [next] at stopped
      simpa using stopped
  | block read =>
    have comment := IsGap.comment (isComment_of_block read noToken) .nil
    rw [List.append_nil] at comment
    exact .inl ((h.closed (by decide)).append comment)

theorem isGap_spaced {text after gap : List Char} {pieces : List Piece}
    (cut : Cut text pieces after) (finished : Finished after) (pending : Pending gap text)
    (p : Position) :
    (∀ x ∈ (spaced gap p pieces).1, IsGap x.gap ∧ x.token.lexeme ≠ "") ∧
      (IsGap (spaced gap p pieces).2 ∨
        after = [] ∧ IsGap ((spaced gap p pieces).2 ++ ['\n'])) := by
  induction cut generalizing gap p with
  | @done text =>
    refine ⟨nofun, pending.imp_right fun ⟨gap, waits⟩ => ⟨?_, gap⟩⟩
    rcases finished with finished | ⟨more, rfl⟩
    · exact finished
    · exact absurd (waits '?' rfl) (by decide)
  | @piece c rest s pieces after read _ ih =>
    cases known : s.kind with
    | none =>
      have quiet := quiet_of_first read fun _ same => Option.some.inj same ▸ known
      exact ih finished (pending.next quiet known) (p.advance s.lexeme)
    | some k =>
      obtain ⟨gaps, ends⟩ := ih finished (.inl .nil) (p.advance s.lexeme)
      refine ⟨List.forall_mem_cons.2 ⟨⟨pending.closed ?_, ?_⟩, gaps⟩, ends⟩
      · rintro rfl
        have blank : first '\n' rest = .ok (some ⟨none, ['\n'], rest⟩) := rfl
        rw [blank] at read
        cases read
        cases known
      · exact fun empty => (first_covers read).2 (by simpa using congrArg String.toList empty)

def layout {text opening after : List Char} {pieces : List Piece}
    (covers : opening ++ (joined pieces ++ after) = text) (opens : Opens text opening)
    (cut : Cut (joined pieces ++ after) pieces after) (finished : Finished after) :
    Layout text ⟨placed (Position.start.advance opening) pieces,
      (Position.start.advance opening).advance (joined pieces)⟩ where
  opening := opening
  parts := (spaced [] (Position.start.advance opening) pieces).1
  ending := (spaced [] (Position.start.advance opening) pieces).2
  tail := after
  covers := by rw [← List.append_assoc (List.flatMap _ _), text_spaced, List.nil_append, covers]
  tokens := (token_spaced _ _ _).symm
  opens := opens
  gaps x member := ((isGap_spaced cut finished (.inl .nil) _).1 x member).1
  lexemes x member := ((isGap_spaced cut finished (.inl .nil) _).1 x member).2
  ends := (isGap_spaced cut finished (.inl .nil) _).2
  finished := finished
  places before x later split := by
    rw [position_spaced (Position.advance_nil _).symm pieces split, ← Position.advance_append,
      Position.advance_start]
  stops := by
    rw [text_spaced, List.nil_append, ← Position.advance_start, Position.advance_append]

/-- A source whose tag costs nothing is laid out as its tokens say. -/
theorem nonempty_layout {source : String} {s : TokenStream} (read : ofText source = .ok s)
    (plain : PlainTag source.toList) : Nonempty (Layout source.toList s) := by
  obtain ⟨opening, body, split, opens, length⟩ := plain.exists_opening
  obtain ⟨pieces, after, cut, finished, rfl⟩ := cut_of_ofText split length read
  have covers := cut.covers
  rw [← covers] at cut split
  exact ⟨layout split.symm opens cut finished⟩

theorem nonempty_layout_twoLines :
    ∃ s, ofText " <?php // a\n'b\nc' /* d */\"e\" ?> f" = .ok s ∧
      s.tokens = [⟨.string "b\nc", "'b\nc'", ⟨2, 1⟩⟩, ⟨.string "e", "\"e\"", ⟨3, 11⟩⟩] ∧
      PlainTag " <?php // a\n'b\nc' /* d */\"e\" ?> f".toList ∧
      Nonempty (Layout " <?php // a\n'b\nc' /* d */\"e\" ?> f".toList s) :=
  have read : ofText " <?php // a\n'b\nc' /* d */\"e\" ?> f" =
      .ok ⟨[⟨.string "b\nc", "'b\nc'", ⟨2, 1⟩⟩, ⟨.string "e", "\"e\"", ⟨3, 11⟩⟩], ⟨3, 15⟩⟩ := by
    cbv
  have plain : PlainTag " <?php // a\n'b\nc' /* d */\"e\" ?> f".toList := fun _ => by
    have blanks : " <?php // a\n'b\nc' /* d */\"e\" ?> f".toList.takeWhile Text.isBlank = [' '] :=
      rfl
    rw [blanks]
    simp
  ⟨_, read, rfl, plain, nonempty_layout read plain⟩

end TokenStream

end ResponseShape
