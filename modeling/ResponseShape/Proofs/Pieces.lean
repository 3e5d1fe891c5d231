import ResponseShape.Proofs.Scanning

/-! A text as the pieces it is read in, apart from where it stands. Main statement:
`TokenStream.exists_cut`, by which the scan of a text is told by its pieces and by what they leave,
from any position. -/
namespace ResponseShape

/-- The place behind a text: lines are counted by line breaks, columns from the last of them. -/
def Position.after (front : List Char) : Position :=
  ⟨front.count '\n' + 1, (front.reverse.takeWhile (· ≠ '\n')).length + 1⟩

theorem Position.advance_start (front : List Char) : start.advance front = after front := by
  induction front using List.reverseRecOn with
  | nil => rfl
  | append_singleton front c ih =>
    rw [advance_append, ih]
    by_cases lineBreak : c = '\n'
    · subst lineBreak
      simp [after, step]
    · simp [after, step, lineBreak]

/-- What one segment takes of a text: a token, a blank or a comment. -/
structure Piece where
  kind : Option TokenKind
  text : List Char

namespace Piece

def joined (pieces : List Piece) : List Char := pieces.flatMap text

/-- The tokens of pieces of which the first begins at `p`. -/
def placed (p : Position) : List Piece → List Token
  | [] => []
  | piece :: more =>
    (piece.kind.map fun kind => ⟨kind, String.ofList piece.text, p⟩).toList ++
      placed (p.advance piece.text) more

theorem joined_cons (piece : Piece) (more : List Piece) :
    joined (piece :: more) = piece.text ++ joined more := rfl

theorem joined_append (pieces more : List Piece) :
    joined (pieces ++ more) = joined pieces ++ joined more := List.flatMap_append

theorem placed_append (p : Position) (pieces more : List Piece) :
    placed p (pieces ++ more) = placed p pieces ++ placed (p.advance (joined pieces)) more := by
  induction pieces generalizing p with
  | nil => rfl
  | cons piece pieces ih =>
    rw [List.cons_append, placed, placed, ih, joined_cons, Position.advance_append,
      List.append_assoc]

theorem exists_of_mem_placed {t : Token} {p : Position} {pieces : List Piece}
    (member : t ∈ placed p pieces) :
    ∃ piece ∈ pieces, piece.kind = some t.kind ∧ String.ofList piece.text = t.lexeme := by
  induction pieces generalizing p with
  | nil => cases member
  | cons piece pieces ih =>
    rcases List.mem_append.1 member with here | later
    · obtain ⟨kind, known, rfl⟩ := Option.map_eq_some_iff.1 (Option.mem_toList.1 here)
      exact ⟨piece, List.mem_cons_self, known, rfl⟩
    · obtain ⟨found, among, same⟩ := ih later
      exact ⟨found, List.mem_cons_of_mem _ among, same⟩

end Piece

namespace Segment

/-- What is read without a token: a blank, a comment, or nothing at a closing tag. -/
inductive Quiet : List Char → Option Segment → Prop
  | blank {c : Char} {rest : List Char} (blank : isGapBlank c = true) :
      Quiet (c :: rest) (some ⟨none, [c], rest⟩)
  | line {text : List Char}
      (opens : ['/', '/'] <+: text ∨ ['#'] <+: text ∧ ¬['#', '['] <+: text) :
      Quiet text (some (run (· ≠ '\n') (fun _ => none) text))
  | block {text : List Char} {s : Segment} (read : blockComment? text = some s) :
      Quiet ('/' :: '*' :: text) (some s)
  | closing {rest : List Char} : Quiet ('?' :: '>' :: rest) none

theorem quiet_of_first {c : Char} {rest : List Char} {answer : Option Segment}
    (h : first c rest = .ok answer) (quiet : ∀ s, answer = some s → s.kind = none) :
    Quiet (c :: rest) answer := by
  cases Opening.of_first h with
  | blank blank => exact .blank blank
  | slashes rest => exact .line (.inl ⟨rest, rfl⟩)
  | hash noAttribute =>
    refine .line (.inr ⟨⟨rest, rfl⟩, fun ⟨more, opens⟩ => noAttribute ?_⟩)
    rw [← (List.cons.inj opens).2]
    rfl
  | block read => exact .block read
  | closing => exact .closing
  | «attribute» | «variable» | number | word => cases quiet _ rfl
  | single read | double read =>
    obtain ⟨q, -, same⟩ := exists_of_quoted read
    cases same
    cases quiet _ rfl
  | symbol _ _ _ read =>
    obtain ⟨_, -, _, -, rfl⟩ := exists_of_symbol? read
    cases quiet _ rfl

end Segment

/-- A text begins with these pieces, and the rest follows. -/
inductive Cut : List Char → List Piece → List Char → Prop
  | done {text : List Char} : Cut text [] text
  | piece {c : Char} {rest : List Char} {s : Segment} {pieces : List Piece} {after : List Char}
      (read : Segment.first c rest = .ok (some s)) (later : Cut s.rest pieces after) :
      Cut (c :: rest) (⟨s.kind, s.lexeme⟩ :: pieces) after

namespace Cut

open Piece Segment

variable {text mid after : List Char} {pieces more : List Piece}

theorem append (h : Cut text pieces mid) (later : Cut mid more after) :
    Cut text (pieces ++ more) after := by
  induction h with
  | done => exact later
  | piece read _ ih => exact .piece read (ih later)

theorem covers (h : Cut text pieces after) : joined pieces ++ after = text := by
  induction h with
  | done => rfl
  | piece read _ ih =>
    rw [joined_cons, List.append_assoc, ih]
    exact (first_covers read).1

theorem exists_first (h : Cut text pieces after) {piece : Piece} (member : piece ∈ pieces) :
    ∃ c rest s, first c rest = .ok (some s) ∧ piece = ⟨s.kind, s.lexeme⟩ := by
  induction h with
  | done => cases member
  | piece read _ ih =>
    rcases List.mem_cons.1 member with here | later
    · exact ⟨_, _, _, read, here⟩
    · exact ih later

theorem apart (h : Cut text pieces after) (tail : List Char) :
    Cut (text ++ '\n' :: tail) pieces (after ++ '\n' :: tail) := by
  induction h with
  | done => exact .done
  | @piece c rest s pieces after read _ ih =>
    have known : first c (rest ++ []) = .ok (some s) := by rwa [List.append_nil]
    have read' := first_apart tail rfl known (first_covers read).1 fun _ => .inl rfl
    exact Cut.piece (s := { s with rest := s.rest ++ '\n' :: tail }) read' ih

end Cut

namespace TokenStream

open Piece Segment

/-- Nothing is left, or what is left is not read: it begins with a closing tag. -/
def Finished (after : List Char) : Prop := after = [] ∨ ['?', '>'] <+: after

def behind (p : Position) (pieces : List Piece) (s : TokenStream) : TokenStream :=
  ⟨placed p pieces ++ s.tokens, s.stop⟩

/-- A text that has been cut is scanned from where the pieces end. -/
theorem scan_cut {text after : List Char} {pieces : List Piece} (h : Cut text pieces after)
    (p : Position) :
    scan p text = (scan (p.advance (joined pieces)) after).map (behind p pieces) := by
  induction h generalizing p with
  | @done text => cases h : scan p text <;> simp [joined, h, Except.map, behind, placed]
  | @piece c rest s pieces after read _ ih =>
    rw [scan_cons read, ih, joined_cons, Position.advance_append]
    cases scan ((p.advance s.lexeme).advance (joined pieces)) after with
    | error e => rfl
    | ok later => cases h : s.kind <;> simp [Except.map, behind, placed, onto, h]

/-- A text is cut as far as it is read, and then it is at its end or holds no token. -/
theorem exists_cut (text : List Char) : ∃ pieces after, Cut text pieces after ∧
    ((Finished after ∧
        ∀ p, scan p text = .ok ⟨placed p pieces, p.advance (joined pieces)⟩) ∨
      ∃ fault, ∀ p, scan p text = .error ⟨fault, p.advance (joined pieces)⟩) := by
  induction n : text.length using Nat.strong_induction_on generalizing text with
  | _ n ih =>
    subst n
    cases text with
    | nil => exact ⟨[], [], .done, .inl ⟨.inl rfl, fun _ => scan_nil⟩⟩
    | cons c rest =>
      cases read : first c rest with
      | error fault =>
        exact ⟨[], _, .done, .inr ⟨fault, fun p => scan_error read⟩⟩
      | ok answer =>
        cases answer with
        | none =>
          refine ⟨[], _, .done, .inl ⟨.inr ?_, fun p => scan_end read⟩⟩
          cases quiet_of_first read nofun with
          | closing => simp
        | some s =>
          obtain ⟨covers, some⟩ := first_covers read
          have shorter : s.rest.length < (c :: rest).length := by
            have := List.length_pos_iff.2 some
            rw [← covers, List.length_append]
            omega
          obtain ⟨pieces, after, cut, ends⟩ := ih _ shorter s.rest rfl
          have step := fun p => scan_cut (.piece read .done) p
          refine ⟨_, after, .piece read cut, ends.imp ?_ ?_⟩
          · rintro ⟨finished, scanned⟩
            refine ⟨finished, fun p => ?_⟩
            rw [step, scanned]
            simp [Except.map, behind, joined, placed, Position.advance_append]
          · rintro ⟨fault, scanned⟩
            refine ⟨fault, fun p => ?_⟩
            rw [step, scanned]
            simp [Except.map, joined, Position.advance_append]

theorem exists_cut_of_ofText {source : String} {s : TokenStream} (read : ofText source = .ok s) :
    ∃ pieces after, Cut (source.toList.drop (openTagLength source.toList)) pieces after ∧
      Finished after ∧ ∃ p, p = Position.start.advance
        (source.toList.take (openTagLength source.toList)) ∧
      s = ⟨placed p pieces, p.advance (joined pieces)⟩ := by
  obtain ⟨pieces, after, cut, ends⟩ :=
    exists_cut (source.toList.drop (openTagLength source.toList))
  unfold ofText at read
  dsimp only at read
  rcases ends with ⟨finished, scanned⟩ | ⟨fault, scanned⟩
  · rw [scanned] at read
    exact ⟨pieces, after, cut, finished, _, rfl, (Except.ok.inj read).symm⟩
  · rw [scanned] at read
    cases read

theorem exists_first_of_mem {source : String} {s : TokenStream} (read : ofText source = .ok s)
    {t : Token} (member : t ∈ s.tokens) :
    ∃ c rest segment, first c rest = .ok (some segment) ∧ segment.kind = some t.kind ∧
      String.ofList segment.lexeme = t.lexeme := by
  obtain ⟨pieces, after, cut, -, p, -, rfl⟩ := exists_cut_of_ofText read
  obtain ⟨piece, among, known, text⟩ := exists_of_mem_placed member
  obtain ⟨c, rest, segment, read, rfl⟩ := cut.exists_first among
  exact ⟨c, rest, segment, read, known, text⟩

end TokenStream

end ResponseShape
