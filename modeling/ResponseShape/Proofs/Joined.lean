import Mathlib
import ResponseShape.Proofs.OpenTag

/-! Two texts with a line break between them. No token goes over the line break and none is told by
what stands behind it, so the texts are read apart, and the second only stands further down. Main
statement: `TokenStream.ofText_joined`. -/
namespace ResponseShape

open Piece Segment

def Position.down (p : Position) (lines : Nat) : Position := ⟨p.line + lines, p.column⟩

theorem Position.advance_down (p : Position) (lines : Nat) (run : List Char) :
    (p.down lines).advance run = (p.advance run).down lines := by
  induction run generalizing p with
  | nil => rfl
  | cons c run ih =>
    have step : (p.down lines).step c = (p.step c).down lines := by
      unfold step down
      split
      · rw [Nat.add_right_comm]
      · rfl
    rw [advance_cons, advance_cons, step, ih]

theorem Position.advance_line (text : List Char) :
    start.advance (text ++ ['\n']) = start.down (text.count '\n' + 1) := by
  rw [advance_start]
  simp [after, start, down, Nat.add_comm]

def Token.down (t : Token) (lines : Nat) : Token := { t with position := t.position.down lines }

namespace TokenStream

/-- The same tokens so many lines further down. -/
def down (s : TokenStream) (lines : Nat) : TokenStream :=
  ⟨s.tokens.map (·.down lines), s.stop.down lines⟩

/-- The tokens of two streams; where the first stops there is no token. -/
def join (s later : TokenStream) : TokenStream := ⟨s.tokens ++ later.tokens, later.stop⟩

theorem placed_down (p : Position) (lines : Nat) (pieces : List Piece) :
    placed (p.down lines) pieces = (placed p pieces).map (·.down lines) := by
  induction pieces generalizing p with
  | nil => rfl
  | cons piece pieces ih =>
    rw [placed, placed, List.map_append, Position.advance_down, ih]
    cases piece.kind <;> rfl

theorem scan_down {p : Position} {text : List Char} {s : TokenStream} (lines : Nat)
    (scanned : scan p text = .ok s) : scan (p.down lines) text = .ok (s.down lines) := by
  obtain ⟨pieces, after, -, ends⟩ := exists_cut text
  rcases ends with ⟨-, form⟩ | ⟨fault, form⟩
  · rw [form] at scanned ⊢
    cases scanned
    rw [placed_down, Position.advance_down]
    rfl
  · rw [form] at scanned
    cases scanned

theorem openTagLength_joined {text later : List Char} (plain : PlainTag text)
    (untagged : ¬openTag <+: later.dropWhile Text.isBlank) :
    openTagLength (text ++ '\n' :: later) = openTagLength text := by
  obtain ⟨opening, body, split, opens, -⟩ := plain.exists_opening
  cases opens with
  | tagged blank _ _ =>
    rw [split, List.append_assoc _ body, openTagLength_tagged blank, openTagLength_tagged blank]
  | untagged none =>
    rw [openTagLength_untagged none]
    refine openTagLength_untagged fun tagged => ?_
    rw [List.dropWhile_append] at tagged
    split_ifs at tagged with all
    · have blank : Text.isBlank '\n' = true := by decide
      rw [List.dropWhile_cons_of_pos blank] at tagged
      exact untagged tagged
    · have noBreak : ∀ c ∈ openTag, c ≠ '\n' := by simp [openTag]
      exact none (prefix_known noBreak tagged)

theorem scan_of_untagged {source : String} {s : TokenStream}
    (untagged : ¬openTag <+: source.toList.dropWhile Text.isBlank) (read : ofText source = .ok s) :
    scan Position.start source.toList = .ok s := by
  unfold ofText at read
  dsimp only at read
  rwa [openTagLength_untagged untagged] at read

/-- The tokens of the first text, then those of the second below them. -/
theorem ofText_joined {first second : String} {s t : TokenStream} (read : ofText first = .ok s)
    (read' : ofText second = .ok t) (unclosed : ¬['?', '>'] <:+: first.toList)
    (plain : PlainTag first.toList) (untagged : ¬openTag <+: second.toList.dropWhile Text.isBlank) :
    ofText (first ++ "\n" ++ second) =
      .ok (s.join (t.down (first.toList.count '\n' + 1))) := by
  obtain ⟨opening, body, split, -, length⟩ := plain.exists_opening
  obtain ⟨pieces, after, cut, finished, rfl⟩ := cut_of_ofText split length read
  have covers := cut.covers
  -- nothing of the first text is left unread
  obtain rfl : after = [] := by
    refine finished.resolve_right fun ⟨more, closing⟩ => unclosed ?_
    exact ⟨opening ++ joined pieces, more, by
      rw [split, ← covers, ← closing, List.append_assoc, List.append_assoc]⟩
  rw [List.append_nil] at covers
  have lineBreak :
      Segment.first '\n' second.toList = .ok (some ⟨none, ['\n'], second.toList⟩) := rfl
  have behind := (cut.apart second.toList).append (.piece lineBreak .done)
  have place : (Position.start.advance opening).advance (joined (pieces ++ [⟨none, ['\n']⟩])) =
      Position.start.down (first.toList.count '\n' + 1) := by
    rw [← Position.advance_line, split, ← covers, joined_append, Position.advance_append,
      Position.advance_append, Position.advance_append]
    rfl
  have scanned := scan_cut behind (Position.start.advance opening)
  rw [place, scan_down _ (scan_of_untagged untagged read')] at scanned
  have text : (first ++ "\n" ++ second).toList = opening ++ (body ++ '\n' :: second.toList) := by
    simp [split]
  have tagLength : openTagLength (opening ++ (body ++ '\n' :: second.toList)) = opening.length := by
    rw [← length, ← openTagLength_joined plain untagged, split, List.append_assoc]
  unfold ofText
  dsimp only
  rw [text, tagLength, List.take_left, List.drop_left, scanned]
  simp [Except.map, TokenStream.behind, join, placed_append, placed]

theorem ofText_joined_comment :
    ∃ s t, ofText " <?php 'a' // b" = .ok s ∧ ofText "'c'\n$d" = .ok t ∧
      ¬['?', '>'] <:+: " <?php 'a' // b".toList ∧ PlainTag " <?php 'a' // b".toList ∧
      ¬openTag <+: "'c'\n$d".toList.dropWhile Text.isBlank ∧
      ofText (" <?php 'a' // b" ++ "\n" ++ "'c'\n$d") = .ok (s.join (t.down 1)) := by
  have read : ofText " <?php 'a' // b" = .ok ⟨[⟨.string "a", "'a'", ⟨1, 8⟩⟩], ⟨1, 16⟩⟩ := by
    cbv
  have read' : ofText "'c'\n$d" =
      .ok ⟨[⟨.string "c", "'c'", ⟨1, 1⟩⟩, ⟨.var "d", "$d", ⟨2, 1⟩⟩], ⟨2, 3⟩⟩ := by
    cbv
  have unclosed : ¬['?', '>'] <:+: " <?php 'a' // b".toList := by decide
  have plain : PlainTag " <?php 'a' // b".toList := fun _ => by
    have blanks : " <?php 'a' // b".toList.takeWhile Text.isBlank = [' '] := rfl
    rw [blanks]
    simp
  have untagged : ¬openTag <+: "'c'\n$d".toList.dropWhile Text.isBlank := by decide
  exact ⟨_, _, read, read', unclosed, plain, untagged,
    ofText_joined read read' unclosed plain untagged⟩

end TokenStream

end ResponseShape
