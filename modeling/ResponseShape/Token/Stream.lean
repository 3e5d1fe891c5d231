import ResponseShape.Text.Blank
import ResponseShape.Token.Segment

/-!
The tokens of a whole source. Reading starts behind the open tag, drops blanks and comments, and
stops at a closing tag or at the end of the text.
-/

namespace ResponseShape

namespace TokenStream

def scan (p : Position) (text : List Char) : Except ParseError TokenStream :=
  match text with
  | [] => .ok ⟨[], p⟩
  | c :: rest =>
    match _h : Segment.first c rest with
    | .error fault => .error ⟨fault, p⟩
    | .ok none => .ok ⟨[], p⟩
    | .ok (some s) =>
      match scan (p.advance s.lexeme) s.rest with
      | .error e => .error e
      | .ok later =>
        match s.kind with
        | none => .ok later
        | some kind => .ok ⟨⟨kind, String.ofList s.lexeme, p⟩ :: later.tokens, later.stop⟩
termination_by text.length
decreasing_by
  obtain ⟨hc, hn⟩ := Segment.first_covers ‹_›
  rw [← hc, List.length_append]
  have := List.length_pos_iff.2 hn
  omega

def openTag : List Char := ['<', '?', 'p', 'h', 'p']

/-- The characters that the open tag and the blanks before it take up: as many as the tag and
these blanks have bytes. A text without the tag is read from its beginning. -/
def openTagLength (text : List Char) : Nat :=
  let blanks := text.takeWhile Text.isBlank
  if openTag.isPrefixOf (text.dropWhile Text.isBlank) then
    (String.ofList blanks).utf8ByteSize + openTag.length
  else 0

def ofText (source : String) : Except ParseError TokenStream :=
  let text := source.toList
  let skipped := openTagLength text
  scan (Position.start.advance (text.take skipped)) (text.drop skipped)

end TokenStream

end ResponseShape
