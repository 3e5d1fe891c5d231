import ResponseShape.Proofs.CursorMeaning

/-! No run of the parser leaves its row of tokens: what it reads is there, and no counter falls
below zero. Main statement: `reading_inBounds`. -/
namespace ResponseShape.Cursor

open ResponseShape.Parser

variable {α : Type} {s : TokenStream}

namespace Stage

variable {c c' : Stage α}

/-- The cursor is in the row, and the next step does not panic. -/
def InBounds (s : TokenStream) (c : Stage α) : Prop :=
  c.cursor ≤ s.left ∧ ∀ p, c.move s ≠ .panics p

def StaysInBounds (s : TokenStream) (c : Stage α) : Prop := ∀ c', c.Reaches s c' → c'.InBounds s

theorem Safe.inBounds (more : 0 < s.left) (h : c.Safe s) : c.InBounds s := by
  refine ⟨h.cursor_le, fun p panics => ?_⟩
  have fine := h.move more
  rw [panics] at fine
  exact fine

namespace StaysInBounds

theorem of_safe (more : 0 < s.left) (h : c.Safe s) : c.StaysInBounds s :=
  fun _ reached => (h.reaches more reached).inBounds more

theorem step (le : c.cursor ≤ s.left) (goes : c.Goes s c') (later : c'.StaysInBounds s) :
    c.StaysInBounds s := by
  intro c'' reached
  rcases reached.cases_head with rfl | ⟨c₁, goes', reached'⟩
  · refine ⟨le, fun p panics => ?_⟩
    cases panics.symm.trans goes
  · cases goes.symm.trans goes'
    exact later c'' reached'

theorem ends {result : Except ParseError α} (le : c.cursor ≤ s.left)
    (ends : c.move s = .ends result) : c.StaysInBounds s := by
  intro c' reached
  rcases reached.cases_head with rfl | ⟨c₁, goes, -⟩
  · refine ⟨le, fun p panics => ?_⟩
    cases panics.symm.trans ends
  · cases ends.symm.trans goes

end StaysInBounds

end Stage

namespace Program

open Stage

/-- The programs that texts are read with. -/
inductive Reads : {α : Type} → Program α → (String → Except ParseError α) → Prop
  | sourceFile : Reads sourceFile SourceFile.ofText
  | expression : Reads (expressionAt .lowest) Expr.ofText

variable {p : Program α} {ofText : String → Except ParseError α} {source : String}

namespace Reads

theorem staysInBounds (entry : p.Reads ofText) (s : TokenStream) :
    (running p 0).StaysInBounds s := by
  rcases Nat.eq_zero_or_pos s.left with empty | more
  · -- the file ends at once, and the expression is found missing before a token is read
    obtain ⟨tokens, stop⟩ := s
    obtain rfl : tokens = [] := List.length_eq_zero_iff.1 empty
    have le : 0 ≤ (TokenStream.mk [] stop).left := Nat.le_refl 0
    cases entry with
    | sourceFile => exact .step le rfl (.step le rfl (.ends le rfl))
    | expression => exact .step le rfl (.step le rfl (.step le rfl (.ends le rfl)))
  · exact .of_safe more (Nat.zero_le _)

theorem unstalled (entry : p.Reads ofText) (s : TokenStream) :
    Unstalled (p.parser Grammar.phrases s) := by
  cases entry with
  | sourceFile =>
    rw [parser_sourceFile]
    exact .of_outcome (Grammar.sourceFile_same s).outcome
  | expression =>
    rw [parser_expressionAt, ← Grammar.expression_eq]
    exact expression_unstalled .lowest s

theorem plays (entry : p.Reads ofText) (s : TokenStream) :
    (running p 0).Plays s (p.parser Grammar.phrases s) :=
  plays_program (Nat.zero_le _) (entry.unstalled s)

theorem ofText_eq (entry : p.Reads ofText) (read : TokenStream.ofText source = .ok s) :
    ofText source = (p.parser Grammar.phrases s).map Prod.fst := by
  cases entry with
  | sourceFile => rw [parser_sourceFile, SourceFile.ofText, read]
  | expression => rw [parser_expressionAt, ← Grammar.expression_eq, Expr.ofText, read]

end Reads

end Program

open Stage

/-- Wherever the reading of a text is, the cursor is in the row of tokens or at the mark behind it,
and the next step reads nothing outside the row, nothing before its first token, and counts no
level below zero. Where the reading ends, its result is the one of the text. -/
theorem reading_inBounds {p : Program α} {ofText : String → Except ParseError α} {source : String}
    (entry : p.Reads ofText) (read : TokenStream.ofText source = .ok s) :
    (∀ c, (running p 0).Reaches s c → c.cursor ≤ s.left ∧ ∀ panic, c.move s ≠ .panics panic) ∧
      ∀ result, (running p 0).Halts s result → result = ofText source := by
  refine ⟨entry.staysInBounds s, fun result halts => ?_⟩
  rw [entry.ofText_eq read]
  exact (entry.plays s).eq_of_halts halts

/-- The tokens of `#[[A]`, behind an open tag. The last one is read twice. -/
def openBracket : TokenStream :=
  ⟨[⟨.symbol .attributeOpen, "#[", ⟨1, 7⟩⟩, ⟨.symbol .leftBracket, "[", ⟨1, 9⟩⟩,
    ⟨.identifier, "A", ⟨1, 10⟩⟩, ⟨.symbol .rightBracket, "]", ⟨1, 11⟩⟩], ⟨1, 12⟩⟩

theorem reading_inBounds_openBracket :
    TokenStream.ofText "<?php #[[A]" = .ok openBracket ∧
      (∀ c, (running Program.sourceFile 0).Reaches openBracket c →
        c.cursor ≤ 4 ∧ ∀ panic, c.move openBracket ≠ .panics panic) ∧
      ∀ result, (running Program.sourceFile 0).Halts openBracket result →
        result = SourceFile.ofText "<?php #[[A]" := by
  have read : TokenStream.ofText "<?php #[[A]" = .ok openBracket := by with_unfolding_all rfl
  exact ⟨read, reading_inBounds .sourceFile read⟩

end ResponseShape.Cursor
