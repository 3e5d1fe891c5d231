import ResponseShape.Proofs.CursorBounds

/-! The parser makes progress, and so it comes to an end wherever none of its loops that skip is
open at the end of the row. Main statement: `reading_advances`. -/
namespace ResponseShape.Cursor

open ResponseShape.Parser Stage

variable {α : Type} {s : TokenStream} {i j : Nat} {p : Program α}

namespace Program

/-- The programs for statements, expressions, items of arrays, methods, classes and imports. -/
inductive IsPhrase : {α : Type} → Program α → Prop
  | statement : IsPhrase anyStatement
  | expression (min : Precedence) : IsPhrase (expressionAt min)
  | arrayItem : IsPhrase arrayItem
  | method : IsPhrase method
  | classDecl (docComment : Option String) : IsPhrase (classDecl docComment)
  | importDecl : IsPhrase importDecl

theorem IsPhrase.outcome (h : p.IsPhrase) (s : TokenStream) :
    Outcome (fun _ rest => rest.left < s.left) (p.parser Grammar.phrases s) := by
  have phrases := Grammar.phrases_agree_below (s.left + 1) (s.left + 1)
  have fewer {α : Type} {P : α → Prop} {p q : Parser α} (h : SameAt s (Fewer s.left P) p q) :
      Outcome (fun _ rest => rest.left < s.left) (q s) := (h.mono fun _ _ known => known.1).outcome
  cases h with
  | statement =>
    rw [parser_anyStatement]
    exact fewer (phrases.anyStatement (Nat.lt_succ_self _) (Nat.le_succ _))
  | expression min =>
    rw [parser_expressionAt]
    exact fewer (phrases.expressionAt min (Nat.le_succ _) (Nat.le_succ _))
  | arrayItem =>
    rw [parser_arrayItem]
    exact fewer (phrases.arrayItem (Nat.lt_succ_self _))
  | method =>
    rw [parser_method]
    exact fewer Grammar.method_same
  | classDecl docComment =>
    rw [parser_classDecl]
    exact fewer (Grammar.classDecl_same docComment)
  | importDecl =>
    rw [parser_importDecl]
    exact fewer Grammar.importDecl_same

theorem IsPhrase.advances (h : p.IsPhrase) {a : α} (le : i ≤ s.left)
    (reached : (running p i).Reaches s (running (.done a) j)) : i < j := by
  have outcome := h.outcome (past s i)
  have answer := ((plays_program le (.of_outcome outcome)).reaches reached).eq_ok.1
  rw [answer] at outcome
  have shorter : (past s j).left < (past s i).left := outcome
  rw [left_past, left_past] at shorter
  omega

end Program

namespace Stage

variable {c c' : Stage α}

theorem IsStuck.isOpen (h : c.IsStuck s) : c.IsOpen s := by
  cases c with
  | running p i => exact h
  | castWord next i => exact h
  | skipping k depth kept next i => exact h.1

instance (s : TokenStream) : (c : Stage α) → Decidable (c.IsOpen s)
  | running _ _ => inferInstanceAs (Decidable False)
  | skipping _ _ _ _ i => inferInstanceAs (Decidable (i = s.left))
  | castWord _ _ => inferInstanceAs (Decidable False)

/-- The run ends after fewer steps than the number, and no loop that skips is open at the end of
the row on the way. -/
def closes (s : TokenStream) : Nat → Stage α → Bool
  | 0, _ => false
  | n + 1, c => !decide (c.IsOpen s) && match c.move s with
    | .goes c' => c'.closes s n
    | _ => true

theorem not_isOpen_of_closes {n : Nat} (h : c.closes s n = true) (reached : c.Reaches s c') :
    ¬ c'.IsOpen s := by
  induction n generalizing c with
  | zero => cases h
  | succ n ih =>
    rw [closes, Bool.and_eq_true, Bool.not_eq_true', decide_eq_false_iff_not] at h
    rcases reached.cases_head with rfl | ⟨c'', goes, reached⟩
    · exact h.1
    · rw [Goes] at goes
      rw [goes] at h
      exact ih h.2 reached

end Stage

/-- Every statement, expression, array item, method, class and import that is read takes a token. A
loop that goes round again has moved the cursor, unless it skips and is at the end of the row. So a
text is read to an end, with the result that it has, unless a loop that skips is open there. -/
theorem reading_advances {source : String} (read : TokenStream.ofText source = .ok s) :
    (∀ {α : Type} {p : Program α}, p.IsPhrase → ∀ {i j : Nat} {a : α}, i ≤ s.left →
      (running p i).Reaches s (running (.done a) j) → i < j) ∧
    ∀ {α : Type} {p : Program α} {ofText : String → Except ParseError α}, p.Reads ofText →
      (∀ c, (running p 0).Reaches s c → c.Advances s) ∧
      ((∀ c, (running p 0).Reaches s c → ¬ c.IsOpen s) →
        (running p 0).Halts s (ofText source)) := by
  refine ⟨fun {α p} phrase {i j a} => phrase.advances, fun {α p ofText} entry => ?_⟩
  have plays := entry.plays s
  refine ⟨fun c reached => (plays.reaches reached).advances, fun closed => ?_⟩
  rw [entry.ofText_eq read]
  refine plays.halts fun c reached lost => ?_
  rcases lost with stuck | ⟨panic, panics⟩
  · exact closed c reached stuck.isOpen
  · exact (entry.staysInBounds s c reached).2 panic panics

def constantThenCall : TokenStream :=
  ⟨[⟨.keyword .kwConst, "const", ⟨1, 7⟩⟩, ⟨.identifier, "A", ⟨1, 13⟩⟩,
    ⟨.symbol .equal, "=", ⟨1, 15⟩⟩, ⟨.identifier, "B", ⟨1, 17⟩⟩,
    ⟨.symbol .semicolon, ";", ⟨1, 18⟩⟩, ⟨.identifier, "f", ⟨1, 20⟩⟩,
    ⟨.symbol .leftParen, "(", ⟨1, 21⟩⟩, ⟨.var "x", "$x", ⟨1, 22⟩⟩,
    ⟨.symbol .rightParen, ")", ⟨1, 24⟩⟩, ⟨.symbol .semicolon, ";", ⟨1, 25⟩⟩], ⟨1, 26⟩⟩

theorem reading_advances_constantThenCall :
    TokenStream.ofText "<?php const A = B; f($x);" = .ok constantThenCall ∧
      (running Program.sourceFile 0).Halts constantThenCall
        (SourceFile.ofText "<?php const A = B; f($x);") := by
  have read : TokenStream.ofText "<?php const A = B; f($x);" = .ok constantThenCall := by
    with_unfolding_all rfl
  have closed : (running Program.sourceFile 0).closes constantThenCall 200 = true := by
    with_unfolding_all rfl
  exact ⟨read, ((reading_advances read).2 .sourceFile).2 fun _ => not_isOpen_of_closes closed⟩

end ResponseShape.Cursor
