import ResponseShape.Proofs.Nesting
import ResponseShape.Proofs.Reading

/-! The members of a class that are no methods: properties, constants, trait uses, attributes,
documentation comments and stray semicolons. They are passed over, whatever is nested in them. Main
statement: `Grammar.reads_otherMember`. -/
namespace ResponseShape

open ResponseShape.Parser

def TokenKind.isModifier : TokenKind → Bool
  | .keyword .kwPublic | .keyword .kwProtected | .keyword .kwPrivate | .keyword .kwStatic
  | .keyword .kwAbstract | .keyword .kwFinal | .keyword .kwReadonly | .keyword .kwVar => true
  | _ => false

abbrev Modifiers (ts : List Token) : Prop := ∀ t ∈ ts, t.kind.isModifier

abbrev TraitNames (ts : List Token) : Prop :=
  ∀ t ∈ ts, t.kind ≠ .symbol .semicolon ∧ t.kind ≠ .symbol .leftBrace

/-- A member of a class that is no method. Its groups are well nested, and if it is no block it ends
at its only semicolon outside of them. -/
inductive OtherMember : List Token → Prop
  | comment {t : Token} {text : String} : t.kind = .docComment text → OtherMember [t]
  | semicolon {t : Token} : t.kind = .symbol .semicolon → OtherMember [t]
  | «attribute» {t t' : Token} {inner : List Token} :
      t.kind = .symbol .attributeOpen → WellNested inner → t'.kind = .symbol .rightBracket →
      OtherMember (t :: (inner ++ [t']))
  | traitUse {t t' : Token} {names : List Token} :
      t.kind = .keyword .kwUse → TraitNames names → t'.kind = .symbol .semicolon →
      OtherMember (t :: (names ++ [t']))
  | traitBlock {t brace t' : Token} {names inner : List Token} :
      t.kind = .keyword .kwUse → TraitNames names → brace.kind = .symbol .leftBrace →
      WellNested inner → t'.kind = .symbol .rightBrace →
      OtherMember (t :: (names ++ brace :: (inner ++ [t'])))
  | declaration {modifiers body : List Token} {k : TokenKind} {t' : Token} :
      Modifiers modifiers → firstKind body = some k → k.opensOtherMember = true →
      NestedWith (· ≠ .symbol .semicolon) body → t'.kind = .symbol .semicolon →
      OtherMember (modifiers ++ (body ++ [t']))

namespace Grammar

variable {t t' : Token} {ts inner rest after : List Token} {before found : List Method}

theorem reads_nested {opens closes : TokenKind → Bool} (pairs : CountsPairs opens closes)
    (fault : Fault) {c : Symbol} (nested : WellNested inner) (closing : t'.kind = .symbol c)
    (counted : opens (.symbol c) = false ∧ closes (.symbol c) = true) (rest : List Token) :
    ∃ found, Reads (group opens closes fault) (t :: (inner ++ t' :: rest)) found rest := by
  rw [← closing] at counted
  have passed := nested.counted pairs (.closing counted.1 counted.2 (.closed rest))
  obtain ⟨found, closed⟩ := closeGroup?_of_counted passed t.kind
  exact ⟨found, fun stop => by rw [group_cons, closed]⟩

theorem reads_passTo {wanted : TokenKind → Bool} {expectation : Expectation}
    (other : ∀ t ∈ ts, wanted t.kind = false) (ended : wanted t.kind = true) :
    Reads (passTo wanted expectation) (ts ++ t :: rest) () (t :: rest) := by
  intro stop
  have passed : (ts ++ t :: rest).dropWhile (fun t => !wanted t.kind) = t :: rest := by
    rw [List.dropWhile_append_of_pos fun t mem => by rw [other t mem]; rfl,
      List.dropWhile_cons_of_neg (by rw [ended]; exact Bool.false_ne_true)]
  unfold passTo
  dsimp only
  rw [passed]
  rfl

theorem reads_passSemicolon (nested : NestedWith (· ≠ .symbol .semicolon) ts)
    (semicolon : t.kind = .symbol .semicolon) :
    Reads passSemicolon (ts ++ t :: rest) () rest := by
  have ended : afterSemicolon? 0 (t :: rest) = some rest := by
    rw [afterSemicolon?, semicolon]
    rfl
  intro stop
  unfold passSemicolon
  rw [nested.afterSemicolon?_append 0 fun _ other => other rfl, ended]

theorem reads_traitNames {expectation : Expectation} (names : TraitNames ts)
    (ended : t.kind = .symbol .semicolon ∨ t.kind = .symbol .leftBrace) :
    Reads (passTo (fun k => k == .symbol .semicolon || k == .symbol .leftBrace) expectation)
      (ts ++ t :: rest) () (t :: rest) := by
  refine reads_passTo (fun t mem => ?_) ?_
  · rw [beq_false_of_ne (names t mem).1, beq_false_of_ne (names t mem).2, Bool.or_self]
  · rwa [Bool.or_eq_true, beq_iff_eq, beq_iff_eq]

theorem reads_traitUse {use : Token} (names : TraitNames ts)
    (semicolon : t.kind = .symbol .semicolon) :
    Reads passTraitUse (use :: (ts ++ t :: rest)) () rest := by
  refine .advance ((reads_traitNames names (.inl semicolon)).bind (.ifUnseen ?_ fun _ => rfl))
  exact firstKind_cons_ne (by rw [semicolon]; decide)

theorem reads_traitBlock {use : Token} (names : TraitNames ts) (brace : t.kind = .symbol .leftBrace)
    (nested : WellNested inner) (closing : t'.kind = .symbol .rightBrace) :
    Reads passTraitUse (use :: (ts ++ t :: (inner ++ t' :: rest))) () rest := by
  have seen : firstKind (t :: (inner ++ t' :: rest)) = some (.symbol .leftBrace) :=
    congrArg some brace
  obtain ⟨_, passed⟩ := reads_nested countsPairs_braces .unbalancedDelimiters nested closing
    (by decide) rest
  refine .advance ((reads_traitNames names (.inr brace)).bind (.ifSeen seen ?_))
  exact .ifSeen seen (passed.bind .pure)

theorem reads_modifier (modifier : t.kind.isModifier) :
    Reads (memberRound found) (t :: rest) (.inl found) rest := by
  refine .kind rfl ?_
  unfold TokenKind.isModifier at modifier
  split at modifier
  case h_9 => cases modifier
  all_goals
    rename_i kind
    rw [kind]
    exact .advance .pure

theorem reads_modifiers (modifiers : Modifiers ts)
    (later : Reads (iterate memberRound found) rest before after) :
    Reads (iterate memberRound found) (ts ++ rest) before after := by
  induction ts with
  | nil => exact later
  | cons t ts ih =>
    obtain ⟨modifier, modifiers⟩ := List.forall_mem_cons.1 modifiers
    exact .again (reads_modifier modifier) (Nat.lt_succ_self _) (ih modifiers)

theorem reads_declaration {k : TokenKind} (first : firstKind ts = some k)
    (opens : k.opensOtherMember = true) (passed : Reads passSemicolon ts () rest) :
    Reads (memberRound found) ts (.inl found) rest := by
  refine .kind first ?_
  dsimp only
  split
  case h_15 => exact passed.bind .pure
  all_goals cases opens

theorem firstKind_append {k : TokenKind} (h : firstKind ts = some k) :
    firstKind (ts ++ rest) = some k := by
  cases ts with
  | nil => cases h
  | cons t ts => exact h

theorem length_pos_of_firstKind {k : TokenKind} (h : firstKind ts = some k) : 0 < ts.length := by
  cases ts with
  | nil => cases h
  | cons t ts => exact Nat.succ_pos _

theorem reads_otherMember (other : OtherMember ts)
    (later : Reads (iterate memberRound found) rest before after) :
    Reads (iterate memberRound found) (ts ++ rest) before after := by
  cases other with
  | comment kind =>
    exact .again (.kind (congrArg some kind) (.advance .pure)) (Nat.lt_succ_self _) later
  | semicolon kind =>
    exact .again (.kind (congrArg some kind) (.advance .pure)) (Nat.lt_succ_self _) later
  | @«attribute» t t' inner kind nested closing =>
    rw [List.cons_append, List.append_assoc, List.singleton_append]
    obtain ⟨_, passed⟩ := reads_nested countsPairs_brackets .unterminatedAttribute nested closing
      (by decide) rest
    refine .again (.kind (congrArg some kind) (.bind (passed.bind .pure) .pure)) ?_ later
    simp only [List.length_append, List.length_cons]
    omega
  | @traitUse t t' names kind noted semicolon =>
    rw [List.cons_append, List.append_assoc, List.singleton_append]
    refine .again (.kind (congrArg some kind) ((reads_traitUse noted semicolon).bind .pure)) ?_
      later
    simp only [List.length_append, List.length_cons]
    omega
  | @traitBlock t brace t' names inner kind noted opening nested closing =>
    rw [List.cons_append, List.append_assoc, List.cons_append, List.append_assoc,
      List.singleton_append]
    refine .again (.kind (congrArg some kind)
      ((reads_traitBlock noted opening nested closing).bind .pure)) ?_ later
    simp only [List.length_append, List.length_cons]
    omega
  | @declaration modifiers body k t' noted first opens nested semicolon =>
    rw [List.append_assoc, List.append_assoc, List.singleton_append]
    refine reads_modifiers noted (.again ?_ ?_ later)
    · exact reads_declaration (firstKind_append first) opens (reads_passSemicolon nested semicolon)
    · simp only [List.length_append, List.length_cons]
      omega

end Grammar

end ResponseShape
