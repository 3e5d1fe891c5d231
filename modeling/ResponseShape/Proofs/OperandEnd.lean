import ResponseShape.Proofs.Beside
import ResponseShape.Proofs.PrintedExpressions
import ResponseShape.Proofs.Spanning

/-! The forms of expressions and statements do not depend on the tokens behind those they read,
beyond the next one; and expressions not on that one either, if nothing goes on with it. Main
statements: `Grammar.phrases_locally`, `Grammar.phrases_ahead`. -/
namespace ResponseShape

open ResponseShape.Parser

def TokenKind.joinsOperand (k : TokenKind) : Bool :=
  k.opensSuffix || k == .keyword .kwFn || k == .keyword .kwFunction

/-- Two ends of token streams that do not go on with an operand, of which the second does not go
on with an expression either. -/
structure Parted (x x' : List Token) : Prop where
  more : x ≠ []
  first : ∀ k, firstKind x = some k → k.joinsOperand = false
  second : ∀ k, firstKind x' = some k → k.joinsOperand = false
  noInfix : ∀ k, firstKind x' = some k → Infix.ofKind? k = none

theorem Parted.unseen {x x' : List Token} (parted : Parted x x') {k : TokenKind}
    (joins : k.joinsOperand = true) : firstKind x ≠ some k ∧ firstKind x' ≠ some k := by
  refine ⟨fun seen => ?_, fun seen => ?_⟩
  · exact Bool.false_ne_true ((parted.first k seen).symm.trans joins)
  · exact Bool.false_ne_true ((parted.second k seen).symm.trans joins)

namespace Nested

/-- Parsers for nested phrases, of which the first do not depend on the end `x` of their stream.
Expressions may need room to look at the token behind them. -/
structure Locally (x : List Token) (x' : TokenStream) (room : Nat) (N M : Nested) : Prop where
  more : x ≠ []
  apart : room = 1 ∨ room = 0 ∧ Parted x x'.tokens
  expression : ∀ {s : TokenStream} (min : Precedence),
    Local x x' s 1 room (N.expression min) (M.expression min)
  statement : ∀ {s : TokenStream}, Local x x' s 1 1 N.statement M.statement

variable {x : List Token} {x' s : TokenStream} {room : Nat} {N M : Nested}

theorem commaOrEnd_local {α : Type} (elements : List α) :
    Local x x' s 0 1 (commaOrEnd elements) (commaOrEnd elements) :=
  .ifAccept (by decide) (fun _ _ => .pure _) (.pure _)

theorem passArgumentName_local : Local x x' s 0 2 passArgumentName passArgumentName := by
  refine .sees (.inl (by decide)) (fun b more => .secondKind (by decide) fun o => ?_)
  split
  next named =>
    rw [Bool.and_eq_true] at named
    exact .advance (more named.1) fun _ _ => Local.pass.weaken (by decide) (by decide)
  next => exact .pure ()

theorem statementEnd_local (expectation : Expectation) :
    Local x x' s 0 1 (statementEnd expectation) (statementEnd expectation) := by
  refine .ifAccept (by decide) (fun _ _ => .pure ()) (.atEnd (by decide) fun ended => ?_)
  split
  · exact .pure ()
  · exact .reject _

theorem seesWord_local (word : String) :
    Local x x' s 0 1 (seesWord word) (seesWord word) := by
  refine .next (by decide) (.pure false) fun t _ => ?_
  split <;> exact .pure _

theorem NextCast.opens {ts rest : List Token} (cast : NextCast ts rest) :
    firstKind ts = some (.symbol .leftParen) := by
  obtain ⟨t₁, t₂, t₃, rfl, k₁, -⟩ := cast
  exact congrArg some k₁

theorem NextCast.front {t₁ t₂ t₃ : Token} {ts ts' : List Token}
    (cast : ∃ rest, NextCast (t₁ :: t₂ :: t₃ :: ts) rest) :
    ∃ rest, NextCast (t₁ :: t₂ :: t₃ :: ts') rest := by
  obtain ⟨rest, _, _, _, same, kinds⟩ := cast
  cases same
  exact ⟨ts', t₁, t₂, t₃, rfl, kinds⟩

theorem seesCast_beside {s' : TokenStream} {b : Bool} (run : seesCast s = .ok (b, s))
    (beside : TokenStream.Beside x x' s s') (before : x.length < s.left)
    (long : firstKind s.tokens = some (.symbol .leftParen) → x.length + 3 ≤ s.left) :
    seesCast s' = .ok (b, s') := by
  obtain ⟨b₁, here, known⟩ := seesCast_run s
  obtain ⟨b', here', known'⟩ := seesCast_run s'
  cases run.symm.trans here
  suffices same : b' = b by rw [here', same]
  rw [Bool.eq_iff_iff, known, known']
  by_cases grouped : firstKind s.tokens = some (.symbol .leftParen)
  · obtain ⟨front, tokens, rfl⟩ := beside
    have enough := long grouped
    rw [TokenStream.left, tokens, List.length_append] at enough
    have three : 3 ≤ front.length := by omega
    rw [tokens]
    rcases front with - | ⟨t₁, - | ⟨t₂, - | ⟨t₃, front⟩⟩⟩
    case cons.cons.cons => exact ⟨NextCast.front, NextCast.front⟩
    all_goals
      simp only [List.length_cons, List.length_nil] at three
      omega
  · have grouped' : firstKind s'.tokens ≠ some (.symbol .leftParen) := by
      rwa [firstKind, beside.head? before]
    constructor
    · rintro ⟨_, cast⟩
      exact (grouped' cast.opens).elim
    · rintro ⟨_, cast⟩
      exact (grouped cast.opens).elim

theorem ifCast_local {α : Type} {f f' g g' : Parser α}
    (seen : 3 ≤ s.left → Local x x' s 3 room f g) (other : Local x x' s 1 room f' g')
    (grouped : firstKind s.tokens = some (.symbol .leftParen) → Local x x' s 3 room f' g') :
    Local x x' s 1 room (seesCast >>= fun b => if b = true then f else f')
      (seesCast >>= fun b => if b = true then g else g') := by
  intro a r run
  obtain ⟨b, here, known⟩ := seesCast_run s
  rw [bind_ok here] at run
  have branch : Local x x' s 1 room (if b = true then f else f') (if b = true then g else g') ∧
      (firstKind s.tokens = some (.symbol .leftParen) →
        Local x x' s 3 room (if b = true then f else f') (if b = true then g else g')) := by
    cases b with
    | true =>
      obtain ⟨rest, t₁, t₂, t₃, tokens, -⟩ := known.1 rfl
      have cast := seen (by rw [TokenStream.left, tokens]; exact Nat.le_add_left 3 _)
      exact ⟨cast.weaken (by decide) (Nat.le_refl _), fun _ => cast⟩
    | false => exact ⟨other, grouped⟩
  obtain ⟨read, same⟩ := branch.1 a r run
  refine ⟨read, fun inside s' beside => ?_⟩
  have here' := seesCast_beside here beside (by omega) fun first => by
    have := (branch.2 first a r run).1
    omega
  rw [bind_ok here']
  exact same inside s' beside

namespace Locally

variable (h : Locally x x' room N M)

include h

theorem room_le : room ≤ 1 := by
  rcases h.apart with rfl | ⟨rfl, -⟩ <;> decide

theorem unseen {k : TokenKind} (joins : k.joinsOperand = true) :
    1 ≤ room + 0 ∨ firstKind x ≠ some k ∧ firstKind x'.tokens ≠ some k := by
  rcases h.apart with rfl | ⟨-, parted⟩
  · exact Or.inl (by decide)
  · exact Or.inr (parted.unseen joins)

/-- What stands behind an operand is known in the second stream: it is what stands there in the
first one, or it does not go on with the operand. -/
theorem seenOrEnded {s' : TokenStream} (inside : x.length + room ≤ s.left)
    (beside : TokenStream.Beside x x' s s') :
    firstKind s'.tokens = firstKind s.tokens ∨ Parted x x'.tokens ∧ s' = x' := by
  rcases h.apart with rfl | ⟨-, parted⟩
  · exact Or.inl (congrArg (Option.map Token.kind) (beside.head? inside))
  · exact beside.firstKind_or.imp_right fun ended => ⟨parted, ended⟩

theorem anyExpression : Local x x' s 1 room N.anyExpression M.anyExpression :=
  h.expression .lowest

theorem arrayItem : Local x x' s 1 1 N.arrayItem M.arrayItem := by
  have fits : room ≤ 1 := h.room_le
  refine .ifAccept (by decide) (fun _ _ => h.anyExpression.ahead fits fun _ _ => .pure _) ?_
  refine (Local.mark _).ahead (by decide) fun _ _ => h.anyExpression.ahead fits fun first _ => ?_
  refine .ifAccept (by decide) (fun _ _ => ?_) (.pure _)
  exact (Local.mark _).ahead (by decide) fun _ _ =>
    h.anyExpression.ahead fits fun value _ => .pure _

theorem arrayRound (closing : Symbol) (items : List ArrayItem) :
    Local x x' s 0 1 (N.arrayRound closing items) (M.arrayRound closing items) := by
  refine .ifSees (by decide) (fun _ => .pure _) (.ifAccept (by decide) (fun _ _ => .pure _) ?_)
  exact h.arrayItem.ahead (by decide) fun item _ => commaOrEnd_local _

theorem arrayItems (closing : Symbol) :
    Local x x' s 1 0 (N.arrayItems closing) (M.arrayItems closing) := by
  refine (Local.iterate (fun items _ => h.arrayRound closing items) []).ahead (by decide)
    fun items _ => ?_
  exact (Local.expect _ _).bind fun _ _ => .pure _

theorem argumentRound (args : List Expr) :
    Local x x' s 0 1 (N.argumentRound args) (M.argumentRound args) := by
  have argument : ∀ r, Local x x' r 1 1
      (passArgumentName >>= fun _ => N.anyExpression >>= fun e => commaOrEnd (args ++ [e]))
      (passArgumentName >>= fun _ => M.anyExpression >>= fun e => commaOrEnd (args ++ [e])) :=
    fun r => passArgumentName_local.ahead (by decide) fun _ _ =>
      h.anyExpression.ahead h.room_le fun e _ => commaOrEnd_local _
  refine .ifSees (by decide) (fun _ => .pure _) (.ifAccept (by decide) (fun r _ => ?_) ?_)
  · exact .ifSees (by decide) (fun _ => .pure _) ((argument r).weaken (by decide) (by decide))
  · exact (argument s).weaken (by decide) (by decide)

theorem arguments : Local x x' s 1 0 N.arguments M.arguments := by
  refine (Local.expect _ _).bind fun _ _ => (?_ : Local _ _ _ 1 0 _ _).forget
  refine (Local.iterate (fun args _ => h.argumentRound args) []).ahead (by decide) fun args _ => ?_
  exact (Local.expect _ _).bind fun _ _ => .pure _

theorem blockRound (body : List Stmt) :
    Local x x' s 1 1 (N.blockRound body) (M.blockRound body) := by
  refine .ifAccept (by decide) (fun _ _ => .pure _) (.atEnd (by decide) fun ended => ?_)
  split
  · exact .rejectThen _
  · exact h.statement.ahead (by decide) fun _ _ => .pure _

omit h in
theorem blockRound_done {body body' : List Stmt} {r : TokenStream} :
    N.blockRound body s = .ok (.inr body', r) ↔
      firstKind s.tokens = some (.symbol .rightBrace) ∧ body' = body ∧ r = s.dropFirst := by
  have accepted := accept_run (.symbol .rightBrace) s
  constructor
  · intro run
    obtain ⟨closed, s₁, first, later⟩ := exists_of_bind_ok run
    rw [acceptSymbol, accepted] at first
    split at first
    next seen =>
      cases first
      cases later
      exact ⟨seen, rfl, rfl⟩
    next =>
      cases first
      obtain ⟨ended, s₂, _, later⟩ := exists_of_bind_ok later
      split at later
      next =>
        obtain ⟨_, _, rejected, _⟩ := exists_of_bind_ok later
        cases rejected
      next =>
        obtain ⟨o, s₃, _, again⟩ := exists_of_bind_ok later
        cases again
  · rintro ⟨seen, rfl, rfl⟩
    exact bind_ok (accepted.trans (if_pos seen)) _

theorem block : Local x x' s 1 0 N.block M.block := by
  refine (Local.expect _ _).bind fun _ _ => (?_ : Local _ _ _ 1 0 _ _).forget
  refine Local.iterateToEnd (fun body _ => h.blockRound body) ?_ []
  intro body r body' u run inside s' beside
  obtain ⟨closed, rfl, rfl⟩ := blockRound_done.1 run
  have before : x.length < r.left := by
    have := TokenStream.left_dropFirst_lt (left_pos_of_head? closed)
    omega
  refine ⟨s'.dropFirst, blockRound_done.2 ⟨?_, rfl, rfl⟩, beside.dropFirst before⟩
  rw [firstKind, beside.head? before]
  exact closed

theorem callOrEnd (call : List Expr → Expr) (e : Expr) :
    Local x x' s 0 room
      (do if ← seesSymbol .leftParen then return call (← N.arguments)
          return e)
      (do if ← seesSymbol .leftParen then return call (← M.arguments)
          return e) := by
  refine .ifSeesInside (h.unseen rfl) (fun _ => ?_) (.pure e)
  exact h.arguments.forget.bind fun args _ => .pure _

theorem construction (more : 0 < s.left) : Local x x' s 1 room N.construction M.construction := by
  refine .advance more fun s₁ _ => (?_ : Local _ _ _ 1 room _ _).forget
  refine .next (Nat.le_add_left 1 room) (.rejectThen _) fun t more₁ => ?_
  split
  case h_3 => exact .rejectThen _
  case h_4 => exact .rejectThen _
  all_goals
    exact .advance more₁ fun s₂ _ => .pureThen (h.callOrEnd (.new _) _).forget

theorem arrowFunction (more : 0 < s.left) :
    Local x x' s 1 room N.arrowFunction M.arrowFunction := by
  have ahead : 1 ≤ room + 1 := Nat.le_add_left 1 room
  refine .advance more fun _ _ => (?_ : Local _ _ _ 1 room _ _).forget
  refine (Local.mark _).ahead ahead fun _ _ => (Local.parameters h.more).bind fun params _ =>
    (?_ : Local _ _ _ 1 room _ _).forget
  refine Local.passReturnType.ahead ahead fun _ _ => (Local.expect _ _).bind fun _ _ => ?_
  exact h.anyExpression.forget.ahead (Nat.le_refl room) fun body _ => .pure _

theorem closure (more : 0 < s.left) : Local x x' s 1 0 N.closure M.closure := by
  have returned : ∀ (params : List String) (r : TokenStream), Local x x' r 1 0
      (passReturnType >>= fun _ => N.block >>= fun body => pure (Expr.closure params body))
      (passReturnType >>= fun _ => M.block >>= fun body => pure (Expr.closure params body)) :=
    fun params r => Local.passReturnType.ahead (by decide) fun _ _ =>
      h.block.bind fun body _ => .pure _
  refine .advance more fun _ _ => (?_ : Local _ _ _ 1 0 _ _).forget
  refine (Local.mark _).ahead (by decide) fun _ _ => (Local.parameters h.more).bind fun params r =>
    (?_ : Local _ _ _ 1 0 _ _).forget
  refine .ifAccept (by decide) (fun r _ => ?_) (returned params r)
  exact (Local.passGroup _ _ h.more).forget.bind fun _ r => (returned params r).forget

theorem wordExpression (lexeme : String) :
    Local x x' s 0 room (N.wordExpression lexeme) (M.wordExpression lexeme) := by
  unfold Nested.wordExpression
  split
  case h_4 =>
    exact .ifAcceptInside (h.unseen rfl) (fun _ _ => (h.arrayItems _).forget.inside) (.pure _)
  all_goals exact .pure _

theorem primary : Local x x' s 1 room N.primary M.primary := by
  refine .next (Nat.le_add_left 1 room) (.fails fun _ run => nomatch run) fun t more => ?_
  obtain ⟨kind, lexeme, position⟩ := t
  dsimp only
  split
  · exact .advance more fun _ _ => .pure _
  · exact .advance more fun _ _ => .pure _
  · exact .advance more fun _ _ => .pure _
  · exact .advance more fun _ _ => .pure _
  · exact .advance more fun _ _ => (h.arrayItems _).forget.inside
  · refine .advance more fun _ _ => (?_ : Local _ _ _ 2 0 _ _).forget.inside
    exact h.anyExpression.ahead h.room_le fun e _ => (Local.expect _ _).bind fun _ _ => .pure e
  · exact h.construction more
  · exact h.arrowFunction more
  · exact (h.closure more).inside
  · refine .advance more fun s₁ _ => ?_
    refine .ifSeesInside (h.unseen rfl) (fun more₁ => (h.arrowFunction more₁).forget) ?_
    exact .ifSeesInside (h.unseen rfl) (fun more₁ => (h.closure more₁).forget.inside) (.pure _)
  · exact .advance more fun _ _ => h.wordExpression _
  · exact .fails fun _ run => nomatch run

theorem primary_grouped (grouped : firstKind s.tokens = some (.symbol .leftParen)) :
    Local x x' s 3 0 N.primary M.primary := by
  obtain ⟨⟨kind, lexeme, position⟩, first, same⟩ := Option.map_eq_some_iff.1 grouped
  cases same
  refine .nextIs (by decide) first (.advance (left_pos_of_head? grouped) fun _ _ => ?_)
  exact h.anyExpression.ahead h.room_le fun e _ => (Local.expect _ _).bind fun _ _ => .pure e

theorem memberAccess (target : Expr) (nullsafe : Bool) (more : 0 < s.left) :
    Local x x' s 1 room (N.memberAccess target nullsafe) (M.memberAccess target nullsafe) := by
  refine .advance more fun _ _ => (Local.memberName _).forget.bind fun name _ => ?_
  exact h.callOrEnd (fun args => .methodCall target name args nullsafe) _

theorem staticAccess (target : Expr) (more : 0 < s.left) :
    Local x x' s 1 room (N.staticAccess target) (M.staticAccess target) := by
  cases target with
  | constant owner =>
    refine .advance more fun _ _ => (Local.memberName _).forget.bind fun name _ => ?_
    exact h.callOrEnd (.staticCall owner name) _
  | _ => exact .reject _

theorem indexing (target : Expr) (more : 0 < s.left) :
    Local x x' s 1 0 (N.indexing target) (M.indexing target) := by
  have closing : ∀ (index : Option Expr) (r : TokenStream), Local x x' r 1 0
      (expect .rightBracket .indexEnd >>= fun _ => pure (Expr.index target index))
      (expect .rightBracket .indexEnd >>= fun _ => pure (Expr.index target index)) :=
    fun index r => (Local.expect _ _).bind fun _ _ => .pure _
  refine .advance more fun _ _ => (?_ : Local _ _ _ 1 0 _ _).forget
  refine .ifSees (by decide) (fun _ => .pureThen (closing none _)) ?_
  exact h.anyExpression.map.forget.ahead h.room_le closing

omit h in
theorem suffixRound_done (target : Expr)
    (closed : ∀ k, firstKind s.tokens = some k → k.opensSuffix = false) :
    N.suffixRound target s = .ok (.inr target, s) := by
  unfold Nested.suffixRound
  rw [bind_ok (p := kind?) rfl]
  generalize known : s.tokens.head?.map Token.kind = first
  split
  case h_6 => rfl
  all_goals cases closed _ known

theorem suffixRound (target : Expr) :
    Local x x' s 0 room (N.suffixRound target) (M.suffixRound target) := by
  have again : ∀ {p q : Parser Expr}, Local x x' s 1 room p q →
      Local x x' s 1 room (do return .inl (← p) : Parser (Expr ⊕ Expr)) (do return .inl (← q)) :=
    fun read => read.ahead (Nat.le_refl room) fun e _ => .pure _
  have ahead : 1 ≤ room + 1 := Nat.le_add_left 1 room
  by_cases opens : ∃ k, firstKind s.tokens = some k ∧ k.opensSuffix = true
  · obtain ⟨k, first, opens⟩ := opens
    have more : 0 < s.left := left_pos_of_head? first
    refine (?_ : Local _ _ _ 1 room _ _).forget
    unfold TokenKind.opensSuffix at opens
    split at opens
    · exact .kindIs ahead first (again (h.memberAccess target false more))
    · exact .kindIs ahead first (again (h.memberAccess target true more))
    · exact .kindIs ahead first (again (h.staticAccess target more))
    · exact .kindIs ahead first (h.arguments.bind fun args _ => .pure _).inside
    · exact .kindIs ahead first (again (h.indexing target more).inside)
    · cases opens
  · simp only [not_exists, not_and, Bool.not_eq_true] at opens
    refine .stays (suffixRound_done target opens) fun inside s' beside =>
      suffixRound_done target fun k first => ?_
    rcases h.seenOrEnded inside beside with same | ⟨parted, ended⟩
    · exact opens k (same ▸ first)
    · exact (Bool.or_eq_false_iff.1
        (Bool.or_eq_false_iff.1 (parted.second k (ended ▸ first))).1).1

theorem operand : Local x x' s 1 room N.operand M.operand := by
  have behind : ∀ {s' : TokenStream}, Local x x' s' 1 room (N.expression .unary)
    (M.expression .unary) := h.expression .unary
  refine .kind (Nat.le_add_left 1 room) ?ended fun k more => ?next
  case' next =>
    split
    case h_1 | h_2 =>
      exact .advance more fun _ _ => behind.forget.ahead (Nat.le_refl room) fun e _ => .pure _
    case h_3 | h_4 => exact .advance more fun _ _ => behind.forget
  -- no sign of an operator is next: a cast or a plain operand
  all_goals
    refine ifCast_local (fun three => ?_) ?_ fun grouped => ?_
    · refine .advance (by omega) fun _ _ => .advance (by omega) fun _ _ =>
        .advance (by omega) fun _ _ => behind.forget
    · refine h.primary.ahead (Nat.le_refl room) fun e _ => ?_
      exact Local.iterate (fun target _ => h.suffixRound target) e
    · refine (h.primary_grouped grouped).bind fun e _ => ?_
      exact Local.iterate (fun target _ => h.suffixRound target) e

theorem rightPart (lhs : Expr) (o : Infix) :
    Local x x' s 1 room (N.rightPart lhs o) (M.rightPart lhs o) := by
  cases o with
  | assign =>
    refine (Local.mark _).ahead (Nat.le_add_left 1 room) fun _ _ => ?_
    exact h.anyExpression.ahead (Nat.le_refl room) fun value _ => .pure _
  | ternary =>
    have otherwise : ∀ (middle : Option Expr) (r : TokenStream), Local x x' r 1 room
        (expect .colon .ternaryColon >>= fun _ => N.expression .ternary >>= fun e =>
          Pure.pure (Expr.ternary lhs middle e))
        (expect .colon .ternaryColon >>= fun _ => M.expression .ternary >>= fun e =>
          Pure.pure (Expr.ternary lhs middle e)) := fun middle r =>
      (Local.expect _ _).bind fun _ _ =>
        (h.expression _).forget.ahead (Nat.le_refl room) fun e _ => .pure _
    refine .ifSees (Nat.le_add_left 1 room) (fun _ => .pureThen (otherwise none s)) ?_
    refine (?_ : Local _ _ _ 2 room _ _).weaken (by decide) (Nat.le_refl room)
    exact h.anyExpression.map.ahead (Nat.le_add_right room 1) otherwise
  | binary op => exact (h.expression _).ahead (Nat.le_refl room) fun rhs _ => .pure _

omit h in
theorem operatorRound_done {min : Precedence} (lhs : Expr)
    (stops : ∀ k, firstKind s.tokens = some k → ∀ o, Infix.ofKind? k = some o →
      o.continuesAt min = false) :
    N.operatorRound min lhs s = .ok (.inr lhs, s) := by
  unfold Nested.operatorRound
  rw [bind_ok (p := kind?) rfl]
  generalize known : (s.tokens.head?.map Token.kind).bind Infix.ofKind? = found
  cases found with
  | none => rfl
  | some o =>
    obtain ⟨k, first, operator⟩ := Option.bind_eq_some_iff.1 known
    dsimp only
    rw [stops k first o operator]
    rfl

theorem operatorRound (min : Precedence) (lhs : Expr) :
    Local x x' s 0 room (N.operatorRound min lhs) (M.operatorRound min lhs) := by
  by_cases continues : ∃ k o, firstKind s.tokens = some k ∧ Infix.ofKind? k = some o ∧
      o.continuesAt min = true
  · obtain ⟨k, o, first, operator, continues⟩ := continues
    refine (?_ : Local _ _ _ 1 room _ _).forget
    refine .kindIs (Nat.le_add_left 1 room) first ?_
    rw [Option.bind_some, operator]
    dsimp only
    rw [if_pos continues, if_pos continues]
    refine .advance (left_pos_of_head? first) fun _ _ => ?_
    exact (h.rightPart lhs o).forget.ahead (Nat.le_refl room) fun e _ => .pure _
  · simp only [not_exists, not_and, Bool.not_eq_true] at continues
    refine .stays (operatorRound_done lhs fun k first o => continues k o first)
      fun inside s' beside => operatorRound_done lhs fun k first o operator => ?_
    rcases h.seenOrEnded inside beside with same | ⟨parted, ended⟩
    · exact continues k o (same ▸ first) operator
    · rw [parted.noInfix k (ended ▸ first)] at operator
      cases operator

theorem expressionAt (min : Precedence) :
    Local x x' s 1 room (N.expressionAt min) (M.expressionAt min) :=
  h.operand.ahead (Nat.le_refl room) fun e _ =>
    Local.iterate (fun lhs _ => h.operatorRound min lhs) e

theorem body : Local x x' s 1 1 N.body M.body := by
  refine .ifSees (by decide) (fun _ => h.block.inside) ?_
  exact h.statement.ahead (by decide) fun _ _ => .pure _

theorem returnStatement (more : 0 < s.left) :
    Local x x' s 1 1 N.returnStatement M.returnStatement := by
  refine .advance more fun _ _ => .ifAccept (by decide) (fun _ _ => .pure _) ?_
  refine h.anyExpression.forget.ahead h.room_le fun e _ => ?_
  exact (statementEnd_local _).ahead (by decide) fun _ _ => .pure _

theorem condition : Local x x' s 1 0 N.condition M.condition := by
  refine (Local.expect _ _).bind fun _ _ => (?_ : Local _ _ _ 2 0 _ _).forget
  refine h.anyExpression.ahead h.room_le fun e _ => ?_
  exact (Local.expect _ _).bind fun _ _ => .pure _

theorem elseRound (elseIfs : List ElseIf) :
    Local x x' s 0 1 (N.elseRound elseIfs) (M.elseRound elseIfs) := by
  refine .ifAccept (by decide) (fun _ _ => ?_) (.ifAccept (by decide) (fun _ _ => ?_) (.pure _))
  · exact h.condition.bind fun e _ => h.body.ahead (by decide) fun body _ => .pure _
  · exact h.body.ahead (by decide) fun body _ => .pure _

theorem ifStatement (more : 0 < s.left) : Local x x' s 1 1 N.ifStatement M.ifStatement := by
  refine .advance more fun _ _ => h.condition.forget.bind fun e _ => ?_
  refine h.body.forget.ahead (by decide) fun body _ => ?_
  exact (Local.iterate (fun elseIfs _ => h.elseRound elseIfs) []).ahead (by decide)
    fun r _ => .pure _

theorem foreachTarget : Local x x' s 1 room N.foreachTarget M.foreachTarget :=
  (Local.mark _).ahead (Nat.le_add_left 1 room) fun _ _ => h.anyExpression

theorem foreachStatement (more : 0 < s.left) :
    Local x x' s 1 1 N.foreachStatement M.foreachStatement := by
  have closing : ∀ (subject : Expr) (key : Option Expr) (value : Expr) (r : TokenStream),
      Local x x' r 1 1
        (expect .rightParen .foreachHeaderEnd >>= fun _ => N.body >>= fun body =>
          Pure.pure (Stmt.foreach subject key value body))
        (expect .rightParen .foreachHeaderEnd >>= fun _ => M.body >>= fun body =>
          Pure.pure (Stmt.foreach subject key value body)) := fun subject key value r =>
    (Local.expect _ _).bind fun _ _ => h.body.forget.ahead (by decide) fun body _ => .pure _
  refine .advance more fun _ _ => (Local.expect _ _).forget.bind fun _ _ => ?_
  refine h.anyExpression.forget.ahead h.room_le fun subject _ =>
    .ifAccept (by decide) (fun _ _ => ?_) (.reject _)
  refine h.foreachTarget.forget.ahead h.room_le fun first _ =>
    .ifAccept (by decide) (fun _ _ => ?_) ?_
  · exact h.foreachTarget.forget.ahead h.room_le fun value r =>
      .pureThen (closing subject (some first) value r).forget
  · exact .pureThen (closing subject none first _).forget

theorem loopStatement (more : 0 < s.left) :
    Local x x' s 1 1 N.loopStatement M.loopStatement := by
  refine .advance more fun _ _ => (Local.passGroup _ _ h.more).forget.bind fun _ _ => ?_
  exact h.body.forget.ahead (by decide) fun body _ => .pure _

theorem handlerRound (blocks : List Stmt) :
    Local x x' s 0 1 (N.handlerRound blocks) (M.handlerRound blocks) := by
  refine (seesWord_local _).ahead (by decide) fun caught _ => ?_
  split
  · refine Local.pass.ahead (by decide) fun _ _ => (Local.passGroup _ _ h.more).bind fun _ _ => ?_
    exact h.block.bind fun body _ => .pure _
  · refine (seesWord_local _).ahead (by decide) fun last _ => ?_
    split
    · exact Local.pass.ahead (by decide) fun _ _ => h.block.bind fun body _ => .pure _
    · exact .pure _

theorem tryStatement (more : 0 < s.left) : Local x x' s 1 1 N.tryStatement M.tryStatement := by
  refine .advance more fun _ _ => h.block.forget.bind fun body _ => ?_
  exact (Local.iterate (fun blocks _ => h.handlerRound blocks) _).ahead (by decide)
    fun blocks _ => .pure _

omit h in
theorem switchStatement (ends : x ≠ []) (more : 0 < s.left) :
    Local x x' s 1 1 switchStatement switchStatement := by
  refine .advance more fun _ _ => (Local.passGroup _ _ ends).forget.bind fun _ _ => ?_
  exact (Local.passGroup _ _ ends).forget.bind fun _ _ => .pure _

theorem expressionStatement :
    Local x x' s 1 1 N.expressionStatement M.expressionStatement := by
  refine h.anyExpression.ahead h.room_le fun e _ => ?_
  exact (statementEnd_local _).ahead (by decide) fun _ _ => .pure _

theorem wordStatement (lexeme : String) (more : 0 < s.left) :
    Local x x' s 1 1 (N.wordStatement lexeme) (M.wordStatement lexeme) := by
  unfold Nested.wordStatement
  split
  case h_1 | h_2 => exact h.loopStatement more
  case h_3 => exact h.tryStatement more
  case h_4 => exact switchStatement h.more more
  case h_5 | h_6 =>
    refine .secondKind (by decide) fun o => ?_
    split
    · exact .advance more fun _ _ => h.expressionStatement.forget
    · exact h.expressionStatement
  case h_7 => exact h.expressionStatement

theorem anyStatement : Local x x' s 1 1 N.anyStatement M.anyStatement := by
  have one : ∀ {p q : Parser Stmt}, Local x x' s 1 1 p q →
      Local x x' s 1 1 (do return some (← p)) (do return some (← q)) := fun read =>
    read.ahead (by decide) fun st _ => .pure _
  refine .next (by decide) (one h.expressionStatement) fun t more => ?_
  split
  · exact .advance more fun _ _ => .pure _
  · exact .advance more fun _ _ => .pure _
  · exact h.block.bind fun body _ => .pure _
  · exact one (h.returnStatement more)
  · exact one (h.ifStatement more)
  · exact one (h.foreachStatement more)
  · exact one (h.wordStatement _ more)
  · exact one h.expressionStatement

end Locally

end Nested

namespace Grammar

variable {x : List Token} {x' : TokenStream} {room : Nat}

theorem guarded_locally (more : x ≠ []) (apart : room = 1 ∨ room = 0 ∧ Parted x x'.tokens)
    {n m : Nat}
    (expressions : ∀ {s : TokenStream}, s.left < n → ∀ min,
      Local x x' s 1 room (phrases.expression min) (phrases.expression min))
    (statements : ∀ {s : TokenStream}, s.left < m →
      Local x x' s 1 1 phrases.statement phrases.statement) :
    (guarded n m).Locally x x' room phrases where
  more := more
  apart := apart
  expression min := .below n fun fewer => expressions fewer min
  statement := .below m statements

theorem phrases_local (more : x ≠ []) (apart : room = 1 ∨ room = 0 ∧ Parted x x'.tokens) :
    phrases.Locally x x' room phrases := by
  -- what a phrase nests is read behind the tokens that it has read itself
  have both : ∀ n, (∀ {s : TokenStream}, s.left < n → ∀ min,
      Local x x' s 1 room (phrases.expression min) (phrases.expression min)) ∧
      (∀ {s : TokenStream}, s.left < n →
        Local x x' s 1 1 phrases.statement phrases.statement) := by
    intro n
    induction n with
    | zero => exact ⟨nofun, nofun⟩
    | succ n ih =>
      have expressions : ∀ {s : TokenStream}, s.left < n + 1 → ∀ min,
          Local x x' s 1 room (phrases.expression min) (phrases.expression min) := by
        intro s fewer min
        have nested := guarded_locally more apart (n := s.left) (m := s.left)
          (fun h => ih.1 (by omega)) (fun h => ih.2 (by omega))
        have form := nested.expressionAt (s := s) min
        rw [← expression_eq] at form
        exact form.of_run (expression_run min s)
      refine ⟨expressions, fun {s} fewer => ?_⟩
      have nested := guarded_locally more apart (n := s.left + 1) (m := s.left)
        (fun h => expressions (by omega)) (fun h => ih.2 (by omega))
      have form := nested.anyStatement (s := s)
      rw [← statement_eq] at form
      exact form.of_run (statement_run s)
  exact ⟨more, apart, fun {s} min => (both (s.left + 1)).1 (Nat.lt_succ_self _) min,
    fun {s} => (both (s.left + 1)).2 (Nat.lt_succ_self _)⟩

/-- Reading an expression depends only on the tokens that it reads, where both those behind them and
the ones put in their place do not go on with it. -/
theorem phrases_locally (parted : Parted x x'.tokens) : phrases.Locally x x' 0 phrases :=
  phrases_local parted.more (Or.inr ⟨rfl, parted⟩)

/-- Reading a phrase depends only on the tokens that it reads and the one behind them. -/
theorem phrases_ahead (more : x ≠ []) : phrases.Locally x x' 1 phrases :=
  phrases_local more (Or.inl rfl)

end Grammar

end ResponseShape
