import ResponseShape.Proofs.Spans

/-! What may stand next in a method body, told from one token after another. Levels of delimiters
are kept on a stack, each with what may stand next on it. What holds across single tokens, across
groups and across regions holds across every part of a body. Main statement: `HoldsAlong.spans`. -/
namespace ResponseShape

open Relation (Comp)

/-- Regions in which levels are counted and nothing else is looked at. -/
inductive Region where
  | parens
  | braces
  | parameters
  | attributes
  deriving DecidableEq

namespace Region

def opening : Region → Symbol
  | parens | parameters => .leftParen
  | braces => .leftBrace
  | attributes => .attributeOpen

def opens : Region → TokenKind → Bool
  | parens, k => k == .symbol .leftParen
  | braces, k => k == .symbol .leftBrace
  | parameters, k => k == .symbol .leftParen || Parser.opensBracket k
  | attributes, k => Parser.opensBracket k

def closes : Region → TokenKind → Bool
  | parens, k => k == .symbol .rightParen
  | braces, k => k == .symbol .rightBrace
  | parameters, k => k == .symbol .rightParen || k == .symbol .rightBracket
  | attributes, k => k == .symbol .rightBracket

/-- What comes behind a token of the region: some levels of it are open, or it is over. -/
def behind {α : Type} (region : Region) (within : Nat → α) (next : α) (depth : Nat)
    (k : TokenKind) : α :=
  if region.opens k then within (depth + 1)
  else if region.closes k then
    match depth with
    | 0 => next
    | depth + 1 => within depth
  else within depth

section

variable {α : Type} (region : Region) (within : Nat → α) (next : α) {R : α → List Token → Prop}
  (step : ∀ {depth t ts},
    R (region.behind within next depth t.kind) ts → R (within depth) (t :: ts))

include step

theorem counted {n : Nat} {ts rest : List Token}
    (h : Counted region.opens region.closes n ts rest) (ended : R next rest) :
    match n with
    | 0 => ts = rest
    | depth + 1 => R (within depth) ts := by
  induction h with
  | closed rest => rfl
  | opening opens _ ih => exact step (by simpa [behind, opens] using ih ended)
  | @closing n t ts rest other closes _ ih =>
    refine step ?_
    cases n with
    | zero =>
      cases ih ended
      simpa [behind, other, closes] using ended
    | succ depth => simpa [behind, other, closes] using ih ended
  | inside other other' _ ih => exact step (by simpa [behind, other, other'] using ih ended)

theorem unclosed {depth : Nat} {ts : List Token} (ended : ∀ depth, R (within depth) [])
    (h : ∀ after, ¬Counted region.opens region.closes (depth + 1) ts after) :
    R (within depth) ts := by
  induction ts generalizing depth with
  | nil => exact ended depth
  | cons t ts ih =>
    refine step ?_
    unfold behind
    split
    next opens => exact ih fun after counted => h after (.opening opens counted)
    next other =>
      rw [Bool.not_eq_true] at other
      split
      next closes =>
        cases depth with
        | zero => exact absurd (.closing other closes (.closed ts)) (h ts)
        | succ depth => exact ih fun after counted => h after (.closing other closes counted)
      next other' =>
        rw [Bool.not_eq_true] at other'
        exact ih fun after counted => h after (.inside other other' counted)

end

end Region

inductive Slot where
  | statement
  /-- A handler of the block before it, or a statement. -/
  | handler
  | expression
  /-- The name of a member. -/
  | member
  /-- The parentheses of `if`, `elseif` or `foreach`. -/
  | condition
  /-- The braces of `try`, `catch` or `finally`. -/
  | tried
  /-- What a closure has between its parameters and its body. -/
  | signature
  | returnType
  /-- A region that is passed over, and then the next slot. -/
  | before (region : Region) (next : Slot)
  /-- The rest of such a region, in which further levels are open. -/
  | within (region : Region) (depth : Nat) (next : Slot)
  deriving DecidableEq

def Slot.behindWord : String → Slot
  | "while" | "for" => .before .parens .statement
  | "try" => .tried
  | "switch" => .before .parens (.before .braces .statement)
  | _ => .expression

/-- The slot behind a word that begins a handler. -/
def Slot.behindHandler? : String → Option Slot
  | "catch" => some (.before .parens .tried)
  | "finally" => some .tried
  | _ => none

theorem Slot.behindWord_eq {word : String} (h : word ∉ blockWords) :
    behindWord word = .expression := by
  unfold behindWord
  split
  case h_5 => rfl
  all_goals exact absurd (by decide) h

theorem Slot.behindHandler?_eq {word : String} (h : word ∉ handlerWords) :
    behindHandler? word = none := by
  unfold behindHandler?
  split
  case h_3 => rfl
  all_goals exact absurd (by decide) h

/-- A `return` here is a keyword, and what follows it is read. -/
def Slot.isCode : Slot → Bool
  | statement | handler | expression | condition | tried => true
  | _ => false

/-- A level of delimiters. It is quiet if it is in a closure. -/
structure Level where
  slot : Slot
  quiet : Bool

namespace Level

variable (level : Level) (outer : List Level) (t : Token)

def move (slot : Slot) : Level := { level with slot }

def inExpression : List Level :=
  match t.kind with
  | .symbol .leftParen | .symbol .leftBracket =>
    level.move .expression :: level.move .expression :: outer
  | .symbol .rightParen | .symbol .rightBracket | .symbol .rightBrace => outer
  | .symbol .semicolon => level.move .statement :: outer
  | .symbol .arrow | .symbol .nullsafeArrow | .symbol .doubleColon => level.move .member :: outer
  | .keyword .kwFunction | .keyword .kwFn => level.move (.before .parameters .signature) :: outer
  | _ => level.move .expression :: outer

def inStatement : List Level :=
  match t.kind with
  | .symbol .semicolon | .docComment _ | .keyword .kwElse => level.move .statement :: outer
  | .symbol .leftBrace => level.move .statement :: level.move .statement :: outer
  | .keyword .kwReturn => level.move .expression :: outer
  | .keyword .kwIf | .keyword .kwElseIf | .keyword .kwForeach => level.move .condition :: outer
  | .identifier => level.move (.behindWord (Text.foldCase t.lexeme)) :: outer
  | _ => level.inExpression outer t

def inHandlers : List Level :=
  match t.kind, Slot.behindHandler? (Text.foldCase t.lexeme) with
  | .identifier, some slot => level.move slot :: outer
  | _, _ => level.inStatement outer t

/-- Before the body of a closure or of an arrow function. -/
def inReturnType : List Level :=
  match t.kind with
  | .symbol .leftBrace => ⟨.statement, true⟩ :: level.move .expression :: outer
  | .symbol .fatArrow => level.move .expression :: outer
  | _ => level :: outer

def inSignature : List Level :=
  match t.kind with
  | .keyword .kwUse => level.move (.before .parens .signature) :: outer
  | .symbol .colon => level.move .returnType :: outer
  | _ => level.inReturnType outer t

/-- The levels behind a token, which is read on the innermost of them. -/
def step : List Level :=
  match level.slot with
  | .statement => level.inStatement outer t
  | .handler => level.inHandlers outer t
  | .expression => level.inExpression outer t
  | .member => level.move .expression :: outer
  | .condition =>
    if t.kind == .symbol .leftParen then level.move .expression :: level.move .statement :: outer
    else level :: outer
  | .tried =>
    if t.kind == .symbol .leftBrace then level.move .statement :: level.move .handler :: outer
    else level :: outer
  | .signature => level.inSignature outer t
  | .returnType => level.inReturnType outer t
  | .before region next =>
    if t.kind == .symbol region.opening then level.move (.within region 0 next) :: outer
    else level :: outer
  | .within region depth next =>
    level.move (region.behind (.within region · next) next depth t.kind) :: outer

/-- The token is a `return` outside of closures. -/
def isReturn : Bool := level.slot.isCode && t.kind == .keyword .kwReturn && !level.quiet

end Level

/-- What is found on a level if it is not a quiet one. -/
def found (quiet : Bool) (written : List (List Token)) : List (List Token) :=
  if quiet then [] else written

@[simp] theorem found_nil (quiet : Bool) : found quiet [] = [] := by cases quiet <;> rfl

@[simp] theorem found_append (quiet : Bool) (written written' : List (List Token)) :
    found quiet (written ++ written') = found quiet written ++ found quiet written' := by
  cases quiet <;> rfl

@[simp] theorem found_found (silent quiet : Bool) (written : List (List Token)) :
    found quiet (found silent written) = found (silent || quiet) written := by
  cases silent <;> cases quiet <;> rfl

/-- The first tokens of the items of a file that are no statements. -/
def TokenKind.opensItem : TokenKind → Bool
  | .keyword .kwNamespace | .keyword .kwUse | .keyword .kwDeclare | .keyword .kwConst
  | .keyword .kwAbstract | .keyword .kwFinal | .keyword .kwReadonly | .keyword .kwClass
  | .keyword .kwInterface | .keyword .kwTrait | .keyword .kwFunction
  | .symbol .rightBrace | .symbol .attributeOpen => true
  | _ => false

namespace Slot

def isFirst : Slot → Bool
  | statement | handler => true
  | _ => false

/-- The token is no delimiter, or it is one that is passed over. -/
def skips : Slot → TokenKind → Bool
  | within .., _ => true
  | before region _, k => k.isPlain || k == .symbol region.opening
  | returnType, k => k != .symbol .leftBrace
  | _, k => k.isPlain

end Slot

/-- Tokens of this form lead from one slot to the next, and they are no delimiters that count. -/
def Moves (F : Token → Prop) (p p' : Slot) : Prop :=
  ∀ t, F t → p.skips t.kind = true ∧ (p.isFirst && t.kind.opensItem) = false ∧
    ∀ quiet outer, (⟨p, quiet⟩ : Level).isReturn t = false ∧
      (⟨p, quiet⟩ : Level).step outer t = ⟨p', quiet⟩ :: outer

theorem Moves.kind {k : TokenKind} {p p' : Slot} (skips : p.skips k = true)
    (begins : (p.isFirst && k.opensItem) = false)
    (h : ∀ lexeme position quiet outer,
      (⟨p, quiet⟩ : Level).isReturn ⟨k, lexeme, position⟩ = false ∧
        (⟨p, quiet⟩ : Level).step outer ⟨k, lexeme, position⟩ = ⟨p', quiet⟩ :: outer) :
    Moves (·.kind = k) p p' := by
  rintro ⟨_, lexeme, position⟩ rfl
  exact ⟨skips, begins, h lexeme position⟩

/-- The delimiter opens a level. -/
structure OpensLevel (k : TokenKind) (p inside p' : Slot) (silent : Bool) : Prop where
  counts : p.skips k = false
  begins : k.opensItem = false
  levels : ∀ lexeme position quiet outer,
    (⟨p, quiet⟩ : Level).isReturn ⟨k, lexeme, position⟩ = false ∧
      (⟨p, quiet⟩ : Level).step outer ⟨k, lexeme, position⟩ =
        ⟨inside, silent || quiet⟩ :: ⟨p', quiet⟩ :: outer

structure ClosesLevel (c : Symbol) (inside : Slot) : Prop where
  counts : inside.skips (.symbol c) = false
  levels : ∀ lexeme position quiet outer,
    (⟨inside, quiet⟩ : Level).isReturn ⟨.symbol c, lexeme, position⟩ = false ∧
      (⟨inside, quiet⟩ : Level).step outer ⟨.symbol c, lexeme, position⟩ = outer

/-- The next token means the same at two slots. -/
def Agree (p p' : Slot) (ts : List Token) : Prop :=
  ∀ t later, ts = t :: later → ∀ quiet outer,
    (⟨p, quiet⟩ : Level).isReturn t = (⟨p', quiet⟩ : Level).isReturn t ∧
      (⟨p, quiet⟩ : Level).step outer t = (⟨p', quiet⟩ : Level).step outer t

theorem BeginsExpression.agree {ts : List Token} (h : BeginsExpression ts) :
    Agree .statement .expression ts := by
  intro t later here quiet outer
  obtain ⟨⟨_, _, ⟨⟨k, lexeme, position⟩, rfl, here'⟩, begins⟩, apart⟩ := h
  cases here.symm.trans here'
  change k.beginsExpression = true at begins
  cases k with
  | symbol x => cases x <;> first | exact ⟨rfl, rfl⟩ | cases begins
  | keyword word => cases word <;> first | exact ⟨rfl, rfl⟩ | cases begins
  | docComment _ => cases begins
  | identifier =>
    have other : Text.foldCase lexeme ∉ blockWords := fun word =>
      apart _ ⟨⟨.identifier, lexeme, position⟩, rfl, word, here⟩
    have same := Slot.behindWord_eq other
    exact ⟨rfl, congrArg (fun slot => (⟨slot, quiet⟩ : Level) :: outer) same⟩
  | _ => exact ⟨rfl, rfl⟩

theorem agree_of_unhandled {ts : List Token} (h : ∀ later, ¬NextWord handlerWords ts later) :
    Agree .handler .statement ts := by
  intro t later here quiet outer
  refine ⟨rfl, ?_⟩
  simp only [Level.step, Level.inHandlers]
  split
  next slot kind found =>
    rw [Slot.behindHandler?_eq fun word => h later ⟨t, kind, word, here⟩] at found
    cases found
  next => rfl

/-- A relation of two slots and two places that holds across the tokens of a body, with the tokens
behind each `return` between the places. -/
structure HoldsAlong (W : Slot → Slot → List (List Token) → List Token → List Token → Prop) :
    Prop where
  refl : ∀ p ts, W p p [] ts ts
  trans : ∀ {p p' p'' written written' ts mid rest}, W p p' written ts mid →
    W p' p'' written' mid rest → W p p'' (written ++ written') ts rest
  token : ∀ {F p p' ts rest}, Moves F p p' → (∃ t, F t ∧ ts = t :: rest) → W p p' [] ts rest
  ret : ∀ {ts rest}, Next (.keyword .kwReturn) ts rest → W .statement .expression [rest] ts rest
  enclosed : ∀ {k c p inside p' silent written ts inner last rest}, k.closing? = some c →
    OpensLevel k p inside p' silent → ClosesLevel c inside → Next k ts inner →
    W inside inside written inner last → Next (.symbol c) last rest →
    W p p' (found silent written) ts rest
  ended : W .expression .statement [] [] []
  begins : ∀ {ts}, BeginsExpression ts →
    (∀ later, Next (.keyword .kwFunction) ts later → ∀ after, ¬Next .identifier later after) →
    W .statement .expression [] ts ts
  unhandled : ∀ {ts}, (∀ later, ¬NextWord handlerWords ts later) → W .handler .statement [] ts ts
  stillOpen : ∀ {ts}, StillOpen (Region.opens .braces) (Region.closes .braces) ts →
    W (.within .braces 0 .statement) .statement [] ts []

/-- What a part of a body is from slot to slot. -/
def Across (W : Slot → Slot → List (List Token) → List Token → List Token → Prop) :
    Part → List (List Token) → List Token → List Token → Prop
  | .expression, written, ts, rest => W .expression .expression written ts rest
  | .block, written, ts, rest => ∃ inner last, Next (.symbol .leftBrace) ts inner ∧
    W .statement .statement written inner last ∧ Next (.symbol .rightBrace) last rest
  | .statements, written, ts, rest => W .statement .statement written ts rest
  | .handlers, written, ts, rest => W .handler .handler written ts rest

theorem closes_bracket {s c : Symbol}
    (pair : (s, c) ∈ [(Symbol.leftParen, Symbol.rightParen), (.leftBracket, .rightBracket)]) :
    (TokenKind.symbol s).closing? = some c ∧
      OpensLevel (.symbol s) .expression .expression .expression false ∧
        ClosesLevel c .expression := by
  simp only [List.mem_cons, Prod.mk.injEq, List.not_mem_nil, or_false] at pair
  rcases pair with ⟨rfl, rfl⟩ | ⟨rfl, rfl⟩ <;>
    exact ⟨rfl, ⟨rfl, rfl, fun _ _ _ _ => ⟨rfl, rfl⟩⟩, ⟨rfl, fun _ _ _ _ => ⟨rfl, rfl⟩⟩⟩

theorem opens_condition : OpensLevel (.symbol .leftParen) .condition .expression .statement false :=
  ⟨rfl, rfl, fun _ _ _ _ => ⟨rfl, rfl⟩⟩

theorem opens_tried : OpensLevel (.symbol .leftBrace) .tried .statement .handler false :=
  ⟨rfl, rfl, fun _ _ _ _ => ⟨rfl, rfl⟩⟩

theorem opens_block : OpensLevel (.symbol .leftBrace) .statement .statement .statement false :=
  ⟨rfl, rfl, fun _ _ _ _ => ⟨rfl, rfl⟩⟩

theorem closes_paren : ClosesLevel .rightParen .expression := ⟨rfl, fun _ _ _ _ => ⟨rfl, rfl⟩⟩

theorem closes_brace : ClosesLevel .rightBrace .statement := ⟨rfl, fun _ _ _ _ => ⟨rfl, rfl⟩⟩

theorem moves_of_isInert {k : TokenKind} (inert : k.isInert = true) :
    Moves (·.kind = k) .expression .expression := by
  refine .kind (TokenKind.isPlain_of_isInert inert) rfl fun lexeme position quiet outer => ?_
  cases k with
  | symbol x => cases x <;> first | exact ⟨rfl, rfl⟩ | cases inert
  | keyword word => cases word <;> first | exact ⟨rfl, rfl⟩ | cases inert
  | _ => exact ⟨rfl, rfl⟩

theorem moves_of_opensMember {k : TokenKind} (opens : k.opensMember = true) :
    Moves (·.kind = k) .expression .member := by
  refine .kind (TokenKind.isPlain_of_opensMember opens) rfl fun lexeme position quiet outer => ?_
  cases k with
  | symbol x => cases x <;> first | exact ⟨rfl, rfl⟩ | cases opens
  | _ => cases opens

theorem moves_name : Moves (·.kind.isPlain = true) .member .expression :=
  fun _ plain => ⟨plain, rfl, fun _ _ => ⟨rfl, rfl⟩⟩

namespace HoldsAlong

variable {W : Slot → Slot → List (List Token) → List Token → List Token → Prop} (h : HoldsAlong W)
variable {p p' p'' : Slot} {written : List (List Token)} {ts mid rest : List Token}

include h

theorem after (first : W p p' [] ts mid) (second : W p' p'' written mid rest) :
    W p p'' written ts rest :=
  h.trans first second

theorem before (first : W p p' written ts mid) (second : W p' p'' [] mid rest) :
    W p p'' written ts rest :=
  List.append_nil written ▸ h.trans first second

theorem step_within (region : Region) {depth : Nat} {t : Token}
    (behind : W (region.behind (.within region · p) p depth t.kind) p' written ts rest) :
    W (.within region depth p) p' written (t :: ts) rest := by
  refine h.after (h.token (F := (· = t)) ?_ ⟨t, rfl, rfl⟩) behind
  rintro _ rfl
  exact ⟨rfl, rfl, fun _ _ => ⟨rfl, rfl⟩⟩

theorem opening (region : Region) (p : Slot) (opened : Next (.symbol region.opening) ts rest) :
    W (.before region p) (.within region 0 p) [] ts rest := by
  refine h.token (.kind ?_ rfl fun lexeme position quiet outer => ⟨rfl, ?_⟩) opened
  · simp [Slot.skips]
  · simp [Level.step, Level.move]

theorem group (region : Region) (p : Slot)
    (passed : Comp (Next (.symbol region.opening)) (Passed region.opens region.closes) ts rest)
    (more : rest ≠ []) : W (.before region p) p [] ts rest := by
  obtain ⟨inner, opened, passed⟩ := passed
  exact h.after (h.opening region p opened) (region.counted (.within region · p) p
    (R := fun slot ts => W slot p [] ts rest) (h.step_within region) (passed.counted more)
    (h.refl p rest))

theorem switchBlock (passed : PassedGroup .leftBrace .rightBrace ts rest) :
    W (.before .braces .statement) .statement [] ts rest := by
  by_cases more : rest = []
  · subst more
    obtain ⟨inner, opened, passed⟩ := passed
    refine h.after (h.opening .braces .statement opened) ?_
    rcases passed with counted | ⟨-, stillOpen⟩
    · exact Region.braces.counted (.within .braces · .statement) .statement
        (R := fun slot ts => W slot .statement [] ts []) (h.step_within .braces) counted
        (h.refl .statement [])
    · exact h.stillOpen stillOpen
  · exact h.group .braces .statement passed more

theorem returnType
    (passed : PassedTo (fun k => k == .symbol .leftBrace || k == .symbol .semicolon ||
      k == .symbol .fatArrow) ts rest) :
    W .returnType .returnType [] ts rest := by
  refine PassedTo.fold (R := fun ts => W .returnType .returnType [] ts rest) passed ?_
    (h.refl _ rest)
  intro t ts unwanted later
  simp only [Bool.or_eq_false_iff, beq_eq_false_iff_ne] at unwanted
  refine h.after (h.token (F := (· = t)) ?_ ⟨t, rfl, rfl⟩) later
  rintro _ rfl
  exact ⟨by simp [Slot.skips, unwanted], rfl, fun quiet outer =>
    ⟨rfl, by simp [Level.step, Level.inReturnType, unwanted]⟩⟩

theorem signature {word : Keyword} (known : word = .kwFunction ∨ word = .kwFn)
    (header : Signature word ts rest) (more : rest ≠ []) :
    ∃ p, (p = .signature ∨ p = .returnType) ∧ W .expression p [] ts rest := by
  obtain ⟨ts₁, begins, ts₂, mark, ts₃, params, ts₄, used, returned⟩ := header
  have more₄ : ts₄ ≠ [] := by
    rcases returned with ⟨_, ⟨t, -, rfl⟩, -⟩ | rfl
    · exact List.cons_ne_nil t _
    · exact more
  have more₃ : ts₃ ≠ [] := by
    rcases used with ⟨_, ⟨t, -, rfl⟩, -⟩ | rfl
    · exact List.cons_ne_nil t _
    · exact more₄
  have first : W .expression (.before .parameters .signature) [] ts ts₁ := by
    refine h.token ?_ begins
    rcases known with rfl | rfl <;> exact .kind rfl rfl fun _ _ _ _ => ⟨rfl, rfl⟩
  have second : W (.before .parameters .signature) (.before .parameters .signature) [] ts₁ ts₂ := by
    rcases mark with mark | rfl
    · exact h.token (.kind rfl rfl fun _ _ _ _ => ⟨rfl, rfl⟩) mark
    · exact h.refl _ _
  have third : W (.before .parameters .signature) .signature [] ts₂ ts₃ :=
    h.group .parameters .signature params more₃
  have fourth : W .signature .signature [] ts₃ ts₄ := by
    rcases used with ⟨mid, use, captured⟩ | rfl
    · exact h.after (h.token (.kind rfl rfl fun _ _ _ _ => ⟨rfl, rfl⟩) use)
        (h.group .parens .signature captured more₄)
    · exact h.refl _ _
  have header := h.after first (h.after second (h.after third fourth))
  rcases returned with ⟨mid, colon, passed⟩ | rfl
  · exact ⟨.returnType, Or.inr rfl, h.after header (h.after
      (h.token (.kind rfl rfl fun _ _ _ _ => ⟨rfl, rfl⟩) colon) (h.returnType passed))⟩
  · exact ⟨.signature, Or.inl rfl, header⟩

theorem statementEnd (here : Ended ts rest) : W .expression .statement [] ts rest := by
  rcases here with semicolon | ⟨rfl, rfl⟩
  · exact h.token (.kind rfl rfl fun _ _ _ _ => ⟨rfl, rfl⟩) semicolon
  · exact h.ended

theorem statementWord {words : List String} (next : NextWord words ts rest)
    (behind : ∀ word ∈ words, Slot.behindWord word = p) : W .statement p [] ts rest := by
  obtain ⟨⟨_, lexeme, position⟩, rfl, word, here⟩ := next
  refine h.token (F := (· = ⟨.identifier, lexeme, position⟩)) ?_ ⟨_, rfl, here⟩
  rintro _ rfl
  exact ⟨rfl, rfl, fun quiet outer =>
    ⟨rfl, congrArg (fun slot => (⟨slot, quiet⟩ : Level) :: outer) (behind _ word)⟩⟩

theorem handlerWord {words : List String} (next : NextWord words ts rest)
    (behind : ∀ word ∈ words, Slot.behindHandler? word = some p) : W .handler p [] ts rest := by
  obtain ⟨⟨_, lexeme, position⟩, rfl, word, here⟩ := next
  refine h.token (F := (· = ⟨.identifier, lexeme, position⟩)) ?_ ⟨_, rfl, here⟩
  rintro _ rfl
  refine ⟨rfl, rfl, fun quiet outer => ⟨rfl, ?_⟩⟩
  simp only [Level.step, Level.inHandlers, behind _ word]
  rfl

theorem braces {silent : Bool} (opens : OpensLevel (.symbol .leftBrace) p .statement p' silent)
    (block : Across W .block written ts rest) : W p p' (found silent written) ts rest := by
  obtain ⟨inner, last, opened, within, closed⟩ := block
  exact h.enclosed rfl opens closes_brace opened within closed

theorem tried (block : Across W .block written ts rest) : W .tried .handler written ts rest :=
  h.braces opens_tried block

/-- The relation holds across a part of a body if it holds across all that the part may be made
of. -/
theorem spans {part : Part} (spans : Spans part written ts rest) :
    Across W part written ts rest := by
  induction spans with
  | @nothing part ts among =>
    cases part with
    | block => exact absurd rfl among
    | _ => exact h.refl _ ts
  | @append part _ _ _ _ _ among _ _ first second =>
    cases part with
    | block => exact absurd rfl among
    | _ => exact h.trans first second
  | token inert next => exact h.token (moves_of_isInert inert) next
  | member opens next =>
    obtain ⟨mid, sign, name⟩ := next
    exact h.before (h.token (moves_of_opensMember opens) sign) (h.token moves_name name)
  | grouped pair opened _ closing within =>
    obtain ⟨closes, opens, closes'⟩ := closes_bracket pair
    exact h.enclosed closes opens closes' opened within closing
  | arrow next =>
    obtain ⟨mid, signature, arrow⟩ := next
    obtain ⟨p, known, header⟩ := h.signature (Or.inr rfl) signature (Next.ne_nil arrow)
    refine h.before header (h.token ?_ arrow)
    rcases known with rfl | rfl <;> exact .kind rfl rfl fun _ _ _ _ => ⟨rfl, rfl⟩
  | closure signature _ body =>
    obtain ⟨inner, last, opened, within, closed⟩ := body
    obtain ⟨p, known, header⟩ := h.signature (Or.inl rfl) signature (Next.ne_nil opened)
    have opens : OpensLevel (.symbol .leftBrace) p .statement .expression true := by
      rcases known with rfl | rfl <;> exact ⟨rfl, rfl, fun _ _ _ _ => ⟨rfl, rfl⟩⟩
    exact h.before header (h.braces opens ⟨inner, last, opened, within, closed⟩)
  | block opened _ closing within => exact ⟨_, _, opened, within, closing⟩
  | nested _ body => exact h.braces opens_block body
  | empty next =>
    rcases next with semicolon | ⟨text, comment⟩
    · exact h.token (.kind rfl rfl fun _ _ _ _ => ⟨rfl, rfl⟩) semicolon
    · exact h.token (.kind rfl rfl fun _ _ _ _ => ⟨rfl, rfl⟩) comment
  | @expression ts mid rest begins read ended within =>
    have more : ts ≠ mid := by
      rintro rfl
      obtain ⟨⟨k, later, next, first⟩, -⟩ := begins
      rcases ended with semicolon | ⟨rfl, -⟩
      · cases next.unique semicolon
        cases first
      · exact next.ne_nil rfl
    exact h.after (h.begins begins fun _ => read.unnamed more)
      (h.before within (h.statementEnd ended))
  | ret word _ ended within =>
    exact h.before (h.before (h.ret word) within) (h.statementEnd ended)
  | @condition k ts mid inner last rest among word opened _ closing within =>
    have first : W .statement .condition [] ts mid := by
      refine h.token ?_ word
      simp only [List.mem_cons, List.not_mem_nil, or_false] at among
      rcases among with rfl | rfl | rfl <;> exact .kind rfl rfl fun _ _ _ _ => ⟨rfl, rfl⟩
    have header : W .condition .statement [] mid rest :=
      h.enclosed rfl opens_condition closes_paren opened within closing
    exact h.after first header
  | otherwise word => exact h.token (.kind rfl rfl fun _ _ _ _ => ⟨rfl, rfl⟩) word
  | loop next more =>
    obtain ⟨mid, word, header⟩ := next
    exact h.before (h.statementWord word (by decide)) (h.group .parens .statement header more)
  | switch next =>
    obtain ⟨mid, word, mid', header, block⟩ := next
    obtain ⟨inner, opened, passed⟩ := block
    exact h.after (h.statementWord word (by decide)) (h.after
      (h.group .parens (.before .braces .statement) header (Next.ne_nil opened))
      (h.switchBlock ⟨inner, opened, passed⟩))
  | tried word _ _ last body handlers =>
    exact h.after (h.statementWord word (by decide))
      (h.trans (h.tried body) (h.before handlers (h.unhandled last)))
  | caught next _ body =>
    obtain ⟨mid, word, header⟩ := next
    obtain ⟨inner, last, opened, within⟩ := body
    exact h.after (h.handlerWord word (by decide)) (h.after
      (h.group .parens .tried header (Next.ne_nil opened)) (h.tried ⟨inner, last, opened, within⟩))
  | last word _ body => exact h.after (h.handlerWord word (by decide)) (h.tried body)

end HoldsAlong

end ResponseShape
