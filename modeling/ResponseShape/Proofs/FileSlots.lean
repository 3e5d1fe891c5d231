import ResponseShape.Proofs.Nesting
import ResponseShape.Proofs.Slots

/-! The delimiters of a file that are not passed over, and where a file may end, told from one token
after another. Main statement: `Leads.holdsAlong`. -/
namespace ResponseShape

open Relation (Comp)

/-- What may stand next on a level of a file. -/
inductive FileSlot where
  /-- A part of a body. A statement outside of all delimiters may also be an item of the file. -/
  | code (slot : Slot)
  | namespaceName
  | imports
  | classHead
  | member
  /-- The name of a function or a method, and its parameters. -/
  | functionName
  /-- What a function or a method has between its parameters and its body. -/
  | signature
  | returnType
  | traitNames
  /-- A region in which further levels are open, and then the next slot. -/
  | within (region : Region) (depth : Nat) (next : FileSlot)
  /-- All up to a semicolon outside of further levels, and then the next slot. -/
  | untilSemicolon (depth : Nat) (next : FileSlot)
  deriving DecidableEq

namespace FileSlot

/-- Between the items of the file or the members of a class. -/
def between (outer : List FileSlot) : FileSlot :=
  if outer.isEmpty then .code .statement else .member

def behindSemicolon (depth : Nat) (next : FileSlot) (k : TokenKind) : FileSlot :=
  if Parser.opensLevel k then .untilSemicolon (depth + 1) next
  else if Parser.closesLevel k then .untilSemicolon (depth - 1) next
  else if k == .symbol .semicolon && depth == 0 then next
  else .untilSemicolon depth next

/-- The slot behind the first token of an item that is no statement. A function has a name. -/
def behindItem? (k : TokenKind) (later : List Token) : Option FileSlot :=
  match k with
  | .keyword .kwNamespace => some .namespaceName
  | .keyword .kwUse => some .imports
  | .keyword .kwDeclare => some (.code (.before .parens .statement))
  | .keyword .kwConst => some (.untilSemicolon 0 (.code .statement))
  | .keyword .kwAbstract | .keyword .kwFinal | .keyword .kwReadonly | .keyword .kwClass
  | .keyword .kwInterface | .keyword .kwTrait => some .classHead
  | .keyword .kwFunction =>
    if later.head?.map Token.kind == some .identifier then some .functionName else none
  | .symbol .rightBrace => some (.code .statement)
  | .symbol .attributeOpen => some (.within .attributes 0 (.code .statement))
  | _ => none

def item? (slot : Slot) (outer : List FileSlot) (k : TokenKind) (later : List Token) :
    Option FileSlot :=
  if slot.isFirst && outer.isEmpty then behindItem? k later else none

def behindMember (k : TokenKind) : FileSlot :=
  if k.opensOtherMember then behindSemicolon 0 .member k
  else
    match k with
    | .symbol .attributeOpen => .within .attributes 0 .member
    | .keyword .kwUse => .traitNames
    | .keyword .kwFunction => .functionName
    | _ => .member

def inReturnType (slot : FileSlot) (outer : List FileSlot) (k : TokenKind) : List FileSlot :=
  match k with
  | .symbol .semicolon => between outer :: outer
  | .symbol .leftBrace => .code .statement :: between outer :: outer
  | _ => slot :: outer

/-- The levels behind a token, which is read on the innermost of them. -/
def step (slot : FileSlot) (outer : List FileSlot) (t : Token) (later : List Token) :
    List FileSlot :=
  match slot with
  | .code p =>
    match item? p outer t.kind later with
    | some next => next :: outer
    | none => ((⟨p, false⟩ : Level).step [] t).map (FileSlot.code ·.slot) ++ outer
  | .namespaceName =>
    if t.kind == .symbol .leftBrace || t.kind == .symbol .semicolon then .code .statement :: outer
    else .namespaceName :: outer
  | .imports =>
    match t.kind with
    | .keyword .kwFunction | .keyword .kwConst => .untilSemicolon 0 (.code .statement) :: outer
    | .symbol .leftBrace => .imports :: .imports :: outer
    | .symbol .rightBrace => outer
    | .symbol .semicolon => .code .statement :: outer
    | _ => .imports :: outer
  | .classHead =>
    if t.kind == .symbol .leftBrace then .member :: .code .statement :: outer
    else .classHead :: outer
  | .member => if t.kind == .symbol .rightBrace then outer else behindMember t.kind :: outer
  | .functionName =>
    if t.kind == .symbol .leftParen then .within .parameters 0 .signature :: outer
    else .functionName :: outer
  | .signature =>
    if t.kind == .symbol .colon then .returnType :: outer else inReturnType slot outer t.kind
  | .returnType => inReturnType slot outer t.kind
  | .traitNames =>
    match t.kind with
    | .symbol .semicolon => .member :: outer
    | .symbol .leftBrace => .within .braces 0 .member :: outer
    | _ => .traitNames :: outer
  | .within region depth next =>
    region.behind (.within region · next) next depth t.kind :: outer
  | .untilSemicolon depth next => behindSemicolon depth next t.kind :: outer

/-- The token is no delimiter, or one that is passed over, or the brace of a namespace. -/
def skips : FileSlot → List FileSlot → TokenKind → Bool
  | .code p, outer, k => p.skips k || p.isFirst && outer.isEmpty && k.opensItem
  | .traitNames, _, _ | .within .., _, _ | .untilSemicolon .., _, _ => true
  | .namespaceName, _, k => k.isPlain || k == .symbol .leftBrace
  | .member, _, k => k != .symbol .rightBrace
  | .functionName, _, k => k.isPlain || k == .symbol .leftParen
  | .returnType, _, k => k != .symbol .leftBrace
  | _, _, k => k.isPlain

/-- The tokens may end here, behind the last of them. A region may only be open there if it is an
attribute of the file, or the block of a `switch`, and if the last token closes a level of it. -/
def mayEnd (last : Option Token) : FileSlot → Bool
  | .code .statement | .code .handler | .code .expression => true
  | .code (.within .braces _ .statement) => last.any (Region.braces.closes ·.kind)
  | .within .attributes _ (.code .statement) => last.any (Region.attributes.closes ·.kind)
  | _ => false

end FileSlot

/-- The delimiters that count. -/
def delimitersFrom : List FileSlot → List Token → List Token
  | [], _ | _ :: _, [] => []
  | slot :: outer, t :: ts =>
    if slot.skips outer t.kind then delimitersFrom (slot.step outer t ts) ts
    else t :: delimitersFrom (slot.step outer t ts) ts

/-- The levels that are open behind the tokens, with what may stand next on them. -/
def levelsFrom : List FileSlot → List Token → List FileSlot
  | [], _ => []
  | slot :: outer, [] => slot :: outer
  | slot :: outer, t :: ts => levelsFrom (slot.step outer t ts) ts

/-- The tokens end on the outermost level, in a slot where they may. -/
def EndsFrom (slots : List FileSlot) (ts : List Token) : Prop :=
  ∃ slot, levelsFrom slots ts = [slot] ∧ slot.mayEnd ts.getLast? = true

theorem FileSlot.mayEnd_of_none {slot : FileSlot} (last : Option Token)
    (h : slot.mayEnd none = true) : slot.mayEnd last = true := by
  unfold mayEnd at h ⊢
  split at h
  all_goals first | rfl | cases h

theorem EndsFrom.cons {slot : FileSlot} {outer : List FileSlot} {t : Token} {ts : List Token}
    (h : EndsFrom (slot.step outer t ts) ts) : EndsFrom (slot :: outer) (t :: ts) := by
  obtain ⟨last, levels, ends⟩ := h
  refine ⟨last, levels, ?_⟩
  rw [List.getLast?_cons]
  cases found : ts.getLast? with
  | none =>
    rw [found] at ends
    exact last.mayEnd_of_none _ ends
  | some t' =>
    rw [found] at ends
    exact ends

/-- From some levels to others: the delimiters between are well nested, and the tokens may end if
those behind may. -/
structure Leads (slots slots' : List FileSlot) (ts rest : List Token) : Prop where
  delimiters : ∃ inner, WellNested inner ∧
    delimitersFrom slots ts = inner ++ delimitersFrom slots' rest
  ends : EndsFrom slots' rest → EndsFrom slots ts

namespace Leads

variable {slots slots' slots'' outer outer' above : List FileSlot} {slot slot' next : FileSlot}
variable {t t' : Token} {ts mid inner rest : List Token}

theorem refl (slots : List FileSlot) (ts : List Token) : Leads slots slots ts ts :=
  ⟨⟨[], .nil, rfl⟩, id⟩

theorem trans (first : Leads slots slots' ts mid) (second : Leads slots' slots'' mid rest) :
    Leads slots slots'' ts rest := by
  obtain ⟨⟨inner, nested, same⟩, ends⟩ := first
  obtain ⟨⟨inner', nested', same'⟩, ends'⟩ := second
  exact ⟨⟨inner ++ inner', nested.append nested', by rw [same, same', List.append_assoc]⟩,
    fun h => ends (ends' h)⟩

theorem token (skips : slot.skips outer t.kind = true) (step : slot.step outer t rest = slots) :
    Leads (slot :: outer) slots (t :: rest) rest := by
  subst step
  exact ⟨⟨[], .nil, by rw [delimitersFrom, if_pos skips, List.nil_append]⟩, EndsFrom.cons⟩

theorem of_next {k : TokenKind} (skips : slot.skips outer k = true)
    (step : ∀ lexeme position, slot.step outer ⟨k, lexeme, position⟩ rest = slots)
    (h : Next k ts rest) : Leads (slot :: outer) slots ts rest := by
  obtain ⟨⟨_, lexeme, position⟩, rfl, rfl⟩ := h
  exact token skips (step lexeme position)

theorem agree (skips : slot.skips outer t.kind = slot'.skips outer' t.kind)
    (step : slot.step outer t rest = slot'.step outer' t rest) :
    Leads (slot :: outer) (slot' :: outer') (t :: rest) (t :: rest) := by
  refine ⟨⟨[], .nil, ?_⟩, fun ⟨last, levels, ends⟩ => ⟨last, ?_, ends⟩⟩
  · rw [delimitersFrom, delimitersFrom, skips, step, List.nil_append]
  · rw [levelsFrom, step]
    exact levels

theorem agree_of_next {k : TokenKind} (h : Next k ts rest)
    (skips : slot.skips outer k = slot'.skips outer' k)
    (step : ∀ lexeme position,
      slot.step outer ⟨k, lexeme, position⟩ rest = slot'.step outer' ⟨k, lexeme, position⟩ rest) :
    Leads (slot :: outer) (slot' :: outer') ts ts := by
  obtain ⟨⟨_, lexeme, position⟩, rfl, rfl⟩ := h
  exact agree skips (step lexeme position)

theorem enclosed {c : Symbol} (closing : t.kind.closing? = some c)
    (counts : slot.skips outer t.kind = false) (step : slot.step outer t inner = slot' :: above)
    (within : Leads (slot' :: above) (slot' :: above) inner (t' :: rest))
    (closes : t'.kind = .symbol c) (counts' : slot'.skips above t'.kind = false)
    (step' : slot'.step above t' rest = above) :
    Leads (slot :: outer) above (t :: inner) rest := by
  obtain ⟨⟨word, nested, same⟩, ends⟩ := within
  refine ⟨⟨t :: (word ++ [t']), .group closing nested closes .nil, ?_⟩, fun h => ?_⟩
  · rw [delimitersFrom, counts, if_neg Bool.false_ne_true, step, same, delimitersFrom, counts',
      if_neg Bool.false_ne_true, step', List.cons_append, List.append_assoc, List.singleton_append]
  · exact .cons (step ▸ ends (.cons (step'.symm ▸ h)))

theorem untilSemicolon {depth : Nat} (outer : List FileSlot)
    (h : Parser.afterSemicolon? depth ts = some rest) :
    Leads (.untilSemicolon depth next :: outer) (next :: outer) ts rest := by
  fun_induction Parser.afterSemicolon? depth ts with
  | case1 => cases h
  | case2 depth t ts opens ih =>
    refine (token rfl ?_).trans (ih h)
    rw [FileSlot.step, FileSlot.behindSemicolon, if_pos opens]
  | case3 depth t ts opens closes ih =>
    refine (token rfl ?_).trans (ih h)
    rw [FileSlot.step, FileSlot.behindSemicolon, if_neg opens, if_pos closes]
  | case4 depth t ts opens closes semicolon =>
    cases h
    refine token rfl ?_
    rw [FileSlot.step, FileSlot.behindSemicolon, if_neg opens, if_neg closes, if_pos semicolon]
  | case5 depth t ts opens closes semicolon ih =>
    refine (token rfl ?_).trans (ih h)
    rw [FileSlot.step, FileSlot.behindSemicolon, if_neg opens, if_neg closes, if_neg semicolon]

theorem returnType (outer : List FileSlot)
    (h : PassedTo (fun k => k == .symbol .leftBrace || k == .symbol .semicolon ||
      k == .symbol .fatArrow) ts rest) :
    Leads (.returnType :: outer) (.returnType :: outer) ts rest := by
  refine PassedTo.fold (R := fun ts => Leads (.returnType :: outer) (.returnType :: outer) ts rest)
    h (fun {t ts} unwanted later => ?_) (refl _ rest)
  simp only [Bool.or_eq_false_iff, beq_eq_false_iff_ne] at unwanted
  refine (token ?_ ?_).trans later
  · exact bne_iff_ne.2 unwanted.1.1
  · simp [FileSlot.step, FileSlot.inReturnType, unwanted]

theorem traitNames (outer : List FileSlot)
    (h : PassedTo (fun k => k == .symbol .semicolon || k == .symbol .leftBrace) ts rest) :
    Leads (.traitNames :: outer) (.traitNames :: outer) ts rest := by
  refine PassedTo.fold (R := fun ts => Leads (.traitNames :: outer) (.traitNames :: outer) ts rest)
    h (fun {t ts} unwanted later => ?_) (refl _ rest)
  simp only [Bool.or_eq_false_iff, beq_eq_false_iff_ne] at unwanted
  refine (token rfl ?_).trans later
  simp [FileSlot.step, unwanted]

theorem otherMember {k : TokenKind} {later : List Token} (first : Next k ts later)
    (other : k.opensOtherMember = true) (h : PassedSemicolon ts rest) (outer : List FileSlot) :
    Leads (.member :: outer) (.member :: outer) ts rest := by
  have inner : k ≠ .symbol .rightBrace := by
    rintro rfl
    cases other
  have behind : FileSlot.behindMember k = FileSlot.behindSemicolon 0 .member k := if_pos other
  have same : Leads (.member :: outer) (.untilSemicolon 0 .member :: outer) ts ts := by
    refine agree_of_next first (bne_iff_ne.2 inner) fun _ _ => ?_
    exact (if_neg (by simpa using inner)).trans (congrArg (· :: outer) behind)
  exact same.trans (untilSemicolon outer h)

theorem step_within (region : Region) {depth : Nat}
    (behind : Leads (region.behind (.within region · next) next depth t.kind :: outer) slots ts
      rest) :
    Leads (.within region depth next :: outer) slots (t :: ts) rest :=
  trans (token rfl rfl) behind

theorem counted (region : Region) (outer : List FileSlot)
    (h : Counted region.opens region.closes 1 ts rest) :
    Leads (.within region 0 next :: outer) (next :: outer) ts rest :=
  region.counted (.within region · next) next
    (R := fun slot ts => Leads (slot :: outer) (next :: outer) ts rest) (step_within region) h
    (refl _ rest)

/-- A region that is open to the end of the tokens. -/
theorem stillOpen (region : Region) (within : Nat → FileSlot)
    (step : ∀ depth t later,
      (within depth).step outer t later = region.behind within next depth t.kind :: outer)
    (skips : ∀ depth k, (within depth).skips outer k = true)
    (mayEnd : ∀ depth t, region.closes t.kind = true → (within depth).mayEnd (some t) = true)
    (h : StillOpen region.opens region.closes ts) :
    Leads (within 0 :: outer) (next :: outer) ts [] := by
  have read : delimitersFrom (within 0 :: outer) ts = [] ∧
      ∃ depth, levelsFrom (within 0 :: outer) ts = within depth :: outer := by
    refine region.unclosed within next (R := fun slot ts => delimitersFrom (slot :: outer) ts = [] ∧
      ∃ depth, levelsFrom (slot :: outer) ts = within depth :: outer) ?_ ?_ h.unclosed
    · intro depth t ts behind
      rw [delimitersFrom, if_pos (skips depth _), levelsFrom, step]
      exact behind
    · exact fun depth => ⟨rfl, depth, rfl⟩
  obtain ⟨none, depth, levels⟩ := read
  refine ⟨⟨[], .nil, none⟩, fun ⟨slot, ended, _⟩ => ⟨within depth, ?_, ?_⟩⟩
  · obtain ⟨-, rfl⟩ := List.cons.inj ended
    exact levels
  · obtain ⟨t, last, closes⟩ := h.last
    rw [last]
    exact mayEnd depth t closes

theorem item?_eq_none {p : Slot} {k : TokenKind} {later : List Token}
    (h : (p.isFirst && outer.isEmpty && k.opensItem) = false) :
    FileSlot.item? p outer k later = none := by
  unfold FileSlot.item?
  split
  next first =>
    rw [first, Bool.true_and] at h
    unfold FileSlot.behindItem?
    split
    all_goals first | rfl | cases h
  next => rfl

theorem code_skips {p : Slot} {k : TokenKind}
    (h : (p.isFirst && outer.isEmpty && k.opensItem) = false) :
    (FileSlot.code p).skips outer k = p.skips k := by
  rw [FileSlot.skips, h, Bool.or_false]

theorem begins_within {p : Slot} {k : TokenKind} (h : (p.isFirst && k.opensItem) = false)
    (outer : List FileSlot) : (p.isFirst && outer.isEmpty && k.opensItem) = false := by
  rw [Bool.and_right_comm, h, Bool.false_and]

theorem code_step {p : Slot} {levels : List Level}
    (none : FileSlot.item? p outer t.kind rest = none)
    (step : (⟨p, false⟩ : Level).step [] t = levels) :
    (FileSlot.code p).step outer t rest = levels.map (FileSlot.code ·.slot) ++ outer := by
  rw [FileSlot.step, none, step]

theorem behind_code (region : Region) (p : Slot) (depth : Nat) (k : TokenKind) :
    FileSlot.code (region.behind (.within region · p) p depth k) =
      region.behind (fun depth => .code (.within region depth p)) (.code p) depth k := by
  unfold Region.behind
  split
  · rfl
  split
  · cases depth <;> rfl
  · rfl

theorem enclosing {k : TokenKind} {c : Symbol} {inside : Slot} {last : List Token}
    (closing : k.closing? = some c) (counts : slot.skips outer k = false)
    (step : ∀ lexeme position later,
      slot.step outer ⟨k, lexeme, position⟩ later = .code inside :: next :: outer)
    (closes : ClosesLevel c inside) (opened : Next k ts inner)
    (within : ∀ outer, Leads (.code inside :: outer) (.code inside :: outer) inner last)
    (closed : Next (.symbol c) last rest) : Leads (slot :: outer) (next :: outer) ts rest := by
  obtain ⟨⟨_, lexeme, position⟩, rfl, rfl⟩ := opened
  obtain ⟨⟨_, lexeme', position'⟩, rfl, rfl⟩ := closed
  have above : ∀ {k : TokenKind},
      (inside.isFirst && (next :: outer).isEmpty && k.opensItem) = false := by
    intro k
    rw [List.isEmpty_cons, Bool.and_false, Bool.false_and]
  exact enclosed closing counts (step lexeme position _) (within (next :: outer)) rfl
    ((code_skips above).trans closes.counts)
    (code_step (item?_eq_none above) (closes.levels lexeme' position' false []).2)

theorem code_enclosed {k : TokenKind} {c : Symbol} {p inside p' : Slot} {silent : Bool}
    {last : List Token} (closing : k.closing? = some c) (opens : OpensLevel k p inside p' silent)
    (closes : ClosesLevel c inside) (opened : Next k ts inner)
    (within : ∀ outer, Leads (.code inside :: outer) (.code inside :: outer) inner last)
    (closed : Next (.symbol c) last rest) (outer : List FileSlot) :
    Leads (.code p :: outer) (.code p' :: outer) ts rest := by
  have begins : (p.isFirst && outer.isEmpty && k.opensItem) = false := by
    rw [opens.begins, Bool.and_false]
  refine enclosing closing ((code_skips begins).trans opens.counts) ?_ closes opened within closed
  exact fun lexeme position _ =>
    code_step (item?_eq_none begins) (opens.levels lexeme position false []).2

theorem behindItem?_of_beginsExpression {k : TokenKind} {later : List Token}
    (first : k.beginsExpression = true)
    (unnamed : k = .keyword .kwFunction → later.head?.map Token.kind ≠ some .identifier) :
    FileSlot.behindItem? k later = none := by
  unfold FileSlot.behindItem?
  split
  case h_11 => exact if_neg fun named => unnamed rfl (beq_iff_eq.1 named)
  case h_14 => rfl
  all_goals cases first

theorem isPlain_of_beginsExpression {k : TokenKind} (first : k.beginsExpression = true)
    (item : k.opensItem = true) : k.isPlain = true := by
  unfold TokenKind.opensItem at item
  split at item
  all_goals first | rfl | cases first | cases item

theorem begins (h : BeginsExpression ts)
    (unnamed : ∀ later, Next (.keyword .kwFunction) ts later →
      ∀ after, ¬Next .identifier later after) (outer : List FileSlot) :
    Leads (.code .statement :: outer) (.code .expression :: outer) ts ts := by
  have agrees := h.agree
  obtain ⟨⟨k, later, ⟨t, kind, rfl⟩, first⟩, -⟩ := h
  subst kind
  refine agree ?_ ?_
  · rw [code_skips (p := .expression) rfl]
    cases item : t.kind.opensItem with
    | false => rw [code_skips (by rw [item, Bool.and_false])]; rfl
    | true =>
      have plain : Slot.expression.skips t.kind = true := isPlain_of_beginsExpression first item
      rw [plain]
      exact Bool.or_eq_true_iff.2 (Or.inl plain)
  · have none : FileSlot.item? .statement outer t.kind later = none := by
      unfold FileSlot.item?
      split
      · refine behindItem?_of_beginsExpression first fun function named => ?_
        obtain ⟨t', found, name⟩ := Option.map_eq_some_iff.1 named
        obtain ⟨after, rfl⟩ := List.head?_eq_some_iff.1 found
        exact unnamed _ ⟨t, function, rfl⟩ after ⟨t', name, rfl⟩
      · rfl
    rw [code_step none (agrees t later rfl false []).2, code_step (item?_eq_none rfl) rfl]

theorem endOf {p p' : Slot} (ends : ∀ last, (FileSlot.code p).mayEnd last = true)
    (outer : List FileSlot) : Leads (.code p :: outer) (.code p' :: outer) [] [] := by
  refine ⟨⟨[], .nil, rfl⟩, fun ⟨slot, levels, _⟩ => ?_⟩
  obtain ⟨-, rfl⟩ := List.cons.inj levels
  exact ⟨_, rfl, ends none⟩

theorem unhandled (h : ∀ later, ¬NextWord handlerWords ts later) (outer : List FileSlot) :
    Leads (.code .handler :: outer) (.code .statement :: outer) ts ts := by
  cases ts with
  | nil => exact endOf (fun _ => rfl) outer
  | cons t later =>
    have same := (agree_of_unhandled h t later rfl false []).2
    have item : FileSlot.item? .handler outer t.kind later =
        FileSlot.item? .statement outer t.kind later := rfl
    exact agree rfl (by simp only [FileSlot.step, item, same])

theorem holdsAlong :
    HoldsAlong fun p p' _ ts rest =>
      ∀ outer, Leads (.code p :: outer) (.code p' :: outer) ts rest where
  refl p ts outer := refl _ ts
  trans first second outer := (first outer).trans (second outer)
  token moves next outer := by
    obtain ⟨t, here, rfl⟩ := next
    obtain ⟨skips, begins, levels⟩ := moves t here
    have begins := begins_within begins outer
    exact token ((code_skips begins).trans skips)
      (code_step (item?_eq_none begins) (levels false []).2)
  ret word outer := by
    obtain ⟨⟨_, lexeme, position⟩, rfl, rfl⟩ := word
    have begins := begins_within (p := .statement) (k := .keyword .kwReturn) rfl outer
    exact token (code_skips begins) (code_step (item?_eq_none begins) rfl)
  enclosed closing opens closes opened within closed :=
    code_enclosed closing opens closes opened within closed
  ended := endOf fun _ => rfl
  begins := begins
  unhandled := unhandled
  stillOpen h outer := by
    refine Leads.stillOpen .braces (fun depth => .code (.within .braces depth .statement))
      ?_ ?_ ?_ h
    · intro depth t later
      exact congrArg (· :: outer) (behind_code .braces .statement depth t.kind)
    · exact fun depth k => rfl
    · exact fun depth t closes => closes

theorem header {ts₁ ts₂ ts₃ ts₄ : List Token} (function : Next (.keyword .kwFunction) ts ts₁)
    (mark : Optionally (Next (.symbol .ampersand)) ts₁ ts₂) (name : NextPlain ts₂ ts₃)
    (params : PassedParameters ts₃ ts₄) (returned : Optionally PassedReturnType ts₄ rest)
    (more : rest ≠ []) (outer : List FileSlot) :
    ∃ slot, (slot = .signature ∨ slot = .returnType) ∧
      Leads (.functionName :: outer) (slot :: outer) ts rest := by
  have more₄ : ts₄ ≠ [] := by
    rcases returned with ⟨_, ⟨t, -, rfl⟩, -⟩ | rfl
    · exact List.cons_ne_nil t _
    · exact more
  have marked : Leads (.functionName :: outer) (.functionName :: outer) ts₁ ts₂ := by
    rcases mark with mark | rfl
    · exact of_next rfl (fun _ _ => rfl) mark
    · exact refl _ _
  have named : Leads (.functionName :: outer) (.functionName :: outer) ts₂ ts₃ := by
    obtain ⟨t, plain, rfl⟩ := name
    refine token (by rw [FileSlot.skips, plain, Bool.true_or]) (if_neg fun opening => ?_)
    rw [beq_iff_eq.1 opening] at plain
    cases plain
  obtain ⟨inner, opened, passed⟩ := params
  have begun : Leads (.functionName :: outer) (.signature :: outer) ts ts₄ :=
    trans (of_next rfl (fun _ _ => rfl) function) (marked.trans (named.trans
      (trans (of_next rfl (fun _ _ => rfl) opened)
        (counted .parameters outer (passed.counted more₄)))))
  rcases returned with ⟨_, colon, type⟩ | rfl
  · exact ⟨.returnType, Or.inr rfl,
      begun.trans (trans (of_next rfl (fun _ _ => rfl) colon) (returnType outer type))⟩
  · exact ⟨.signature, Or.inl rfl, begun⟩

end Leads

end ResponseShape
