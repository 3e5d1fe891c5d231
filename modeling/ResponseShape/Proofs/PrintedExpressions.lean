import ResponseShape.Proofs.Reading

/-! Printed expressions are read back, form by form: if the parts of an expression are read back
where they stand, so is the expression. -/
namespace ResponseShape

open ResponseShape.Parser ResponseShape.Grammar

variable {k : TokenKind} {t : Token} {ts us rest : List Token} {a b : Expr} {min : Precedence}

def NoCast (ts : List Token) : Prop := Reads Nested.seesCast ts false ts

theorem noCast_of_first (h : firstKind ts ≠ some (.symbol .leftParen)) : NoCast ts := by
  intro stop
  unfold Nested.seesCast
  split
  · rename_i tokens
    rw [show ts = _ from tokens] at h
    exact absurd rfl h
  · rfl

theorem noCast_of_second (h : firstKind ts ≠ some .identifier) :
    NoCast (.symbol .leftParen :: ts) := by
  intro stop
  unfold Nested.seesCast
  split
  · rename_i tokens
    injection tokens with _ tokens
    rw [tokens] at h
    exact absurd rfl h
  · rfl

theorem noCast_of_third (h : firstKind ts ≠ some (.symbol .rightParen)) :
    NoCast (.symbol .leftParen :: t :: ts) := by
  intro stop
  unfold Nested.seesCast
  split
  · rename_i tokens
    injection tokens with _ tokens
    injection tokens with _ tokens
    rw [tokens] at h
    exact absurd rfl h
  · rfl

theorem noCast_operand (e : Expr) (h : firstKind ts ≠ some (.symbol .rightParen)) :
    NoCast (.symbol .leftParen :: (e.operandTokens ++ ts)) := by
  cases atom : e.isAtom with
  | true =>
    obtain ⟨t, ht, _⟩ := Expr.tokens_atom atom
    rw [Expr.operandTokens_atom atom, ht]
    exact noCast_of_third h
  | false =>
    rw [Expr.operandTokens_compound atom]
    exact noCast_of_second (firstKind_cons_ne rfl)

theorem noCast_grouped {e : Expr} (compound : e.isAtom = false) :
    NoCast (.symbol .leftParen :: (e.tokens ++ rest)) := by
  have target : ∀ (e : Expr) {more : List Token},
      firstKind (more ++ rest) ≠ some (.symbol .rightParen) →
      NoCast (.symbol .leftParen :: (e.enclose e.tokens ++ more ++ rest)) := by
    intro e more h
    rw [List.append_assoc]
    exact noCast_operand e h
  cases e with
  | property t _ nullsafe | methodCall t _ _ nullsafe =>
    cases nullsafe <;> exact target t (firstKind_cons_ne rfl)
  | call t _ | assign t _ => exact target t (firstKind_cons_ne rfl)
  | binary op t _ => cases op <;> exact target t (firstKind_cons_ne rfl)
  | index t i =>
    cases i with
    | none => exact target t (firstKind_cons_ne rfl)
    | some i =>
      rw [Expr.tokens, List.append_assoc (t.enclose _)]
      exact target t (firstKind_cons_ne rfl)
  | ternary t m _ =>
    cases m with
    | none => exact target t (firstKind_cons_ne rfl)
    | some m =>
      rw [Expr.tokens, List.append_assoc (t.enclose _)]
      exact target t (firstKind_cons_ne rfl)
  | staticCall name _ _ | classConstant name _ => exact noCast_of_third (firstKind_cons_ne rfl)
  | unary op _ => cases op <;> exact noCast_of_second (firstKind_cons_ne rfl)
  | array _ | new _ _ | arrowFunction _ _ | closure _ _ =>
    exact noCast_of_second (firstKind_cons_ne rfl)
  | _ => cases compound

def TokenKind.isSign : TokenKind → Bool
  | symbol .bang | symbol .minus | symbol .plus | symbol .atSign => true
  | _ => false

theorem TokenKind.isSign_of_opensOperand (h : k.opensOperand = true) : k.isSign = false := by
  unfold isSign
  split <;> first | rfl | cases h

theorem reads_operand (first : firstKind ts = some k) (unsigned : k.isSign = false)
    (noCast : NoCast ts) (primary : Reads phrases.primary ts b us)
    (suffixes : Reads (iterate phrases.suffixRound b) us a rest) :
    Reads phrases.operand ts a rest := by
  refine .kind first ?_
  split
  case h_5 => exact noCast.bind (primary.bind suffixes)
  all_goals
    rename_i sign
    cases sign
    cases unsigned

theorem reads_expression (operand : Reads phrases.operand ts b us)
    (operators : Reads (iterate (phrases.operatorRound min) b) us a rest) :
    Reads (phrases.expression min) ts a rest := by
  have run : phrases.expression min = phrases.expressionAt min := expression_eq min
  rw [run]
  exact operand.bind operators

theorem suffixes_done (first : firstKind ts = some k) (closed : k.opensSuffix = false) :
    Reads (iterate phrases.suffixRound a) ts a ts := by
  refine .done (.kind first ?_)
  split
  case h_6 => exact .pure
  all_goals
    rename_i suffix
    cases suffix
    cases closed

theorem operators_done (first : firstKind ts = some k) (closed : Infix.ofKind? k = none) :
    Reads (iterate (phrases.operatorRound min) a) ts a ts := by
  refine .done (.kind first ?_)
  rw [Option.bind_some, closed]
  exact .pure

theorem TokenKind.opensSuffix_of_closes (h : k.closes = true) : k.opensSuffix = false := by
  unfold opensSuffix
  split <;> first | rfl | cases h

theorem Infix.ofKind?_of_closes (h : k.closes = true) : Infix.ofKind? k = none := by
  unfold ofKind?
  split <;> first | rfl | cases h

theorem Closing.suffixes (closing : Closing ts) : Reads (iterate phrases.suffixRound a) ts a ts :=
  have ⟨_, first, closes⟩ := closing
  suffixes_done first (TokenKind.opensSuffix_of_closes closes)

theorem Closing.operators (closing : Closing ts) :
    Reads (iterate (phrases.operatorRound min) a) ts a ts :=
  have ⟨_, first, closes⟩ := closing
  operators_done first (Infix.ofKind?_of_closes closes)

/-- Nothing that follows goes on with the operand itself. -/
structure Follows (e : Expr) (rest : List Token) : Prop where
  fn : firstKind rest ≠ some (.keyword .kwFn)
  function : firstKind rest ≠ some (.keyword .kwFunction)
  paren : e.isArrayWord = true → firstKind rest ≠ some (.symbol .leftParen)

theorem follows_symbol {e : Expr} {s : Symbol} (noParen : (s == .leftParen) = false) :
    Follows e (.symbol s :: us) where
  fn := firstKind_cons_ne rfl
  function := firstKind_cons_ne rfl
  paren _ same := ne_of_beq_false noParen (TokenKind.symbol.inj (Option.some.inj same))

theorem Closing.follows (closing : Closing rest) (e : Expr) : Follows e rest :=
  ⟨closing.ne rfl, closing.ne rfl, fun _ => closing.ne rfl⟩

/-- What is printed for the expression is read as its reread form, where something closes it. -/
structure Expr.ReadsBack (e : Expr) : Prop where
  written : e.IsWritten
  closed : ∀ {rest}, Closing rest → Reads phrases.anyExpression (e.tokens ++ rest) e.reread rest

theorem reads_word {text : String} (h : Text.foldCase text ∉ literalWords)
    (paren : Text.foldCase text = "array" → firstKind ts ≠ some (.symbol .leftParen)) :
    Reads (phrases.wordExpression text) ts (.constant (Name.ofWritten text)) ts := by
  unfold Nested.wordExpression
  split
  case h_4 => rename_i array; exact .ifRefused (paren array) .pure
  case h_5 => exact .pure
  all_goals
    rename_i word
    rw [word] at h
    exact absurd (by decide) h

theorem reads_constant {name : Name} (written : name.IsConstant)
    (follows : Follows (.constant name) rest) :
    Reads phrases.primary (.ofName name :: rest) (.constant name) rest := by
  unfold Token.ofName
  split
  · rename_i static
    refine .next (.advance (.ifUnseen follows.fn (.ifUnseen follows.function ?_)))
    rw [← static, written.1]
    exact .pure
  · have word : Reads (phrases.wordExpression name.written) rest
        (.constant (Name.ofWritten name.written)) rest :=
      reads_word written.2 fun array => follows.paren (beq_iff_eq.2 array)
    rw [written.1] at word
    exact .next (.advance word)

theorem reads_atom {e : Expr} (atom : e.isAtom = true) (written : e.IsWritten)
    (follows : Follows e rest) :
    Reads phrases.primary (e.tokens ++ rest) e.reread rest := by
  cases e with
  | string _ | interpolated _ | number _ | var _ => exact .next (.advance .pure)
  | bool value => cases value <;> exact .next (.advance .pure)
  | null => exact .next (.advance .pure)
  | constant name => exact reads_constant written follows
  | _ => cases atom

theorem reads_primary {e : Expr} (back : e.ReadsBack) (follows : Follows e rest) :
    Reads phrases.primary (e.operandTokens ++ rest) e.reread rest := by
  cases atom : e.isAtom with
  | true =>
    rw [Expr.operandTokens_atom atom]
    exact reads_atom atom back.written follows
  | false =>
    rw [Expr.operandTokens_compound atom, Token.grouped_append]
    exact .next (.advance ((back.closed (.cons rfl)).bind (Reads.expect.bind .pure)))

theorem noCast_operandTokens (e : Expr) (rest : List Token) :
    NoCast (e.operandTokens ++ rest) := by
  cases atom : e.isAtom with
  | true =>
    obtain ⟨t, ht, _, noParen⟩ := Expr.tokens_atom atom
    rw [Expr.operandTokens_atom atom, ht]
    exact noCast_of_first fun first => noParen (Option.some.inj first)
  | false =>
    rw [Expr.operandTokens_compound atom, Token.grouped_append]
    exact noCast_grouped atom

theorem reads_target {e : Expr} (back : e.ReadsBack) (follows : Follows e us)
    (suffixes : Reads (iterate phrases.suffixRound e.reread) us a rest) :
    Reads phrases.operand (e.operandTokens ++ us) a rest := by
  obtain ⟨k, first, opens⟩ := e.operandTokens_opens us
  exact reads_operand first (TokenKind.isSign_of_opensOperand opens) (noCast_operandTokens e us)
    (reads_primary back follows) suffixes

theorem reads_operandTokens {e : Expr} (back : e.ReadsBack) (closing : Closing rest) :
    Reads (phrases.expression min) (e.operandTokens ++ rest) e.reread rest :=
  reads_expression (reads_target back (closing.follows e) closing.suffixes) closing.operators

theorem reads_grouped (back : a.ReadsBack)
    (noCast : NoCast (.symbol .leftParen :: (a.tokens ++ .symbol .rightParen :: rest)))
    (closing : Closing rest) :
    Reads (phrases.expression min) (Token.grouped a.tokens ++ rest) a.reread rest := by
  rw [Token.grouped_append]
  exact reads_expression (reads_operand rfl rfl noCast
    (.next (.advance ((back.closed (.cons rfl)).bind (Reads.expect.bind .pure)))) closing.suffixes)
    closing.operators

section
variable {α ι : Type} {round : List α → Parser (List α ⊕ List α)} {closing : Symbol}

/-- The rounds over a list read an element where a comma or the end of the list is behind it. -/
structure ReadsElement (round : List α → Parser (List α ⊕ List α)) (closing : Symbol)
    (ts : List Token) (a : α) : Prop where
  more : ∀ before rest,
    Reads (round before) (ts ++ .symbol .comma :: rest) (.inl (before ++ [a])) rest
  last : ∀ before rest,
    Reads (round before) (ts ++ .symbol closing :: rest) (.inr (before ++ [a]))
      (.symbol closing :: rest)

theorem reads_separated {tokens : ι → List Token} {value : ι → α}
    (stop : ∀ before rest,
      Reads (round before) (.symbol closing :: rest) (.inr before) (.symbol closing :: rest))
    {elements : List ι}
    (each : ∀ x ∈ elements, ReadsElement round closing (tokens x) (value x)) (before : List α) :
    Reads (iterate round before)
      (Token.separated (elements.map tokens) ++ .symbol closing :: rest)
      (before ++ elements.map value) (.symbol closing :: rest) := by
  induction elements generalizing before with
  | nil =>
    rw [List.map_nil, List.map_nil, List.append_nil]
    exact .done (stop before rest)
  | cons x later ih =>
    have here := each x List.mem_cons_self
    cases later with
    | nil => exact .done (here.last before rest)
    | cons y later =>
      have rest' := ih (fun z mem => each z (List.mem_cons_of_mem _ mem)) (before ++ [value x])
      rw [List.append_assoc] at rest'
      refine .again ?_ ?_ rest'
      · rw [List.map_cons, List.map_cons, Token.separated, List.append_assoc, List.cons_append]
        exact here.more before _
      · simp [Token.separated]
        omega

end

theorem reads_passArgumentName (e : Expr) (noColon : firstKind us ≠ some (.symbol .colon)) :
    Reads Nested.passArgumentName (e.operandTokens ++ us) () (e.operandTokens ++ us) := by
  refine Reads.sees.bind (Reads.secondKind.bind ?_)
  cases atom : e.isAtom with
  | true =>
    obtain ⟨t, ht, _⟩ := Expr.tokens_atom atom
    rw [Expr.operandTokens_atom atom, ht]
    rw [if_neg]
    · exact .pure
    · rw [Bool.and_eq_true, not_and]
      exact fun _ second => noColon (beq_iff_eq.1 second)
  | false =>
    rw [Expr.operandTokens_compound atom, Token.grouped_append]
    exact .pure

theorem reads_argumentRound {args : List Expr} {r : List Expr ⊕ List Expr} (back : a.ReadsBack)
    (closing : Closing us) (noColon : firstKind us ≠ some (.symbol .colon))
    (ended : Reads (commaOrEnd (args ++ [a.reread])) us r rest) :
    Reads (phrases.argumentRound args) (a.operandTokens ++ us) r rest := by
  refine .ifUnseen (a.operandTokens_ne us rfl) (.ifRefused (a.operandTokens_ne us rfl) ?_)
  exact (reads_passArgumentName a noColon).bind ((reads_operandTokens back closing).bind ended)

theorem reads_arguments {args : List Expr} (back : ∀ e ∈ args, e.ReadsBack) :
    Reads phrases.arguments (Token.grouped (Token.separated (tokensOfArgs args)) ++ rest)
      (rereadArgs args) rest := by
  rw [Token.grouped_append, tokensOfArgs_eq_map, rereadArgs_eq_map]
  refine Reads.expect.bind (Reads.bind ?_ (Reads.expect.bind .pure))
  refine reads_separated (fun _ _ => .ifSeen rfl .pure) (fun e mem => ?_) []
  constructor
  · intro before rest
    exact reads_argumentRound (back e mem) (.cons rfl) (firstKind_cons_ne rfl)
      (.ifAccepted rfl .pure)
  · intro before rest
    exact reads_argumentRound (back e mem) (.cons rfl) (firstKind_cons_ne rfl)
      (.ifRefused (firstKind_cons_ne rfl) .pure)

theorem reads_arrayRound {items : List ArrayItem} {item : ArrayItem} {close : Symbol}
    {r : List ArrayItem ⊕ List ArrayItem} (unclosed : firstKind ts ≠ some (.symbol close))
    (noComma : firstKind ts ≠ some (.symbol .comma)) (element : Reads phrases.arrayItem ts item us)
    (ended : Reads (commaOrEnd (items ++ [item])) us r rest) :
    Reads (phrases.arrayRound close items) ts r rest :=
  .ifUnseen unclosed (.ifRefused noComma (element.bind ended))

/-- The tokens of an item, which neither a comma nor the end of the list can be taken for. -/
structure ReadsItem (close : Symbol) (ts : List Token) (item : ArrayItem) : Prop where
  unclosed : ∀ us, firstKind (ts ++ us) ≠ some (.symbol close)
  noComma : ∀ us, firstKind (ts ++ us) ≠ some (.symbol .comma)
  reads : ∀ us, Closing us → firstKind us ≠ some (.symbol .fatArrow) →
    Reads phrases.arrayItem (ts ++ us) item us

theorem ReadsItem.element {close : Symbol} {item : ArrayItem} (h : ReadsItem close ts item)
    (closes : (TokenKind.symbol close).closes = true)
    (noArrow : some (TokenKind.symbol close) ≠ some (.symbol .fatArrow))
    (noComma : some (TokenKind.symbol close) ≠ some (.symbol .comma)) :
    ReadsElement (phrases.arrayRound close) close ts item where
  more _ _ := reads_arrayRound (h.unclosed _) (h.noComma _)
    (h.reads _ (.cons rfl) (firstKind_cons_ne rfl)) (.ifAccepted rfl .pure)
  last _ _ := reads_arrayRound (h.unclosed _) (h.noComma _) (h.reads _ (.cons closes) noArrow)
    (.ifRefused noComma .pure)

theorem readsItem_operand (back : a.ReadsBack) :
    ReadsItem .rightParen a.operandTokens (.mk none a.reread false) where
  unclosed us := a.operandTokens_ne us rfl
  noComma us := a.operandTokens_ne us rfl
  reads us closing noArrow := by
    refine .ifRefused (a.operandTokens_ne us rfl) (.bind (.refuse (a.operandTokens_ne us rfl)) ?_)
    exact (reads_operandTokens back closing).bind (.ifRefused noArrow .pure)

theorem readsItem_tokens {item : ArrayItem} (written : item.IsWritten)
    (key : ∀ e, item.key = some e → e.ReadsBack) (back : item.value.ReadsBack) :
    ReadsItem .rightBracket item.tokens item.reread := by
  obtain ⟨_ | key, value, _ | _⟩ := item
  · refine ⟨fun us => value.tokens_ne us rfl, fun us => value.tokens_ne us rfl, ?_⟩
    intro us closing noArrow
    refine .ifRefused (value.tokens_ne us rfl) (.bind (.refuse (value.tokens_ne us rfl)) ?_)
    exact (back.closed closing).bind (.ifRefused noArrow .pure)
  · refine ⟨fun _ => firstKind_cons_ne rfl, fun _ => firstKind_cons_ne rfl,
      fun us closing _ => .ifAccepted rfl ?_⟩
    exact (back.closed closing).bind .pure
  · have key := key _ rfl
    refine ⟨fun us => ?_, fun us => ?_, fun us closing _ => ?_⟩
    all_goals rw [ArrayItem.tokens, List.append_assoc, List.cons_append]
    · exact Expr.tokens_ne _ _ rfl
    · exact Expr.tokens_ne _ _ rfl
    · refine .ifRefused (Expr.tokens_ne _ _ rfl) (.bind (.refuse (Expr.tokens_ne _ _ rfl)) ?_)
      refine (key.closed (.cons rfl)).bind (.ifAccepted rfl ?_)
      exact .bind (.refuse (value.tokens_ne us rfl)) ((back.closed closing).bind .pure)
  · cases written rfl

theorem reads_arrayItems {items : List ArrayItem} (written : ∀ item ∈ items, item.IsWritten)
    (keys : ∀ item ∈ items, ∀ e, item.key = some e → e.ReadsBack)
    (values : ∀ item ∈ items, item.value.ReadsBack) :
    Reads (phrases.arrayItems .rightBracket)
      (Token.separated (tokensOfItems items) ++ .symbol .rightBracket :: rest)
      (.array (rereadItems items)) rest := by
  rw [tokensOfItems_eq_map, rereadItems_eq_map]
  refine Reads.bind ?_ (Reads.expect.bind .pure)
  refine reads_separated (fun _ _ => .ifSeen rfl .pure) (fun item mem => ?_) []
  exact (readsItem_tokens (written item mem) (keys item mem) (values item mem)).element rfl
    nofun nofun

theorem reads_argumentItems {args : List Expr} (back : ∀ e ∈ args, e.ReadsBack) :
    Reads (phrases.arrayItems .rightParen)
      (Token.separated (tokensOfArgs args) ++ .symbol .rightParen :: rest)
      (.array ((rereadArgs args).map fun e => .mk none e false)) rest := by
  rw [tokensOfArgs_eq_map, rereadArgs_eq_map, List.map_map]
  refine Reads.bind ?_ (Reads.expect.bind .pure)
  refine reads_separated (fun _ _ => .ifSeen rfl .pure) (fun e mem => ?_) []
  exact (readsItem_operand (back e mem)).element rfl nofun nofun

theorem reads_formed (first : firstKind ts = some k) (unsigned : k.isSign = false)
    (noParen : (k == .symbol .leftParen) = false) (primary : Reads phrases.primary ts a rest)
    (closing : Closing rest) : Reads phrases.anyExpression ts a rest := by
  have noCast : NoCast ts := noCast_of_first fun same =>
    ne_of_beq_false noParen (Option.some.inj (first.symm.trans same))
  exact reads_expression (reads_operand first unsigned noCast primary closing.suffixes)
    closing.operators

theorem reads_suffixed (target : a.ReadsBack) (follows : Follows a us)
    (round : Reads (phrases.suffixRound a.reread) us (.inl b) rest)
    (shorter : rest.length < us.length) (closing : Closing rest) :
    Reads phrases.anyExpression (a.operandTokens ++ us) b rest :=
  reads_expression (reads_target target follows (.again round shorter closing.suffixes))
    closing.operators

theorem TokenKind.opensSuffix_of_infix {o : Infix} (h : Infix.ofKind? k = some o) :
    k.opensSuffix = false := by
  unfold opensSuffix
  split <;> first | rfl | cases h

theorem follows_operator {o : Infix} (h : Infix.ofKind? t.kind = some o) : Follows a (t :: us) := by
  have other : ∀ {k}, Infix.ofKind? k = none → firstKind (t :: us) ≠ some k := by
    intro k none same
    rw [Option.some.inj same, none] at h
    cases h
  exact ⟨other rfl, other rfl, fun _ => other rfl⟩

theorem Infix.continuesAt_lowest (o : Infix) : o.continuesAt .lowest = true := by
  cases o with
  | binary op => cases op <;> rfl
  | _ => rfl

theorem reads_operated {o : Infix} (lhs : a.ReadsBack) (operator : Infix.ofKind? t.kind = some o)
    (right : Reads (phrases.rightPart a.reread o) us b rest) (shorter : rest.length ≤ us.length)
    (closing : Closing rest) : Reads phrases.anyExpression (a.operandTokens ++ t :: us) b rest := by
  refine reads_expression (reads_target lhs (follows_operator operator)
    (suffixes_done rfl (TokenKind.opensSuffix_of_infix operator)))
    (.again (.kind rfl ?_) (Nat.lt_succ_of_le shorter) closing.operators)
  rw [Option.bind_some, operator]
  dsimp only
  rw [if_pos o.continuesAt_lowest]
  exact .advance (right.bind .pure)

theorem reads_arrayCall {callee : Expr} {args : List Expr} (array : callee.isArrayWord = true)
    (backs : ∀ e ∈ args, e.ReadsBack) (closing : Closing rest) :
    Reads phrases.anyExpression
      (callee.operandTokens ++ (Token.grouped (Token.separated (tokensOfArgs args)) ++ rest))
      (.array ((rereadArgs args).map fun e => .mk none e false)) rest := by
  cases callee with
  | constant name =>
    -- the name is printed as a word, as only `static` is printed as a keyword
    have folded : Text.foldCase name.written = "array" := beq_iff_eq.1 array
    have notStatic : name.written ≠ "static" := by
      intro static
      rw [static] at folded
      revert folded
      decide
    have word : (Expr.constant name).operandTokens = [.word name.written] := by
      rw [Expr.operandTokens_atom rfl, Expr.tokens, Token.ofName, if_neg notStatic]
    rw [word, Token.grouped_append]
    refine reads_formed rfl rfl rfl (.next (.advance ?_)) closing
    unfold Nested.wordExpression
    rw [folded]
    exact .ifAccepted rfl (reads_argumentItems backs)
  | _ => cases array

namespace Expr.ReadsBack

theorem atom {e : Expr} (atom : e.isAtom = true) (written : e.IsWritten) : e.ReadsBack where
  written := written
  closed {rest} closing := by
    obtain ⟨k, first, opens⟩ := e.operandTokens_opens rest
    have noCast := noCast_operandTokens e rest
    rw [operandTokens_atom atom] at first noCast
    exact reads_expression (reads_operand first (TokenKind.isSign_of_opensOperand opens) noCast
      (reads_atom atom written (closing.follows e)) closing.suffixes) closing.operators

theorem array {items : List ArrayItem} (written : ∀ item ∈ items, item.IsWritten)
    (keys : ∀ item ∈ items, ∀ e, item.key = some e → e.ReadsBack)
    (values : ∀ item ∈ items, item.value.ReadsBack) : (Expr.array items).ReadsBack where
  written := written
  closed {rest} closing := by
    refine reads_formed rfl rfl rfl ?_ closing
    rw [tokens, List.append_assoc]
    exact .next (.advance (reads_arrayItems written keys values))

theorem property {target : Expr} (back : target.ReadsBack) (name : String) (nullsafe : Bool) :
    (Expr.property target name nullsafe).ReadsBack where
  written := trivial
  closed {rest} closing := by
    rw [tokens, List.append_assoc, enclose_tokens]
    have member : Reads (phrases.memberAccess target.reread nullsafe)
        (.symbol (if nullsafe then .nullsafeArrow else .arrow) :: .member name :: rest)
        (.property target.reread name nullsafe) rest :=
      .advance ((Reads.memberName name).bind (.ifUnseen (closing.ne rfl) .pure))
    have shorter : rest.length < rest.length + 2 := Nat.lt_add_of_pos_right Nat.two_pos
    cases nullsafe <;>
      exact reads_suffixed back (follows_symbol rfl) (.kind rfl (member.bind .pure))
        shorter closing

theorem methodCall {target : Expr} {args : List Expr} (back : target.ReadsBack) (name : String)
    (backs : ∀ e ∈ args, e.ReadsBack) (nullsafe : Bool) :
    (Expr.methodCall target name args nullsafe).ReadsBack where
  written := trivial
  closed {rest} closing := by
    rw [tokens, List.append_assoc, enclose_tokens, List.cons_append, List.cons_append]
    have member : Reads (phrases.memberAccess target.reread nullsafe)
        (.symbol (if nullsafe then .nullsafeArrow else .arrow) :: .member name ::
          (Token.grouped (Token.separated (tokensOfArgs args)) ++ rest))
        (.methodCall target.reread name (rereadArgs args) nullsafe) rest :=
      .advance ((Reads.memberName name).bind (.ifSeen rfl ((reads_arguments backs).bind .pure)))
    cases nullsafe <;>
      exact reads_suffixed back (follows_symbol rfl) (.kind rfl (member.bind .pure))
        (by simp; omega) closing

theorem staticCall {owner : Name} {args : List Expr} (written : owner.IsConstant) (name : String)
    (backs : ∀ e ∈ args, e.ReadsBack) : (Expr.staticCall owner name args).ReadsBack where
  written := written
  closed {rest} closing := by
    have back : (Expr.constant owner).ReadsBack := .atom rfl written
    have member : Reads (phrases.staticAccess (.constant owner))
        (.symbol .doubleColon :: .member name ::
          (Token.grouped (Token.separated (tokensOfArgs args)) ++ rest))
        (.staticCall owner name (rereadArgs args)) rest :=
      .advance ((Reads.memberName name).bind (.ifSeen rfl ((reads_arguments backs).bind .pure)))
    exact reads_suffixed back (follows_symbol rfl) (.kind rfl (member.bind .pure))
      (by simp; omega) closing

theorem classConstant {owner : Name} (written : owner.IsConstant) (name : String) :
    (Expr.classConstant owner name).ReadsBack where
  written := written
  closed {rest} closing := by
    have back : (Expr.constant owner).ReadsBack := .atom rfl written
    have member : Reads (phrases.staticAccess (.constant owner))
        (.symbol .doubleColon :: .member name :: rest) (.classConstant owner name) rest :=
      .advance ((Reads.memberName name).bind (.ifUnseen (closing.ne rfl) .pure))
    exact reads_suffixed back (follows_symbol rfl) (.kind rfl (member.bind .pure))
      (Nat.lt_add_of_pos_right Nat.two_pos) closing

theorem call {callee : Expr} {args : List Expr} (back : callee.ReadsBack)
    (backs : ∀ e ∈ args, e.ReadsBack) : (Expr.call callee args).ReadsBack where
  written := trivial
  closed {rest} closing := by
    rw [tokens, List.append_assoc, enclose_tokens, reread, rereadCall, isArrayWord_reread]
    split
    · rename_i array
      exact reads_arrayCall array backs closing
    · rename_i noArray
      exact reads_suffixed back
        ⟨firstKind_cons_ne rfl, firstKind_cons_ne rfl, fun array => absurd array noArray⟩
        (.kind rfl ((reads_arguments backs).bind .pure)) (by simp [Token.grouped]; omega) closing

theorem new {owner : Name} {args : List Expr} (written : owner.IsWritten)
    (backs : ∀ e ∈ args, e.ReadsBack) : (Expr.new owner args).ReadsBack where
  written := written
  closed {rest} closing := by
    refine reads_formed rfl rfl rfl (.next (.advance ?_)) closing
    unfold Token.ofName
    split
    · rename_i static
      refine .next (.advance (Reads.pure.bind ?_))
      rw [← static, written]
      exact .ifSeen rfl ((reads_arguments backs).bind .pure)
    · refine .next (.advance (Reads.pure.bind ?_))
      rw [written]
      exact .ifSeen rfl ((reads_arguments backs).bind .pure)

theorem index (back : a.ReadsBack) : (Expr.index a none).ReadsBack where
  written := trivial
  closed {rest} closing := by
    rw [tokens, List.append_assoc, enclose_tokens]
    have index : Reads (phrases.indexing a.reread)
        (.symbol .leftBracket :: .symbol .rightBracket :: rest) (.index a.reread none) rest :=
      .advance (.ifSeen rfl (Reads.pure.bind (Reads.expect.bind .pure)))
    exact reads_suffixed back (follows_symbol rfl) (.kind rfl (index.bind .pure))
      (Nat.lt_add_of_pos_right Nat.two_pos) closing

theorem indexed (back : a.ReadsBack) (within : b.ReadsBack) :
    (Expr.index a (some b)).ReadsBack where
  written := trivial
  closed {rest} closing := by
    rw [tokens, List.append_assoc, List.append_assoc, enclose_tokens, List.cons_append]
    have index : Reads (phrases.indexing a.reread)
        (.symbol .leftBracket :: (b.tokens ++ .symbol .rightBracket :: rest))
        (.index a.reread (some b.reread)) rest :=
      .advance (.ifUnseen (b.tokens_ne _ rfl)
        ((within.closed (.cons rfl)).map.bind (Reads.expect.bind .pure)))
    exact reads_suffixed back (follows_symbol rfl) (.kind rfl (index.bind .pure))
      (by simp; omega) closing

theorem binary (op : BinaryOp) (lhs : a.ReadsBack) (rhs : b.ReadsBack) :
    (Expr.binary op a b).ReadsBack where
  written := trivial
  closed {rest} closing := by
    rw [tokens, List.append_assoc, enclose_tokens, enclose_tokens]
    have operator : Infix.ofKind? op.kind = some (.binary op) := by cases op <;> rfl
    exact reads_operated lhs operator ((reads_operandTokens rhs closing).bind .pure) (by simp)
      closing

theorem assign (target : a.ReadsBack) (value : b.ReadsBack) : (Expr.assign a b).ReadsBack where
  written := trivial
  closed {rest} closing := by
    rw [tokens, List.append_assoc, enclose_tokens, enclose_tokens]
    have right : Reads (phrases.rightPart a.reread .assign) (b.operandTokens ++ rest)
        (.assign a.reread b.reread) rest :=
      .bind (.refuse (b.operandTokens_ne rest rfl))
        ((reads_operandTokens value closing).bind .pure)
    exact reads_operated target rfl right (by simp) closing

theorem ternary (condition : a.ReadsBack) (otherwise : b.ReadsBack) :
    (Expr.ternary a none b).ReadsBack where
  written := trivial
  closed {rest} closing := by
    rw [tokens, List.append_assoc, enclose_tokens, enclose_tokens]
    have right : Reads (phrases.rightPart a.reread .ternary)
        (.symbol .colon :: (b.operandTokens ++ rest)) (.ternary a.reread none b.reread) rest :=
      .ifSeen rfl (Reads.pure.bind (Reads.expect.bind
        ((reads_operandTokens otherwise closing).bind .pure)))
    exact reads_operated condition rfl right (by simp; omega) closing

theorem fullTernary {middle : Expr} (condition : a.ReadsBack) (back : middle.ReadsBack)
    (otherwise : b.ReadsBack) : (Expr.ternary a (some middle) b).ReadsBack where
  written := trivial
  closed {rest} closing := by
    rw [tokens, List.append_assoc, List.append_assoc, enclose_tokens, enclose_tokens,
      enclose_tokens, List.cons_append]
    have right : Reads (phrases.rightPart a.reread .ternary)
        (middle.operandTokens ++ .symbol .colon :: (b.operandTokens ++ rest))
        (.ternary a.reread (some middle.reread) b.reread) rest :=
      .ifUnseen (middle.operandTokens_ne _ rfl) ((reads_operandTokens back (.cons rfl)).map.bind
        (Reads.expect.bind ((reads_operandTokens otherwise closing).bind .pure)))
    exact reads_operated condition rfl right (by simp; omega) closing

theorem unary (op : UnaryOp) (back : a.ReadsBack) : (Expr.unary op a).ReadsBack where
  written := trivial
  closed {rest} closing := by
    have inner : Reads (phrases.expression .unary) (a.operandTokens ++ rest) a.reread rest :=
      reads_operandTokens back closing
    cases op with
    | not => exact reads_expression (.kind rfl (.advance (inner.bind .pure))) closing.operators
    | neg => exact reads_expression (.kind rfl (.advance (inner.bind .pure))) closing.operators

end Expr.ReadsBack

end ResponseShape
