import ResponseShape.Proofs.Phrases

/-! What a parser makes of given tokens, rule by rule, and what the tokens of printed expressions
begin with. -/
namespace ResponseShape

def firstKind (tokens : List Token) : Option TokenKind := tokens.head?.map Token.kind

namespace Parser

variable {α β σ : Type}

/-- From the tokens `ts` the parser makes `a`, and it leaves `rest`. -/
def Reads (p : Parser α) (ts : List Token) (a : α) (rest : List Token) : Prop :=
  ∀ stop, p ⟨ts, stop⟩ = .ok (a, ⟨rest, stop⟩)

namespace Reads

variable {p : Parser α} {f g : Parser β} {a : α} {b : β} {t : Token} {ts us rest : List Token}

theorem pure : Reads (pure a) ts a ts := fun _ => rfl

theorem bind {f : α → Parser β} (h : Reads p ts a us) (next : Reads (f a) us b rest) :
    Reads (p >>= f) ts b rest := fun stop => by
  rw [bind_ok (h stop)]
  exact next stop

theorem map {f : α → β} (h : Reads p ts a rest) : Reads (f <$> p) ts (f a) rest :=
  bind (f := fun a => Pure.pure (f a)) h pure

theorem next {f : Option Token → Parser β} (next : Reads (f (some t)) (t :: ts) b rest) :
    Reads (next? >>= f) (t :: ts) b rest :=
  bind (p := next?) (fun _ => rfl) next

theorem kind {f : Option TokenKind → Parser β} {k : TokenKind} (h : firstKind ts = some k)
    (next : Reads (f (some k)) ts b rest) : Reads (kind? >>= f) ts b rest := by
  rw [← h] at next
  exact bind (p := kind?) (fun _ => rfl) next

theorem advance {f : Unit → Parser β} (next : Reads (f ()) ts b rest) :
    Reads (advance >>= f) (t :: ts) b rest :=
  bind (p := Parser.advance) (fun _ => rfl) next

theorem sees {k : TokenKind} : Reads (sees k) ts (firstKind ts == some k) ts := fun _ => rfl

theorem notAtEnd {k : TokenKind} (h : firstKind ts = some k) : Reads atEnd ts false ts := by
  intro stop
  cases ts with
  | nil => cases h
  | cons t ts => rfl

theorem secondKind : Reads secondKind? ts (firstKind ts.tail) ts := fun _ => rfl

theorem accept {k : TokenKind} (h : t.kind = k) : Reads (accept k) (t :: ts) true ts := by
  intro stop
  rw [accept_run]
  exact if_pos (congrArg some h)

theorem refuse {k : TokenKind} (h : firstKind ts ≠ some k) :
    Reads (Parser.accept k) ts false ts := by
  intro stop
  rw [accept_run]
  exact if_neg h

theorem ifSeen {k : TokenKind} (h : firstKind ts = some k) (next : Reads f ts b rest) :
    Reads (Parser.sees k >>= fun c => if c = true then f else g) ts b rest :=
  sees.bind (by rw [h, beq_self_eq_true]; exact next)

theorem ifUnseen {k : TokenKind} (h : firstKind ts ≠ some k) (next : Reads g ts b rest) :
    Reads (Parser.sees k >>= fun c => if c = true then f else g) ts b rest :=
  sees.bind (by rw [beq_false_of_ne h]; exact next)

theorem ifAccepted {k : TokenKind} (h : t.kind = k) (next : Reads f ts b rest) :
    Reads (Parser.accept k >>= fun c => if c = true then f else g) (t :: ts) b rest :=
  (accept h).bind next

theorem ifRefused {k : TokenKind} (h : firstKind ts ≠ some k) (next : Reads g ts b rest) :
    Reads (Parser.accept k >>= fun c => if c = true then f else g) ts b rest :=
  (refuse h).bind next

theorem expect {s : Symbol} {expectation : Expectation} :
    Reads (expect s expectation) (Token.symbol s :: ts) () ts :=
  ifAccepted rfl pure

theorem identifier {expectation : Expectation} {text : String} :
    Reads (identifier expectation) (Token.word text :: ts) text ts :=
  .next (.advance .pure)

theorem memberName {expectation : Expectation} (name : String) :
    Reads (memberName expectation) (Token.member name :: ts) name ts := by
  unfold Token.member
  split
  · rename_i rest h
    have whole : "$" ++ String.ofList rest = name := by
      rw [← String.toList_inj, h]
      simp
    have run : Reads (Parser.memberName expectation)
        (Token.ofKind (.var (String.ofList rest)) :: ts) ("$" ++ String.ofList rest) ts :=
      .next (.advance .pure)
    rwa [whole] at run
  · split
    · exact .next (.advance .pure)
    · exact .next (.advance .pure)

section
variable {round : σ → Parser (σ ⊕ α)} {state state' : σ}

theorem done (h : Reads (round state) ts (.inr a) rest) : Reads (iterate round state) ts a rest :=
  fun stop => iterate_done (h stop)

theorem again (h : Reads (round state) ts (.inl state') us) (shorter : us.length < ts.length)
    (next : Reads (iterate round state') us a rest) : Reads (iterate round state) ts a rest :=
  fun stop => (iterate_again (h stop) shorter).trans (next stop)

/-- Rounds over the printed elements of a list. Each puts its element behind those before it, and
the rounds go on. -/
theorem rounds {ι : Type} {tokens : ι → List Token} {elements : List ι} (states : List β → σ)
    (value : ι → β)
    (each : ∀ x ∈ elements, ∀ (before : List β) (later : List ι),
      Reads (iterate round (states (before ++ [value x]))) (later.flatMap tokens ++ us) a rest →
      Reads (iterate round (states before)) (tokens x ++ (later.flatMap tokens ++ us)) a rest)
    (before : List β)
    (last : Reads (iterate round (states (before ++ elements.map value))) us a rest) :
    Reads (iterate round (states before)) (elements.flatMap tokens ++ us) a rest := by
  induction elements generalizing before with
  | nil => rwa [List.map_nil, List.append_nil] at last
  | cons x later ih =>
    rw [List.map_cons, List.append_cons] at last
    rw [List.flatMap_cons, List.append_assoc]
    exact each x List.mem_cons_self before later
      (ih (fun y mem => each y (List.mem_cons_of_mem _ mem)) _ last)

end

end Reads

end Parser

namespace TokenKind

def opensOperand : TokenKind → Bool
  | string _ | interpolated _ | number _ | var _ | identifier | keyword .kwStatic
  | symbol .leftParen => true
  | _ => false

def opensExpression : TokenKind → Bool
  | keyword .kwNew | keyword .kwFn | keyword .kwFunction | symbol .leftBracket | symbol .bang
  | symbol .minus => true
  | k => k.opensOperand

/-- What stands behind a printed expression that is no operand. -/
def closes : TokenKind → Bool
  | symbol .comma | symbol .semicolon | symbol .colon | symbol .fatArrow | symbol .rightParen
  | symbol .rightBracket | symbol .rightBrace | keyword .kwAs => true
  | _ => false

def opensSuffix : TokenKind → Bool
  | symbol .arrow | symbol .nullsafeArrow | symbol .doubleColon | symbol .leftParen
  | symbol .leftBracket => true
  | _ => false

end TokenKind

theorem firstKind_cons_ne {t : Token} {ts : List Token} {k : TokenKind}
    (h : (t.kind == k) = false) : firstKind (t :: ts) ≠ some k :=
  fun same => ne_of_beq_false h (Option.some.inj same)

theorem firstKind_ne {p : TokenKind → Bool} {ts : List Token} {k : TokenKind}
    (first : ∃ k, firstKind ts = some k ∧ p k = true) (h : p k = false) :
    firstKind ts ≠ some k := by
  obtain ⟨k', first, holds⟩ := first
  rw [first]
  rintro ⟨⟩
  rw [holds] at h
  cases h

/-- The tokens that follow close the expression before them. -/
def Closing (rest : List Token) : Prop := ∃ k, firstKind rest = some k ∧ k.closes = true

theorem Closing.ne {rest : List Token} (closing : Closing rest) {k : TokenKind}
    (h : k.closes = false) : firstKind rest ≠ some k :=
  firstKind_ne closing h

theorem Closing.cons {s : Symbol} {ts : List Token}
    (h : (TokenKind.symbol s).closes = true) : Closing (.symbol s :: ts) :=
  ⟨_, rfl, h⟩

namespace Expr

theorem operandTokens_atom {e : Expr} (h : e.isAtom = true) : e.operandTokens = e.tokens :=
  if_pos h

theorem operandTokens_compound {e : Expr} (h : e.isAtom = false) :
    e.operandTokens = Token.grouped e.tokens :=
  if_neg (by rw [h]; exact nofun)

theorem enclose_tokens (e : Expr) : e.enclose e.tokens = e.operandTokens := rfl

theorem ofName_opens (n : Name) :
    (Token.ofName n).kind.opensOperand = true ∧ (Token.ofName n).kind ≠ .symbol .leftParen := by
  unfold Token.ofName
  split <;> exact ⟨rfl, nofun⟩

theorem tokens_atom {e : Expr} (h : e.isAtom = true) :
    ∃ t, e.tokens = [t] ∧ t.kind.opensOperand = true ∧ t.kind ≠ .symbol .leftParen := by
  cases e with
  | bool value => cases value <;> exact ⟨_, rfl, rfl, nofun⟩
  | constant name => exact ⟨_, rfl, ofName_opens name⟩
  | string _ | interpolated _ | number _ | null | var _ => exact ⟨_, rfl, rfl, nofun⟩
  | _ => cases h

theorem operandTokens_opens (e : Expr) (rest : List Token) :
    ∃ k, firstKind (e.operandTokens ++ rest) = some k ∧ k.opensOperand = true := by
  cases h : e.isAtom with
  | true =>
    obtain ⟨t, ht, opens, _⟩ := tokens_atom h
    rw [operandTokens_atom h, ht]
    exact ⟨_, rfl, opens⟩
  | false =>
    rw [operandTokens_compound h]
    exact ⟨_, rfl, rfl⟩

end Expr

theorem TokenKind.opensExpression_of_opensOperand {k : TokenKind} (h : k.opensOperand = true) :
    k.opensExpression = true := by
  unfold opensExpression
  split <;> first | rfl | exact h

namespace Expr

theorem tokens_opens (e : Expr) (rest : List Token) :
    ∃ k, firstKind (e.tokens ++ rest) = some k ∧ k.opensExpression = true := by
  have target : ∀ (e : Expr) (more : List Token), ∃ k,
      firstKind (e.enclose e.tokens ++ more ++ rest) = some k ∧ k.opensExpression = true := by
    intro e more
    obtain ⟨k, first, opens⟩ := e.operandTokens_opens (more ++ rest)
    rw [enclose_tokens, List.append_assoc]
    exact ⟨k, first, TokenKind.opensExpression_of_opensOperand opens⟩
  cases e with
  | property t _ _ | methodCall t _ _ _ | call t _ | binary _ t _ | assign t _ =>
    exact target t _
  | index t i =>
    cases i with
    | none => exact target t _
    | some i => rw [tokens, List.append_assoc (t.enclose _)]; exact target t _
  | ternary t m _ =>
    cases m with
    | none => exact target t _
    | some m => rw [tokens, List.append_assoc (t.enclose _)]; exact target t _
  | bool value => cases value <;> exact ⟨_, rfl, rfl⟩
  | constant name | staticCall name _ _ | classConstant name _ =>
    exact ⟨_, rfl, TokenKind.opensExpression_of_opensOperand (ofName_opens name).1⟩
  | unary op _ => cases op <;> exact ⟨_, rfl, rfl⟩
  | _ => exact ⟨_, rfl, rfl⟩

theorem tokens_ne (e : Expr) (rest : List Token) {k : TokenKind} (h : k.opensExpression = false) :
    firstKind (e.tokens ++ rest) ≠ some k :=
  firstKind_ne (e.tokens_opens rest) h

theorem operandTokens_ne (e : Expr) (rest : List Token) {k : TokenKind}
    (h : k.opensOperand = false) : firstKind (e.operandTokens ++ rest) ≠ some k :=
  firstKind_ne (e.operandTokens_opens rest) h

end Expr

end ResponseShape
