import ResponseShape.Grammar.Skip

/-! Two parsers compared at one stream, with what is known of the answer. Answers that tell of
missing progress are ruled out with every rule, so a parser that follows them never stalls. -/
namespace ResponseShape

namespace TokenStream

theorem left_dropFirst_le (s : TokenStream) : s.dropFirst.left ≤ s.left := by
  simp [TokenStream.left, TokenStream.dropFirst]

theorem left_dropFirst_lt {s : TokenStream} (h : 0 < s.left) : s.dropFirst.left < s.left := by
  simp only [TokenStream.left, TokenStream.dropFirst, List.length_tail] at h ⊢
  omega

end TokenStream

namespace Parser

variable {α β σ : Type} {s rest : TokenStream}

theorem bind_ok {p : Parser α} {a : α} (h : p s = .ok (a, rest)) (f : α → Parser β) :
    (p >>= f) s = f a rest := by
  simp [Bind.bind, StateT.bind, h, Except.bind]

theorem bind_error {p : Parser α} {e : ParseError} (h : p s = .error e) (f : α → Parser β) :
    (p >>= f) s = .error e := by
  simp [Bind.bind, StateT.bind, h, Except.bind]

theorem exists_of_bind_ok {p : Parser α} {f : α → Parser β} {b : β}
    (run : (p >>= f) s = .ok (b, rest)) :
    ∃ a s₁, p s = .ok (a, s₁) ∧ f a s₁ = .ok (b, rest) := by
  cases h : p s with
  | error e => rw [bind_error h] at run; cases run
  | ok answer => exact ⟨answer.1, answer.2, rfl, (bind_ok h f).symm.trans run⟩

theorem accept_run (k : TokenKind) (s : TokenStream) :
    accept k s = if s.tokens.head?.map Token.kind = some k then .ok (true, s.dropFirst)
      else .ok (false, s) := by
  rw [accept, bind_ok (p := sees k) rfl]
  by_cases h : s.tokens.head?.map Token.kind = some k
  · rw [if_pos h, if_pos (beq_iff_eq.2 h)]
    rfl
  · rw [if_neg h, if_neg (fun seen => h (beq_iff_eq.1 seen))]
    rfl

theorem left_pos_of_head? {k : TokenKind} (h : s.tokens.head?.map Token.kind = some k) :
    0 < s.left := by
  obtain ⟨t, ht, _⟩ := Option.map_eq_some_iff.1 h
  obtain ⟨ts, hts⟩ := List.head?_eq_some_iff.1 ht
  simp [TokenStream.left, hts]

section
variable {round : σ → Parser (σ ⊕ α)} {state : σ}

theorem iterate_error {e : ParseError} (h : round state s = .error e) :
    iterate round state s = .error e := by
  rw [iterate, h]

theorem iterate_done {a : α} (h : round state s = .ok (.inr a, rest)) :
    iterate round state s = .ok (a, rest) := by
  rw [iterate, h]

theorem iterate_again {state' : σ} (h : round state s = .ok (.inl state', rest))
    (shorter : rest.left < s.left) : iterate round state s = iterate round state' rest := by
  rw [iterate, h]
  exact if_pos shorter

theorem exists_of_iterate_ok {a : α} (run : iterate round state s = .ok (a, rest)) :
    round state s = .ok (.inr a, rest) ∨
      ∃ state' s', round state s = .ok (.inl state', s') ∧ s'.left < s.left ∧
        iterate round state' s' = .ok (a, rest) := by
  unfold iterate at run
  split at run
  · cases run
  · cases run
    exact Or.inl ‹_›
  · split at run
    · exact Or.inr ⟨_, _, ‹_›, ‹_›, run⟩
    · cases run

theorem map_run (f : α → β) (p : Parser α) (s : TokenStream) :
    (f <$> p) s = (p s).map (Prod.map f id) := by
  change (p s >>= fun r => Except.ok (f r.1, r.2)) = _
  cases p s with
  | error e => rfl
  | ok r => rfl

theorem iterate_map {τ : Type} {round' : τ → Parser (τ ⊕ β)} {f : τ → σ} {g : β → α}
    (inStep : ∀ state, round (f state) = Sum.map f g <$> round' state) (state : τ)
    (s : TokenStream) :
    iterate round (f state) s = (iterate round' state s).map (Prod.map g id) := by
  have step (state : τ) (s : TokenStream) :
      round (f state) s = (round' state s).map (Prod.map (Sum.map f g) id) := by
    rw [inStep, map_run]
  fun_induction iterate round' state s with
  | case1 state s e failed => exact iterate_error (by rw [step, failed]; rfl)
  | case2 state s b rest done => exact iterate_done (by rw [step, done]; rfl)
  | case3 state s state' rest again shorter ih =>
    rw [iterate_again (by rw [step, again]; rfl) shorter]
    exact ih
  | case4 state s state' rest again stalled =>
    rw [iterate, step, again]
    exact if_neg stalled

end

def commaOrEnd (elements : List α) : Parser (List α ⊕ List α) := do
  if ← acceptSymbol .comma then return .inl elements
  return .inr elements

theorem length_le_of_closeGroup? {opens closes : TokenKind → Bool} {depth : Nat}
    {last : TokenKind} {tokens inner after : List Token}
    (h : closeGroup? opens closes depth last tokens = some (inner, after)) :
    after.length ≤ tokens.length := by
  induction tokens generalizing depth last inner with
  | nil =>
    cases depth with
    | zero => cases h; exact Nat.le_refl _
    | succ depth =>
      simp only [closeGroup?, Option.ite_none_right_eq_some] at h
      cases h.2
      exact Nat.le_refl _
  | cons t tokens ih =>
    cases depth with
    | zero => cases h; exact Nat.le_refl _
    | succ depth =>
      simp only [closeGroup?] at h
      split at h
      · exact Nat.le_succ_of_le (ih h)
      · split at h
        · exact Nat.le_succ_of_le (ih h)
        · obtain ⟨⟨inner', after'⟩, found, same⟩ := Option.map_eq_some_iff.1 h
          split at same <;> cases same <;> exact Nat.le_succ_of_le (ih found)

theorem length_lt_of_afterSemicolon? {depth : Nat} {tokens after : List Token}
    (h : afterSemicolon? depth tokens = some after) : after.length < tokens.length := by
  induction tokens generalizing depth with
  | nil => cases h
  | cons t tokens ih =>
    rw [afterSemicolon?] at h
    split at h
    · exact Nat.lt_succ_of_lt (ih h)
    · split at h
      · exact Nat.lt_succ_of_lt (ih h)
      · split at h
        · cases h
          exact Nat.lt_succ_self _
        · exact Nat.lt_succ_of_lt (ih h)

/-- What is asked of an answer: a value and the tokens behind it are as `R` says, or an error
tells of something other than missing progress. -/
def Outcome (R : α → TokenStream → Prop) : Except ParseError (α × TokenStream) → Prop
  | .ok (a, rest) => R a rest
  | .error e => e.fault ≠ .stalled

/-- The value has a property, and fewer than `n` tokens are left behind it. -/
def Fewer (n : Nat) (P : α → Prop) (a : α) (rest : TokenStream) : Prop := rest.left < n ∧ P a

/-- At the stream `s` the parser `p` answers as `q` does, and the answer is as `R` says. -/
structure SameAt (s : TokenStream) (R : α → TokenStream → Prop) (p q : Parser α) : Prop where
  same : p s = q s
  outcome : Outcome R (q s)

namespace SameAt

variable {R R' : α → TokenStream → Prop} {S : β → TokenStream → Prop} {p q : Parser α}

theorem refl (h : Outcome R (p s)) : SameAt s R p p := ⟨rfl, h⟩

theorem mono (h : SameAt s R p q) (weaker : ∀ a rest, R a rest → R' a rest) :
    SameAt s R' p q := by
  refine ⟨h.same, ?_⟩
  have outcome := h.outcome
  cases answer : q s with
  | error e => rw [answer] at outcome; exact outcome
  | ok r => rw [answer] at outcome; exact weaker r.1 r.2 outcome

theorem pure {a : α} (h : R a s) : SameAt s R (pure a) (pure a) := ⟨rfl, h⟩

theorem reject (expectation : Expectation) :
    SameAt s R (reject expectation) (Parser.reject expectation) :=
  .refl (by simp [Parser.reject, Outcome])

theorem step {a : α} {f g : α → Parser β} (h : p s = .ok (a, rest))
    (next : SameAt rest S (f a) (g a)) : SameAt s S (p >>= f) (p >>= g) :=
  ⟨by rw [bind_ok h, bind_ok h, next.same], by rw [bind_ok h]; exact next.outcome⟩

theorem bind {f g : α → Parser β} (h : SameAt s R p q)
    (next : ∀ a rest, R a rest → SameAt rest S (f a) (g a)) :
    SameAt s S (p >>= f) (q >>= g) := by
  have outcome := h.outcome
  cases answer : q s with
  | error e =>
    rw [answer] at outcome
    exact ⟨by rw [bind_error (h.same.trans answer), bind_error answer],
      by rw [bind_error answer]; exact outcome⟩
  | ok r =>
    rw [answer] at outcome
    have later := next r.1 r.2 outcome
    exact ⟨by rw [bind_ok (h.same.trans answer), bind_ok answer, later.same],
      by rw [bind_ok answer]; exact later.outcome⟩

theorem rejectThen (expectation : Expectation) {f g : β → Parser α} :
    SameAt s R (Parser.reject expectation >>= f) (Parser.reject expectation >>= g) :=
  bind (R := fun _ _ => False) (reject expectation) fun _ _ => False.elim

theorem map {f : α → β} (h : SameAt s R p q) (next : ∀ a rest, R a rest → S (f a) rest) :
    SameAt s S (f <$> p) (f <$> q) := by
  have mapped : ∀ p : Parser α, f <$> p = p >>= fun a => Pure.pure (f a) := fun p => rfl
  rw [mapped p, mapped q]
  exact h.bind fun a rest known => .pure (next a rest known)

theorem kind {f g : Option TokenKind → Parser α} (ended : SameAt s R (f none) (g none))
    (next : ∀ k, 0 < s.left → SameAt s R (f (some k)) (g (some k))) :
    SameAt s R (kind? >>= f) (kind? >>= g) := by
  refine step (p := kind?) rfl ?_
  cases h : s.tokens.head?.map Token.kind with
  | none => exact ended
  | some k => exact next k (left_pos_of_head? h)

theorem next {f g : Option Token → Parser α} (ended : SameAt s R (f none) (g none))
    (next : ∀ t, 0 < s.left → SameAt s R (f (some t)) (g (some t))) :
    SameAt s R (next? >>= f) (next? >>= g) := by
  refine step (p := next?) rfl ?_
  cases h : s.tokens.head? with
  | none => exact ended
  | some t => exact next t (left_pos_of_head? (k := t.kind) (by rw [h]; rfl))

theorem ifSees {k : TokenKind} {f f' g g' : Parser α}
    (seen : 0 < s.left → SameAt s R f g) (other : SameAt s R f' g') :
    SameAt s R (sees k >>= fun b => if b = true then f else f')
      (sees k >>= fun b => if b = true then g else g') := by
  refine step (p := sees k) rfl ?_
  by_cases h : s.tokens.head?.map Token.kind = some k
  · rw [if_pos (beq_iff_eq.2 h), if_pos (beq_iff_eq.2 h)]
    exact seen (left_pos_of_head? h)
  · rw [if_neg (fun seen => h (beq_iff_eq.1 seen)), if_neg (fun seen => h (beq_iff_eq.1 seen))]
    exact other

theorem ifAccept {k : TokenKind} {f f' g g' : Parser α}
    (seen : ∀ rest, rest.left < s.left → SameAt rest R f g) (other : SameAt s R f' g') :
    SameAt s R (accept k >>= fun b => if b = true then f else f')
      (accept k >>= fun b => if b = true then g else g') := by
  have run := accept_run k s
  by_cases h : s.tokens.head?.map Token.kind = some k
  · rw [if_pos h] at run
    exact step run (seen _ (TokenStream.left_dropFirst_lt (left_pos_of_head? h)))
  · rw [if_neg h] at run
    exact step run other

theorem advance {f g : Unit → Parser α} (more : 0 < s.left)
    (next : ∀ rest, rest.left < s.left → SameAt rest R (f ()) (g ())) :
    SameAt s R (advance >>= f) (Parser.advance >>= g) :=
  step (p := Parser.advance) rfl (next _ (TokenStream.left_dropFirst_lt more))

theorem pass :
    SameAt s (fun _ rest => rest.left ≤ s.left) Parser.advance Parser.advance :=
  .refl s.left_dropFirst_le

theorem mark (k : TokenKind) :
    SameAt s (fun _ rest => rest.left ≤ s.left) (accept k) (accept k) := by
  refine .refl ?_
  rw [accept_run]
  split
  · exact s.left_dropFirst_le
  · exact Nat.le_refl _

theorem expect (k : Symbol) (expectation : Expectation) :
    SameAt s (fun _ rest => rest.left < s.left) (expect k expectation)
      (Parser.expect k expectation) :=
  .ifAccept (fun _ shorter => .pure shorter) (.reject expectation)

theorem identifier (expectation : Expectation) :
    SameAt s (fun _ rest => rest.left < s.left) (identifier expectation)
      (Parser.identifier expectation) := by
  refine .next (.reject expectation) fun t more => ?_
  split
  · exact .advance more fun _ shorter => .pure shorter
  · exact .reject expectation

theorem memberName (expectation : Expectation) :
    SameAt s (fun _ rest => rest.left < s.left) (memberName expectation)
      (Parser.memberName expectation) := by
  refine .next (.reject expectation) fun t more => ?_
  split
  · exact .advance more fun _ shorter => .pure shorter
  · exact .advance more fun _ shorter => .pure shorter
  · exact .advance more fun _ shorter => .pure shorter
  · exact .reject expectation

theorem group (opens closes : TokenKind → Bool) (fault : Fault) (told : fault ≠ .stalled) :
    SameAt s (fun _ rest => rest.left < s.left) (group opens closes fault)
      (Parser.group opens closes fault) := by
  refine .refl ?_
  obtain ⟨tokens, stop⟩ := s
  unfold Parser.group
  cases tokens with
  | nil => exact told
  | cons t tokens =>
    dsimp only
    split
    · exact told
    · rename_i inner after h
      exact Nat.lt_succ_of_le (length_le_of_closeGroup? h)

theorem passGroup (opening closing : Symbol) :
    SameAt s (fun _ rest => rest.left < s.left) (passGroup opening closing)
      (Parser.passGroup opening closing) := by
  refine .ifSees (fun _ => ?_) (.reject _)
  exact (group _ _ .unbalancedDelimiters nofun).bind fun _ _ shorter => .pure shorter

theorem passAttribute :
    SameAt s (fun _ rest => rest.left < s.left) passAttribute Parser.passAttribute :=
  (group _ _ .unterminatedAttribute nofun).bind fun _ _ shorter => .pure shorter

theorem parameters :
    SameAt s (fun _ rest => rest.left < s.left) parameters Parser.parameters := by
  refine .ifSees (fun _ => ?_) (.reject _)
  exact (group _ _ .unterminatedParameters nofun).bind fun _ _ shorter => .pure shorter

theorem passSemicolon :
    SameAt s (fun _ rest => rest.left < s.left) passSemicolon Parser.passSemicolon := by
  refine .refl ?_
  rw [Parser.passSemicolon]
  cases h : afterSemicolon? 0 s.tokens with
  | none => exact nofun
  | some after => exact length_lt_of_afterSemicolon? h

theorem passTo (wanted : TokenKind → Bool) (expectation : Expectation) :
    SameAt s (fun _ rest => rest.left ≤ s.left) (passTo wanted expectation)
      (Parser.passTo wanted expectation) := by
  refine .refl ?_
  unfold Parser.passTo
  dsimp only
  split
  · exact nofun
  · exact (List.dropWhile_sublist _).length_le

theorem passReturnType :
    SameAt s (fun _ rest => rest.left ≤ s.left) passReturnType Parser.passReturnType :=
  .ifSees (fun _ => .passTo _ _) (.pure (Nat.le_refl _))

/-- What is asked of a round: it goes on behind fewer tokens, from a state as `I` says, or it ends
with a value as `P` says. -/
def Round (s : TokenStream) (I : σ → Prop) (P : α → Prop) : σ ⊕ α → TokenStream → Prop
  | .inl state, rest => rest.left < s.left ∧ I state
  | .inr a, rest => rest.left ≤ s.left ∧ P a

theorem commaOrEnd {I : List α → Prop} {later : TokenStream} {elements : List α}
    (known : I elements) (shorter : later.left < s.left) :
    SameAt later (Round s I I) (commaOrEnd elements) (Parser.commaOrEnd elements) :=
  .ifAccept (fun _ h => .pure ⟨Nat.lt_trans h shorter, known⟩)
    (.pure ⟨Nat.le_of_lt shorter, known⟩)

theorem iterate {I : σ → Prop} {P : α → Prop} {round round' : σ → Parser (σ ⊕ α)}
    (each : ∀ state s', s'.left ≤ s.left → I state →
      SameAt s' (Round s' I P) (round state) (round' state))
    {state : σ} (known : I state) :
    SameAt s (Fewer (s.left + 1) P) (iterate round state) (Parser.iterate round' state) := by
  -- every round but the last leaves fewer tokens, so the two loops go on or stop together
  induction n : s.left using Nat.strongRecOn generalizing s state with
  | ind n ih =>
    subst n
    have here := each state s (Nat.le_refl _) known
    have outcome := here.outcome
    cases answer : round' state s with
    | error e =>
      rw [answer] at outcome
      exact ⟨by rw [iterate_error (here.same.trans answer), iterate_error answer],
        by rw [iterate_error answer]; exact outcome⟩
    | ok r =>
      obtain ⟨state' | a, rest⟩ := r
      · rw [answer] at outcome
        obtain ⟨shorter, known'⟩ := outcome
        have later := ih rest.left shorter
          (fun st s' le => each st s' (Nat.le_trans le (Nat.le_of_lt shorter))) known' rfl
        have later := later.mono fun _ _ fewer =>
          And.intro (Nat.lt_trans fewer.1 (Nat.succ_lt_succ shorter)) fewer.2
        refine ⟨?_, ?_⟩
        · rw [iterate_again (here.same.trans answer) shorter, iterate_again answer shorter,
            later.same]
        · rw [iterate_again answer shorter]
          exact later.outcome
      · rw [answer] at outcome
        exact ⟨by rw [iterate_done (here.same.trans answer), iterate_done answer],
          by rw [iterate_done answer]; exact ⟨Nat.lt_succ_of_le outcome.1, outcome.2⟩⟩

end SameAt

end Parser

end ResponseShape
