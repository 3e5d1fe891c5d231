import ResponseShape.Proofs.Reading
import ResponseShape.Proofs.Together

/-! Two runs of a parser on token streams that differ in their ends only. A run that leaves tokens
in front of the end has not read it, and gives one answer for both. Main statement: `Local.bind`. -/
namespace ResponseShape

namespace TokenStream

/-- The streams end in `x` and in `x'`, and the tokens in front are the same. -/
def Beside (x : List Token) (x' s s' : TokenStream) : Prop :=
  ∃ front, s.tokens = front ++ x ∧ s' = ⟨front ++ x'.tokens, x'.stop⟩

namespace Beside

variable {x : List Token} {x' s s' : TokenStream}

theorem mk (front : List Token) (stop : Position) :
    Beside x x' ⟨front ++ x, stop⟩ ⟨front ++ x'.tokens, x'.stop⟩ :=
  ⟨front, rfl, rfl⟩

theorem left (h : Beside x x' s s') : s.left + x'.left = s'.left + x.length := by
  obtain ⟨front, tokens, rfl⟩ := h
  simp only [TokenStream.left, tokens, List.length_append]
  omega

theorem tokens_of_left (h : Beside x x' s s') (atEnd : s.left = x.length) :
    s.tokens = x ∧ s' = x' := by
  obtain ⟨front, tokens, rfl⟩ := h
  rw [TokenStream.left, tokens, List.length_append, Nat.add_eq_right, List.length_eq_zero_iff]
    at atEnd
  subst atEnd
  exact ⟨tokens, rfl⟩

theorem exists_cons (h : Beside x x' s s') (before : x.length < s.left) :
    ∃ t front, s.tokens = t :: (front ++ x) ∧ s' = ⟨t :: (front ++ x'.tokens), x'.stop⟩ := by
  obtain ⟨front, tokens, rfl⟩ := h
  cases front with
  | nil => rw [TokenStream.left, tokens] at before; exact (Nat.lt_irrefl _ before).elim
  | cons t front => exact ⟨t, front, tokens, rfl⟩

theorem head? (h : Beside x x' s s') (before : x.length < s.left) :
    s'.tokens.head? = s.tokens.head? := by
  obtain ⟨t, front, tokens, rfl⟩ := h.exists_cons before
  rw [tokens]
  rfl

/-- The second stream begins as the first does, or it has nothing but its end. -/
theorem firstKind_or (h : Beside x x' s s') :
    firstKind s'.tokens = firstKind s.tokens ∨ s' = x' := by
  obtain ⟨front, tokens, rfl⟩ := h
  cases front with
  | nil => exact Or.inr rfl
  | cons t front => exact Or.inl (by rw [tokens]; rfl)

theorem dropFirst (h : Beside x x' s s') (before : x.length < s.left) :
    Beside x x' s.dropFirst s'.dropFirst := by
  obtain ⟨t, front, tokens, rfl⟩ := h.exists_cons before
  refine ⟨front, ?_, rfl⟩
  rw [TokenStream.dropFirst, tokens, List.tail_cons]

end Beside

end TokenStream

open TokenStream (Beside)

namespace Parser

variable {α β σ : Type} {x : List Token} {x' s : TokenStream} {reads spare : Nat}

/-- A run of `p` at `s` reads at least so many tokens. If it leaves so many in front of the end `x`,
then `q` gives its answer where the end is `x'`. -/
def Local (x : List Token) (x' s : TokenStream) (reads spare : Nat) (p q : Parser α) : Prop :=
  ∀ a r, p s = .ok (a, r) → r.left + reads ≤ s.left ∧
    (x.length + spare ≤ r.left →
      ∀ s', Beside x x' s s' → ∃ r', q s' = .ok (a, r') ∧ Beside x x' r r')

namespace Local

variable {p q : Parser α}

theorem pure (a : α) : Local x x' s 0 spare (pure a) (pure a) := by
  rintro _ _ ⟨⟩
  exact ⟨Nat.le_refl _, fun _ s' beside => ⟨s', rfl, beside⟩⟩

theorem stays {a : α} (run : p s = .ok (a, s))
    (run' : x.length + spare ≤ s.left → ∀ s', Beside x x' s s' → q s' = .ok (a, s')) :
    Local x x' s 0 spare p q := by
  intro b r here
  cases run.symm.trans here
  exact ⟨Nat.le_refl _, fun inside s' beside => ⟨s', run' inside s' beside, beside⟩⟩

theorem pureThen {a : β} {f g : β → Parser α} (next : Local x x' s reads spare (f a) (g a)) :
    Local x x' s reads spare (Pure.pure a >>= f) (Pure.pure a >>= g) := by
  rwa [pure_bind, pure_bind]

theorem fails (h : ∀ r, p s ≠ .ok r) : Local x x' s reads spare p q :=
  fun a r run => (h (a, r) run).elim

theorem reject (expectation : Expectation) :
    Local x x' s reads spare (reject (α := α) expectation) (Parser.reject expectation) :=
  fails fun _ run => nomatch run

theorem weaken {reads' spare' : Nat} (h : Local x x' s reads' spare' p q)
    (fewer : reads ≤ reads') (more : spare' ≤ spare) : Local x x' s reads spare p q := by
  intro a r run
  obtain ⟨read, same⟩ := h a r run
  exact ⟨by omega, fun room => same (by omega)⟩

theorem of_run {p' : Parser α} (h : Local x x' s reads spare p' q) (same : p s = p' s) :
    Local x x' s reads spare p q :=
  fun a r run => h a r (same.symm.trans run)

theorem forget (h : Local x x' s reads spare p q) : Local x x' s 0 spare p q :=
  h.weaken (Nat.zero_le _) (Nat.le_refl _)

theorem inside (h : Local x x' s reads 0 p q) : Local x x' s reads spare p q :=
  h.weaken (Nat.le_refl _) (Nat.zero_le _)

theorem ahead {reads₁ spare₁ : Nat} {f g : α → Parser β} (h : Local x x' s reads₁ spare₁ p q)
    (room : spare₁ ≤ spare + (reads - reads₁))
    (next : ∀ a r, Local x x' r (reads - reads₁) spare (f a) (g a)) :
    Local x x' s reads spare (p >>= f) (q >>= g) := by
  intro b r run
  obtain ⟨a, s₁, first, second⟩ := exists_of_bind_ok run
  obtain ⟨read₁, same₁⟩ := h a s₁ first
  obtain ⟨read₂, same₂⟩ := next a s₁ b r second
  refine ⟨by omega, fun inside s' beside => ?_⟩
  obtain ⟨s₁', first', beside₁⟩ := same₁ (by omega) s' beside
  obtain ⟨r', second', beside₂⟩ := same₂ inside s₁' beside₁
  exact ⟨r', (bind_ok first' g).trans second', beside₂⟩

theorem bind {reads₁ : Nat} {f g : α → Parser β} (h : Local x x' s reads₁ 0 p q)
    (next : ∀ a r, Local x x' r (reads - reads₁) spare (f a) (g a)) :
    Local x x' s reads spare (p >>= f) (q >>= g) :=
  h.ahead (Nat.zero_le _) next

theorem rejectThen (expectation : Expectation) {f g : β → Parser α} :
    Local x x' s reads spare (Parser.reject expectation >>= f) (Parser.reject expectation >>= g) :=
  fails fun _ run => nomatch (bind_error (p := Parser.reject expectation) rfl f).symm.trans run

theorem map {f : α → β} (h : Local x x' s reads spare p q) :
    Local x x' s reads spare (f <$> p) (f <$> q) := by
  have mapped : ∀ p : Parser α, f <$> p = p >>= fun a => Pure.pure (f a) := fun _ => rfl
  rw [mapped p, mapped q]
  refine h.ahead (by omega) fun a r => ?_
  rw [Nat.sub_self]
  exact .pure (f a)

theorem ite {b : Bool} {f f' g g' : Parser α} (yes : b = true → Local x x' s reads spare f g)
    (no : Local x x' s reads spare f' g') :
    Local x x' s reads spare (if b = true then f else f') (if b = true then g else g') := by
  cases b with
  | true => exact yes rfl
  | false => exact no

/-- A step that looks at the next tokens. It sees the same in both streams, or what follows reads so
much that the run does not end in front of the end. -/
theorem look {look : TokenStream → β} {f g : β → Parser α}
    (next : Local x x' s reads spare (f (look s)) (g (look s)))
    (same : ∀ a r, f (look s) s = .ok (a, r) → x.length + spare ≤ r.left →
      ∀ s', Beside x x' s s' → look s' = look s) :
    Local x x' s reads spare ((fun s => .ok (look s, s) : Parser β) >>= f)
      ((fun s => .ok (look s, s) : Parser β) >>= g) := by
  intro a r run
  rw [bind_ok (p := fun s => .ok (look s, s)) rfl] at run
  obtain ⟨read, later⟩ := next a r run
  refine ⟨read, fun inside s' beside => ?_⟩
  rw [bind_ok (p := fun s => .ok (look s, s)) rfl, same a r run inside s' beside]
  exact later inside s' beside

theorem nextIs {f g : Option Token → Parser α} {t : Token} (room : 1 ≤ spare + reads)
    (known : s.tokens.head? = some t)
    (more : Local x x' s reads spare (f (some t)) (g (some t))) :
    Local x x' s reads spare (next? >>= f) (next? >>= g) := by
  rw [← known] at more
  refine .look more fun a r run inside s' beside => beside.head? ?_
  have := (more a r run).1
  omega

theorem next {f g : Option Token → Parser α} (room : 1 ≤ spare + reads)
    (ended : Local x x' s reads spare (f none) (g none))
    (more : ∀ t, 0 < s.left → Local x x' s reads spare (f (some t)) (g (some t))) :
    Local x x' s reads spare (next? >>= f) (next? >>= g) := by
  cases h : s.tokens.head? with
  | some t => exact .nextIs room h (more t (left_pos_of_head? (k := t.kind) (by rw [h]; rfl)))
  | none =>
    rw [← h] at ended
    refine .look ended fun a r run inside s' beside => beside.head? ?_
    have := (ended a r run).1
    omega

theorem kind {f g : Option TokenKind → Parser α} (room : 1 ≤ spare + reads)
    (ended : Local x x' s reads spare (f none) (g none))
    (more : ∀ k, 0 < s.left → Local x x' s reads spare (f (some k)) (g (some k))) :
    Local x x' s reads spare (kind? >>= f) (kind? >>= g) :=
  .next (f := fun o => f (o.map Token.kind)) (g := fun o => g (o.map Token.kind)) room ended
    fun t => more t.kind

theorem kindIs {f g : Option TokenKind → Parser α} {k : TokenKind} (room : 1 ≤ spare + reads)
    (known : firstKind s.tokens = some k)
    (more : Local x x' s reads spare (f (some k)) (g (some k))) :
    Local x x' s reads spare (kind? >>= f) (kind? >>= g) := by
  obtain ⟨t, first, rfl⟩ := Option.map_eq_some_iff.1 known
  exact .nextIs (f := fun o => f (o.map Token.kind)) (g := fun o => g (o.map Token.kind)) room first
    more

theorem secondKind {f g : Option TokenKind → Parser α} (room : 2 ≤ spare + reads)
    (more : ∀ o, Local x x' s reads spare (f o) (g o)) :
    Local x x' s reads spare (secondKind? >>= f) (secondKind? >>= g) := by
  refine .look (more _) fun a r run inside s' beside => ?_
  have := (more _ a r run).1
  have second := (beside.dropFirst (by omega)).head? ?_
  · exact congrArg (Option.map Token.kind) second
  · rw [TokenStream.left, TokenStream.dropFirst, List.length_tail, ← TokenStream.left]
    omega

theorem atEnd {f g : Bool → Parser α} (room : 1 ≤ spare + reads)
    (more : ∀ b, Local x x' s reads spare (f b) (g b)) :
    Local x x' s reads spare (atEnd >>= f) (Parser.atEnd >>= g) := by
  refine .look (more _) fun a r run inside s' beside => ?_
  have := (more _ a r run).1
  obtain ⟨t, front, tokens, rfl⟩ := beside.exists_cons (by omega)
  rw [tokens]
  rfl

theorem sees {k : TokenKind} {f g : Bool → Parser α}
    (room : 1 ≤ spare + reads ∨ firstKind x ≠ some k ∧ firstKind x'.tokens ≠ some k)
    (more : ∀ b, (b = true → 0 < s.left) → Local x x' s reads spare (f b) (g b)) :
    Local x x' s reads spare (sees k >>= f) (Parser.sees k >>= g) := by
  have here := more (firstKind s.tokens == some k) fun seen => left_pos_of_head? (beq_iff_eq.1 seen)
  refine .look here fun a r run inside s' beside => ?_
  have := (here a r run).1
  by_cases before : x.length < s.left
  · exact congrArg (fun o => o.map Token.kind == some k) (beside.head? before)
  · obtain ⟨unseen, unseen'⟩ := room.resolve_left (by omega)
    obtain ⟨tokens, rfl⟩ := beside.tokens_of_left (by omega)
    rw [tokens]
    exact (beq_false_of_ne unseen').trans (beq_false_of_ne unseen).symm

theorem ifSees {k : TokenKind} {f f' g g' : Parser α} (room : 1 ≤ spare + reads)
    (seen : 0 < s.left → Local x x' s reads spare f g) (other : Local x x' s reads spare f' g') :
    Local x x' s reads spare (Parser.sees k >>= fun b => if b = true then f else f')
      (Parser.sees k >>= fun b => if b = true then g else g') :=
  .sees (.inl room) fun _ more => .ite (fun next => seen (more next)) other

/-- There is room for looking ahead, or neither end begins with such a token. -/
theorem ifSeesInside {k : TokenKind} {f f' g g' : Parser α}
    (unseen : 1 ≤ spare + reads ∨ firstKind x ≠ some k ∧ firstKind x'.tokens ≠ some k)
    (seen : 0 < s.left → Local x x' s reads spare f g) (other : Local x x' s reads spare f' g') :
    Local x x' s reads spare (Parser.sees k >>= fun b => if b = true then f else f')
      (Parser.sees k >>= fun b => if b = true then g else g') :=
  .sees unseen fun _ more => .ite (fun next => seen (more next)) other

theorem advance {f g : Unit → Parser α} (more : 0 < s.left)
    (next : ∀ r, r.left + 1 = s.left → Local x x' r (reads - 1) spare (f ()) (g ())) :
    Local x x' s reads spare (advance >>= f) (Parser.advance >>= g) := by
  intro a r run
  rw [bind_ok (p := Parser.advance) rfl] at run
  have shorter : s.dropFirst.left + 1 = s.left := by
    simp only [TokenStream.left, TokenStream.dropFirst, List.length_tail] at more ⊢
    omega
  obtain ⟨read, same⟩ := next s.dropFirst shorter a r run
  refine ⟨by omega, fun inside s' beside => ?_⟩
  rw [bind_ok (p := Parser.advance) rfl]
  exact same inside _ (beside.dropFirst (by omega))

theorem pass : Local x x' s 0 1 Parser.advance Parser.advance := by
  rintro _ _ ⟨⟩
  have le := s.left_dropFirst_le
  exact ⟨le, fun inside s' beside => ⟨_, rfl, beside.dropFirst (by omega)⟩⟩

theorem ifAccept_eq {k : TokenKind} (f f' : Parser α) :
    (accept k >>= fun b => if b = true then f else f') =
      Parser.sees k >>= fun b => if b = true then (Parser.advance >>= fun _ => f) else f' := by
  rw [accept, bind_assoc]
  congr 1
  funext b
  cases b <;> rfl

theorem ifAccept {k : TokenKind} {f f' g g' : Parser α} (room : 1 ≤ spare + reads)
    (seen : ∀ r, r.left + 1 = s.left → Local x x' r (reads - 1) spare f g)
    (other : Local x x' s reads spare f' g') :
    Local x x' s reads spare (accept k >>= fun b => if b = true then f else f')
      (accept k >>= fun b => if b = true then g else g') := by
  rw [ifAccept_eq, ifAccept_eq]
  exact .ifSees room (fun more => .advance more seen) other

theorem ifAcceptInside {k : TokenKind} {f f' g g' : Parser α}
    (unseen : 1 ≤ spare + reads ∨ firstKind x ≠ some k ∧ firstKind x'.tokens ≠ some k)
    (seen : ∀ r, r.left + 1 = s.left → Local x x' r (reads - 1) spare f g)
    (other : Local x x' s reads spare f' g') :
    Local x x' s reads spare (accept k >>= fun b => if b = true then f else f')
      (accept k >>= fun b => if b = true then g else g') := by
  rw [ifAccept_eq, ifAccept_eq]
  exact .ifSeesInside unseen (fun more => .advance more seen) other

theorem mark (k : TokenKind) : Local x x' s 0 1 (accept k) (accept k) :=
  .ifSees (by decide) (fun more => .advance more fun _ _ => .pure true) (.pure false)

theorem expect (k : Symbol) (expectation : Expectation) :
    Local x x' s 1 0 (expect k expectation) (Parser.expect k expectation) :=
  .ifAccept (by decide) (fun _ _ => .pure ()) (.reject expectation)

theorem identifier (expectation : Expectation) :
    Local x x' s 1 0 (identifier expectation) (Parser.identifier expectation) := by
  refine .next (by decide) (.reject expectation) fun t more => ?_
  split
  · exact .advance more fun _ _ => .pure _
  · exact .reject expectation

theorem memberName (expectation : Expectation) :
    Local x x' s 1 0 (memberName expectation) (Parser.memberName expectation) := by
  refine .next (by decide) (.reject expectation) fun t more => ?_
  split
  · exact .advance more fun _ _ => .pure _
  · exact .advance more fun _ _ => .pure _
  · exact .advance more fun _ _ => .pure _
  · exact .reject expectation

end Local

theorem length_lt_of_closeGroup? {opens closes : TokenKind → Bool} {depth : Nat}
    {last : TokenKind} {tokens inner after : List Token}
    (h : closeGroup? opens closes (depth + 1) last tokens = some (inner, after))
    (more : tokens ≠ []) : after.length < tokens.length := by
  obtain ⟨t, later, rfl⟩ := List.exists_cons_of_ne_nil more
  simp only [closeGroup?] at h
  split at h
  · exact Nat.lt_succ_of_le (length_le_of_closeGroup? h)
  split at h
  · exact Nat.lt_succ_of_le (length_le_of_closeGroup? h)
  · obtain ⟨⟨inner', after'⟩, found, same⟩ := Option.map_eq_some_iff.1 h
    split at same <;> cases same <;> exact Nat.lt_succ_of_le (length_le_of_closeGroup? found)

theorem closeGroup?_beside {opens closes : TokenKind → Bool} (more : x ≠ []) (y : List Token)
    {depth : Nat} {last : TokenKind} {front inner after : List Token}
    (h : closeGroup? opens closes depth last (front ++ x) = some (inner, after))
    (inside : x.length ≤ after.length) :
    ∃ back, after = back ++ x ∧
      closeGroup? opens closes depth last (front ++ y) = some (inner, back ++ y) := by
  induction front generalizing depth last inner with
  | nil =>
    cases depth with
    | zero =>
      rw [closeGroup?] at h
      cases h
      exact ⟨[], rfl, by rw [closeGroup?, List.nil_append]⟩
    | succ depth => exact (Nat.not_lt.2 inside (length_lt_of_closeGroup? h more)).elim
  | cons t front ih =>
    cases depth with
    | zero => cases h; exact ⟨t :: front, rfl, rfl⟩
    | succ depth =>
      simp only [List.cons_append, closeGroup?] at h ⊢
      split at h
      next opening => rw [if_pos opening]; exact ih h
      next opening =>
        rw [if_neg opening]
        split at h
        next closing => rw [if_pos closing]; exact ih h
        next closing =>
          rw [if_neg closing]
          obtain ⟨⟨inner', after'⟩, found, same⟩ := Option.map_eq_some_iff.1 h
          have ended : after' = after := by split at same <;> cases same <;> rfl
          subst ended
          obtain ⟨back, rfl, found'⟩ := ih found
          refine ⟨back, rfl, ?_⟩
          rw [found', Option.map_some]
          by_cases outermost : depth = 0
          · rw [if_pos outermost] at same ⊢
            cases same
            rfl
          · rw [if_neg outermost] at same ⊢
            cases same
            rfl

namespace Local

theorem group {opens closes : TokenKind → Bool} {fault : Fault} (more : x ≠ []) :
    Local x x' s 1 0 (group opens closes fault) (Parser.group opens closes fault) := by
  obtain ⟨tokens, stop⟩ := s
  cases tokens with
  | nil => exact fails fun _ run => nomatch run
  | cons t tokens =>
    intro inner r run
    rw [group_cons] at run
    split at run
    next => cases run
    next inner' after found =>
      cases run
      have shorter := length_le_of_closeGroup? found
      refine ⟨Nat.succ_le_succ shorter, fun inside s' beside => ?_⟩
      have before : x.length < (⟨t :: tokens, stop⟩ : TokenStream).left :=
        Nat.lt_succ_of_le (Nat.le_trans inside shorter)
      obtain ⟨t', front, same, rfl⟩ := beside.exists_cons before
      cases same
      obtain ⟨back, rfl, found'⟩ := closeGroup?_beside more x'.tokens found inside
      refine ⟨⟨back ++ x'.tokens, x'.stop⟩, ?_, .mk back stop⟩
      rw [group_cons, found']

theorem passGroup (opening closing : Symbol) (more : x ≠ []) :
    Local x x' s 1 0 (passGroup opening closing) (Parser.passGroup opening closing) := by
  refine .ifSees (by decide) (fun _ => ?_) (.reject _)
  exact (group more).bind fun _ _ => .pure ()

theorem parameters (more : x ≠ []) :
    Local x x' s 1 0 parameters Parser.parameters := by
  refine .ifSees (by decide) (fun _ => ?_) (.reject _)
  exact (group more).bind fun _ _ => .pure _

theorem passTo (wanted : TokenKind → Bool) (expectation : Expectation) :
    Local x x' s 0 1 (passTo wanted expectation) (Parser.passTo wanted expectation) := by
  intro _ r run
  unfold Parser.passTo at run ⊢
  dsimp only at run ⊢
  split at run
  · cases run
  cases run
  refine ⟨(List.dropWhile_sublist _).length_le, fun inside s' beside => ?_⟩
  obtain ⟨front, tokens, rfl⟩ := beside
  dsimp only [TokenStream.left] at inside
  rw [tokens, List.dropWhile_append] at inside
  split at inside
  · have := (List.dropWhile_sublist (l := x) fun t => !wanted t.kind).length_le
    omega
  next more =>
    have kept : ∀ y, (front ++ y).dropWhile (fun t => !wanted t.kind) =
        front.dropWhile (fun t => !wanted t.kind) ++ y := fun y => by
      rw [List.dropWhile_append, if_neg more]
    rw [tokens, kept, kept]
    refine ⟨_, if_neg ?_, .mk _ _⟩
    rw [List.isEmpty_iff] at more ⊢
    exact List.append_ne_nil_of_left_ne_nil more _

theorem passReturnType : Local x x' s 0 1 passReturnType Parser.passReturnType :=
  .ifSees (by decide) (fun _ => .passTo _ _) (.pure ())

section
variable {round round' : σ → Parser (σ ⊕ α)}

theorem below (n : Nat) {p q : Parser α} (read : s.left < n → Local x x' s reads spare p q) :
    Local x x' s reads spare (below n p) q := by
  intro a r run
  unfold Parser.below at run
  split at run
  next fewer => exact read fewer a r run
  next => cases run

theorem iterate (each : ∀ state s, Local x x' s 0 spare (round state) (round' state))
    (state : σ) : Local x x' s 0 spare (iterate round state) (Parser.iterate round' state) := by
  intro a r run
  fun_induction Parser.iterate round state s with
  | case1 state s e failed => cases run
  | case2 state s answer rest done =>
    cases run
    obtain ⟨read, same⟩ := each state s _ _ done
    refine ⟨read, fun inside s' beside => ?_⟩
    obtain ⟨r', done', beside'⟩ := same inside s' beside
    exact ⟨r', iterate_done done', beside'⟩
  | case3 state s state' rest again shorter ih =>
    obtain ⟨read, same⟩ := each state s _ _ again
    obtain ⟨read', same'⟩ := ih run
    refine ⟨by omega, fun inside s' beside => ?_⟩
    obtain ⟨rest', again', beside'⟩ := same (by omega) s' beside
    have := beside.left
    have := beside'.left
    rw [iterate_again again' (by omega)]
    exact same' inside rest' beside'
  | case4 => cases run

/-- A loop that reads on until its last round has read the end of what it repeats. -/
theorem iterateToEnd (each : ∀ state s, Local x x' s 1 1 (round state) (round' state))
    (last : ∀ state s a r, round state s = .ok (.inr a, r) → x.length ≤ r.left →
      ∀ s', Beside x x' s s' → ∃ r', round' state s' = .ok (.inr a, r') ∧ Beside x x' r r')
    (state : σ) : Local x x' s 1 0 (Parser.iterate round state) (Parser.iterate round' state) := by
  intro a r run
  fun_induction Parser.iterate round state s with
  | case1 state s e failed => cases run
  | case2 state s answer rest done =>
    cases run
    refine ⟨(each state s _ _ done).1, fun inside s' beside => ?_⟩
    obtain ⟨r', done', beside'⟩ := last state s _ _ done inside s' beside
    exact ⟨r', iterate_done done', beside'⟩
  | case3 state s state' rest again shorter ih =>
    obtain ⟨read, same⟩ := each state s _ _ again
    obtain ⟨read', same'⟩ := ih run
    refine ⟨by omega, fun inside s' beside => ?_⟩
    obtain ⟨rest', again', beside'⟩ := same (by omega) s' beside
    have := beside.left
    have := beside'.left
    rw [iterate_again again' (by omega)]
    exact same' inside rest' beside'
  | case4 => cases run

end

end Local

end Parser

end ResponseShape
