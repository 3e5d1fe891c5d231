import Mathlib.Data.List.Forall2
import ResponseShape.Proofs.Parsing
import ResponseShape.Proofs.Delimiters

/-! Two runs of a parser, on token streams that say the same. Positions and the texts of most tokens
only go into errors, so the runs stop alike, with the same answer or with errors both. -/
namespace ResponseShape

namespace Token

/-- The kinds agree, and so do the texts of words. -/
structure Alike (t t' : Token) : Prop where
  kind : t.kind = t'.kind
  word : t.kind = .identifier ∨ (∃ k, t.kind = .keyword k) → t.lexeme = t'.lexeme

theorem Alike.refl (t : Token) : t.Alike t := ⟨rfl, fun _ => rfl⟩

theorem Alike.symm {t t' : Token} (h : t.Alike t') : t'.Alike t :=
  ⟨h.kind.symm, fun word => (h.word (h.kind ▸ word)).symm⟩

end Token

namespace TokenStream

def Alike (s s' : TokenStream) : Prop := List.Forall₂ Token.Alike s.tokens s'.tokens

variable {s s' : TokenStream}

theorem Alike.refl (s : TokenStream) : s.Alike s := List.forall₂_same.2 fun t _ => .refl t

theorem Alike.symm (h : s.Alike s') : s'.Alike s :=
  List.Forall₂.flip (h.imp fun _ _ same => same.symm)

theorem Alike.left (h : s.Alike s') : s.left = s'.left := List.Forall₂.length_eq h

theorem Alike.dropFirst (h : s.Alike s') : s.dropFirst.Alike s'.dropFirst := by
  obtain ⟨tokens, stop⟩ := s
  obtain ⟨tokens', stop'⟩ := s'
  cases h with
  | nil => exact .nil
  | cons _ later => exact later

theorem Alike.head? (h : s.Alike s') :
    Option.Rel Token.Alike s.tokens.head? s'.tokens.head? := by
  obtain ⟨tokens, stop⟩ := s
  obtain ⟨tokens', stop'⟩ := s'
  cases h with
  | nil => exact .none
  | cons same _ => exact .some same

theorem Alike.map_kind (h : s.Alike s') : s.tokens.map Token.kind = s'.tokens.map Token.kind := by
  have kinds : List.Forall₂ (· = ·) (s.tokens.map Token.kind) (s'.tokens.map Token.kind) :=
    List.forall₂_map_left_iff.2 (List.forall₂_map_right_iff.2 (h.imp fun _ _ same => same.kind))
  rwa [List.forall₂_eq_eq_eq] at kinds

end TokenStream

namespace Parser

variable {α β σ : Type}

/-- Both runs fail, or both answer with one value and leave streams that say the same; what the
first has read is as `R` says. -/
def Answers (R : α → List Token → Prop) :
    Except ParseError (α × TokenStream) → Except ParseError (α × TokenStream) → Prop
  | .ok (a, rest), .ok (a', rest') => a = a' ∧ rest.Alike rest' ∧ R a rest.tokens
  | .error _, .error _ => True
  | _, _ => False

/-- Two parsers at two streams. -/
def Together (s s' : TokenStream) (R : α → List Token → Prop) (p q : Parser α) : Prop :=
  Answers R (p s) (q s')

namespace Together

variable {s s' : TokenStream} {R R' : α → List Token → Prop} {S : β → List Token → Prop}
  {p q : Parser α}

theorem pure (alike : s.Alike s') {a : α} (h : R a s.tokens) :
    Together s s' R (pure a) (pure a) :=
  ⟨rfl, alike, h⟩

theorem reject (expectation : Expectation) :
    Together s s' R (reject expectation) (Parser.reject expectation) := trivial

theorem failAt (position position' : Position) (fault fault' : Fault) :
    Together s s' R (failAt position fault) (Parser.failAt position' fault') := trivial

theorem mono (h : Together s s' R p q) (weaker : ∀ a rest, R a rest → R' a rest) :
    Together s s' R' p q := by
  unfold Together at h ⊢
  cases hp : p s <;> cases hq : q s' <;> rw [hp, hq] at h
  case ok.ok => exact ⟨h.1, h.2.1, weaker _ _ h.2.2⟩
  all_goals exact h

theorem bind {f g : α → Parser β} (h : Together s s' R p q)
    (next : ∀ a r r', r.Alike r' → R a r.tokens → Together r r' S (f a) (g a)) :
    Together s s' S (p >>= f) (q >>= g) := by
  unfold Together at h ⊢
  cases hp : p s with
  | error e =>
    rw [bind_error hp]
    cases hq : q s' with
    | error e' => rw [bind_error hq]; trivial
    | ok _ => rw [hp, hq] at h; exact h.elim
  | ok answer =>
    cases hq : q s' with
    | error e' => rw [hp, hq] at h; exact h.elim
    | ok answer' =>
      rw [hp, hq] at h
      obtain ⟨same, alike, known⟩ := h
      rw [bind_ok hp, bind_ok hq, ← same]
      exact next _ _ _ alike known

theorem answer (h : Together s s' R p q) {a : α} {rest : TokenStream} (run : p s = .ok (a, rest)) :
    ∃ rest', q s' = .ok (a, rest') ∧ rest.Alike rest' ∧ R a rest.tokens := by
  unfold Together at h
  rw [run] at h
  cases other : q s' with
  | error e =>
    rw [other] at h
    exact h.elim
  | ok r =>
    rw [other] at h
    obtain ⟨rfl, alike, known⟩ := h
    exact ⟨r.2, rfl, alike, known⟩

theorem with_run (h : Together s s' R p q) :
    Together s s' (fun a rest => R a rest ∧ ∃ stop, p s = .ok (a, ⟨rest, stop⟩)) p q := by
  unfold Together at h ⊢
  cases hp : p s <;> cases hq : q s' <;> rw [hp, hq] at h
  case ok.ok => exact ⟨h.1, h.2.1, h.2.2, _, rfl⟩
  all_goals exact h

theorem rejectThen (expectation : Expectation) {f g : β → Parser α} :
    Together s s' R (Parser.reject expectation >>= f) (Parser.reject expectation >>= g) :=
  bind (R := fun _ _ => False) (reject expectation) fun _ _ _ _ h => h.elim

theorem map {f : α → β} (h : Together s s' R p q) (next : ∀ a rest, R a rest → S (f a) rest) :
    Together s s' S (f <$> p) (f <$> q) := by
  have mapped : ∀ p : Parser α, f <$> p = p >>= fun a => Pure.pure (f a) := fun p => rfl
  rw [mapped p, mapped q]
  exact h.bind fun a _ _ alike known => .pure alike (next a _ known)

theorem look {a : β} {p q : Parser β} {f g : β → Parser α} (h : p s = .ok (a, s))
    (h' : q s' = .ok (a, s')) (next : Together s s' R (f a) (g a)) :
    Together s s' R (p >>= f) (q >>= g) := by
  unfold Together
  rw [bind_ok h, bind_ok h']
  exact next

theorem next {f g : Option Token → Parser α} (alike : s.Alike s')
    (ended : s.tokens = [] → Together s s' R (f none) (g none))
    (more : ∀ t t' ts, t.Alike t' → s.tokens = t :: ts →
      Together s s' R (f (some t)) (g (some t'))) :
    Together s s' R (next? >>= f) (next? >>= g) := by
  unfold Together
  rw [bind_ok (p := next?) rfl, bind_ok (p := next?) rfl]
  have heads := alike.head?
  cases h : s.tokens with
  | nil =>
    rw [h, List.head?_nil] at heads
    cases h' : s'.tokens.head? with
    | none => rw [List.head?_nil]; exact ended h
    | some t' => rw [h'] at heads; cases heads
  | cons t ts =>
    rw [h, List.head?_cons] at heads
    cases h' : s'.tokens.head? with
    | none => rw [h'] at heads; cases heads
    | some t' =>
      rw [h'] at heads
      cases heads with
      | some same => exact more t t' ts same h

theorem kind {f g : Option TokenKind → Parser α} (alike : s.Alike s')
    (ended : s.tokens = [] → Together s s' R (f none) (g none))
    (more : ∀ k ts, Next k s.tokens ts → Together s s' R (f (some k)) (g (some k))) :
    Together s s' R (kind? >>= f) (kind? >>= g) := by
  refine .next (f := fun o => f (o.map Token.kind)) (g := fun o => g (o.map Token.kind)) alike
    ended fun t t' ts same h => ?_
  rw [Option.map_some, Option.map_some, ← same.kind]
  exact more t.kind ts ⟨t, rfl, h⟩

theorem secondKind {f g : Option TokenKind → Parser α} (alike : s.Alike s')
    (more : ∀ o, (∀ t ts, s.tokens = t :: ts → o = ts.head?.map Token.kind) →
      Together s s' R (f o) (g o)) :
    Together s s' R (secondKind? >>= f) (secondKind? >>= g) := by
  have same : s.tokens.tail.head?.map Token.kind = s'.tokens.tail.head?.map Token.kind := by
    rw [← List.head?_map, ← List.head?_map, List.map_tail, List.map_tail, alike.map_kind]
  refine .look (p := secondKind?) (q := secondKind?) rfl (by rw [secondKind?, ← same])
    (more _ fun t ts h => ?_)
  rw [h, List.tail_cons]

theorem ask {P : List Token → Prop} {p : Parser Bool} {f g : Bool → Parser α}
    (run : ∀ s, ∃ b, p s = .ok (b, s) ∧ (b = true ↔ P s.tokens))
    (transfer : ∀ {ts ts'}, List.Forall₂ Token.Alike ts ts' → P ts → P ts') (alike : s.Alike s')
    (more : ∀ b, (b = true ↔ P s.tokens) → Together s s' R (f b) (g b)) :
    Together s s' R (p >>= f) (p >>= g) := by
  obtain ⟨b, here, known⟩ := run s
  obtain ⟨b', here', known'⟩ := run s'
  have same : b = b' := by
    rw [Bool.eq_iff_iff, known, known']
    exact ⟨transfer alike, transfer alike.symm⟩
  exact .look here (same ▸ here') (more b known)

theorem atEnd {f g : Bool → Parser α} (alike : s.Alike s')
    (more : ∀ b, (b = true ↔ s.tokens = []) → Together s s' R (f b) (g b)) :
    Together s s' R (atEnd >>= f) (Parser.atEnd >>= g) := by
  refine .ask (P := (· = [])) (fun s => ⟨_, rfl, List.isEmpty_iff⟩) ?_ alike more
  rintro ts ts' same rfl
  exact List.forall₂_nil_left_iff.1 same

theorem sees {k : TokenKind} {f g : Bool → Parser α} (alike : s.Alike s')
    (more : ∀ b, (b = true ↔ ∃ ts, Next k s.tokens ts) → Together s s' R (f b) (g b)) :
    Together s s' R (sees k >>= f) (Parser.sees k >>= g) := by
  refine .ask (P := fun ts => ∃ rest, Next k ts rest) (fun s => ⟨_, rfl, ?_⟩) ?_ alike more
  · rw [beq_iff_eq]
    constructor
    · intro seen
      obtain ⟨t, ht, kind⟩ := Option.map_eq_some_iff.1 seen
      obtain ⟨ts, hts⟩ := List.head?_eq_some_iff.1 ht
      exact ⟨ts, t, kind, hts⟩
    · rintro ⟨ts, t, kind, h⟩
      rw [h, List.head?_cons, Option.map_some, kind]
  · rintro _ _ same ⟨ts, t, kind, rfl⟩
    cases same with
    | cons same _ => exact ⟨_, _, same.kind ▸ kind, rfl⟩

theorem ifSees {k : TokenKind} {f f' g g' : Parser α} (alike : s.Alike s')
    (seen : ∀ ts, Next k s.tokens ts → Together s s' R f g) (other : Together s s' R f' g') :
    Together s s' R (Parser.sees k >>= fun b => if b = true then f else f')
      (Parser.sees k >>= fun b => if b = true then g else g') := by
  refine .sees alike fun b known => ?_
  cases b with
  | true =>
    obtain ⟨ts, here⟩ := known.1 rfl
    exact seen ts here
  | false => exact other

theorem pass (alike : s.Alike s') {k : TokenKind} {ts : List Token} (h : Next k s.tokens ts) :
    Together s s' (fun _ rest => rest = ts) advance advance := by
  refine ⟨rfl, alike.dropFirst, ?_⟩
  obtain ⟨t, _, h⟩ := h
  rw [TokenStream.dropFirst, h, List.tail_cons]

theorem advance {f g : Unit → Parser α} (alike : s.Alike s') {k : TokenKind} {ts : List Token}
    (h : Next k s.tokens ts)
    (next : ∀ r r', r.Alike r' → r.tokens = ts → Together r r' R (f ()) (g ())) :
    Together s s' R (advance >>= f) (Parser.advance >>= g) :=
  (pass alike h).bind fun _ => next

theorem ifAccept {k : TokenKind} {f f' g g' : Parser α} (alike : s.Alike s')
    (seen : ∀ r r', r.Alike r' → Next k s.tokens r.tokens → Together r r' R f g)
    (other : Together s s' R f' g') :
    Together s s' R (accept k >>= fun b => if b = true then f else f')
      (accept k >>= fun b => if b = true then g else g') := by
  unfold Together
  have run := accept_run k s
  have run' := accept_run k s'
  rw [← List.head?_map, ← alike.map_kind, List.head?_map] at run'
  by_cases h : s.tokens.head?.map Token.kind = some k
  · rw [if_pos h] at run run'
    rw [bind_ok run, bind_ok run']
    refine seen _ _ alike.dropFirst ?_
    obtain ⟨t, ht, kind⟩ := Option.map_eq_some_iff.1 h
    obtain ⟨ts, hts⟩ := List.head?_eq_some_iff.1 ht
    exact ⟨t, kind, by rw [TokenStream.dropFirst, hts, List.tail_cons]⟩
  · rw [if_neg h] at run run'
    rw [bind_ok run, bind_ok run']
    exact other

theorem mark (k : TokenKind) (alike : s.Alike s') :
    Together s s' (fun _ rest => Optionally (Next k) s.tokens rest) (accept k) (accept k) := by
  refine .ifSees alike (fun ts h => .advance alike h fun r r' alike' rest => ?_)
    (.pure alike (Or.inr rfl))
  exact .pure alike' (Or.inl (rest ▸ h))

theorem expect (k : Symbol) (expectation : Expectation) (alike : s.Alike s') :
    Together s s' (fun _ rest => Next (.symbol k) s.tokens rest) (expect k expectation)
      (Parser.expect k expectation) :=
  .ifAccept alike (fun _ _ alike' h => .pure alike' h) (.reject expectation)

theorem identifier (expectation : Expectation) (alike : s.Alike s') :
    Together s s' (fun _ rest => Next .identifier s.tokens rest) (identifier expectation)
      (Parser.identifier expectation) := by
  refine .next alike (fun _ => .reject expectation) fun t t' ts same h => ?_
  obtain ⟨k, lexeme, position⟩ := t
  obtain ⟨k', lexeme', position'⟩ := t'
  cases same.kind
  cases k with
  | identifier =>
    cases same.word (Or.inl rfl)
    refine .advance alike ⟨_, rfl, h⟩ fun r r' alike' rest => .pure alike' ?_
    rw [h, rest]
    exact ⟨_, rfl, rfl⟩
  | _ => exact .reject expectation

theorem memberName (expectation : Expectation) (alike : s.Alike s') :
    Together s s' (fun _ rest => NextPlain s.tokens rest) (memberName expectation)
      (Parser.memberName expectation) := by
  refine .next alike (fun _ => .reject expectation) fun t t' ts same h => ?_
  obtain ⟨k, lexeme, position⟩ := t
  obtain ⟨k', lexeme', position'⟩ := t'
  cases same.kind
  cases k with
  | identifier =>
    cases same.word (Or.inl rfl)
    refine .advance alike ⟨_, rfl, h⟩ fun r r' alike' rest => .pure alike' ?_
    rw [h, rest]
    exact ⟨_, rfl, rfl⟩
  | keyword k =>
    cases same.word (Or.inr ⟨k, rfl⟩)
    refine .advance alike ⟨_, rfl, h⟩ fun r r' alike' rest => .pure alike' ?_
    rw [h, rest]
    exact ⟨_, rfl, rfl⟩
  | var name =>
    refine .advance alike ⟨_, rfl, h⟩ fun r r' alike' rest => .pure alike' ?_
    rw [h, rest]
    exact ⟨_, rfl, rfl⟩
  | _ => exact .reject expectation

end Together

theorem closeGroup?_alike (opens closes : TokenKind → Bool) (depth : Nat) (last : TokenKind)
    {ts ts' : List Token} (h : List.Forall₂ Token.Alike ts ts') :
    Option.Rel (fun r r' => List.Forall₂ Token.Alike r.1 r'.1 ∧ List.Forall₂ Token.Alike r.2 r'.2)
      (closeGroup? opens closes depth last ts) (closeGroup? opens closes depth last ts') := by
  induction h generalizing depth last with
  | nil =>
    cases depth with
    | zero => exact .some ⟨.nil, .nil⟩
    | succ depth =>
      rw [closeGroup?]
      split
      · exact .some ⟨.nil, .nil⟩
      · exact .none
  | @cons t t' ts ts' same later ih =>
    cases depth with
    | zero => exact .some ⟨.nil, .cons same later⟩
    | succ depth =>
      rw [closeGroup?, closeGroup?, ← same.kind]
      split
      · exact ih _ _
      split
      · exact ih _ _
      · have inside := ih (depth + 1) t.kind
        revert inside
        generalize closeGroup? opens closes (depth + 1) t.kind ts = r
        generalize closeGroup? opens closes (depth + 1) t.kind ts' = r'
        intro inside
        cases inside with
        | none => exact .none
        | some both =>
          rw [Option.map_some, Option.map_some]
          split
          · exact .some ⟨.cons same both.1, both.2⟩
          · exact .some both

/-- A group is closed by counting, or it is still open where the tokens end, and the last token
closes a level. -/
theorem counted_of_closeGroup? {opens closes : TokenKind → Bool} {depth : Nat} {last : TokenKind}
    {ts inner rest : List Token}
    (h : closeGroup? opens closes depth last ts = some (inner, rest)) :
    Counted opens closes depth ts rest ∨
      rest = [] ∧ (∀ after, ¬Counted opens closes depth ts after) ∧
        closes ((ts.getLast?.map Token.kind).getD last) = true := by
  induction ts generalizing depth last inner with
  | nil =>
    cases depth with
    | zero =>
      cases h
      exact Or.inl (.closed [])
    | succ depth =>
      simp only [closeGroup?, Option.ite_none_right_eq_some] at h
      cases h.2
      refine Or.inr ⟨rfl, fun _ counted => ?_, h.1⟩
      cases counted
  | cons t ts ih =>
    have lastOf : (((t :: ts).getLast?.map Token.kind).getD last) =
        (ts.getLast?.map Token.kind).getD t.kind := by
      rw [List.getLast?_cons]
      cases ts.getLast? <;> rfl
    rw [lastOf]
    cases depth with
    | zero =>
      cases h
      exact Or.inl (.closed _)
    | succ depth =>
      simp only [closeGroup?] at h
      split at h
      next opening =>
        refine (ih h).imp (.opening opening)
          (And.imp_right (And.imp_left fun still after counted => ?_))
        cases counted <;> simp_all
      next notOpening =>
        rw [Bool.not_eq_true] at notOpening
        split at h
        next closing =>
          refine (ih h).imp (.closing notOpening closing)
            (And.imp_right (And.imp_left fun still after counted => ?_))
          cases counted <;> simp_all
        next notClosing =>
          rw [Bool.not_eq_true] at notClosing
          obtain ⟨⟨inner', after⟩, found, same⟩ := Option.map_eq_some_iff.1 h
          have ended : after = rest := by split at same <;> cases same <;> rfl
          subst ended
          refine (ih found).imp (.inside notOpening notClosing)
            (And.imp_right (And.imp_left fun still after counted => ?_))
          cases counted <;> simp_all

theorem passed_of_closeGroup? {opens closes : TokenKind → Bool} {first : TokenKind}
    {ts inner rest : List Token} (opening : closes first = false)
    (h : closeGroup? opens closes 1 first ts = some (inner, rest)) :
    Passed opens closes ts rest := by
  refine (counted_of_closeGroup? h).imp_right fun ⟨ended, unclosed, last⟩ => ⟨ended, unclosed, ?_⟩
  cases found : ts.getLast? with
  | none =>
    rw [found, Option.map_none, Option.getD_none, opening] at last
    cases last
  | some t =>
    rw [found, Option.map_some, Option.getD_some] at last
    exact ⟨t, rfl, last⟩

theorem group_cons (opens closes : TokenKind → Bool) (fault : Fault) (t : Token) (ts : List Token)
    (stop : Position) :
    group opens closes fault ⟨t :: ts, stop⟩ =
      match closeGroup? opens closes 1 t.kind ts with
      | none => .error ⟨fault, t.position⟩
      | some (inner, rest) => .ok (inner, ⟨rest, stop⟩) := rfl

namespace Together

variable {s s' : TokenStream} {R : α → List Token → Prop}

theorem group {opens closes : TokenKind → Bool} {fault : Fault} {f g : List Token → Parser α}
    (alike : s.Alike s')
    (next : ∀ t ts inner inner' r r', s.tokens = t :: ts →
      (closes t.kind = false → Passed opens closes ts r.tokens) →
      List.Forall₂ Token.Alike inner inner' → r.Alike r' →
      Together r r' R (f inner) (g inner')) :
    Together s s' R (group opens closes fault >>= f) (group opens closes fault >>= g) := by
  obtain ⟨tokens, stop⟩ := s
  obtain ⟨tokens', stop'⟩ := s'
  unfold Together
  cases alike with
  | nil =>
    rw [bind_error (p := Parser.group opens closes fault) rfl,
      bind_error (p := Parser.group opens closes fault) rfl]
    trivial
  | @cons t t' ts ts' same later =>
    have closed := closeGroup?_alike opens closes 1 t.kind later
    have run := group_cons opens closes fault t ts stop
    have run' := group_cons opens closes fault t' ts' stop'
    rw [← same.kind] at run'
    generalize h : closeGroup? opens closes 1 t.kind ts = found at run closed
    generalize closeGroup? opens closes 1 t.kind ts' = found' at run' closed
    cases closed with
    | none =>
      rw [bind_error run, bind_error run']
      trivial
    | some both =>
      rw [bind_ok run, bind_ok run']
      exact next t ts _ _ _ _ rfl (fun opening => passed_of_closeGroup? opening h) both.1 both.2

theorem passGroup {opening closing : Symbol} (apart : opening ≠ closing) (alike : s.Alike s') :
    Together s s' (fun _ rest => PassedGroup opening closing s.tokens rest)
      (passGroup opening closing) (Parser.passGroup opening closing) := by
  refine .ifSees alike (fun ts seen => .group alike ?_) (.reject _)
  intro t ts' _ _ r r' h passed _ alike'
  obtain ⟨t', kind, h'⟩ := seen
  cases h.symm.trans h'
  refine .pure alike' ⟨ts, ⟨t, kind, h⟩, passed ?_⟩
  rw [kind]
  exact beq_false_of_ne fun same => apart (TokenKind.symbol.inj same)

theorem passAttribute {ts : List Token} (alike : s.Alike s')
    (seen : Next (.symbol .attributeOpen) s.tokens ts) :
    Together s s'
      (fun _ rest => Relation.Comp (Next (.symbol .attributeOpen))
        (Passed opensBracket (· == .symbol .rightBracket)) s.tokens rest)
      passAttribute Parser.passAttribute := by
  refine .group alike ?_
  intro t ts' _ _ r r' h passed _ alike'
  obtain ⟨t', kind, h'⟩ := seen
  cases h.symm.trans h'
  exact .pure alike' ⟨ts, ⟨t, kind, h⟩, passed (kind ▸ rfl)⟩

theorem variables_alike {ts ts' : List Token} (h : List.Forall₂ Token.Alike ts ts') :
    ts.filterMap variableName? = ts'.filterMap variableName? := by
  induction h with
  | nil => rfl
  | @cons t t' ts ts' same _ ih =>
    have named : variableName? t = variableName? t' := by
      unfold variableName?
      rw [same.kind]
    rw [List.filterMap_cons, List.filterMap_cons, named, ih]

theorem parameters (alike : s.Alike s') :
    Together s s' (fun _ rest => PassedParameters s.tokens rest) parameters Parser.parameters := by
  refine .ifSees alike (fun ts seen => .group alike ?_) (.reject _)
  intro t ts' inner inner' r r' h passed same alike'
  obtain ⟨t', kind, h'⟩ := seen
  cases h.symm.trans h'
  rw [variables_alike same]
  exact .pure alike' ⟨ts, ⟨t, kind, h⟩, passed (kind ▸ rfl)⟩

end Together

theorem afterSemicolon?_alike (depth : Nat) {ts ts' : List Token}
    (h : List.Forall₂ Token.Alike ts ts') :
    Option.Rel (List.Forall₂ Token.Alike) (afterSemicolon? depth ts)
      (afterSemicolon? depth ts') := by
  induction h generalizing depth with
  | nil => exact .none
  | @cons t t' ts ts' same later ih =>
    rw [afterSemicolon?, afterSemicolon?, ← same.kind]
    split
    · exact ih _
    split
    · exact ih _
    split
    · exact .some later
    · exact ih _

theorem dropWhile_alike {p : TokenKind → Bool} {ts ts' : List Token}
    (h : List.Forall₂ Token.Alike ts ts') :
    List.Forall₂ Token.Alike (ts.dropWhile fun t => p t.kind)
      (ts'.dropWhile fun t => p t.kind) := by
  induction h with
  | nil => exact .nil
  | @cons t t' ts ts' same later ih =>
    rw [List.dropWhile_cons, List.dropWhile_cons, ← same.kind]
    split
    · exact ih
    · exact .cons same later

namespace Together

variable {s s' : TokenStream}

theorem passSemicolon (alike : s.Alike s') :
    Together s s' (fun _ rest => PassedSemicolon s.tokens rest) passSemicolon
      Parser.passSemicolon := by
  have found := afterSemicolon?_alike 0 alike
  unfold Together Parser.passSemicolon
  generalize h : afterSemicolon? 0 s.tokens = after at found
  generalize afterSemicolon? 0 s'.tokens = after' at found
  cases found with
  | none => trivial
  | some same => exact ⟨rfl, same, h⟩

theorem passTo (wanted : TokenKind → Bool) (expectation : Expectation) (alike : s.Alike s') :
    Together s s'
      (fun _ rest => PassedTo wanted s.tokens rest ∧ ∃ k ts, wanted k ∧ Next k rest ts)
      (passTo wanted expectation) (Parser.passTo wanted expectation) := by
  have dropped := dropWhile_alike (p := fun k => !wanted k) alike
  unfold Together Parser.passTo
  dsimp only
  have ends := List.head?_dropWhile_not (fun t : Token => !wanted t.kind) s.tokens
  cases h : s.tokens.dropWhile fun t => !wanted t.kind with
  | nil =>
    rw [h] at dropped
    rw [List.forall₂_nil_left_iff.1 dropped]
    trivial
  | cons t ts =>
    rw [h] at dropped ends
    cases h' : s'.tokens.dropWhile fun t => !wanted t.kind with
    | nil => rw [h'] at dropped; cases dropped
    | cons t' ts' =>
      rw [h'] at dropped
      refine ⟨rfl, dropped, h.symm, t.kind, ts, ?_, t, rfl, rfl⟩
      simpa using ends

theorem passReturnType (alike : s.Alike s') :
    Together s s' (fun _ rest => Optionally PassedReturnType s.tokens rest) passReturnType
      Parser.passReturnType := by
  refine .ifSees alike (fun ts seen => ?_) (.pure alike (Or.inr rfl))
  refine (passTo _ _ alike).mono fun _ rest ⟨passed, _⟩ => Or.inl ?_
  obtain ⟨t, kind, h⟩ := seen
  refine ⟨ts, ⟨t, kind, h⟩, ?_⟩
  rw [PassedTo, h, List.dropWhile_cons] at passed
  rw [kind] at passed
  exact passed

theorem below (n : Nat) {p q : Parser α} {R : α → List Token → Prop} (alike : s.Alike s')
    (read : s.left < n → Together s s' R p q) :
    Together s s' R (below n p) (Parser.below n q) := by
  unfold Together Parser.below
  rw [← alike.left]
  split
  · rename_i fewer
    exact read fewer
  · trivial

/-- A round goes on from a state as `I` says, or it ends with an answer as `D` says. -/
def Goes (I : σ → List Token → Prop) (D : α → List Token → Prop) : σ ⊕ α → List Token → Prop
  | .inl state, rest => I state rest
  | .inr a, rest => D a rest

theorem rounds {I : σ → List Token → Prop} {D : α → List Token → Prop}
    {round round' : σ → Parser (σ ⊕ α)}
    (each : ∀ state {r r'}, r.Alike r' → I state r.tokens →
      Together r r' (Goes I D) (round state) (round' state))
    (state : σ) (alike : s.Alike s') (known : I state s.tokens) :
    Together s s' D (iterate round state) (Parser.iterate round' state) := by
  -- both loops go on, stop or stall in the same round
  induction n : s.left using Nat.strongRecOn generalizing s s' state with
  | ind n ih =>
    subst n
    have here := each state alike known
    unfold Together at here ⊢
    cases answer : round state s with
    | error e =>
      rw [answer] at here
      cases answer' : round' state s' with
      | error e' => rw [iterate_error answer, iterate_error answer']; trivial
      | ok _ => rw [answer'] at here; exact here.elim
    | ok r =>
      obtain ⟨state', rest⟩ := r
      rw [answer] at here
      cases answer' : round' state s' with
      | error e' => rw [answer'] at here; exact here.elim
      | ok r' =>
        obtain ⟨state'', rest'⟩ := r'
        rw [answer'] at here
        obtain ⟨same, alike', read⟩ := here
        subst same
        cases state' with
        | inr a => rw [iterate_done answer, iterate_done answer']; exact ⟨rfl, alike', read⟩
        | inl state' =>
          by_cases shorter : rest.left < s.left
          · have shorter' : rest'.left < s'.left := alike'.left ▸ alike.left ▸ shorter
            rw [iterate_again answer shorter, iterate_again answer' shorter']
            exact ih rest.left shorter state' alike' read rfl
          · have stalls' : ¬rest'.left < s'.left := alike'.left ▸ alike.left ▸ shorter
            rw [Parser.iterate, answer, Parser.iterate, answer']
            dsimp only
            rw [if_neg shorter, if_neg stalls']
            trivial

/-- What a round reads is as `C` says if it goes on and as `D` says if it ends. -/
def Turns (C D : List Token → List Token → Prop) (ts : List Token) : σ ⊕ α → List Token → Prop
  | .inl _, rest => C ts rest
  | .inr _, rest => D ts rest

theorem iterate {C D : List Token → List Token → Prop}
    (compose : ∀ {ts ts' ts''}, C ts ts' → D ts' ts'' → D ts ts'')
    {round round' : σ → Parser (σ ⊕ α)}
    (each : ∀ state {r r'}, r.Alike r' →
      Together r r' (Turns C D r.tokens) (round state) (round' state))
    (state : σ) (alike : s.Alike s') :
    Together s s' (fun _ rest => D s.tokens rest) (iterate round state)
      (Parser.iterate round' state) := by
  refine .rounds (I := fun _ ts => ∀ rest, D ts rest → D s.tokens rest) ?_ state alike fun _ => id
  intro state r r' alike before
  refine (each state alike).mono fun turn rest read => ?_
  cases turn with
  | inl state' => exact fun last later => before last (compose read later)
  | inr a => exact before rest read

end Together

end Parser

end ResponseShape
