import ResponseShape.Proofs.Nesting
import ResponseShape.Proofs.Spans

/-! How many braces are open along the tokens. What is read as a part of a method body may close more
braces than it opens, since a return type takes in all tokens up to the body behind it; but if it
closes as many as it opens, then it closes only those that it has opened. Main statement:
`Spans.block_ends`. -/
namespace ResponseShape

open Relation (Comp)

/-- What a token adds to the number of open braces. -/
def TokenKind.brace : TokenKind → Int
  | .symbol .leftBrace => 1
  | .symbol .rightBrace => -1
  | _ => 0

def braceDepth : List Token → Int
  | [] => 0
  | t :: ts => t.kind.brace + braceDepth ts

@[simp] theorem braceDepth_nil : braceDepth [] = 0 := rfl

@[simp] theorem braceDepth_cons (t : Token) (ts : List Token) :
    braceDepth (t :: ts) = t.kind.brace + braceDepth ts := rfl

@[simp] theorem braceDepth_append (ts us : List Token) :
    braceDepth (ts ++ us) = braceDepth ts + braceDepth us := by
  induction ts with
  | nil => simp
  | cons t ts ih => simp [ih, Int.add_assoc]

namespace TokenKind

variable {k : TokenKind}

theorem brace_of_isPlain (plain : k.isPlain = true) : k.brace = 0 := by
  unfold brace
  split
  · cases plain
  · cases plain
  · rfl

theorem brace_of_closing? {c : Symbol} (h : k.closing? = some c) :
    0 ≤ k.brace ∧ (symbol c).brace = -k.brace := by
  unfold closing? at h
  split at h <;> cases h <;> decide

theorem brace_le (other : k ≠ .symbol .leftBrace) : k.brace ≤ 0 := by
  unfold brace
  split
  · exact (other rfl).elim
  · decide
  · decide

end TokenKind

/-- In no place more braces have been closed than opened. -/
def StaysOpen (ts : List Token) : Prop := ∀ n, 0 ≤ braceDepth (ts.take n)

/-- As many braces are closed as opened, or more; and if they are as many, then none is closed that
was not opened before. -/
structure ClosesBraces (ts : List Token) : Prop where
  depth_le : braceDepth ts ≤ 0
  staysOpen : braceDepth ts = 0 → StaysOpen ts

namespace StaysOpen

variable {ts us inner : List Token} {t t' : Token}

theorem append (h : StaysOpen ts) (later : StaysOpen us) : StaysOpen (ts ++ us) := by
  intro n
  rw [List.take_append, braceDepth_append]
  exact Int.add_nonneg (h n) (later _)

theorem enclosed (opens : 0 ≤ t.kind.brace) (closes : t'.kind.brace = -t.kind.brace)
    (h : StaysOpen inner) : StaysOpen (t :: (inner ++ [t'])) := by
  intro n
  cases n with
  | zero => exact Int.le_refl 0
  | succ n =>
    have within := h n
    have last : ([t'].take (n - inner.length)) = [] ∨ ([t'].take (n - inner.length)) = [t'] := by
      cases n - inner.length <;> simp
    rw [List.take_succ_cons, List.take_append, braceDepth_cons, braceDepth_append]
    rcases last with last | last
    · rw [last, braceDepth_nil]
      omega
    · rw [last, braceDepth_cons, braceDepth_nil]
      omega

theorem not_closed {rest : List Token} (h : StaysOpen (inner ++ t :: rest))
    (level : braceDepth inner = 0) : t.kind.brace ≠ -1 := by
  intro closes
  have depth := h (inner.length + 1)
  rw [List.append_cons, List.take_left' (by simp), braceDepth_append, level, braceDepth_cons,
    closes] at depth
  exact absurd depth (by decide)

/-- Of two closing braces of one text there is only one that closes a brace in front of it. -/
theorem closing_unique {inner' rest rest' : List Token} (h : StaysOpen inner)
    (h' : StaysOpen inner') (level : braceDepth inner = 0) (level' : braceDepth inner' = 0)
    (closes : t.kind.brace = -1) (closes' : t'.kind.brace = -1)
    (same : inner ++ t :: rest = inner' ++ t' :: rest') : rest = rest' := by
  rcases List.append_eq_append_iff.1 same with ⟨a, rfl, later⟩ | ⟨a, rfl, later⟩
  · cases a with
    | nil => exact (List.cons.inj later).2
    | cons first a =>
      cases (List.cons.inj later).1
      exact (h'.not_closed level closes).elim
  · cases a with
    | nil => exact (List.cons.inj later).2.symm
    | cons first a =>
      cases (List.cons.inj later).1
      exact (h.not_closed level' closes').elim

end StaysOpen

namespace NestedWith

variable {bare : TokenKind → Prop} {ts : List Token}

theorem braceDepth_eq (h : NestedWith bare ts) : braceDepth ts = 0 := by
  induction h with
  | nil => rfl
  | plain plain _ _ ih => rw [braceDepth_cons, TokenKind.brace_of_isPlain plain, ih]; rfl
  | group opening _ closing _ ihInner ih =>
    obtain ⟨-, closes⟩ := TokenKind.brace_of_closing? opening
    rw [braceDepth_cons, braceDepth_append, braceDepth_cons, ihInner, ih, closing, closes]
    omega

theorem staysOpen (h : NestedWith bare ts) : StaysOpen ts := by
  induction h with
  | nil => intro n; rw [List.take_nil]; exact Int.le_refl 0
  | @plain _ t ts plain _ _ ih =>
    intro n
    cases n with
    | zero => exact Int.le_refl 0
    | succ n =>
      rw [List.take_succ_cons, braceDepth_cons, TokenKind.brace_of_isPlain plain, Int.zero_add]
      exact ih n
  | @group _ t t' c inner ts opening _ closing _ ihInner ih =>
    obtain ⟨opens, closes⟩ := TokenKind.brace_of_closing? opening
    rw [← closing] at closes
    have whole := (ihInner.enclosed opens closes).append ih
    rwa [List.cons_append, List.append_assoc, List.singleton_append] at whole

end NestedWith

namespace ClosesBraces

variable {ts us inner : List Token} {t t' : Token}

theorem append (h : ClosesBraces ts) (later : ClosesBraces us) : ClosesBraces (ts ++ us) := by
  have first := h.depth_le
  have second := later.depth_le
  constructor
  · rw [braceDepth_append]
    omega
  · intro level
    rw [braceDepth_append] at level
    exact (h.staysOpen (by omega)).append (later.staysOpen (by omega))

theorem of_nested (h : WellNested ts) : ClosesBraces ts :=
  ⟨Int.le_of_eq h.braceDepth_eq, fun _ => h.staysOpen⟩

theorem enclosed (opens : 0 ≤ t.kind.brace) (closes : t'.kind.brace = -t.kind.brace)
    (h : ClosesBraces inner) : ClosesBraces (t :: (inner ++ [t'])) := by
  have depth : braceDepth (t :: (inner ++ [t'])) = braceDepth inner := by
    rw [braceDepth_cons, braceDepth_append, braceDepth_cons, braceDepth_nil, closes]
    omega
  exact ⟨depth ▸ h.depth_le, fun level => (h.staysOpen (depth ▸ level)).enclosed opens closes⟩

theorem of_unopened (h : ∀ t ∈ ts, t.kind ≠ .symbol .leftBrace) : ClosesBraces ts := by
  have le : ∀ {us : List Token}, (∀ t ∈ us, t.kind ≠ .symbol .leftBrace) → braceDepth us ≤ 0 := by
    intro us other
    induction us with
    | nil => exact Int.le_refl 0
    | cons t us ih =>
      obtain ⟨first, other⟩ := List.forall_mem_cons.1 other
      have := TokenKind.brace_le first
      have := ih other
      rw [braceDepth_cons]
      omega
  refine ⟨le h, fun level n => ?_⟩
  have later := le fun t mem => h t (List.mem_of_mem_drop (i := n) mem)
  rw [← List.take_append_drop n ts, braceDepth_append] at level
  omega

end ClosesBraces

/-- The tokens are the end of a well nested text, and `after` behind it. -/
def EndsText (after ts : List Token) : Prop :=
  ∃ front text, ts = text ++ after ∧ WellNested (front ++ text)

/-- Of two endings of one list the shorter one is an ending of the other. -/
theorem exists_between {α : Type} {xs ys us vs : List α} (same : xs ++ ys = us ++ vs)
    (le : ys.length ≤ vs.length) : ∃ between, xs = us ++ between ∧ vs = between ++ ys := by
  have ending : ys <:+ us ++ vs := same ▸ List.suffix_append xs ys
  obtain ⟨between, rfl⟩ := List.suffix_of_suffix_length_le ending (List.suffix_append us vs) le
  rw [← List.append_assoc, List.append_cancel_right_eq] at same
  exact ⟨between, same, rfl⟩

theorem EndsText.later {after read rest : List Token} (h : EndsText after (read ++ rest))
    (room : after.length ≤ rest.length) : EndsText after rest := by
  obtain ⟨front, text, same, nested⟩ := h
  obtain ⟨between, rfl, later⟩ := exists_between same.symm room
  exact ⟨front ++ read, between, later, by rwa [List.append_assoc]⟩

/-- The tokens between two places of a well nested text close as many braces as they open, or
more. -/
def Lowers (after ts rest : List Token) : Prop :=
  ∃ read, ts = read ++ rest ∧
    (EndsText after ts → after.length ≤ rest.length → ClosesBraces read)

namespace Lowers

variable {after ts mid rest : List Token}

theorem refl (ts : List Token) : Lowers after ts ts :=
  ⟨[], rfl, fun _ _ => .of_nested .nil⟩

theorem trans (first : Lowers after ts mid) (second : Lowers after mid rest) :
    Lowers after ts rest := by
  obtain ⟨read, rfl, closes⟩ := first
  obtain ⟨read', rfl, closes'⟩ := second
  refine ⟨read ++ read', (List.append_assoc ..).symm, fun ends room => ?_⟩
  have between : after.length ≤ (read' ++ rest).length := by
    rw [List.length_append]
    omega
  exact (closes ends between).append (closes' (ends.later between) room)

theorem plain (h : NextPlain ts rest) : Lowers after ts rest := by
  obtain ⟨t, plain, rfl⟩ := h
  exact ⟨[t], rfl, fun _ _ => .of_nested (.plain plain trivial .nil)⟩

theorem next {k : TokenKind} (plain : k.isPlain) (h : Next k ts rest) : Lowers after ts rest := by
  obtain ⟨t, rfl, rfl⟩ := h
  exact .plain ⟨t, plain, rfl⟩

theorem enclosed {k : TokenKind} {c : Symbol} {inner last : List Token} (pair : k.closing? = some c)
    (opening : Next k ts inner) (within : Lowers after inner last)
    (closing : Next (.symbol c) last rest) : Lowers after ts rest := by
  obtain ⟨t, rfl, rfl⟩ := opening
  obtain ⟨t', closes, rfl⟩ := closing
  obtain ⟨read, rfl, lower⟩ := within
  obtain ⟨opens, level⟩ := TokenKind.brace_of_closing? pair
  rw [← closes] at level
  refine ⟨t :: (read ++ [t']), ?_, fun ends room => ?_⟩
  · rw [List.cons_append, List.append_assoc, List.singleton_append]
  · have between : after.length ≤ (read ++ t' :: rest).length := by
      simp only [List.length_append, List.length_cons]
      omega
    refine .enclosed opens level (lower ?_ ?_)
    · exact (show EndsText after ([t] ++ (read ++ t' :: rest)) from ends).later between
    · exact Nat.le_succ_of_le room

/-- A group that is passed over by counting ends at its own closing delimiter. -/
theorem passed {opens closes : TokenKind → Bool} {k : TokenKind} {c : Symbol}
    (pairs : CountsPairs opens closes) (pair : k.closing? = some c) (counted : opens k = true)
    (h : Comp (Next k) (Passed opens closes) ts rest) : Lowers after ts rest := by
  obtain ⟨_, ⟨t, rfl, rfl⟩, passed⟩ := h
  obtain ⟨read, rfl⟩ := passed.suffix
  refine ⟨t :: read, rfl, fun ⟨front, text, same, nested⟩ room => ?_⟩
  obtain _ | ⟨_, text⟩ := text
  · have length := congrArg List.length same
    simp only [List.length_cons, List.length_append, List.nil_append] at length
    omega
  obtain ⟨rfl, -⟩ := List.cons.inj same
  obtain ⟨inner, t', later, rfl, within, closing⟩ := nested.closer rfl pair
  have behind : read ++ rest = inner ++ t' :: (later ++ after) :=
    (List.cons.inj same).2.trans (List.append_assoc ..)
  have notOpening := pairs.closing _ _ pair
  have closed := (pairs.opening _ _ pair).2
  obtain ⟨opens', level⟩ := TokenKind.brace_of_closing? pair
  rw [← closing] at notOpening closed level
  have ended := within.counted pairs
    (.closing notOpening (closed ▸ counted) (.closed (later ++ after)))
  rw [← behind] at ended
  rcases passed with stopped | ⟨-, still⟩
  · cases stopped.unique ended
    rw [List.append_cons, List.append_cancel_right_eq] at behind
    rw [behind]
    exact .enclosed opens' level (.of_nested within)
  · exact (still.unclosed _ ended).elim

theorem passedGroup {opening closing : Symbol}
    (pairs : CountsPairs (· == .symbol opening) (· == .symbol closing))
    (pair : (TokenKind.symbol opening).closing? = some closing)
    (h : PassedGroup opening closing ts rest) : Lowers after ts rest :=
  .passed pairs pair (beq_self_eq_true _) h

theorem passedParameters (h : PassedParameters ts rest) : Lowers after ts rest :=
  .passed countsPairs_parameters rfl rfl h

/-- Where tokens are passed up to an opening brace, some of them may close a brace. -/
theorem passedTo {wanted : TokenKind → Bool} (brace : wanted (.symbol .leftBrace) = true)
    (h : PassedTo wanted ts rest) : Lowers after ts rest := by
  obtain rfl := h
  refine ⟨ts.takeWhile fun t => !wanted t.kind, List.takeWhile_append_dropWhile.symm,
    fun _ _ => .of_unopened fun t mem opens => ?_⟩
  have passed := List.all_eq_true.1 List.all_takeWhile t mem
  rw [opens, brace] at passed
  cases passed

theorem passedReturnType (h : PassedReturnType ts rest) : Lowers after ts rest := by
  obtain ⟨_, colon, passed⟩ := h
  exact (Lowers.next rfl colon).trans (.passedTo rfl passed)

theorem optionally {part : List Token → List Token → Prop}
    (lower : ∀ {ts rest}, part ts rest → Lowers after ts rest) (h : Optionally part ts rest) :
    Lowers after ts rest := by
  rcases h with here | rfl
  · exact lower here
  · exact refl ts

theorem ended (h : Ended ts rest) : Lowers after ts rest := by
  rcases h with semicolon | ⟨rfl, rfl⟩
  · exact .next rfl semicolon
  · exact refl []

theorem header {words : List String}
    (h : Comp (NextWord words) (PassedGroup .leftParen .rightParen) ts rest) :
    Lowers after ts rest := by
  obtain ⟨mid, word, group⟩ := h
  exact (Lowers.next rfl word.next).trans (.passedGroup countsPairs_parens rfl group)

end Lowers

theorem Signature.lowers {word : Keyword} {after ts rest : List Token}
    (h : Signature word ts rest) : Lowers after ts rest := by
  obtain ⟨ts₁, begins, ts₂, mark, ts₃, params, ts₄, captured, returned⟩ := h
  have used : Lowers after ts₃ ts₄ := by
    refine .optionally (fun ⟨_, use, group⟩ => ?_) captured
    exact (Lowers.next rfl use).trans (.passedGroup countsPairs_parens rfl group)
  exact (Lowers.next rfl begins).trans ((Lowers.optionally (.next rfl) mark).trans
    ((Lowers.passedParameters params).trans (used.trans (.optionally .passedReturnType returned))))

/-- What is read as a part of a body closes as many braces as it opens, or more. -/
theorem Spans.lowers {part : Part} {written : List (List Token)} {ts rest : List Token}
    (h : Spans part written ts rest) (after : List Token) : Lowers after ts rest := by
  induction h with
  | nothing ts _ => exact .refl ts
  | append _ _ _ first second => exact first.trans second
  | token inert next => exact .next (TokenKind.isPlain_of_isInert inert) next
  | member opens next =>
    obtain ⟨mid, sign, name⟩ := next
    exact (Lowers.next (TokenKind.isPlain_of_opensMember opens) sign).trans (.plain name)
  | grouped pair opened _ closing within =>
    have closes : ∀ p ∈ [(Symbol.leftParen, Symbol.rightParen), (.leftBracket, .rightBracket)],
        (TokenKind.symbol p.1).closing? = some p.2 := by decide
    exact .enclosed (closes _ pair) opened within closing
  | arrow next =>
    obtain ⟨mid, signature, arrow⟩ := next
    exact signature.lowers.trans (.next rfl arrow)
  | closure signature _ body => exact signature.lowers.trans body
  | block opened _ closing within => exact .enclosed rfl opened within closing
  | nested _ within => exact within
  | empty next =>
    rcases next with semicolon | ⟨text, comment⟩
    · exact .next rfl semicolon
    · exact .next rfl comment
  | expression _ _ ended within => exact within.trans (.ended ended)
  | ret word _ ended within => exact (Lowers.next rfl word).trans (within.trans (.ended ended))
  | condition among word opened _ closing within =>
    have plain : ∀ k ∈ [Keyword.kwIf, .kwElseIf, .kwForeach], (TokenKind.keyword k).isPlain := by
      decide
    exact (Lowers.next (plain _ among) word).trans (.enclosed rfl opened within closing)
  | otherwise word => exact .next rfl word
  | loop next _ => exact .header next
  | switch next =>
    obtain ⟨mid, word, mid', header, block⟩ := next
    exact (Lowers.header ⟨mid, word, header⟩).trans (.passedGroup countsPairs_braces rfl block)
  | tried word _ _ _ body handlers => exact (Lowers.next rfl word.next).trans (body.trans handlers)
  | caught next _ body => exact (Lowers.header next).trans body
  | last word _ body => exact (Lowers.next rfl word.next).trans body

/-- A block in a well nested text ends at its own closing brace, if it ends within the text. -/
theorem Spans.block_ends {written : List (List Token)} {inner behind after rest : List Token}
    {brace close : Token}
    (h : Spans .block written (brace :: (inner ++ close :: (behind ++ after))) rest)
    (opens : brace.kind = .symbol .leftBrace) (closes : close.kind = .symbol .rightBrace)
    (nested : WellNested inner) (nested' : WellNested behind)
    (room : after.length ≤ rest.length) : rest = behind ++ after := by
  cases h with
  | nothing _ other => exact (other rfl).elim
  | append other => exact (other rfl).elim
  | block opening within closing =>
    obtain ⟨_, -, same⟩ := opening
    obtain ⟨rfl, rfl⟩ := List.cons.inj same
    obtain ⟨last, kind, rfl⟩ := closing
    obtain ⟨read, whole, lowers⟩ := within.lowers after
    have text : WellNested (brace :: (inner ++ close :: behind)) :=
      .group (congrArg TokenKind.closing? opens) nested closes nested'
    have ends : EndsText after (inner ++ close :: (behind ++ after)) :=
      ⟨[brace], inner ++ close :: behind, by rw [List.append_assoc, List.cons_append], text⟩
    have low := lowers ends (Nat.le_succ_of_le room)
    -- the block closes its brace within the text, where none is closed before it is opened
    obtain ⟨between, same, rfl⟩ : ∃ between, inner ++ close :: behind = (read ++ [last]) ++ between ∧
        rest = between ++ after :=
      exists_between (by rw [List.append_assoc, List.cons_append, whole, List.append_cons]) room
    have level : braceDepth read = 0 := by
      have depth := text.staysOpen (read.length + 2)
      rw [same, List.take_succ_cons, List.take_left' (by simp), braceDepth_cons,
        braceDepth_append, braceDepth_cons, braceDepth_nil, opens, kind] at depth
      have := low.depth_le
      simp only [TokenKind.brace] at depth
      omega
    rw [← List.append_cons] at same
    rw [StaysOpen.closing_unique nested.staysOpen (low.staysOpen level) nested.braceDepth_eq level
      (by rw [closes]; rfl) (by rw [kind]; rfl) same]

end ResponseShape
