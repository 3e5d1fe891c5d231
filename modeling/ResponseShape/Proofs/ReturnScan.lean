import ResponseShape.Proofs.Slots

/-! The returns of a method body, found in its tokens alone.
Main statement: `Spans.writtenReturns`. -/
namespace ResponseShape

/-- The tokens behind each `return` of the body, until its outermost level is closed. -/
def returnsFrom : List Level → List Token → List (List Token)
  | [], _ | _ :: _, [] => []
  | level :: outer, t :: ts =>
    if level.isReturn t then ts :: returnsFrom (level.step outer t) ts
    else returnsFrom (level.step outer t) ts

/-- The tokens behind each `return` of a body in braces, in their order. Those in closures and in
`switch` blocks are not counted. -/
def writtenReturns (ts : List Token) : List (List Token) :=
  returnsFrom [⟨.statement, false⟩] ts.tail

theorem returnsFrom_nil (levels : List Level) : returnsFrom levels [] = [] := by
  cases levels <;> rfl

theorem returnsFrom_closed (ts : List Token) : returnsFrom [] ts = [] := by
  cases ts <;> rfl

/-- From one slot to another, on one level, these returns are found. -/
def Walks (p p' : Slot) (written : List (List Token)) (ts rest : List Token) : Prop :=
  ∀ quiet outer, returnsFrom (⟨p, quiet⟩ :: outer) ts =
    found quiet written ++ returnsFrom (⟨p', quiet⟩ :: outer) rest

theorem returnsFrom_cons {level : Level} {outer levels : List Level} {t : Token} (ts : List Token)
    (silent : level.isReturn t = false) (step : level.step outer t = levels) :
    returnsFrom (level :: outer) (t :: ts) = returnsFrom levels ts := by
  rw [returnsFrom, silent, step]
  rfl

namespace Walks

variable {p p' : Slot}

theorem agree {ts : List Token} (same : Agree p p' ts) : Walks p p' [] ts ts :=
    fun quiet outer => by
  rw [found_nil, List.nil_append]
  cases ts with
  | nil => simp only [returnsFrom_nil]
  | cons t later =>
    obtain ⟨returns, step⟩ := same t later rfl quiet outer
    rw [returnsFrom, returnsFrom, returns, step]

theorem token {F : Token → Prop} {ts rest : List Token} (moves : Moves F p p')
    (next : ∃ t, F t ∧ ts = t :: rest) : Walks p p' [] ts rest := fun quiet outer => by
  obtain ⟨t, here, rfl⟩ := next
  obtain ⟨silent, step⟩ := (moves t here).2.2 quiet outer
  rw [returnsFrom_cons rest silent step, found_nil, List.nil_append]

theorem enclosed {k : TokenKind} {c : Symbol} {inside : Slot} {silent : Bool}
    {written : List (List Token)} {ts inner last rest : List Token}
    (opens : OpensLevel k p inside p' silent) (closes : ClosesLevel c inside)
    (opened : Next k ts inner)
    (within : Walks inside inside written inner last) (closed : Next (.symbol c) last rest) :
    Walks p p' (found silent written) ts rest := fun quiet outer => by
  obtain ⟨⟨_, lexeme, position⟩, rfl, rfl⟩ := opened
  obtain ⟨⟨_, lexeme', position'⟩, rfl, rfl⟩ := closed
  obtain ⟨unreturned, step⟩ := opens.levels lexeme position quiet outer
  obtain ⟨unreturned', step'⟩ :=
    closes.levels lexeme' position' (silent || quiet) (⟨p', quiet⟩ :: outer)
  rw [returnsFrom_cons inner unreturned step, within,
    returnsFrom_cons rest unreturned' step', found_found]

theorem stillOpen {ts : List Token}
    (h : StillOpen (Region.opens .braces) (Region.closes .braces) ts) :
    Walks (.within .braces 0 .statement) .statement [] ts [] := by
  refine Region.braces.unclosed (.within .braces · .statement) .statement
    (R := fun slot ts => Walks slot .statement [] ts []) ?_ ?_ h.unclosed
  · intro depth t ts behind quiet outer
    rw [← behind quiet outer]
    exact returnsFrom_cons ts rfl rfl
  · intro depth quiet outer
    simp only [returnsFrom_nil, found_nil, List.append_nil]

theorem holdsAlong : HoldsAlong Walks where
  refl p ts quiet outer := by rw [found_nil, List.nil_append]
  trans first second quiet outer := by rw [first, second, found_append, List.append_assoc]
  token := token
  ret {ts rest} word quiet outer := by
    obtain ⟨⟨_, lexeme, position⟩, rfl, rfl⟩ := word
    cases quiet <;> rfl
  enclosed _ := enclosed
  ended quiet outer := by simp only [returnsFrom_nil, found_nil, List.append_nil]
  begins begins _ := agree begins.agree
  unhandled last := agree (agree_of_unhandled last)
  stillOpen := stillOpen

end Walks

theorem Spans.writtenReturns {written : List (List Token)} {ts rest : List Token}
    (h : Spans .block written ts rest) : writtenReturns ts = written := by
  obtain ⟨inner, last, ⟨_, -, rfl⟩, within, ⟨_, lexeme, position⟩, rfl, rfl⟩ :=
    Walks.holdsAlong.spans h
  obtain ⟨unreturned, step⟩ := closes_brace.levels lexeme position false []
  have scan := within false []
  rwa [returnsFrom_cons rest unreturned step, returnsFrom_closed, List.append_nil] at scan

end ResponseShape
