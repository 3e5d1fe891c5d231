import ResponseShape.Proofs.Braces
import ResponseShape.Proofs.Members
import ResponseShape.Proofs.OperandEnd
import ResponseShape.Proofs.PrintedStatements
import ResponseShape.Proofs.Accepted

/-! Declarations of methods: what their tokens are read as does not depend on the tokens behind
them. Main statements: `Grammar.reads_declared`, `Grammar.declared_of_nested`. -/
namespace ResponseShape

open ResponseShape.Parser

/-- The tokens of a method, behind its modifiers, are read as this method in front of some other
tokens. -/
inductive DeclaresMethod : List Token → Method → Prop
  | intro {modifiers declared behind : List Token} {stop : Position} {m : Method}
      {r : TokenStream} :
      Modifiers modifiers → firstKind declared = some (.keyword .kwFunction) → behind ≠ [] →
      Grammar.method ⟨declared ++ behind, stop⟩ = .ok (m, r) → r.tokens = behind →
      DeclaresMethod (modifiers ++ declared) m

namespace Grammar

variable {ts rest : List Token}

theorem method_local {x : List Token} {x' s : TokenStream} (behind : x ≠ []) (more : 0 < s.left) :
    Local x x' s 1 0 method method := by
  refine .advance more fun _ _ => (?_ : Local _ _ _ 1 0 _ _).forget
  refine (Local.mark _).ahead (by decide) fun _ _ => ?_
  refine (Local.memberName _).bind fun name _ => (?_ : Local _ _ _ 1 0 _ _).forget
  refine (Local.parameters behind).bind fun params _ => (?_ : Local _ _ _ 1 0 _ _).forget
  refine Local.passReturnType.ahead (by decide) fun _ _ => .ifAccept (by decide)
    (fun _ _ => .pure _) ?_
  exact (phrases_ahead behind).block.bind fun body _ => .pure _

theorem reads_declared {x : List Token} {stop : Position} {m : Method} {r : TokenStream}
    (behind : x ≠ []) (first : firstKind ts = some (.keyword .kwFunction))
    (read : method ⟨ts ++ x, stop⟩ = .ok (m, r)) (ended : r.tokens = x) :
    Reads method (ts ++ rest) m rest := by
  intro stop'
  have here : Local x ⟨rest, stop'⟩ ⟨ts ++ x, stop⟩ 1 0 method method :=
    method_local behind (length_pos_of_firstKind (firstKind_append first))
  have left : r.left = x.length := congrArg List.length ended
  obtain ⟨r', run, beside⟩ := (here m r read).2 (Nat.le_of_eq left.symm) _ (.mk ts stop)
  obtain ⟨-, rfl⟩ := beside.tokens_of_left left
  exact run

end Grammar

namespace TokenKind

def namesMember : TokenKind → Bool
  | .identifier | .keyword _ | .var _ => true
  | _ => false

/-- The tokens that may stand behind the return type of a method. -/
def endsReturnType (k : TokenKind) : Bool :=
  k == .symbol .leftBrace || k == .symbol .semicolon || k == .symbol .fatArrow

variable {k : TokenKind}

theorem isPlain_of_isModifier (h : k.isModifier = true) : k.isPlain = true := by
  unfold isModifier at h
  split at h <;> first | rfl | cases h

theorem isPlain_of_namesMember (h : k.namesMember = true) : k.isPlain = true := by
  unfold namesMember at h
  split at h <;> first | rfl | cases h

end TokenKind

inductive ReturnType : List Token → Prop
  | none : ReturnType []
  | behind {colon : Token} {names : List Token} :
      colon.kind = .symbol .colon → WellNested names →
      (∀ t ∈ names, t.kind.endsReturnType = false) → ReturnType (colon :: names)

inductive MethodHead : List Token → Prop
  | intro {function name opening closing : Token} {mark params type : List Token} :
      function.kind = .keyword .kwFunction →
      mark = [] ∨ (∃ t : Token, mark = [t] ∧ t.kind = .symbol .ampersand) →
      name.kind.namesMember → opening.kind = .symbol .leftParen → WellNested params →
      closing.kind = .symbol .rightParen → ReturnType type →
      MethodHead (function :: (mark ++ name :: opening :: (params ++ closing :: type)))

/-- A method with well nested groups, from its modifiers to the end of its body. -/
inductive NestedMethod : List Token → Prop
  | bodyless {modifiers head : List Token} {t : Token} :
      Modifiers modifiers → MethodHead head → t.kind = .symbol .semicolon →
      NestedMethod (modifiers ++ (head ++ [t]))
  | braced {modifiers head body : List Token} {brace close : Token} :
      Modifiers modifiers → MethodHead head → brace.kind = .symbol .leftBrace →
      WellNested body → close.kind = .symbol .rightBrace →
      NestedMethod (modifiers ++ (head ++ brace :: (body ++ [close])))

theorem Modifiers.wellNested {ts : List Token} (h : Modifiers ts) : WellNested ts := by
  induction ts with
  | nil => exact .nil
  | cons t ts ih =>
    obtain ⟨modifier, later⟩ := List.forall_mem_cons.1 h
    exact .plain (TokenKind.isPlain_of_isModifier modifier) trivial (ih later)

theorem ReturnType.wellNested {ts : List Token} (h : ReturnType ts) : WellNested ts := by
  cases h with
  | none => exact .nil
  | behind colon names _ => exact .plain (by rw [colon]; rfl) trivial names

theorem MethodHead.wellNested {ts : List Token} (h : MethodHead ts) : WellNested ts := by
  cases h with
  | @intro _ _ _ _ mark _ _ function marked name opening params closing type =>
    have nested : WellNested mark := by
      rcases marked with rfl | ⟨t, rfl, kind⟩
      · exact .nil
      · exact .plain (by rw [kind]; rfl) trivial .nil
    refine .plain (by rw [function]; rfl) trivial (nested.append ?_)
    refine .plain (TokenKind.isPlain_of_namesMember name) trivial ?_
    exact .group (congrArg TokenKind.closing? opening) params closing type.wellNested

theorem MethodHead.begins {ts : List Token} (h : MethodHead ts) :
    firstKind ts = some (.keyword .kwFunction) := by
  cases h with
  | intro function => exact congrArg some function

theorem NestedMethod.wellNested {ts : List Token} (h : NestedMethod ts) : WellNested ts := by
  cases h with
  | bodyless modifiers head semicolon =>
    exact modifiers.wellNested.append (head.wellNested.append
      (.plain (by rw [semicolon]; rfl) trivial .nil))
  | braced modifiers head brace body close =>
    exact modifiers.wellNested.append (head.wellNested.append
      (.group (congrArg TokenKind.closing? brace) body close .nil))

theorem wellNested_flatten {methods : List (List Token)} (h : ∀ m ∈ methods, NestedMethod m) :
    WellNested methods.flatten := by
  induction methods with
  | nil => exact .nil
  | cons m methods ih =>
    obtain ⟨first, later⟩ := List.forall_mem_cons.1 h
    exact first.wellNested.append (ih later)

namespace Grammar

def methodHead : Parser (String × List String) := do
  advance
  let _ ← acceptSymbol .ampersand
  let name ← memberName .methodName
  let params ← parameters
  passReturnType
  return (name, params)

def methodBody (name : String) (params : List String) : Parser Method := do
  if ← acceptSymbol .semicolon then return ⟨name, params, none⟩
  return ⟨name, params, some (← phrases.block)⟩

theorem method_eq : method = methodHead >>= fun found => methodBody found.1 found.2 := by
  unfold method methodHead methodBody
  simp only [bind_assoc, pure_bind]

theorem reads_memberName {t : Token} (names : t.kind.namesMember) (expectation : Expectation)
    (rest : List Token) : ∃ name, Reads (memberName expectation) (t :: rest) name rest := by
  obtain ⟨kind, lexeme, position⟩ := t
  cases kind with
  | identifier => exact ⟨lexeme, .next (.advance .pure)⟩
  | keyword k => exact ⟨lexeme, .next (.advance .pure)⟩
  | var name => exact ⟨"$" ++ name, .next (.advance .pure)⟩
  | _ => cases names

theorem reads_returnType {t : Token} (type : ReturnType ts)
    (ended : t.kind = .symbol .leftBrace ∨ t.kind = .symbol .semicolon) :
    Reads passReturnType (ts ++ t :: rest) () (t :: rest) := by
  have noColon : t.kind ≠ .symbol .colon := by
    rcases ended with kind | kind <;> rw [kind] <;> decide
  have wanted : t.kind.endsReturnType = true := by
    rcases ended with kind | kind <;> rw [kind] <;> rfl
  cases type with
  | none => exact reads_noReturnType (firstKind_cons_ne (beq_false_of_ne noColon))
  | behind colon _ other =>
    refine .ifSeen (congrArg some colon) (reads_passTo (List.forall_mem_cons.2 ⟨?_, other⟩) wanted)
    rw [colon]
    rfl

theorem reads_nestedParameters {opening closing : Token} {params : List Token}
    (opens : opening.kind = .symbol .leftParen) (nested : WellNested params)
    (closes : closing.kind = .symbol .rightParen) (rest : List Token) :
    ∃ names, Reads parameters (opening :: (params ++ closing :: rest)) names rest := by
  obtain ⟨inner, passed⟩ := reads_nested countsPairs_parameters .unterminatedParameters nested
    closes (by decide) rest
  exact ⟨_, .ifSeen (congrArg some opens) (passed.bind .pure)⟩

theorem reads_methodHead {t : Token} (head : MethodHead ts)
    (ended : t.kind = .symbol .leftBrace ∨ t.kind = .symbol .semicolon) (rest : List Token) :
    ∃ found, Reads methodHead (ts ++ t :: rest) found (t :: rest) := by
  cases head with
  | @intro _ name opening closing mark params type _ marked names opens nested closes returned =>
    obtain ⟨called, named⟩ := reads_memberName names .methodName
      (opening :: (params ++ closing :: (type ++ t :: rest)))
    obtain ⟨listed, passed⟩ := reads_nestedParameters opens nested closes (type ++ t :: rest)
    refine ⟨(called, listed), ?_⟩
    have later : Reads (do
        let name ← memberName .methodName
        let params ← parameters
        passReturnType
        return (name, params))
        (name :: opening :: (params ++ closing :: (type ++ t :: rest))) (called, listed)
        (t :: rest) :=
      named.bind (passed.bind ((reads_returnType returned ended).bind .pure))
    simp only [List.cons_append, List.append_assoc]
    refine .advance ?_
    rcases marked with rfl | ⟨mark, rfl, kind⟩
    · refine .bind (.refuse ?_) later
      refine firstKind_cons_ne (beq_false_of_ne fun kind => ?_)
      rw [kind] at names
      cases names
    · exact .bind (.accept kind) later

variable {s r : TokenStream} {found methods : List Method}

theorem memberRound_done (run : memberRound found s = .ok (.inr methods, r)) : r.left < s.left := by
  obtain ⟨o, _, looked, later⟩ := exists_of_bind_ok run
  cases looked
  generalize seen : s.tokens.head?.map Token.kind = first at later
  cases first with
  | none => cases later
  | some k =>
    dsimp only at later
    split at later
    case h_1 =>
      cases later
      exact TokenStream.left_dropFirst_lt (left_pos_of_head? seen)
    all_goals
      obtain ⟨_, _, -, again⟩ := exists_of_bind_ok later
      cases again

theorem members_left_lt (run : iterate memberRound found s = .ok (methods, r)) :
    r.left < s.left := by
  induction n : s.left using Nat.strongRecOn generalizing s found with
  | ind n ih =>
    subst n
    rcases exists_of_iterate_ok run with done | ⟨found', s', -, shorter, later⟩
    · exact memberRound_done done
    · exact Nat.lt_trans (ih _ shorter later rfl) shorter

theorem members_behind_modifiers {stop : Position} (noted : Modifiers ts)
    (run : iterate memberRound found ⟨ts ++ rest, stop⟩ = .ok (methods, r)) :
    iterate memberRound found ⟨rest, stop⟩ = .ok (methods, r) := by
  induction ts with
  | nil => exact run
  | cons t ts ih =>
    obtain ⟨modifier, noted⟩ := List.forall_mem_cons.1 noted
    rcases exists_of_iterate_ok run with done | ⟨found', s', again, -, later⟩
    · cases (reads_modifier modifier stop).symm.trans done
    · cases (reads_modifier modifier stop).symm.trans again
      exact ih noted later

theorem members_behind_method (first : firstKind s.tokens = some (.keyword .kwFunction))
    (run : iterate memberRound found s = .ok (methods, r)) :
    ∃ m s', method s = .ok (m, s') ∧ iterate memberRound (found ++ [m]) s' = .ok (methods, r) := by
  have round : memberRound found s = (method >>= fun m => pure (.inl (found ++ [m]))) s := by
    change s.tokens.head?.map Token.kind = _ at first
    unfold memberRound
    rw [bind_ok (p := kind?) rfl, first]
  rcases exists_of_iterate_ok run with done | ⟨found', s', again, -, later⟩
  · obtain ⟨_, _, -, same⟩ := exists_of_bind_ok (round.symm.trans done)
    cases same
  · obtain ⟨m, _, read, same⟩ := exists_of_bind_ok (round.symm.trans again)
    cases same
    exact ⟨m, _, read, later⟩

theorem bodyless_ends {t : Token} {m : Method} {stop : Position} (head : MethodHead ts)
    (semicolon : t.kind = .symbol .semicolon)
    (read : method ⟨ts ++ t :: rest, stop⟩ = .ok (m, r)) : r.tokens = rest := by
  obtain ⟨found, first⟩ := reads_methodHead head (Or.inr semicolon) rest
  have whole : Reads method (ts ++ t :: rest) ⟨found.1, found.2, none⟩ rest := by
    rw [method_eq]
    exact first.bind (.ifAccepted semicolon .pure)
  cases (whole stop).symm.trans read
  rfl

theorem braced_ends {body behind after : List Token} {brace close : Token} {m : Method}
    {stop : Position} (head : MethodHead ts) (opens : brace.kind = .symbol .leftBrace)
    (nested : WellNested body) (closes : close.kind = .symbol .rightBrace)
    (nested' : WellNested behind) (room : after.length ≤ r.left)
    (read : method ⟨ts ++ brace :: (body ++ close :: (behind ++ after)), stop⟩ = .ok (m, r)) :
    r.tokens = behind ++ after := by
  obtain ⟨found, first⟩ := reads_methodHead head (Or.inl opens)
    (body ++ close :: (behind ++ after))
  rw [method_eq, bind_ok (first stop)] at read
  have noSemicolon : Reads (accept (.symbol .semicolon))
      (brace :: (body ++ close :: (behind ++ after))) false
      (brace :: (body ++ close :: (behind ++ after))) :=
    .refuse (firstKind_cons_ne (by rw [opens]; rfl))
  obtain ⟨b, s₁, accepted, later⟩ := exists_of_bind_ok read
  cases (noSemicolon stop).symm.trans accepted
  obtain ⟨b, s₂, block, made⟩ := exists_of_bind_ok later
  cases made
  obtain ⟨-, -, -, written, spans, -⟩ := (phrases_spanning.block (.refl _)).answer block
  exact spans.block_ends opens closes nested nested' room

/-- The first method of a class is read from its own tokens, if the members end where they should. -/
theorem declares_first {m behind after : List Token} {stop : Position} (declared : NestedMethod m)
    (nested : WellNested behind) (more : after ≠ []) (room : after.length ≤ r.left + 1)
    (run : iterate memberRound found ⟨m ++ (behind ++ after), stop⟩ = .ok (methods, r)) :
    ∃ v stop', DeclaresMethod m v ∧
      iterate memberRound (found ++ [v]) ⟨behind ++ after, stop'⟩ = .ok (methods, r) := by
  have own : ∀ {modifiers ts : List Token}, Modifiers modifiers →
      firstKind ts = some (.keyword .kwFunction) → m = modifiers ++ ts →
      (∀ {v s'}, after.length ≤ s'.left →
        method ⟨ts ++ (behind ++ after), stop⟩ = .ok (v, s') → s'.tokens = behind ++ after) →
      ∃ v stop', DeclaresMethod m v ∧
        iterate memberRound (found ++ [v]) ⟨behind ++ after, stop'⟩ = .ok (methods, r) := by
    rintro modifiers ts noted first rfl ends
    rw [List.append_assoc] at run
    obtain ⟨v, s', read, later⟩ :=
      members_behind_method (firstKind_append first) (members_behind_modifiers noted run)
    have ended := ends (Nat.le_trans room (members_left_lt later)) read
    refine ⟨v, s'.stop, .intro noted first ?_ read ended, ?_⟩
    · exact List.append_ne_nil_of_right_ne_nil behind more
    · rw [← ended]
      exact later
  cases declared with
  | bodyless noted head semicolon =>
    refine own noted (firstKind_append head.begins) rfl fun room read => ?_
    rw [List.append_assoc] at read
    exact bodyless_ends head semicolon read
  | braced noted head opens body closes =>
    refine own noted (firstKind_append head.begins) rfl fun room read => ?_
    rw [List.append_assoc, List.cons_append, List.append_assoc] at read
    exact braced_ends head opens body closes nested room read

/-- Well nested methods whose class is read up to its own closing brace are each read from their
own tokens. -/
theorem declared_of_nested {declared : List (List Token)} {after : List Token} {close : Token}
    {stop : Position} (nested : ∀ m ∈ declared, NestedMethod m) (ended : r.left = after.length)
    (run : iterate memberRound found ⟨declared.flatten ++ close :: after, stop⟩ =
      .ok (methods, r)) :
    ∀ m ∈ declared, ∃ v, DeclaresMethod m v := by
  have room : (close :: after).length ≤ r.left + 1 := Nat.succ_le_succ (Nat.le_of_eq ended.symm)
  induction declared generalizing found stop with
  | nil => exact List.forall_mem_nil _
  | cons m declared ih =>
    obtain ⟨first, nested⟩ := List.forall_mem_cons.1 nested
    rw [List.flatten_cons, List.append_assoc] at run
    obtain ⟨v, stop', here, run⟩ := declares_first first (wellNested_flatten nested)
      (List.cons_ne_nil _ _) room run
    exact List.forall_mem_cons.2 ⟨⟨v, here⟩, ih nested run⟩

end Grammar

end ResponseShape
