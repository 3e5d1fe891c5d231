import ResponseShape.Proofs.Draft
import ResponseShape.Proofs.RoundTrip

/-! Drafts as tokens. Other than in printed trees an argument stands without parentheses, as authors
write it; it is parsed as the array of the draft nevertheless. Main statement:
`reads_fileTokens`. -/
namespace ResponseShape

open ResponseShape.Parser ResponseShape.Grammar

namespace Draft

def valueTokens (required : Bool) (value : List Token) : List Token :=
  if required then value
  else .ofKind (.var "this") :: .symbol .arrow :: .word "when" ::
    Token.grouped (Token.separated [[.ofKind (.var "c")], value])

mutual

def tokens : Draft → List Token
  | text => [.ofKind (.string "x")]
  | property => [.ofKind (.var "this"), .symbol .arrow, .word "p"]
  | nested fields =>
    .symbol .leftBracket :: (Token.separated (tokensOfFields fields) ++ [.symbol .rightBracket])

def tokensOfFields : List DraftField → List (List Token)
  | [] => []
  | .mk key required content :: rest =>
    (.ofKind (.string key) :: .symbol .fatArrow :: valueTokens required content.tokens) ::
      tokensOfFields rest

end

theorem separated_tokensOfFields (key : String) (required : Bool) (content : Draft) (f : DraftField)
    (fields : List DraftField) :
    Token.separated (tokensOfFields (.mk key required content :: f :: fields)) =
      .ofKind (.string key) :: .symbol .fatArrow :: valueTokens required content.tokens ++
        .symbol .comma :: Token.separated (tokensOfFields (f :: fields)) := by
  cases f
  rfl

/-- A keyword with its text. -/
def keyword (k : Keyword) (text : String) : Token := ⟨.keyword k, text, Position.start⟩

def methodTokens (fields : List DraftField) : List Token :=
  keyword .kwFunction "function" :: .word "toArray" :: (Token.params [] ++
    Token.braced (keyword .kwReturn "return" :: ((nested fields).tokens ++ [.symbol .semicolon])))

def fileTokens (fields : List DraftField) : List Token :=
  keyword .kwClass "class" :: .word "R" :: Token.braced (methodTokens fields)

/-- The tokens are read as the expression where something closes it, and no word comes first. -/
structure Spells (ts : List Token) (e : Expr) : Prop where
  opens : ∃ t more, ts = t :: more ∧ t.kind.opensExpression = true ∧ t.kind ≠ .identifier
  closed : ∀ {rest}, Closing rest → Reads phrases.anyExpression (ts ++ rest) e rest

theorem Spells.ne {ts : List Token} {e : Expr} (h : Spells ts e) (rest : List Token)
    {k : TokenKind} (other : k.opensExpression = false) : firstKind (ts ++ rest) ≠ some k := by
  obtain ⟨t, more, rfl, opens, -⟩ := h.opens
  exact firstKind_ne ⟨_, rfl, opens⟩ other

theorem spells_string (value : String) : Spells [.ofKind (.string value)] (.string value) where
  opens := ⟨_, _, rfl, rfl, nofun⟩
  closed closing := (Expr.ReadsBack.atom (e := .string value) rfl trivial).closed closing

theorem spells_var (name : String) : Spells [.ofKind (.var name)] (.var name) where
  opens := ⟨_, _, rfl, rfl, nofun⟩
  closed closing := (Expr.ReadsBack.atom (e := .var name) rfl trivial).closed closing

theorem spells_property : Spells property.tokens property.expr where
  opens := ⟨_, _, rfl, rfl, nofun⟩
  closed closing :=
    (Expr.ReadsBack.property (.atom (e := .var "this") rfl trivial) "p" false).closed closing

theorem Spells.argument {ts : List Token} {e : Expr} (h : Spells ts e) :
    ReadsElement phrases.argumentRound .rightParen ts e := by
  have element : ∀ {us rest : List Token} {before : List Expr} {r : List Expr ⊕ List Expr},
      Closing us → Reads (commaOrEnd (before ++ [e])) us r rest →
      Reads (phrases.argumentRound before) (ts ++ us) r rest := by
    intro us rest before r closing ended
    have noName : Reads Nested.passArgumentName (ts ++ us) () (ts ++ us) := by
      obtain ⟨t, more, rfl, -, noWord⟩ := h.opens
      have other : firstKind (t :: more ++ us) ≠ some .identifier :=
        fun same => noWord (Option.some.inj same)
      refine Reads.sees.bind (Reads.secondKind.bind ?_)
      rw [beq_false_of_ne other, Bool.false_and]
      exact .pure
    exact .ifUnseen (h.ne us rfl) (.ifRefused (h.ne us rfl)
      (noName.bind ((h.closed closing).bind ended)))
  constructor
  · exact fun before rest => element (.cons rfl) (.ifAccepted rfl .pure)
  · exact fun before rest => element (.cons rfl) (.ifRefused (firstKind_cons_ne rfl) .pure)

theorem Spells.item {ts : List Token} {e : Expr} (h : Spells ts e) (key : String) :
    ReadsItem .rightBracket (.ofKind (.string key) :: .symbol .fatArrow :: ts)
      (.mk (some (.string key)) e false) where
  unclosed _ := firstKind_cons_ne rfl
  noComma _ := firstKind_cons_ne rfl
  reads us closing _ := by
    refine .ifRefused (firstKind_cons_ne rfl) (.bind (.refuse (firstKind_cons_ne rfl)) ?_)
    refine ((spells_string key).closed (.cons rfl)).bind (.ifAccepted rfl ?_)
    exact .bind (.refuse (h.ne us rfl)) ((h.closed closing).bind .pure)

theorem Spells.conditional {ts : List Token} {e : Expr} (h : Spells ts e) (required : Bool) :
    Spells (valueTokens required ts) (conditional required e) := by
  cases required with
  | true => exact h
  | false =>
    refine ⟨⟨_, _, rfl, rfl, nofun⟩, fun {rest} closing => ?_⟩
    have args : Reads phrases.arguments
        (Token.grouped (Token.separated [[.ofKind (.var "c")], ts]) ++ rest) [.var "c", e]
        rest := by
      have each : ∀ x ∈ [([Token.ofKind (.var "c")], Expr.var "c"), (ts, e)],
          ReadsElement phrases.argumentRound .rightParen x.1 x.2 := by
        rw [List.forall_mem_cons, List.forall_mem_singleton]
        exact ⟨(spells_var "c").argument, h.argument⟩
      rw [Token.grouped_append]
      refine Reads.expect.bind (Reads.bind ?_ (Reads.expect.bind .pure))
      exact reads_separated (fun _ _ => .ifSeen rfl .pure) each []
    have member : Reads (phrases.memberAccess (.var "this") false)
        (.symbol .arrow :: .member "when" ::
          (Token.grouped (Token.separated [[.ofKind (.var "c")], ts]) ++ rest))
        (.methodCall (.var "this") "when" [.var "c", e] false) rest :=
      .advance ((Reads.memberName "when").bind (.ifSeen rfl (args.bind .pure)))
    exact reads_suffixed (.atom (e := .var "this") rfl trivial) (follows_symbol rfl)
      (.kind rfl (member.bind .pure)) (by simp; omega) closing

def item : DraftField → ArrayItem
  | .mk key required content =>
    .mk (some (.string key)) (conditional required content.expr) false

def itemTokens : DraftField → List Token
  | .mk key required content =>
    .ofKind (.string key) :: .symbol .fatArrow :: valueTokens required content.tokens

theorem items_eq_map (fields : List DraftField) : items fields = fields.map item := by
  induction fields with
  | nil => rfl
  | cons f rest ih =>
    obtain ⟨key, required, content⟩ := f
    rw [items, ih]
    rfl

theorem tokensOfFields_eq_map (fields : List DraftField) :
    tokensOfFields fields = fields.map itemTokens := by
  induction fields with
  | nil => rfl
  | cons f rest ih =>
    obtain ⟨key, required, content⟩ := f
    rw [tokensOfFields, ih]
    rfl

theorem spells_array {fields : List DraftField}
    (each : ∀ f ∈ fields, ReadsItem .rightBracket (itemTokens f) (item f)) :
    Spells (nested fields).tokens (.array (items fields)) := by
  refine ⟨⟨_, _, rfl, rfl, nofun⟩, fun {rest} closing => ?_⟩
  rw [tokens, List.cons_append, List.append_assoc, tokensOfFields_eq_map, items_eq_map]
  refine reads_formed rfl rfl rfl (.next (.advance ?_)) closing
  refine Reads.bind ?_ (Reads.expect.bind .pure)
  exact reads_separated (fun _ _ => .ifSeen rfl .pure)
    (fun f mem => (each f mem).element rfl nofun nofun) []

mutual

theorem spells : ∀ content : Draft, Spells content.tokens content.expr
  | text => spells_string "x"
  | property => spells_property
  | nested fields => spells_array (readsItem_itemTokens fields)

theorem readsItem_itemTokens : ∀ fields : List DraftField, ∀ f ∈ fields,
    ReadsItem .rightBracket (itemTokens f) (item f)
  | .mk key required content :: rest, f, mem => by
    rcases List.mem_cons.1 mem with rfl | later
    · exact ((spells content).conditional required).item key
    · exact readsItem_itemTokens rest f later

end

theorem reads_return {ts rest : List Token} {e : Expr} (h : Spells ts e) :
    Reads phrases.statement (keyword .kwReturn "return" :: (ts ++ .symbol .semicolon :: rest))
      (some (.ret (some e))) rest :=
  reads_statement (.next (.bind (.advance (.ifRefused (h.ne _ rfl)
    ((h.closed (.cons rfl)).bind (reads_statementEnd.bind .pure)))) .pure))

theorem reads_method (fields : List DraftField) {rest : List Token} :
    Reads method (methodTokens fields ++ rest)
      ⟨"toArray", [], some [.ret (some (.array (items fields)))]⟩ rest := by
  have block : ∀ rest, Reads phrases.block
      (Token.braced (keyword .kwReturn "return" :: ((nested fields).tokens ++ [.symbol .semicolon]))
        ++ rest) [.ret (some (.array (items fields)))] rest := by
    intro rest
    rw [Token.braced_append, List.cons_append, List.append_assoc]
    have closed : Reads (iterate phrases.blockRound [.ret (some (.array (items fields)))])
        (.symbol .rightBrace :: rest) [.ret (some (.array (items fields)))] rest :=
      .done (.ifAccepted rfl .pure)
    refine Reads.expect.bind (.again (.ifRefused (firstKind_cons_ne rfl) ?_) ?_ closed)
    · exact (Reads.notAtEnd rfl).bind ((reads_return (spells (nested fields))).bind .pure)
    · simp
      omega
  rw [methodTokens, List.cons_append, List.cons_append, List.append_assoc]
  refine .advance (.bind (.refuse (firstKind_cons_ne rfl)) ((Reads.memberName "toArray").bind ?_))
  refine (reads_parameters []).bind (.bind (reads_noReturnType (firstKind_cons_ne rfl)) ?_)
  exact .ifRefused (firstKind_cons_ne rfl) ((block rest).bind .pure)

theorem reads_class (fields : List DraftField) :
    Reads (classDecl none) (fileTokens fields)
      ⟨"R", none, none, [], [⟨"toArray", [], some [.ret (some (.array (items fields)))]⟩]⟩ [] := by
  have members : Reads (iterate memberRound []) (methodTokens fields ++ [.symbol .rightBrace])
      [⟨"toArray", [], some [.ret (some (.array (items fields)))]⟩] [] := by
    refine .again (.kind rfl ((reads_method fields).bind .pure)) ?_
      (.done (.kind rfl (.advance .pure)))
    simp [methodTokens]
  rw [fileTokens, Token.braced]
  refine Reads.bind (.done (.kind rfl .pure)) (.kind rfl (.advance (Reads.identifier.bind ?_)))
  refine Reads.bind (.ifRefused (firstKind_cons_ne rfl) .pure) ?_
  refine Reads.bind (.ifRefused (firstKind_cons_ne rfl) .pure) ?_
  exact Reads.expect.bind (members.bind .pure)

theorem reads_fileTokens (fields : List DraftField) :
    Reads sourceFile (fileTokens fields) (file fields) [] := by
  refine .again (.kind rfl (.bind ((reads_class fields).bind .pure) .pure)) ?_ (.done fun _ => rfl)
  simp [fileTokens]

end Draft

end ResponseShape
