import ResponseShape.Proofs.Settled

/-! Syntax trees with other names in them. Renaming the classes that are constructed and the methods
that are called renames the outline of an array and changes nothing else in it, as long as the
idioms are still recognised. Main statement: `Config.outline_renamed`. -/
namespace ResponseShape

/-- New names for the classes that a tree constructs and for the methods that it calls. -/
structure Renaming where
  owner : Name → Name
  method : String → String

variable (ρ : Renaming)

mutual

def Expr.renamed : Expr → Expr
  | .array items => .array (renamedItems items)
  | .property target name nullsafe => .property target.renamed name nullsafe
  | .methodCall target method args nullsafe =>
    .methodCall target.renamed (ρ.method method) (renamedArgs args) nullsafe
  | .staticCall owner method args => .staticCall owner method (renamedArgs args)
  | .call callee args => .call callee.renamed (renamedArgs args)
  | .new owner args => .new (ρ.owner owner) (renamedArgs args)
  | .arrowFunction params body => .arrowFunction params body.renamed
  | .closure params body => .closure params (renamedBody body)
  | .index target none => .index target.renamed none
  | .index target (some index) => .index target.renamed (some index.renamed)
  | .binary op lhs rhs => .binary op lhs.renamed rhs.renamed
  | .unary op operand => .unary op operand.renamed
  | .ternary condition none otherwise => .ternary condition.renamed none otherwise.renamed
  | .ternary condition (some middle) otherwise =>
    .ternary condition.renamed (some middle.renamed) otherwise.renamed
  | .assign target value => .assign target.renamed value.renamed
  | e@(.string _) | e@(.interpolated _) | e@(.number _) | e@(.bool _) | e@.null | e@(.var _)
  | e@(.classConstant _ _) | e@(.constant _) => e

def renamedArgs : List Expr → List Expr
  | [] => []
  | e :: rest => e.renamed :: renamedArgs rest

def renamedItems : List ArrayItem → List ArrayItem
  | [] => []
  | .mk none value unpacked :: rest => .mk none value.renamed unpacked :: renamedItems rest
  | .mk (some key) value unpacked :: rest =>
    .mk (some key.renamed) value.renamed unpacked :: renamedItems rest

def Stmt.renamed : Stmt → Stmt
  | .ret none => .ret none
  | .ret (some value) => .ret (some value.renamed)
  | .expr e => .expr e.renamed
  | .branch condition body elseIfs none =>
    .branch condition.renamed (renamedBody body) (renamedElseIfs elseIfs) none
  | .branch condition body elseIfs (some otherwise) =>
    .branch condition.renamed (renamedBody body) (renamedElseIfs elseIfs)
      (some (renamedBody otherwise))
  | .foreach subject none value body =>
    .foreach subject.renamed none value.renamed (renamedBody body)
  | .foreach subject (some key) value body =>
    .foreach subject.renamed (some key.renamed) value.renamed (renamedBody body)
  | .block body => .block (renamedBody body)

def renamedBody : List Stmt → List Stmt
  | [] => []
  | s :: rest => s.renamed :: renamedBody rest

def renamedElseIfs : List ElseIf → List ElseIf
  | [] => []
  | .mk condition body :: rest =>
    .mk condition.renamed (renamedBody body) :: renamedElseIfs rest

end

theorem renamedArgs_eq_map (args : List Expr) : renamedArgs ρ args = args.map (Expr.renamed ρ) := by
  induction args with
  | nil => rfl
  | cons e rest ih => rw [renamedArgs, ih, List.map_cons]

theorem renamedItems_cons (key : Option Expr) (value : Expr) (unpacked : Bool)
    (rest : List ArrayItem) :
    renamedItems ρ (.mk key value unpacked :: rest) =
      .mk (key.map (Expr.renamed ρ)) (value.renamed ρ) unpacked :: renamedItems ρ rest := by
  cases key <;> rfl

mutual

theorem Stmt.returns_renamed : ∀ s : Stmt,
    (s.renamed ρ).returns = s.returns.map (Option.map (Expr.renamed ρ))
  | .ret none | .ret (some _) | .expr _ => rfl
  | .branch _ body elseIfs none => by
    simp only [Stmt.renamed, Stmt.returns, List.map_append, returnsOfBody_renamed body,
      returnsOfElseIfs_renamed elseIfs]
  | .branch _ body elseIfs (some otherwise) => by
    simp only [Stmt.renamed, Stmt.returns, List.map_append, returnsOfBody_renamed body,
      returnsOfElseIfs_renamed elseIfs, returnsOfBody_renamed otherwise]
  | .foreach _ none _ body | .foreach _ (some _) _ body => by
    simp only [Stmt.renamed, Stmt.returns, returnsOfBody_renamed body]
  | .block body => by
    simp only [Stmt.renamed, Stmt.returns, returnsOfBody_renamed body]

theorem returnsOfBody_renamed : ∀ body : List Stmt,
    returnsOfBody (renamedBody ρ body) = (returnsOfBody body).map (Option.map (Expr.renamed ρ))
  | [] => rfl
  | s :: rest => by
    simp only [renamedBody, returnsOfBody, List.map_append, s.returns_renamed,
      returnsOfBody_renamed rest]

theorem returnsOfElseIfs_renamed : ∀ elseIfs : List ElseIf,
    returnsOfElseIfs (renamedElseIfs ρ elseIfs) =
      (returnsOfElseIfs elseIfs).map (Option.map (Expr.renamed ρ))
  | [] => rfl
  | .mk _ body :: rest => by
    simp only [renamedElseIfs, returnsOfElseIfs, List.map_append, returnsOfBody_renamed body,
      returnsOfElseIfs_renamed rest]

end

theorem returnValue?_renamed (body : List Stmt) :
    returnValue? (renamedBody ρ body) = (returnValue? body).map (Expr.renamed ρ) := by
  unfold returnValue?
  rw [returnsOfBody_renamed, List.head?_map]
  cases (returnsOfBody body).head? <;> rfl

theorem Expr.callResult?_renamed (e : Expr) :
    (e.renamed ρ).callResult? = e.callResult?.map (Expr.renamed ρ) := by
  cases e with
  | closure params body => exact returnValue?_renamed ρ body
  | index target index => cases index <;> rfl
  | ternary condition middle otherwise => cases middle <;> rfl
  | _ => rfl

theorem Expr.isVar_renamed (name : String) (e : Expr) :
    (e.renamed ρ).isVar name = e.isVar name := by
  cases e with
  | index target index => cases index <;> rfl
  | ternary condition middle otherwise => cases middle <;> rfl
  | _ => rfl

theorem Expr.literal?_renamed (e : Expr) : (e.renamed ρ).literal? = e.literal? := by
  cases e with
  | index target index => cases index <;> rfl
  | ternary condition middle otherwise => cases middle <;> rfl
  | _ => rfl

/-- The idioms are known under their new names, to a configuration of its own. -/
structure Renaming.Keeps (config config' : Config) : Prop where
  instanceVar : config'.instanceVar = config.instanceVar
  conditionalField : ∀ m, config'.isConditionalField (ρ.method m) = config.isConditionalField m
  merge : ∀ m, config'.isMerge (ρ.method m) = config.isMerge m
  conditionalMerge : ∀ m, config'.isConditionalMerge (ρ.method m) = config.isConditionalMerge m
  conditionalValue : ∀ m, config'.isConditionalValue (ρ.method m) = config.isConditionalValue m

def Contribution.renamed : Contribution → Contribution
  | .literal => .literal
  | .scalar => .scalar
  | .construct owner => .construct (ρ.owner owner)
  | .record items => .record (renamedItems ρ items)
  | .splice content => .splice (content.renamed ρ)

def Reading.renamed (reading : Reading) : Reading :=
  { reading with content := reading.content.renamed ρ }

namespace Config

variable {ρ} {config config' : Config} (keeps : ρ.Keeps config config')

include keeps

theorem readsInstance_renamed (e : Expr) :
    config'.readsInstance (e.renamed ρ) = config.readsInstance e := by
  cases e with
  | property target name nullsafe =>
    cases target with
    | property inner _ _ =>
      simp only [Expr.renamed, readsInstance, keeps.instanceVar, Expr.isVar_renamed]
    | index target index => cases index <;> rfl
    | ternary condition middle otherwise => cases middle <;> rfl
    | _ => simp [Expr.renamed, readsInstance, keeps.instanceVar, Expr.isVar]
  | index target index => cases index <;> rfl
  | ternary condition middle otherwise => cases middle <;> rfl
  | _ => rfl

theorem isConditional_renamed (e : Expr) :
    config'.isConditional (e.renamed ρ) = config.isConditional e := by
  cases e with
  | methodCall target method args nullsafe =>
    simp only [Expr.renamed, isConditional, keeps.instanceVar, Expr.isVar_renamed,
      keeps.conditionalValue]
  | index target index => cases index <;> rfl
  | ternary condition middle otherwise => cases middle <;> rfl
  | _ => rfl

omit keeps in
theorem argument?_renamed (args : List Expr) (index : Nat) :
    argument? (renamedArgs ρ args) index = (argument? args index).map (Expr.renamed ρ) := by
  unfold argument?
  rw [renamedArgs_eq_map, List.getElem?_map]
  cases args[index]? with
  | none => rfl
  | some arg => exact arg.callResult?_renamed ρ

theorem head?_isConditional_renamed (args : List Expr) :
    (renamedArgs ρ args).head?.any config'.isConditional =
      args.head?.any config.isConditional := by
  cases args with
  | nil => rfl
  | cons arg rest => exact isConditional_renamed keeps arg

theorem read?_renamedCall (target : Expr) (method : String) (args : List Expr) (nullsafe : Bool) :
    config'.read? ((Expr.methodCall target method args nullsafe).renamed ρ) =
      if !target.isVar config.instanceVar then none
      else if config.isConditionalField method then
        (argument? args 1).bind fun value =>
          (config'.read? (value.renamed ρ)).map fun r => { r with optional := true }
      else if config.isMerge method then
        (argument? args 0).map fun content => ⟨.splice (content.renamed ρ), false⟩
      else if config.isConditionalMerge method then
        (argument? args 1).map fun content => ⟨.splice (content.renamed ρ), true⟩
      else none := by
  have argument (index : Nat) := argument?_renamed (ρ := ρ) args index
  rw [Expr.renamed, read?, keeps.instanceVar, Expr.isVar_renamed, keeps.conditionalField,
    keeps.merge, keeps.conditionalMerge, argument 0, Option.map_map]
  congr 2
  · split
    · next missing => rw [Option.map_eq_none_iff.1 ((argument 1).symm.trans missing)]; rfl
    · next value found =>
      obtain ⟨value, here, rfl⟩ := Option.map_eq_some_iff.1 ((argument 1).symm.trans found)
      rw [here]
      rfl
  · rw [argument 1, Option.map_map]
    rfl

theorem read?_renamed (e : Expr) :
    config'.read? (e.renamed ρ) = (config.read? e).map (Reading.renamed ρ) := by
  fun_induction config.read? e with
  | case1 | case5 =>
    rw [Expr.renamed, read?]
    rfl
  | case2 target name nullsafe here | case3 target name nullsafe here =>
    have same := readsInstance_renamed keeps (.property target name nullsafe)
    rw [Expr.renamed] at same ⊢
    rw [read?, same]
    simp [here, Reading.renamed, Contribution.renamed]
  | case4 owner args =>
    rw [Expr.renamed, read?, head?_isConditional_renamed keeps]
    rfl
  | case6 target method args nullsafe other =>
    rw [read?_renamedCall keeps, if_pos other]
    rfl
  | case7 target method args nullsafe here field missing =>
    rw [read?_renamedCall keeps, if_neg here, if_pos field, missing]
    rfl
  | case8 target method args nullsafe here field value found ih =>
    rw [read?_renamedCall keeps, if_neg here, if_pos field, found, Option.bind_some, ih,
      Option.map_map, Option.map_map]
    rfl
  | case9 target method args nullsafe here noField merge =>
    rw [read?_renamedCall keeps, if_neg here, if_neg noField, if_pos merge, Option.map_map]
    rfl
  | case10 target method args nullsafe here noField noMerge merge =>
    rw [read?_renamedCall keeps, if_neg here, if_neg noField, if_neg noMerge, if_pos merge,
      Option.map_map]
    rfl
  | case11 target method args nullsafe here noField noMerge noMerge' =>
    rw [read?_renamedCall keeps, if_neg here, if_neg noField, if_neg noMerge, if_neg noMerge']
    rfl
  | case12 e =>
    cases e with
    | index target index => cases index <;> grind [Expr.renamed, read?]
    | ternary condition middle otherwise => cases middle <;> grind [Expr.renamed, read?]
    | _ => grind [Expr.renamed, read?]

end Config

namespace Config

variable {ρ} {config config' : Config} (keeps : ρ.Keeps config config')

include keeps

theorem outline_renamed : ∀ items : List ArrayItem,
    config'.outline (renamedItems ρ items) = mapOwnersOf ρ.owner (config.outline items)
  | [] => by rw [renamedItems, outline, outline, mapOwnersOf]
  | .mk key value true :: rest => by
    rw [renamedItems_cons, outline, outline, if_pos rfl, if_pos rfl]
    exact outline_renamed rest
  | .mk key value false :: rest => by
    have later := outline_renamed rest
    have literal : (key.map (Expr.renamed ρ)).bind Expr.literal? = key.bind Expr.literal? := by
      cases key with
      | none => rfl
      | some key => exact key.literal?_renamed ρ
    rw [renamedItems_cons, Inference.outline_cons, Inference.outline_cons, read?_renamed keeps,
      literal, Option.isSome_map]
    cases read : config.read? value with
    | none => exact later
    | some reading =>
      have less := nodes_lt_of_read? read
      obtain ⟨content, optional⟩ := reading
      cases content with
      | literal | scalar | construct owner =>
        exact congrArg (List.cons _) later
      | record inner =>
        have within := outline_renamed inner
        simp only [Option.map_some, Reading.renamed, Contribution.renamed, within, later,
          mapOwnersOf, Outline.mapOwners]
      | splice content =>
        cases hk : key.isSome with
        | true => simpa [Reading.renamed, Contribution.renamed, hk] using later
        | false =>
          cases content with
          | array inner =>
            have within := outline_renamed inner
            simp [Reading.renamed, Contribution.renamed, Expr.renamed, within, later,
              mapOwnersOf]
          | index target index => cases index <;> exact later
          | ternary condition middle otherwise => cases middle <;> exact later
          | _ => exact later
termination_by items => nodesOfItems items
decreasing_by
  · cases key <;> simp only [nodesOfItems] <;> omega
  · cases key <;> simp only [nodesOfItems] <;> omega
  · simp only [Contribution.nodes] at less
    cases key <;> simp only [nodesOfItems] <;> omega
  · simp only [Contribution.nodes, Expr.nodes] at less
    cases key <;> simp only [nodesOfItems] <;> omega

end Config

end ResponseShape
