import ResponseShape.Inference.Config
import ResponseShape.Source.Returns

/-!
The outline of an array: what each entry contributes, as far as the text of the array alone tells.
Reading a value looks through the idioms around it; an outline holds no expressions any more, and
only the classes it constructs are left to look up. Main statement: `nodes_lt_of_read?`, by which
outlines are finite.
-/

namespace ResponseShape

inductive Contribution where
  | literal
  /-- A property of the instance, of unknown type. -/
  | scalar
  | construct (owner : Name)
  | record (items : List ArrayItem)
  /-- The entries of another array, if the content is one. -/
  | splice (content : Expr)

structure Reading where
  content : Contribution
  optional : Bool

mutual

inductive Outline where
  | literal
  | scalar
  | construct (owner : Name)
  | record (entries : List OutlineEntry)

inductive OutlineEntry where
  /-- A field; its key is known if it is a literal. -/
  | field (key : Option String) (outline : Outline) (optional : Bool)
  | splice (entries : List OutlineEntry) (optional : Bool)

end

namespace Config

/-- `$this->x` or `$this->x->y`. -/
def readsInstance (config : Config) : Expr → Bool
  | .property (.property target _ _) _ _ => target.isVar config.instanceVar
  | .property target _ _ => target.isVar config.instanceVar
  | _ => false

/-- `$this->whenLoaded(...)` and its like. -/
def isConditional (config : Config) : Expr → Bool
  | .methodCall target method _ _ =>
    target.isVar config.instanceVar && config.isConditionalValue method
  | _ => false

def argument? (args : List Expr) (index : Nat) : Option Expr :=
  args[index]?.bind Expr.callResult?

theorem nodes_le_of_argument? {args : List Expr} {index : Nat} {value : Expr}
    (h : argument? args index = some value) : value.nodes ≤ nodesOfArgs args := by
  obtain ⟨arg, ha, hu⟩ := Option.bind_eq_some_iff.1 h
  exact Nat.le_trans (nodes_le_of_callResult? hu)
    (nodes_le_nodesOfArgs (List.mem_of_getElem? ha))

def read? (config : Config) (value : Expr) : Option Reading :=
  match value with
  | .string _ => some ⟨.literal, false⟩
  | .property target name nullsafe =>
    if config.readsInstance (.property target name nullsafe) then some ⟨.scalar, false⟩
    else none
  | .new owner args => some ⟨.construct owner, args.head?.any config.isConditional⟩
  | .array items => some ⟨.record items, false⟩
  | .methodCall target method args _ =>
    if !target.isVar config.instanceVar then none
    else if config.isConditionalField method then
      match _h : argument? args 1 with
      | none => none
      | some value => (config.read? value).map fun r => { r with optional := true }
    else if config.isMerge method then
      (argument? args 0).map fun content => ⟨.splice content, false⟩
    else if config.isConditionalMerge method then
      (argument? args 1).map fun content => ⟨.splice content, true⟩
    else none
  | _ => none
termination_by value.nodes
decreasing_by
  have := nodes_le_of_argument? ‹_›
  simp only [Expr.nodes]
  omega

/-- How many nodes a contribution holds of the value it was read from. -/
def Contribution.nodes : Contribution → Nat
  | .record items => nodesOfItems items
  | .splice content => content.nodes
  | _ => 0

theorem nodes_lt_of_read? {config : Config} {value : Expr} {r : Reading}
    (h : config.read? value = some r) : Contribution.nodes r.content < value.nodes := by
  fun_induction read? config value generalizing r with
  | case1 => cases h; simp [Contribution.nodes, Expr.nodes]
  | case2 => cases h; simp [Contribution.nodes, Expr.nodes]
  | case3 => cases h
  | case4 => cases h; simp [Contribution.nodes, Expr.nodes]
  | case5 => cases h; simp [Contribution.nodes, Expr.nodes]
  | case6 => cases h
  | case7 => cases h
  | case8 target method args _ _ _ value ha ih =>
    obtain ⟨r', hr, rfl⟩ := Option.map_eq_some_iff.1 h
    have := ih hr
    have := nodes_le_of_argument? ha
    simp only [Expr.nodes]
    omega
  | case9 target method args =>
    obtain ⟨content, hc, rfl⟩ := Option.map_eq_some_iff.1 h
    have := nodes_le_of_argument? hc
    simp only [Contribution.nodes, Expr.nodes]
    omega
  | case10 target method args =>
    obtain ⟨content, hc, rfl⟩ := Option.map_eq_some_iff.1 h
    have := nodes_le_of_argument? hc
    simp only [Contribution.nodes, Expr.nodes]
    omega
  | case11 => cases h
  | case12 => cases h

/-- The outline entries of an array. Items that spread their value are left out, and so is a
splice that has a key or whose content is no array. -/
def outline (config : Config) (items : List ArrayItem) : List OutlineEntry :=
  match items with
  | [] => []
  | .mk key value unpacked :: rest =>
    let later := config.outline rest
    if unpacked then later
    else
      let literal := key.bind Expr.literal?
      match _h : config.read? value with
      | none => later
      | some ⟨.literal, optional⟩ => .field literal .literal optional :: later
      | some ⟨.scalar, optional⟩ => .field literal .scalar optional :: later
      | some ⟨.construct owner, optional⟩ => .field literal (.construct owner) optional :: later
      | some ⟨.record inner, optional⟩ =>
        .field literal (.record (config.outline inner)) optional :: later
      | some ⟨.splice (.array inner), optional⟩ =>
        if key.isSome then later else .splice (config.outline inner) optional :: later
      | some ⟨.splice _, _⟩ => later
termination_by nodesOfItems items
decreasing_by
  · cases key <;> simp only [nodesOfItems] <;> omega
  · have := nodes_lt_of_read? ‹_›
    simp only [Contribution.nodes] at this
    cases key <;> simp only [nodesOfItems] <;> omega
  · have := nodes_lt_of_read? ‹_›
    simp only [Contribution.nodes, Expr.nodes] at this
    cases key <;> simp only [nodesOfItems] <;> omega

end Config

end ResponseShape
