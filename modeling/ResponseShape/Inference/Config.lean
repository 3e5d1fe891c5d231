import ResponseShape.Text.Case

/-!
The names by which inference recognises the idioms of resource classes. Method names are compared
without regard to case.
-/

namespace ResponseShape

structure Config where
  /-- The method whose returned array is the body of the response. -/
  method : String
  /-- The variable that holds the instance inside that method. -/
  instanceVar : String
  /-- `when(condition, value)`: one optional field. -/
  conditionalField : List String
  /-- `merge([...])`: the entries of another array in its place. -/
  merge : List String
  /-- `mergeWhen(condition, [...])`: the same, with all fields optional. -/
  conditionalMerge : List String
  /-- Calls whose value may be missing. A class constructed from one is an optional field. -/
  conditionalValue : List String
  deriving DecidableEq, Repr

namespace Config

def standard : Config where
  method := "toArray"
  instanceVar := "this"
  conditionalField := ["when"]
  merge := ["merge"]
  conditionalMerge := ["mergeWhen"]
  conditionalValue :=
    ["when", "whenLoaded", "whenNotNull", "whenHas", "whenCounted", "whenPivotLoaded"]

instance : Inhabited Config := ⟨standard⟩

def names (table : List String) (method : String) : Bool :=
  table.any fun name => Text.sameIgnoringCase name method

def isConditionalField (c : Config) (method : String) : Bool := names c.conditionalField method

def isMerge (c : Config) (method : String) : Bool := names c.merge method

def isConditionalMerge (c : Config) (method : String) : Bool := names c.conditionalMerge method

def isConditionalValue (c : Config) (method : String) : Bool := names c.conditionalValue method

end Config

end ResponseShape
