import ResponseShape.Json.Value

/-!
Filters of the jq language that select parts of a document. A filter answers one JSON value with a
list of them, or fails.
-/

namespace ResponseShape

inductive Access where
  | field (name : String)
  /-- An item of an array; a negative index counts from the end, and one whose magnitude takes more
  than 63 bits fits no array. -/
  | index (n : Int)
  | each
  deriving DecidableEq, Repr

inductive Filter where
  | identity
  /-- A part of what the base answers. An optional access that fails answers nothing. -/
  | access (base : Filter) (part : Access) (optional : Bool)
  | pipe (first second : Filter)
  | both (first second : Filter)
  | keys
  | length
  | empty
  deriving DecidableEq, Repr

namespace Access

def parts? : Access → Json → Option (List Json)
  | field name, .object members => some [(Association.find? name members).getD .null]
  | index n, .array items =>
    let i := if n < 0 then n + items.length else n
    if Nat.pow 2 63 ≤ n.natAbs then none
    else some [if i < 0 then .null else items[i.toNat]?.getD .null]
  | each, .array items => some items
  | each, .object members => some (members.map Prod.snd)
  | _, _ => none

end Access

/-- The magnitude of a number. A whole number of more than 63 bits is taken as a real one, and the
least of 64 bits, whose magnitude has no room, stays as it is. -/
def JsonNumber.magnitude : JsonNumber → JsonNumber
  | .whole n =>
    if n < Nat.pow 2 63 then .whole (Int.bmod n.natAbs (Nat.pow 2 64))
    else .real (.ofRatio n.toNat 1)
  | .real x => .real (if x.isNegative then x.neg else x)

namespace Filter

def keys? : Json → Option Json
  | .object members => some (.strings ((members.map Prod.fst).mergeSort (· ≤ ·)))
  | .array items => some (.array ((List.range items.length).map Json.nat))
  | _ => none

/-- The size of a value. That of a number is its magnitude. -/
def length? : Json → Option Json
  | .null => some (.nat 0)
  | .string s => some (.nat s.length)
  | .array items => some (.nat items.length)
  | .object members => some (.nat members.length)
  | .number n => some (.number n.magnitude)
  | .bool _ => none

def run? : Filter → Json → Option (List Json)
  | identity, j => some [j]
  | access base part optional, j => do
    let found ← base.run? j
    let parts ← found.mapM fun value => (part.parts? value).or (if optional then some [] else none)
    return parts.flatten
  | pipe first second, j => do
    let found ← first.run? j
    return (← found.mapM second.run?).flatten
  | both first second, j => do return (← first.run? j) ++ (← second.run? j)
  | keys, j => (keys? j).map ([·])
  | length, j => (length? j).map ([·])
  | empty, _ => some []

end Filter

end ResponseShape
