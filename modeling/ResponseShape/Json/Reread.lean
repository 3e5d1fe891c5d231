import ResponseShape.Json.Printer
import ResponseShape.Json.Reader

/-!
Values as they come out of their own text. Reading takes a limited number of containers within each
other, and it rounds twice, so a real number may come out as a neighbour of the one written.
-/

namespace ResponseShape

def JsonNumber.reread? : JsonNumber → Option JsonNumber
  | .whole n => some (.whole n)
  | .real x => (Json.Reader.number? (JsonNumber.real x).render.toUTF8.toList).map Prod.fst

namespace Json

mutual

/-- What the text of a value is read as, with at most `depth` containers within each other. -/
def reread? : Nat → Json → Option Json
  | 0, .array _ | 0, .object _ => none
  | depth + 1, .array items => (rereadItems? depth items).map .array
  | depth + 1, .object members => (rereadMembers? depth members).map .object
  | _, .number n => n.reread?.map .number
  | _, j => some j

def rereadItems? : Nat → List Json → Option (List Json)
  | _, [] => some []
  | depth, item :: rest => do return (← reread? depth item) :: (← rereadItems? depth rest)

def rereadMembers? : Nat → List (String × Json) → Option (List (String × Json))
  | _, [] => some []
  | depth, (key, value) :: rest => do
    return (key, ← reread? depth value) :: (← rereadMembers? depth rest)

end

end Json

end ResponseShape
