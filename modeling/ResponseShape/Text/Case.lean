/-!
Comparing names without regard to case. Only the ASCII letters have two cases here.
-/

namespace ResponseShape.Text

def foldCase (s : String) : String := String.ofList (s.toList.map Char.toLower)

def sameIgnoringCase (a b : String) : Bool := foldCase a == foldCase b

theorem sameIgnoringCase_iff {a b : String} :
    sameIgnoringCase a b = true ↔ foldCase a = foldCase b := by
  simp [sameIgnoringCase]

end ResponseShape.Text
