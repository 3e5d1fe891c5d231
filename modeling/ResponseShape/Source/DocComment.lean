import ResponseShape.Text.Blank
import ResponseShape.Text.Letter

/-!
The model class that a documentation comment names, by `@property Model $resource`, by
`@property-read Model $resource` or by `@mixin Model`.
-/

namespace ResponseShape.DocComment

def after? (beginning : String) (text : List Char) : Option (List Char) :=
  let expected := beginning.toList
  if expected.isPrefixOf text then some (text.drop expected.length) else none

def afterBlanks? : List Char → Option (List Char)
  | [] => none
  | c :: rest => if Text.isBlank c then some (rest.dropWhile Text.isBlank) else none

def isNameChar (c : Char) : Bool := Text.isWordChar c || c = '\\'

def className? (text : List Char) : Option (List Char × List Char) :=
  let name := text.takeWhile isNameChar
  if name.isEmpty then none else some (name, text.drop name.length)

def propertyModel? (text : List Char) : Option (List Char) := do
  let rest ← after? "@property" text
  let rest ← afterBlanks? ((after? "-read" rest).getD rest)
  let (name, rest) ← className? rest
  let rest ← after? "$resource" (← afterBlanks? rest)
  if rest.head?.any Text.isWordChar then none else some name

def mixinModel? (text : List Char) : Option (List Char) := do
  let (name, _) ← className? (← afterBlanks? (← after? "@mixin" text))
  return name

def modelInLine? : List Char → Option (List Char)
  | [] => none
  | c :: rest => propertyModel? (c :: rest) <|> mixinModel? (c :: rest) <|> modelInLine? rest

def lines (text : List Char) : List (List Char) :=
  text.splitOn '\n'

/-- The class name as it is written in the first line that names a model. -/
def model? (comment : String) : Option String :=
  ((lines comment.toList).findSome? modelInLine?).map String.ofList

end ResponseShape.DocComment
