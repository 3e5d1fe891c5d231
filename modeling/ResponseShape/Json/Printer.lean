import ResponseShape.Json.Value
import ResponseShape.Number.Shortest

/-!
JSON text, on one line or indented by two spaces. Control characters, the quote and the backslash
are escaped, everything else is written as it is.
-/

namespace ResponseShape

namespace JsonNumber

/-- The shortest digits, positional from 0.00001 up to sixteen whole digits, with a signed exponent
otherwise. -/
def layout (d : Decimal) : String :=
  let digits := Nat.repr d.digits
  let count : Int := digits.length
  let point := count + d.exponent
  let zeros := fun n : Int => String.ofList (List.replicate n.toNat '0')
  if 0 ≤ d.exponent ∧ point ≤ 16 then digits ++ zeros d.exponent ++ ".0"
  else if 0 < point ∧ point ≤ 16 then
    String.ofList (digits.toList.take point.toNat) ++ "."
      ++ String.ofList (digits.toList.drop point.toNat)
  else if -5 < point ∧ point ≤ 0 then "0." ++ zeros (-point) ++ digits
  else
    let tail := digits.toList.drop 1
    String.ofList (digits.toList.take 1)
      ++ (if tail.isEmpty then "" else "." ++ String.ofList tail)
      ++ (if 0 < point then "e+" else "e") ++ toString (point - 1)

def render : JsonNumber → String
  | .whole n => toString n
  | .real x =>
    if !x.isFinite then "null"
    else (if x.isNegative then "-" else "")
      ++ (if x.isZero then "0.0" else layout (Decimal.shortest x))

end JsonNumber

namespace Json

def hexDigit (n : Nat) : Char := if n < 10 then Char.ofNat (48 + n) else Char.ofNat (87 + n)

def escape (c : Char) : List Char :=
  if c = '"' then ['\\', '"']
  else if c = '\\' then ['\\', '\\']
  else if c = '\n' then ['\\', 'n']
  else if c = '\r' then ['\\', 'r']
  else if c = '\t' then ['\\', 't']
  else if c = '\x08' then ['\\', 'b']
  else if c = '\x0c' then ['\\', 'f']
  else if c.toNat < 0x20 then
    ['\\', 'u', '0', '0', hexDigit (c.toNat / 16), hexDigit (c.toNat % 16)]
  else [c]

def quote (s : String) : String :=
  String.ofList ('"' :: s.toList.flatMap escape ++ ['"'])

mutual

def render : Json → String
  | .null => "null"
  | .bool true => "true"
  | .bool false => "false"
  | .number n => n.render
  | .string s => quote s
  | .array items => "[" ++ ",".intercalate (renderItems items) ++ "]"
  | .object members => "\x7b" ++ ",".intercalate (renderMembers members) ++ "\x7d"

def renderItems : List Json → List String
  | [] => []
  | item :: rest => item.render :: renderItems rest

def renderMembers : List (String × Json) → List String
  | [] => []
  | (key, value) :: rest => (quote key ++ ":" ++ value.render) :: renderMembers rest

end

def block (opening closing : String) (indent : Nat) (parts : List String) : String :=
  let margin := fun n => String.ofList (List.replicate (2 * n) ' ')
  if parts.isEmpty then opening ++ closing
  else opening ++ "\n" ++ ",\n".intercalate (parts.map (margin (indent + 1) ++ ·)) ++ "\n"
    ++ margin indent ++ closing

mutual

def prettyAt (indent : Nat) : Json → String
  | .null => "null"
  | .bool true => "true"
  | .bool false => "false"
  | .number n => n.render
  | .string s => quote s
  | .array items => block "[" "]" indent (prettyItems (indent + 1) items)
  | .object members => block "\x7b" "\x7d" indent (prettyMembers (indent + 1) members)

def prettyItems (indent : Nat) : List Json → List String
  | [] => []
  | item :: rest => item.prettyAt indent :: prettyItems indent rest

def prettyMembers (indent : Nat) : List (String × Json) → List String
  | [] => []
  | (key, value) :: rest =>
    (quote key ++ ": " ++ value.prettyAt indent) :: prettyMembers indent rest

end

def pretty (j : Json) : String := j.prettyAt 0

end Json

end ResponseShape
