import ResponseShape.Json.Value

/-!
Reading JSON from bytes. The pieces (blanks, words, numbers, strings, passed-over values) stand
by themselves, so that a decoder for one type can read a text in its own order and report what it
meets; `Json.parse?` reads any value with them.
-/

namespace ResponseShape.Json.Reader

abbrev Bytes := List UInt8

def code (c : Char) : UInt8 := c.toUInt8

def isBlank (b : UInt8) : Bool :=
  b == code ' ' || b == code '\n' || b == code '\t' || b == code '\r'

def skipBlank (input : Bytes) : Bytes := input.dropWhile isBlank

def isDigit (b : UInt8) : Bool := code '0' ≤ b && b ≤ code '9'

def digit (b : UInt8) : Nat := b.toNat - 48

def word? (text : String) (input : Bytes) : Option Bytes :=
  let expected := text.toList.map code
  if expected.isPrefixOf input then some (input.drop expected.length) else none

/-- Appends digits to a significand for as long as it fits 64 bits, and counts those it took. -/
def absorb : Nat → Bytes → Nat × Nat
  | significand, [] => (significand, 0)
  | significand, b :: rest =>
    let next := significand * 10 + digit b
    if next < Nat.pow 2 64 then
      let (value, taken) := absorb next rest
      (value, taken + 1)
    else (significand, 0)

def powerOfTen (n : Nat) : Binary64 := .ofRatio (Nat.pow 10 n) 1

/-- Divides by a power of ten in steps that each fit the format. Four steps bring any significand
to zero. -/
def divideDown : Nat → Binary64 → Nat → Binary64
  | 0, _, _ => ⟨0⟩
  | fuel + 1, x, n =>
    if n ≤ 308 then x.divMagnitude (powerOfTen n)
    else if x.isZero then x
    else divideDown fuel (x.divMagnitude (powerOfTen 308)) (n - 308)

/-- The significand times a power of ten, each rounded before they meet; `none` beyond the greatest
number. -/
def scale? (significand : Nat) (exponent : Int) : Option Binary64 :=
  let x := Binary64.ofRatio significand 1
  if exponent < 0 then some (divideDown 4 x (-exponent).toNat)
  else if x.isZero then some x
  else if 308 < exponent then none
  else
    let scaled := x.mulMagnitude (powerOfTen exponent.toNat)
    if scaled.isFinite then some scaled else none

def signed (negative : Bool) (x : Binary64) : Binary64 := if negative then x.neg else x

/-- A number without point and exponent whose digits all fit. Minus zero, and what lies below the
least 64-bit integer, is a real. -/
def ofWhole (negative : Bool) (significand : Nat) : JsonNumber :=
  if !negative then .whole significand
  else if 0 < significand ∧ significand ≤ Nat.pow 2 63 then .whole (-significand)
  else .real (Binary64.ofRatio significand 1).neg

def fraction? : Bytes → Option (Option Bytes × Bytes)
  | [] => some (none, [])
  | b :: rest =>
    if b == code '.' then
      let digits := rest.takeWhile isDigit
      if digits.isEmpty then none else some (some digits, rest.drop digits.length)
    else some (none, b :: rest)

def exponent? : Bytes → Option (Option Int × Bytes)
  | [] => some (none, [])
  | b :: rest =>
    if b == code 'e' || b == code 'E' then
      let (negative, rest) :=
        match rest with
        | [] => (false, [])
        | s :: after =>
          if s == code '-' then (true, after)
          else if s == code '+' then (false, after)
          else (false, rest)
      let digits := rest.takeWhile isDigit
      if digits.isEmpty then none
      else
        let n : Nat := digits.foldl (fun n b => n * 10 + digit b) 0
        some (some (if negative then -n else n), rest.drop digits.length)
    else some (none, b :: rest)

def number? (input : Bytes) : Option (JsonNumber × Bytes) := do
  let (negative, input) :=
    match input with
    | [] => (false, [])
    | b :: rest => if b == code '-' then (true, rest) else (false, input)
  let digits := input.takeWhile isDigit
  let leading ← digits.head?
  if leading == code '0' && digits.length > 1 then none
  let (fractional, rest) ← fraction? (input.drop digits.length)
  let (exponent, rest) ← exponent? rest
  let (significand, taken) := absorb 0 digits
  let dropped := digits.length - taken
  if fractional.isNone && exponent.isNone && dropped == 0 then
    return (ofWhole negative significand, rest)
  let (significand, places) := absorb significand (fractional.getD [])
  let x ← scale? significand (dropped - places + exponent.getD 0)
  return (.real (signed negative x), rest)

def hexValue? (b : UInt8) : Option Nat :=
  if isDigit b then some (digit b)
  else if code 'a' ≤ b && b ≤ code 'f' then some (b.toNat - 87)
  else if code 'A' ≤ b && b ≤ code 'F' then some (b.toNat - 55)
  else none

def unit? : Bytes → Option (Nat × Bytes)
  | a :: b :: c :: d :: rest => do
    let a ← hexValue? a
    let b ← hexValue? b
    let c ← hexValue? c
    let d ← hexValue? d
    return (((a * 16 + b) * 16 + c) * 16 + d, rest)
  | _ => none

/-- The character of an escape by number, where a pair of surrogates stands for one character. -/
def escapedChar? (input : Bytes) : Option (Char × Bytes) := do
  let (high, rest) ← unit? input
  if high < 0xD800 || 0xDFFF < high then return (Char.ofNat high, rest)
  if 0xDBFF < high then none
  let rest ← word? "\\u" rest
  let (low, rest) ← unit? rest
  if low < 0xDC00 || 0xDFFF < low then none
  return (Char.ofNat (0x10000 + (high - 0xD800) * 0x400 + (low - 0xDC00)), rest)

def shortEscape? (b : UInt8) : Option UInt8 :=
  if b == code '"' || b == code '\\' || b == code '/' then some b
  else if b == code 'b' then some 0x08
  else if b == code 'f' then some 0x0C
  else if b == code 'n' then some 0x0A
  else if b == code 'r' then some 0x0D
  else if b == code 't' then some 0x09
  else none

def utf8 (c : Char) : Bytes := (String.singleton c).toUTF8.toList

/-- The bytes up to the closing quote, last first, and what follows it. -/
def stringBytes? : Nat → Bytes → Bytes → Option (Bytes × Bytes)
  | 0, _, _ => none
  | fuel + 1, seen, input =>
    match input with
    | [] => none
    | b :: rest =>
      if b == code '"' then some (seen, rest)
      else if b == code '\\' then
        match rest with
        | [] => none
        | e :: rest =>
          if e == code 'u' then do
            let (c, rest) ← escapedChar? rest
            stringBytes? fuel ((utf8 c).reverse ++ seen) rest
          else do
            let c ← shortEscape? e
            stringBytes? fuel (c :: seen) rest
      else if b < 0x20 then none
      else stringBytes? fuel (b :: seen) rest

def string? (input : Bytes) : Option (String × Bytes) := do
  let (bytes, rest) ← stringBytes? (input.length + 1) [] input
  let text ← String.fromUTF8? ⟨bytes.reverse.toArray⟩
  return (text, rest)

/-- Passes over the rest of a string. Its escapes are checked, its characters are not. -/
def passString? : Nat → Bytes → Option Bytes
  | 0, _ => none
  | fuel + 1, input =>
    match input with
    | [] => none
    | b :: rest =>
      if b == code '"' then some rest
      else if b == code '\\' then
        match rest with
        | [] => none
        | e :: rest =>
          if e == code 'u' then do
            let (_, rest) ← unit? rest
            passString? fuel rest
          else do
            let _ ← shortEscape? e
            passString? fuel rest
      else if b < 0x20 then none
      else passString? fuel rest

def passNumber? (input : Bytes) : Option Bytes := do
  let digits := input.takeWhile isDigit
  let leading ← digits.head?
  if leading == code '0' && digits.length > 1 then none
  let (_, rest) ← fraction? (input.drop digits.length)
  let (_, rest) ← exponent? rest
  return rest

inductive Container where
  | array
  | object
  deriving DecidableEq

inductive Due where
  | value
  | firstItem
  | firstKey
  | next

/-- Passes over one value with the containers open around it, innermost first. -/
def pass? : Nat → Due → List Container → Bytes → Option Bytes
  | 0, _, _, _ => none
  | fuel + 1, due, outer, input =>
    let input := skipBlank input
    match due, outer with
    | .next, [] => some input
    | .next, c :: around =>
      match input with
      | [] => none
      | b :: rest =>
        if b == (if c = .array then code ']' else code '\x7d') then pass? fuel .next around rest
        else if b != code ',' then none
        else if c = .array then pass? fuel .value outer rest
        else passKey? (skipBlank rest) |>.bind (pass? fuel .value outer)
    | .firstItem, _ =>
      match input with
      | [] => none
      | b :: rest =>
        if b == code ']' then pass? fuel .next (outer.drop 1) rest
        else pass? fuel .value outer input
    | .firstKey, _ =>
      match input with
      | [] => none
      | b :: rest =>
        if b == code '\x7d' then pass? fuel .next (outer.drop 1) rest
        else passKey? input |>.bind (pass? fuel .value outer)
    | .value, _ =>
      match input with
      | [] => none
      | b :: rest =>
        if b == code '[' then pass? fuel .firstItem (.array :: outer) rest
        else if b == code '\x7b' then pass? fuel .firstKey (.object :: outer) rest
        else passScalar? b rest |>.bind (pass? fuel .next outer)
where
  passKey? (input : Bytes) : Option Bytes := do
    let rest ← word? "\"" input
    let rest ← passString? (rest.length + 1) rest
    word? ":" (skipBlank rest)
  passScalar? (b : UInt8) (rest : Bytes) : Option Bytes :=
    if b == code '"' then passString? (rest.length + 1) rest
    else if b == code '-' then passNumber? rest
    else if isDigit b then passNumber? (b :: rest)
    else if b == code 'n' then word? "ull" rest
    else if b == code 't' then word? "rue" rest
    else if b == code 'f' then word? "alse" rest
    else none

/-- What follows a value that nobody looks at. Every round reads a byte or closes a container. -/
def passValue? (input : Bytes) : Option Bytes := pass? (2 * input.length + 2) .value [] input

def scalar? (input : Bytes) : Option (Json × Bytes) :=
  match input with
  | [] => none
  | b :: rest =>
    if b == code '"' then (string? rest).map fun r => (.string r.1, r.2)
    else if b == code 'n' then (word? "ull" rest).map fun r => (.null, r)
    else if b == code 't' then (word? "rue" rest).map fun r => (.bool true, r)
    else if b == code 'f' then (word? "alse" rest).map fun r => (.bool false, r)
    else (number? input).map fun r => (.number r.1, r.2)

def items? (value? : Bytes → Option (Json × Bytes)) :
    Nat → List Json → Bytes → Option (List Json × Bytes)
  | 0, _, _ => none
  | fuel + 1, seen, input => do
    let (item, rest) ← value? (skipBlank input)
    match skipBlank rest with
    | [] => none
    | b :: rest =>
      if b == code ']' then some ((item :: seen).reverse, rest)
      else if b == code ',' then items? value? fuel (item :: seen) rest
      else none

def members? (value? : Bytes → Option (Json × Bytes)) :
    Nat → List (String × Json) → Bytes → Option (List (String × Json) × Bytes)
  | 0, _, _ => none
  | fuel + 1, seen, input => do
    let rest ← word? "\"" (skipBlank input)
    let (key, rest) ← string? rest
    let rest ← word? ":" (skipBlank rest)
    let (value, rest) ← value? (skipBlank rest)
    let seen := Association.write key value seen
    match skipBlank rest with
    | [] => none
    | b :: rest =>
      if b == code '\x7d' then some (seen, rest)
      else if b == code ',' then members? value? fuel seen rest
      else none

/-- A value in which at most `depth` containers lie within each other. -/
def value? : Nat → Bytes → Option (Json × Bytes)
  | 0, input =>
    match input with
    | [] => none
    | b :: _ => if b == code '[' || b == code '\x7b' then none else scalar? input
  | depth + 1, input =>
    match input with
    | [] => none
    | b :: rest =>
      if b == code '[' then
        match word? "]" (skipBlank rest) with
        | some rest => some (.array [], rest)
        | none => (items? (value? depth) (rest.length + 1) [] rest).map fun r => (.array r.1, r.2)
      else if b == code '\x7b' then
        match word? "\x7d" (skipBlank rest) with
        | some rest => some (.object [], rest)
        | none =>
          (members? (value? depth) (rest.length + 1) [] rest).map fun r => (.object r.1, r.2)
      else scalar? input

end Reader

def parseWithin? (depth : Nat) (text : String) : Option Json := do
  let (value, rest) ← Reader.value? depth (Reader.skipBlank text.toUTF8.toList)
  if (Reader.skipBlank rest).isEmpty then some value else none

end ResponseShape.Json
