import ResponseShape.Text.Blank

/-!
Tokens of a filter. A name belongs to the point before it only where nothing stands between them.
-/

namespace ResponseShape

inductive FilterToken where
  | point
  /-- A point and the name right behind it. -/
  | field (name : String)
  | word (name : String)
  | number (n : Nat)
  | text (s : String)
  | opening
  | closing
  | comma
  | question
  /-- A run of operator signs, or two points. -/
  | operator (signs : String)
  deriving DecidableEq, Repr

namespace FilterToken

def isNameStart (c : Char) : Bool := c.isAlpha || c = '_'

def isNameChar (c : Char) : Bool := c.isAlphanum || c = '_'

def isOperatorSign (c : Char) : Bool := "|=!<>+-*/%".toList.contains c

def hexValue? (c : Char) : Option Nat :=
  if c.isDigit then some (c.toNat - 48)
  else if 'a' ≤ c ∧ c ≤ 'f' then some (c.toNat - 87)
  else if 'A' ≤ c ∧ c ≤ 'F' then some (c.toNat - 55)
  else none

/-- The character of an escape by number. A surrogate is none, not even in a pair. -/
def numbered? (a b c d : Char) : Option Char := do
  let n := (((← hexValue? a) * 16 + (← hexValue? b)) * 16 + (← hexValue? c)) * 16 + (← hexValue? d)
  if 0xD800 ≤ n ∧ n ≤ 0xDFFF then none else some (Char.ofNat n)

def unescape? (c : Char) : Option Char :=
  if c = '"' ∨ c = '\\' ∨ c = '/' then some c
  else if c = 'b' then some '\x08'
  else if c = 'f' then some '\x0c'
  else if c = 'n' then some '\n'
  else if c = 'r' then some '\r'
  else if c = 't' then some '\t'
  else none

def string? : List Char → Option (List Char × List Char)
  | [] => none
  | '"' :: rest => some ([], rest)
  | '\\' :: 'u' :: a :: b :: c :: d :: rest => do
    let shown ← numbered? a b c d
    let (value, rest) ← string? rest
    return (shown :: value, rest)
  | '\\' :: c :: rest => do
    let shown ← unescape? c
    let (value, rest) ← string? rest
    return (shown :: value, rest)
  | c :: rest => do
    let (value, rest) ← string? rest
    return (c :: value, rest)

def run (p : Char → Bool) (token : List Char → FilterToken) (input : List Char) :
    FilterToken × List Char :=
  (token (input.takeWhile p), input.dropWhile p)

def afterPoint : List Char → FilterToken × List Char
  | [] => (.point, [])
  | c :: rest =>
    if isNameStart c then run isNameChar (fun name => .field (String.ofList name)) (c :: rest)
    else if c = '.' then (.operator "..", rest)
    else (.point, c :: rest)

def ofDigits (digits : List Char) : FilterToken :=
  .number (digits.foldl (fun n c => n * 10 + (c.toNat - 48)) 0)

def first? : List Char → Option (FilterToken × List Char)
  | [] => none
  | c :: rest =>
    if c = '.' then some (afterPoint rest)
    else if c = '"' then (string? rest).map fun r => (.text (String.ofList r.1), r.2)
    else if isNameStart c then
      some (run isNameChar (fun name => .word (String.ofList name)) (c :: rest))
    else if c.isDigit then some (run Char.isDigit ofDigits (c :: rest))
    else if isOperatorSign c then
      some (run isOperatorSign (fun signs => .operator (String.ofList signs)) (c :: rest))
    else if c = '[' then some (.opening, rest)
    else if c = ']' then some (.closing, rest)
    else if c = ',' then some (.comma, rest)
    else if c = '?' then some (.question, rest)
    else none

/-- The tokens of a text, of which each takes a character at least. -/
def ofChars? : Nat → List Char → Option (List FilterToken)
  | 0, _ => none
  | fuel + 1, input =>
    match input.dropWhile Text.isBlank with
    | [] => some []
    | c :: rest => do
      let (token, rest) ← first? (c :: rest)
      return token :: (← ofChars? fuel rest)

def ofText? (input : String) : Option (List FilterToken) :=
  ofChars? (input.length + 1) input.toList

end FilterToken

end ResponseShape
