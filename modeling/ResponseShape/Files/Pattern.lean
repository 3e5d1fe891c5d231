/-!
Patterns for names: `?` stands for any character, `*` for any run of them, `[a-c]` and `[!a-c]` for
one character in or out of a set. A step `**` stands for any number of directories.
-/

namespace ResponseShape

inductive PatternFault where
  | tooManyStars
  /-- Two stars next to something else than slashes. -/
  | partialStep
  | openSet
  deriving DecidableEq, Repr

def PatternFault.message : PatternFault → String
  | tooManyStars => "wildcards are either regular \x60*\x60 or recursive \x60**\x60"
  | partialStep => "recursive wildcards must form a single path component"
  | openSet => "invalid range pattern"

structure PatternError where
  fault : PatternFault
  /-- The characters in front of the fault. -/
  position : Nat
  deriving DecidableEq, Repr

def PatternError.message (e : PatternError) : String :=
  "Pattern syntax error near position " ++ Nat.repr e.position ++ ": " ++ e.fault.message

inductive PatternToken where
  | char (c : Char)
  | anyChar
  | anyRun
  | anyDirectories
  | oneOf (ranges : List (Char × Char)) (negated : Bool)
  deriving DecidableEq, Repr

def PatternToken.char? : PatternToken → Option Char
  | char c => some c
  | _ => none

abbrev Pattern := List PatternToken

namespace Pattern

def rangesOf : List Char → List (Char × Char)
  | [] => []
  | low :: '-' :: high :: rest => (low, high) :: rangesOf rest
  | c :: rest => (c, c) :: rangesOf rest

/-- The set behind an opening bracket, and how many characters it takes. A set is not empty, so
that a closing bracket can come first in it. -/
def set? (rest : List Char) : Option (PatternToken × Nat) :=
  match rest with
  | '!' :: rest => (closed? rest).map fun r => (.oneOf (rangesOf r) true, r.length + 2)
  | rest => (closed? rest).map fun r => (.oneOf (rangesOf r) false, r.length + 1)
where
  /-- What stands before the first closing bracket that is not in front. -/
  closed? : List Char → Option (List Char)
    | [] => none
    | first :: more =>
      let inner := more.takeWhile (· ≠ ']')
      if inner.length < more.length then some (first :: inner) else none

def stars (position count : Nat) (before? : Option Char) (after? : Option Char) :
    Except PatternError PatternToken :=
  if count = 1 then .ok .anyRun
  else if 2 < count then .error ⟨.tooManyStars, position + 2⟩
  else
    match before?, after? with
    | some before, some after =>
      if before ≠ '/' then .error ⟨.partialStep, position - 1⟩
      else if after ≠ '/' then .error ⟨.partialStep, position + 2⟩
      else .ok .anyDirectories
    | some before, none =>
      if before ≠ '/' then .error ⟨.partialStep, position - 1⟩ else .ok .anyDirectories
    | none, some after =>
      if after ≠ '/' then .error ⟨.partialStep, position + 2⟩ else .ok .anyDirectories
    | none, none => .ok .anyDirectories

def tokens (position : Nat) (before? : Option Char) (text : List Char) :
    Except PatternError Pattern :=
  match text with
  | [] => .ok []
  | '?' :: rest => (tokens (position + 1) (some '?') rest).map (.anyChar :: ·)
  | '*' :: rest => do
    let more := rest.takeWhile (· = '*')
    let behind := rest.drop more.length
    let token ← stars position (more.length + 1) before? behind.head?
    return token :: (← tokens (position + more.length + 1) (some '*') behind)
  | '[' :: rest =>
    match set? rest with
    | none => .error ⟨.openSet, position⟩
    | some (token, taken) =>
      (tokens (position + 1 + taken) (some ']') (rest.drop taken)).map (token :: ·)
  | c :: rest => (tokens (position + 1) (some c) rest).map (.char c :: ·)
termination_by text.length
decreasing_by all_goals simp +arith

def ofText (text : String) : Except PatternError Pattern := tokens 0 none text.toList

def isRecursive (p : Pattern) : Bool := p.contains .anyDirectories

def literal? (p : Pattern) : Option String := (p.mapM PatternToken.char?).map String.ofList

def fitsChar (c : Char) : PatternToken → Bool
  | .char d => c == d
  | .anyChar => true
  | .oneOf ranges negated => ranges.any (fun r => r.1 ≤ c && c ≤ r.2) != negated
  | .anyRun | .anyDirectories => false

def tails : List Char → List (List Char)
  | [] => [[]]
  | c :: rest => (c :: rest) :: tails rest

def fits : Pattern → List Char → Bool
  | [], name => name.isEmpty
  | .anyRun :: rest, name | .anyDirectories :: rest, name => (tails name).any (fits rest)
  | _ :: _, [] => false
  | token :: rest, c :: name => fitsChar c token && fits rest name

def fitsName (p : Pattern) (name : String) : Bool := p.fits name.toList

end Pattern

end ResponseShape
