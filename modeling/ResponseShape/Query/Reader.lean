import ResponseShape.Json.Reread
import ResponseShape.Query.Basic
import ResponseShape.Query.Token

/-!
The text of filters: accesses bind most tightly, then the comma, then the pipe.
-/

namespace ResponseShape

namespace Filter

/-- A filter with the accesses that follow it, and the tokens that are none. -/
def accesses : Filter → List FilterToken → Filter × List FilterToken
  | base, .opening :: .closing :: rest => accesses (.access base .each false) rest
  | base, .opening :: .text key :: .closing :: rest =>
    accesses (.access base (.field key) false) rest
  | base, .opening :: .number n :: .closing :: rest => accesses (.access base (.index n) false) rest
  | base, .opening :: .operator "-" :: .number n :: .closing :: rest =>
    accesses (.access base (.index (-n)) false) rest
  | base, .point :: .text key :: rest => accesses (.access base (.field key) false) rest
  | base, .field name :: rest => accesses (.access base (.field name) false) rest
  | .access base part _, .question :: rest => accesses (.access base part true) rest
  | base, rest => (base, rest)

def function? (name : String) : Option Filter :=
  match name with
  | "keys" => some .keys
  | "length" => some .length
  | "empty" => some .empty
  | _ => none

def term? (tokens : List FilterToken) : Option Filter := do
  let (found, rest) ←
    match tokens with
    | .point :: .text key :: rest => some (accesses (.access .identity (.field key) false) rest)
    | .point :: rest => some (accesses .identity rest)
    | .field name :: rest => some (accesses (.access .identity (.field name) false) rest)
    | .word name :: rest => (function? name).map (accesses · rest)
    | _ => none
  if rest.isEmpty then some found else none

def joined? (join : Filter → Filter → Filter) : List Filter → Option Filter
  | [] => none
  | [f] => some f
  | f :: rest => (joined? join rest).map (join f)

def alternatives? (tokens : List FilterToken) : Option Filter := do
  joined? .both (← (tokens.splitOn .comma).mapM term?)

def ofTokens? (tokens : List FilterToken) : Option Filter := do
  joined? .pipe (← (tokens.splitOn (.operator "|")).mapM alternatives?)

def ofText? (text : String) : Option Filter := FilterToken.ofText? text >>= ofTokens?

end Filter

namespace Query

/-- How many containers at most may lie within each other in an answer. -/
def depthLimit : Nat := 127

def answers? (filter : String) (document : Json) : Option (List Json) := do
  let found ← (← Filter.ofText? filter).run? document
  found.mapM (Json.reread? depthLimit)

end Query

end ResponseShape
