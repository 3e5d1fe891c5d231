/-!
Names of PHP classes and functions as they are written. A name is a run of segments between
backslashes; a leading backslash makes it fully qualified and is not kept in its text.
-/

namespace ResponseShape

def separator : Char := '\\'

inductive NameForm where
  | unqualified
  | qualified
  | fullyQualified
  deriving DecidableEq, Repr

structure Name where
  text : String
  form : NameForm
  deriving DecidableEq, Repr

def lastSegment (text : List Char) : List Char :=
  (text.reverse.takeWhile (· ≠ separator)).reverse

def shortName (fullName : String) : String := String.ofList (lastSegment fullName.toList)

namespace Name

def ofWritten (written : String) : Name :=
  match written.toList with
  | [] => ⟨written, .unqualified⟩
  | c :: rest =>
    if c = separator then ⟨String.ofList rest, .fullyQualified⟩
    else if separator ∈ rest then ⟨written, .qualified⟩
    else ⟨written, .unqualified⟩

def last (n : Name) : String := shortName n.text

def first (n : Name) : String := String.ofList (n.text.toList.takeWhile (· ≠ separator))

def afterFirst (n : Name) : String := String.ofList (n.text.toList.dropWhile (· ≠ separator))

end Name

end ResponseShape
