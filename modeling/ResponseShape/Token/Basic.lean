import ResponseShape.Number.Binary64
import ResponseShape.Text.Case
import ResponseShape.Text.Position

/-!
Tokens of PHP source. A token knows the text it was written as and where that text begins; the
kind carries what the text means.
-/

namespace ResponseShape

inductive Keyword where
  | kwNamespace
  | kwUse
  | kwAs
  | kwClass
  | kwInterface
  | kwTrait
  | kwAbstract
  | kwFinal
  | kwReadonly
  | kwExtends
  | kwImplements
  | kwFunction
  | kwFn
  | kwPublic
  | kwProtected
  | kwPrivate
  | kwStatic
  | kwConst
  | kwVar
  | kwReturn
  | kwIf
  | kwElseIf
  | kwElse
  | kwForeach
  | kwNew
  | kwInstanceof
  | kwAnd
  | kwOr
  | kwDeclare
  deriving DecidableEq, Repr

namespace Keyword

def spellings : List (String × Keyword) :=
  [("namespace", kwNamespace), ("use", kwUse), ("as", kwAs), ("class", kwClass),
   ("interface", kwInterface), ("trait", kwTrait), ("abstract", kwAbstract), ("final", kwFinal),
   ("readonly", kwReadonly), ("extends", kwExtends), ("implements", kwImplements),
   ("function", kwFunction), ("fn", kwFn), ("public", kwPublic), ("protected", kwProtected),
   ("private", kwPrivate), ("static", kwStatic), ("const", kwConst), ("var", kwVar),
   ("return", kwReturn), ("if", kwIf), ("elseif", kwElseIf), ("else", kwElse),
   ("foreach", kwForeach), ("new", kwNew), ("instanceof", kwInstanceof), ("and", kwAnd),
   ("or", kwOr), ("declare", kwDeclare)]

def ofWord? (word : String) : Option Keyword :=
  spellings.lookup (Text.foldCase word)

end Keyword

inductive Symbol where
  | leftParen
  | rightParen
  | leftBrace
  | rightBrace
  | leftBracket
  | rightBracket
  /-- `#[`, which opens an attribute group. -/
  | attributeOpen
  | comma
  | semicolon
  | colon
  | doubleColon
  | question
  | doubleQuestion
  | arrow
  | nullsafeArrow
  | fatArrow
  | ellipsis
  | dot
  | equal
  | compoundAssign
  | doubleEqual
  | tripleEqual
  | bangEqual
  | bangDoubleEqual
  | less
  | lessEqual
  | greater
  | greaterEqual
  | doubleAmpersand
  | doublePipe
  | ampersand
  | pipe
  | bang
  | plus
  | minus
  | star
  | slash
  | percent
  | atSign
  deriving DecidableEq, Repr

namespace Symbol

/-- All spellings; a longer one stands before those it begins with. -/
def spellings : List (String × Symbol) :=
  [("??=", compoundAssign), ("?->", nullsafeArrow), ("===", tripleEqual),
   ("!==", bangDoubleEqual), ("...", ellipsis), ("->", arrow), ("=>", fatArrow),
   ("::", doubleColon), ("??", doubleQuestion), ("==", doubleEqual), ("!=", bangEqual),
   ("<>", bangEqual), ("<=", lessEqual), (">=", greaterEqual), ("&&", doubleAmpersand),
   ("||", doublePipe), (".=", compoundAssign), ("+=", compoundAssign), ("-=", compoundAssign),
   ("*=", compoundAssign), ("/=", compoundAssign), ("(", leftParen), (")", rightParen),
   ("\x7b", leftBrace), ("\x7d", rightBrace), ("[", leftBracket), ("]", rightBracket),
   (",", comma), (";", semicolon), (":", colon), ("?", question), (".", dot), ("=", equal),
   ("<", less), (">", greater), ("&", ampersand), ("|", pipe), ("!", bang), ("+", plus),
   ("-", minus), ("*", star), ("/", slash), ("%", percent), ("@", atSign)]

end Symbol

inductive TokenKind where
  /-- A name, with its namespace separators if it has any. -/
  | identifier
  /-- A variable, named without its dollar sign. -/
  | var (name : String)
  | string (value : String)
  /-- A string with variable parts; they stay as they are written. -/
  | interpolated (value : String)
  | number (value : Binary64)
  | docComment (text : String)
  | keyword (k : Keyword)
  | symbol (s : Symbol)
  deriving DecidableEq, Repr

structure Token where
  kind : TokenKind
  lexeme : String
  position : Position
  deriving DecidableEq, Repr

/-- The tokens still to be read, and where the text stops. -/
structure TokenStream where
  tokens : List Token
  stop : Position
  deriving DecidableEq, Repr

end ResponseShape
