import Templating.Error.Code
import Templating.Error.Fault
import Templating.Text.Utf8

/-!
# Errors

Every way in which reading, encoding or rendering can fail, as a cause with the data that its report
needs. The wording is in `Templating.Error.Report`.
-/

namespace Templating

inductive Delimiter
  | output
  | statement
  | comment
deriving DecidableEq, Repr

def Delimiter.mark : Delimiter → Char
  | .output => '\x7b'
  | .statement => '%'
  | .comment => '#'

def Delimiter.opener : Delimiter → String
  | .output => "\x7b\x7b"
  | .statement => "\x7b%"
  | .comment => "\x7b#"

def Delimiter.closer : Delimiter → String
  | .output => "\x7d\x7d"
  | .statement => "%\x7d"
  | .comment => "#\x7d"

inductive SyntaxProblem
  | notUtf8 (defect : Text.Utf8.Defect)
  | unclosed (delimiter : Delimiter)
  | unclosedBlock (name : String)
  | elseOutsideBlock
  | secondElse (name : String)
  | closeWithoutOpen (name : String)
  | closeOfOther (name openName : String) (openLine : Int)
  | leftover (text : String)
  | nameExpected (found : Option Char)
  | commaExpected (found : Char)
  | listEndExpected (found : Option Char)
  | expressionExpected
  | expressionUnexpected (found : Char)
  | stepExpected
  | indexExpected
  | bracketExpected
  | stringUnterminated
  /-- Reported by an application, with its own words. -/
  | other (message : String) (code : Code)
deriving DecidableEq, Repr

def SyntaxProblem.code : SyntaxProblem → Code
  | .notUtf8 _ => .invalidEncoding
  | .unclosed _ => .unclosedTag
  | .unclosedBlock _ => .unclosedBlock
  | .elseOutsideBlock | .secondElse _ | .closeWithoutOpen _ | .closeOfOther .. => .unexpectedToken
  | .other _ code => code
  | _ => .invalidExpression

structure SyntaxError where
  problem : SyntaxProblem
  file : Option String
  line : Option Int
  column : Option Int
  source : Option String
deriving DecidableEq, Repr

/-- How a tag was called that its handler does not allow. -/
inductive ContractProblem
  | parameterCount (tag : String) (minimum maximum : Int) (count : Nat)
  | bodyRequired (tag : String)
  | bodyRefused (tag : String)
  | other (message : String)
deriving DecidableEq, Repr

inductive RuntimeProblem
  | depthExceeded (limit : Int) (label : String)
  | other (message : String)
deriving DecidableEq, Repr

/-- Why an object has no value. -/
inductive EncodingProblem
  | circular
  | tooDeep
  | keyNotText (shown : String)
  | unsupported (found : String)
  | other (message : String)
deriving DecidableEq, Repr

/-- Where a render failed: the template, the line of the tag, and the renders around it, outermost
first. -/
structure Site where
  template : Option String := none
  line : Option Int := none
  suggestion : Option String := none
  chain : List (String × Int) := []
deriving DecidableEq, Repr

inductive Error
  | fault (fault : Fault)
  /-- An error of an application that has its own words, and perhaps a code. -/
  | plain (message : String) (code : Option Code)
  | notFound (path : String)
  | malformed (error : SyntaxError)
  | encoding (problem : EncodingProblem) (path : String)
  /-- An object failed to hand out its parts. -/
  | encodingFailed (cause : Error) (path : String)
  | runtime (problem : RuntimeProblem) (site : Site)
  | contract (problem : ContractProblem) (site : Site)
  | unknownTag (name : String) (available : List String) (site : Site)
  | tagFailed (name : String) (cause : Error) (site : Site)
deriving DecidableEq, Repr

/-- The two errors that name the failing tag; no enclosing tag wraps them again. -/
def Error.namesTag : Error → Bool
  | .unknownTag .. | .tagFailed .. => true
  | _ => false

end Templating
