/-!
# Error codes
-/

namespace Templating

inductive Code
  | unexpectedToken
  | unclosedTag
  | unclosedBlock
  | invalidExpression
  | invalidEncoding
  | unknownTag
  | tagError
  | tagContract
  | includeDepth
  | runtimeError
  | templateNotFound
  | syntaxError
  | contextEncoding
deriving DecidableEq, Repr

namespace Code

def all : List Code :=
  [.unexpectedToken, .unclosedTag, .unclosedBlock, .invalidExpression, .invalidEncoding,
    .unknownTag, .tagError, .tagContract, .includeDepth, .runtimeError, .templateNotFound,
    .syntaxError, .contextEncoding]

/-- The code as it is searched for. -/
def text : Code → String
  | .unexpectedToken => "S-PAR-001"
  | .unclosedTag => "S-PAR-002"
  | .unclosedBlock => "S-PAR-003"
  | .invalidExpression => "S-PAR-004"
  | .invalidEncoding => "S-PAR-005"
  | .unknownTag => "S-RUN-001"
  | .tagError => "S-RUN-002"
  | .tagContract => "S-RUN-003"
  | .includeDepth => "S-RUN-004"
  | .runtimeError => "S-RUN-005"
  | .templateNotFound => "S-TPL-001"
  | .syntaxError => "S-TPL-002"
  | .contextEncoding => "S-ENC-001"

/-- The name in capitals that lists of codes show. -/
def label : Code → String
  | .unexpectedToken => "UNEXPECTED_TOKEN"
  | .unclosedTag => "UNCLOSED_TAG"
  | .unclosedBlock => "UNCLOSED_BLOCK"
  | .invalidExpression => "INVALID_EXPRESSION"
  | .invalidEncoding => "INVALID_ENCODING"
  | .unknownTag => "UNKNOWN_TAG"
  | .tagError => "TAG_ERROR"
  | .tagContract => "TAG_CONTRACT"
  | .includeDepth => "INCLUDE_DEPTH"
  | .runtimeError => "RUNTIME_ERROR"
  | .templateNotFound => "TEMPLATE_NOT_FOUND"
  | .syntaxError => "SYNTAX_ERROR"
  | .contextEncoding => "CONTEXT_ENCODING"

inductive Category
  | parser
  | runtime
  | template
  | encoding
deriving DecidableEq, Repr

def Category.name : Category → String
  | .parser => "parser"
  | .runtime => "runtime"
  | .template => "template"
  | .encoding => "encoding"

def category : Code → Category
  | .unexpectedToken | .unclosedTag | .unclosedBlock | .invalidExpression | .invalidEncoding =>
    .parser
  | .unknownTag | .tagError | .tagContract | .includeDepth | .runtimeError => .runtime
  | .templateNotFound | .syntaxError => .template
  | .contextEncoding => .encoding

def ofText? (text : String) : Option Code := all.find? (·.text == text)

theorem mem_all (c : Code) : c ∈ all := by cases c <;> decide

end Code

end Templating
