import Templating.Error
import Templating.Error.Snippet
import Templating.Text.Search
import Templating.Text.Similar

/-!
# Reports of errors

The wording of every error: `Error.text` is the full report and `Error.compact` the one for a
terminal, which begins with the code. Both take the style, so that a coloured report differs from a
plain one in its colour sequences only.
-/

namespace Templating

def SyntaxProblem.message : SyntaxProblem → String
  | .notUtf8 defect => s!"Template is not valid UTF-8 ({defect.reason})"
  | .unclosed d => s!"Unclosed '{d.opener}'; expected '{d.closer}'"
  | .unclosedBlock name => s!"Block '{name}' is never closed; expected \x7b% /{name} %\x7d"
  | .elseOutsideBlock => "'else' outside of a block"
  | .secondElse name => s!"Block '{name}' already has an 'else'"
  | .closeWithoutOpen name => s!"Closing '/{name}' without an open block"
  | .closeOfOther name openName openLine =>
    s!"Closing '/{name}' does not match open block '{openName}' (line {openLine})"
  | .leftover text => s!"Unexpected '{text}'"
  | .nameExpected found => s!"Expected a tag name, found '{shown found}'"
  | .commaExpected found => s!"Expected ',' between parameters, found '{found}'"
  | .listEndExpected found => s!"Expected ',' or ')', found '{shown found}'"
  | .expressionExpected => "Expected an expression"
  | .expressionUnexpected found => s!"Unexpected '{found}' in expression"
  | .stepExpected => "Expected a name after '.'"
  | .indexExpected => "Expected an index or quoted key inside '[]'"
  | .bracketExpected => "Expected ']'"
  | .stringUnterminated => "Unterminated string literal"
  | .other message _ => message
where
  shown : Option Char → String
    | some c => c.toString
    | none => "end of tag"

def ContractProblem.message : ContractProblem → String
  | .parameterCount tag minimum maximum count =>
    let expected := if maximum = minimum then toString minimum else s!"{minimum} to {maximum}"
    s!"Tag '{tag}' expects {expected} parameter(s), got {count}"
  | .bodyRequired tag => s!"Tag '{tag}' requires a body; open it with \x7b% #{tag} %\x7d"
  | .bodyRefused tag => s!"Tag '{tag}' does not accept a body"
  | .other message => message

def RuntimeProblem.message : RuntimeProblem → String
  | .depthExceeded limit label =>
    s!"Maximum include depth exceeded ({limit}) when rendering '{label}'"
  | .other message => message

def EncodingProblem.message : EncodingProblem → String
  | .circular => "circular reference"
  | .tooDeep => "nesting too deep"
  | .keyNotText shown => s!"dictionary key {shown} is not a string"
  | .unsupported found => s!"unsupported type {found}"
  | .other message => message

/-- A place as it is written: the name, the line unless it is absent or zero, and then the
column. -/
def locationText (name : Option String) (line column : Option Int) : String :=
  let label :=
    match name with
    | none | some "" => "<template>"
    | some label => label
  match line, column with
  | none, _ | some 0, _ => label
  | some n, none => s!"{label}:{n}"
  | some n, some c => s!"{label}:{n}:{c}"

/-- The renders around a failure; nothing if there are none. -/
def chainText (style : Style) (chain : List (String × Int)) : String :=
  if chain.isEmpty then ""
  else
    String.intercalate "\n"
      (style.dimmed "Template stack:" ::
        chain.map fun entry => "  • " ++ style.location s!"{entry.1}:{entry.2}")

namespace SyntaxError

def message (error : SyntaxError) : String := error.problem.message

def place? (error : SyntaxError) : Option (String × Int) :=
  match error.source, error.line with
  | some source, some line => if source = "" ∨ line = 0 then none else some (source, line)
  | _, _ => none

def text (error : SyntaxError) : String :=
  let header :=
    s!"Syntax Error: {error.message}\n  --> {locationText error.file error.line error.column}"
  match error.place? with
  | none => header
  | some (source, line) =>
    if line < 0 then header
    else
      match (Text.lines source)[line.toNat - 1]? with
      | none => header
      | some content =>
        let pointer :=
          match error.column with
          | none => ""
          | some column => "\n   | " ++ Snippet.caret column
        header ++ "\n   |\n" ++ Text.padLeft 3 (toString line) ++ " | " ++ content ++ pointer

def compact (style : Style) (error : SyntaxError) : String :=
  let header :=
    s!"{error.problem.code.text}: {error.message}\n  --> {locationText error.file error.line none}"
  match error.place? with
  | none => header
  | some (source, line) =>
    header ++ "\n" ++ (Snippet.build source line 2 error.column).format style

end SyntaxError

def runtimeText (style : Style) (message : String) (suggestion : Option String) (site : Site) :
    String :=
  let hasPlace := site.template.any (· ≠ "") || site.line.any (· ≠ 0)
  let location := "  Location: " ++ style.location (locationText site.template site.line none)
  let hint text := "\n  " ++ style.hint "Suggestion:" ++ " " ++ text
  String.intercalate "\n"
    (["Runtime Error: " ++ message] ++
      (if hasPlace then [location] else []) ++
      (if site.chain.isEmpty then [] else ["", chainText style site.chain]) ++
      (suggestion.filter (· ≠ "")).toList.map hint)

def runtimeCompact (style : Style) (code : Code) (message : String) (suggestion : Option String)
    (site : Site) : String :=
  let location := "  Location: " ++ style.location (locationText site.template site.line none)
  let hint text := "  " ++ style.hint "Hint:" ++ " " ++ text
  String.intercalate "\n"
    ([style.errorCode code.text ++ ": " ++ message, location] ++
      (if site.chain.isEmpty then [] else [chainText style site.chain]) ++
      (suggestion.filter (· ≠ "")).toList.map hint)

namespace Error

def className : Error → String
  | .fault f => f.kind.name
  | .plain .. => "TemplateError"
  | .notFound _ => "TemplateNotFoundError"
  | .malformed _ => "TemplateSyntaxError"
  | .encoding .. | .encodingFailed .. => "ContextEncodingError"
  | .runtime .. => "TemplateRuntimeError"
  | .contract .. => "TagContractError"
  | .unknownTag .. => "UnknownTagError"
  | .tagFailed .. => "TagEvaluationError"

def code? : Error → Option Code
  | .fault _ => none
  | .plain _ code => code
  | .notFound _ => some .templateNotFound
  | .malformed error => some error.problem.code
  | .encoding .. | .encodingFailed .. => some .contextEncoding
  | .runtime (.depthExceeded ..) _ => some .includeDepth
  | .runtime (.other _) _ => some .runtimeError
  | .contract .. => some .tagContract
  | .unknownTag .. => some .unknownTag
  | .tagFailed .. => some .tagError

/-- The suggestion that goes with an error; for an unknown tag the most similar known one. -/
def suggestion? (style : Style) : Error → Option String
  | .runtime _ site | .contract _ site | .tagFailed _ _ site => site.suggestion
  | .unknownTag name available _ =>
    (Text.Similar.closest? name available).map fun found =>
      s!"Did you mean '{style.suggestion found}'?"
  | _ => none

def encodingText (path message : String) : String :=
  s!"Cannot encode value at {path}: {message}"

def unknownTagText (name : String) : String := s!"Unknown tag '{name}'"

def tagFailedText (name className causeText : String) : String :=
  s!"Tag '{name}' failed: {className}: {causeText}"

def text (style : Style) : Error → String
  | .fault f => f.message
  | .plain message _ => message
  | .notFound path => s!"No template found at path: {path}"
  | .malformed error => error.text
  | .encoding problem path => encodingText path problem.message
  | .encodingFailed cause path =>
    let shown := cause.text style
    encodingText path (if shown = "" then cause.className else shown)
  | .runtime problem site => runtimeText style problem.message site.suggestion site
  | .contract problem site => runtimeText style problem.message site.suggestion site
  | .unknownTag name available site =>
    runtimeText style (unknownTagText name)
      (suggestion? style (.unknownTag name available site)) site
  | .tagFailed name cause site =>
    runtimeText style (tagFailedText name cause.className (cause.text style)) site.suggestion site

/-- A report that does not carry its code yet gets it put in front. -/
def withCode (code : Option Code) (report : String) : String :=
  match code with
  | none => report
  | some code =>
    if Text.occursIn code.text.toList report.toList then report else code.text ++ ": " ++ report

def compact (style : Style) : Error → String
  | .malformed error => error.compact style
  | .runtime problem site =>
    runtimeCompact style ((code? (.runtime problem site)).getD .runtimeError) problem.message
      site.suggestion site
  | .contract problem site => runtimeCompact style .tagContract problem.message site.suggestion site
  | .unknownTag name available site =>
    runtimeCompact style .unknownTag (unknownTagText name)
      (suggestion? style (.unknownTag name available site)) site
  | .tagFailed name cause site =>
    runtimeCompact style .tagError (tagFailedText name cause.className (cause.text style))
      site.suggestion site
  | error => withCode error.code? (error.text style)

end Error

end Templating
