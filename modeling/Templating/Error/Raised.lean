import Templating.Error

/-!
# Errors of an application's own making

An application raises an error by the name of its class and the texts that go with it.
-/

namespace Templating

/-- The classes that an application raises from. -/
def FaultClass.raisable : List FaultClass :=
  [.value, .runtime, .key, .index, .lookup, .type, .attribute, .zeroDivision, .overflow, .system,
    .recursion]

/-- The message of a fault with the given texts: a single one as it stands, except that a missing
key is quoted, and several as a list in parentheses. -/
def FaultClass.messageOf (kind : FaultClass) : List String → String
  | [] => ""
  | [text] => if kind = .key then Text.literal text else text
  | texts => "(" ++ String.intercalate ", " (texts.map Text.literal) ++ ")"

def Code.ofText (text : String) : Except Error Code :=
  match Code.ofText? text with
  | some code => .ok code
  | none => .error (.fault (.raised .value s!"{Text.literal text} is not a valid ErrorCode"))

/-- The fault of making an error from so many texts, if its class does not allow that: it requires
one, which it names, and takes at most `most`. -/
def countFault? (className required : String) (most count : Nat) : Option Fault :=
  let refuse (problem : String) : Option Fault :=
    some (.raised .type (className ++ ".__init__() " ++ problem))
  if count = 0 then refuse s!"missing 1 required positional argument: '{required}'"
  else if count ≤ most then none
  else if most = 1 then refuse s!"takes 2 positional arguments but {count + 1} were given"
  else refuse s!"takes from 2 to {most + 1} positional arguments but {count + 1} were given"

def Error.ofClass? (name : String) (texts : List String) : Option Error :=
  let first := texts.headD ""
  let made (required : String) (most : Nat) (error : Error) : Option Error :=
    some (((countFault? name required most texts.length).map .fault).getD error)
  match name with
  | "ContextEncodingError" =>
    made "message" 2 (.encoding (.other first) ((texts.drop 1).headD "$"))
  | "TemplateNotFoundError" => made "path" 1 (.notFound first)
  | "TemplateSyntaxError" =>
    made "message" 6 (.malformed ⟨.other first .syntaxError, none, none, none, none⟩)
  | "UnknownTagError" =>
    let available := ((texts.drop 1).headD "").toList.map Char.toString
    made "tag_name" 2 (.unknownTag first available ⟨none, none, none, []⟩)
  | _ =>
    (FaultClass.raisable.find? (·.name == name)).map fun kind =>
      .fault (.raised kind (kind.messageOf texts))

end Templating
