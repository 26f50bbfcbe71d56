import Templating.Kind
import Templating.Number.Reading
import Templating.Text.Quoted

/-!
# Faults

What can go wrong outside of a template's own text: in a conversion, in a tag handler, in the
objects of an application. A fault has a class and a message; `raised` is a fault of the
application's own making.
-/

namespace Templating

inductive FaultClass
  | type
  | value
  | key
  | index
  | lookup
  | attribute
  | zeroDivision
  | overflow
  | runtime
  | recursion
  | system
deriving DecidableEq, Repr

def FaultClass.name : FaultClass → String
  | .type => "TypeError"
  | .value => "ValueError"
  | .key => "KeyError"
  | .index => "IndexError"
  | .lookup => "LookupError"
  | .attribute => "AttributeError"
  | .zeroDivision => "ZeroDivisionError"
  | .overflow => "OverflowError"
  | .runtime => "RuntimeError"
  | .recursion => "RecursionError"
  | .system => "OSError"

inductive Fault
  /-- A text with so many digits is not read as an integer. -/
  | integerTextTooLong (digits : Nat)
  | integerTooLong
  | infinityToInteger
  | nanToInteger
  | integerBeyondNumbers
  | keyNotText (found : String)
  | notIterable (kind : Kind)
  | notCountable (kind : Kind)
  | notJoinable (kind : Kind)
  | notTimestamp (kind : Kind)
  | timestampNotNumber
  | timestampBeyondClock
  | timestampBeyondCalendar
  | yearBeyondCalendar (year : Int)
  | parameterMissing
  /-- A node of a syntax tree that stands for nothing. -/
  | bareNode
  | cacheLimit (limit : Int)
  /-- A tag name that is not a text or is empty, as it is shown. -/
  | tagNameInvalid (shown : String)
  /-- What is offered as the handler of a tag, given by its type, cannot handle anything. -/
  | tagInvalid (name found : String)
  | tagMissing (name : String)
  | notHashable (found : String)
  | tooDeep
  | raised (kind : FaultClass) (message : String)
deriving DecidableEq, Repr

namespace Fault

def kind : Fault → FaultClass
  | .integerTextTooLong _ | .integerTooLong | .nanToInteger | .timestampNotNumber
  | .yearBeyondCalendar _ | .cacheLimit _ => .value
  | .infinityToInteger | .integerBeyondNumbers | .timestampBeyondClock => .overflow
  | .timestampBeyondCalendar => .system
  | .keyNotText _ | .notIterable _ | .notCountable _ | .notJoinable _ | .notTimestamp _ | .bareNode
  | .tagNameInvalid _ | .tagInvalid .. | .notHashable _ => .type
  | .parameterMissing => .index
  | .tagMissing _ => .key
  | .tooDeep => .recursion
  | .raised kind _ => kind

def message : Fault → String
  | .integerTextTooLong digits =>
    s!"Exceeds the limit ({Number.digitLimit} digits) for integer string conversion: " ++
      s!"value has {digits} digits; use sys.set_int_max_str_digits() to increase the limit"
  | .integerTooLong =>
    s!"Exceeds the limit ({Number.digitLimit} digits) for integer string conversion; " ++
      "use sys.set_int_max_str_digits() to increase the limit"
  | .infinityToInteger => "cannot convert float infinity to integer"
  | .nanToInteger => "cannot convert float NaN to integer"
  | .integerBeyondNumbers => "int too large to convert to float"
  | .keyNotText found => s!"ContextValue dictionary keys must be str, got {found}"
  | .notIterable kind => s!"Cannot iterate over a {kind.name} value"
  | .notCountable kind => s!"Cannot count a {kind.name} value"
  | .notJoinable kind => s!"Cannot join a {kind.name} value"
  | .notTimestamp kind => s!"Expected a timestamp, got {kind.name}"
  | .timestampNotNumber => "Invalid value NaN (not a number)"
  | .timestampBeyondClock => "timestamp out of range for platform time_t"
  | .timestampBeyondCalendar => "[Errno 75] Value too large for defined data type"
  | .yearBeyondCalendar year => s!"year {year} is out of range"
  | .parameterMissing => "tuple index out of range"
  | .bareNode => "Cannot evaluate AST node of type Node"
  | .cacheLimit limit => s!"maxsize must be a positive integer or None, got {limit}"
  | .tagNameInvalid shown => s!"Tag names must be non-empty strings, got {shown}"
  | .tagInvalid name found => s!"Tag '{name}' must be a TagHandler or a callable, got {found}"
  | .tagMissing name => Text.literal name
  | .notHashable found => s!"unhashable type: '{found}'"
  | .tooDeep => "maximum recursion depth exceeded"
  | .raised _ message => message

end Fault

end Templating
