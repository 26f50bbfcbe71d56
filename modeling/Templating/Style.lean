/-!
# Colours of diagnostics

A diagnostic is written in one of two styles: plain, or with the colour sequences of a terminal
around its parts. `Style.paint` is the only function that writes a colour sequence.
-/

namespace Templating

inductive Colour
  | reset
  | bold
  | dim
  | cyan
  | yellow
  | green
  | brightRed
  | brightGreen
deriving DecidableEq, Repr

namespace Colour

def sequence : Colour → String
  | .reset => "\x1b[0m"
  | .bold => "\x1b[1m"
  | .dim => "\x1b[2m"
  | .cyan => "\x1b[36m"
  | .yellow => "\x1b[33m"
  | .green => "\x1b[32m"
  | .brightRed => "\x1b[91m"
  | .brightGreen => "\x1b[92m"

def ofName? : String → Option Colour
  | "reset" => some .reset
  | "bold" => some .bold
  | "dim" => some .dim
  | "cyan" => some .cyan
  | "yellow" => some .yellow
  | "green" => some .green
  | "bright_red" => some .brightRed
  | "bright_green" => some .brightGreen
  | _ => none

end Colour

inductive Style
  | plain
  | coloured
deriving DecidableEq, Repr

namespace Style

def paint (style : Style) (colours : List Colour) (text : String) : String :=
  match style, colours with
  | .plain, _ => text
  | .coloured, [] => text
  | .coloured, _ :: _ =>
    String.join (colours.map Colour.sequence) ++ text ++ Colour.reset.sequence

/-- Colours given by name; unknown names are passed over. -/
def paintNamed (style : Style) (names : List String) (text : String) : String :=
  style.paint (names.filterMap Colour.ofName?) text

def errorCode (style : Style) : String → String := style.paint [.brightRed, .bold]

def location (style : Style) : String → String := style.paint [.cyan]

def lineNumber (style : Style) : String → String := style.paint [.yellow]

def errorLine (style : Style) : String → String := style.paint [.brightRed]

def hint (style : Style) : String → String := style.paint [.green]

def suggestion (style : Style) : String → String := style.paint [.brightGreen, .bold]

def dimmed (style : Style) : String → String := style.paint [.dim]

def header (style : Style) (code : Option String) (message : String) : String :=
  match code with
  | none | some "" => message
  | some code => style.errorCode code ++ ": " ++ message

/-- A setting that forces colours wins over one that forbids them; an empty setting counts as
absent. Without either, a terminal decides. -/
def choose (force forbid : Option String) (terminal : Bool) : Style :=
  if force.any (· ≠ "") then .coloured
  else if forbid.any (· ≠ "") then .plain
  else if terminal then .coloured else .plain

end Style

end Templating
