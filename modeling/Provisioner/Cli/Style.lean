import Provisioner.KeyMap

/-!
# Styles

Parts of the output are coloured or dimmed if a terminal, or the process environment,
asks for it.
-/

namespace Provisioner.Cli

/-- How a text looks. -/
inductive Style
  | cyan
  | green
  | yellow
  | dimmed
  | boldGreen
deriving DecidableEq, Repr

namespace Style

/-- The codes of a style. -/
def codes : Style → String
  | .cyan => "36"
  | .green => "32"
  | .yellow => "33"
  | .dimmed => "2"
  | .boldGreen => "1;32"

/-- The beginning of a control sequence. -/
def escape : String := String.ofList [Char.ofNat 0x1B, '[']

/-- The sequence that ends every style. -/
def reset : String := escape ++ "0m"

/-- The sequence that begins a style. -/
def start (s : Style) : String := escape ++ s.codes ++ "m"

/-- Whether a variable is set, and to anything but `0`. -/
def isOn (environment : KeyMap String) (name : String) : Option Bool :=
  (environment.get? name).map (· != "0")

/-- Whether output has styles: `CLICOLOR_FORCE` asks for them and `NO_COLOR` against
them; otherwise a terminal has them unless `CLICOLOR` is `0`. -/
def isEnabled (environment : KeyMap String) (isTerminal : Bool) : Bool :=
  if isOn environment "CLICOLOR_FORCE" = some true then true
  else if (environment.get? "NO_COLOR").isSome then false
  else isTerminal && (isOn environment "CLICOLOR").getD true

/-- A text in a style.  Where a style within the text ends, this one begins again. -/
def apply (isEnabled : Bool) (s : Style) (text : String) : String :=
  if isEnabled then s.start ++ text.replace reset (reset ++ s.start) ++ reset else text

end Style

end Provisioner.Cli
