import Bringup.Failure
import Bringup.Host
import Bringup.Json.Value

/-!
Coloured text and JSON on the console.
-/

namespace Bringup

set_option autoImplicit false

/-- A look of text: the numbers of a terminal sequence. -/
inductive Look where
  | bold
  | dimmed
  | green
  | cyan
  | boldRed
  | boldYellow
  | boldCyan
deriving DecidableEq, Repr

namespace Look

/-- The numbers of the sequence, the weight before the colour. -/
def codes : Look → String
  | bold => "1"
  | dimmed => "2"
  | green => "32"
  | cyan => "36"
  | boldRed => "1;31"
  | boldYellow => "1;33"
  | boldCyan => "1;36"

/-- The sequence that turns the look on. -/
def on (l : Look) : List Char := ['\x1b', '['] ++ l.codes.toList ++ ['m']

/-- The sequence that turns every look off. -/
def off : List Char := ['\x1b', '[', '0', 'm']

/-- The look is turned on again wherever the text itself turns it off. -/
def restored (l : Look) : List Char → List Char
  | '\x1b' :: '[' :: '0' :: 'm' :: cs => off ++ l.on ++ l.restored cs
  | c :: cs => c :: l.restored cs
  | [] => []

/-- A text in a look. -/
def paint (l : Look) (colour : Bool) (s : String) : String :=
  if colour then String.ofList (l.on ++ l.restored s.toList ++ off) else s

end Look

/-- A text in a look, if the host shows colours. -/
def HostM.paint (l : Look) (s : String) : HostM String := do return l.paint (← get).colour s

/-- JSON on the standard output, unless it could not be made. -/
def HostM.printJson : Except Json.Error Json → HostM (Except Failure Unit)
  | .error e => return .error (.json e)
  | .ok value => do
    printLine value.pretty
    return .ok ()

end Bringup
