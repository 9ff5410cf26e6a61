/-
# Output of a command

Results go to the standard output as they are. Messages go to the standard error
output, a line each, coloured by what they say if colours are wanted.

Key definitions: `Cli.Output`, `Cli.Tone`, `Cli.Tone.line`.
-/
namespace SitePlan
namespace Cli

/-- What a message says. -/
inductive Tone
  | info
  | note
  | success
  | warning
  | error
  deriving DecidableEq, Repr

/-- The style that a terminal shows the tone in. -/
def Tone.style? : Tone → Option String
  | info => none
  | note => some "2"
  | success => some "32"
  | warning => some "33"
  | error => some "31"

/-- A message as a line. -/
def Tone.line (coloured : Bool) (tone : Tone) (message : String) : String :=
  match coloured, tone.style? with
  | true, some style => "\x1b[" ++ style ++ "m" ++ message ++ "\x1b[0m\n"
  | _, _ => message ++ "\n"

/-- What a command leaves behind: its exit code and its outputs. -/
structure Output where
  code : Nat
  stdout : String
  stderr : String
  deriving DecidableEq, Repr, Inhabited

end Cli
end SitePlan
