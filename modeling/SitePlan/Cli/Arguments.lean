/-
# Command-line arguments

A command line names one of three commands. Options may be written long with
their value after `=` or as the next argument, or short with the value attached;
short flags may be run together. An option other than those that accept names
may be given once. After `--` nothing is an option, and no command takes further
arguments.

The arguments are read from left to right, and what ends the reading first
counts: a usage error, or a request for help or for the version.

Key definitions: `Cli.Command`, `Cli.Request`, `Cli.parse`.
-/
import SitePlan.Config.Load

namespace SitePlan
namespace Cli

/-- The commands. -/
inductive Command
  | check
  | nav
  | config
  deriving DecidableEq, Repr

/-- The options of a command. `verbose` turns on log lines and nothing else. -/
structure Options where
  config : Option Path
  docsDir : Option Path
  allowExtensions : List String
  allowPlugins : List String
  allowThemes : List String
  strict : Bool
  json : Bool
  verbose : Bool
  deriving DecidableEq, Repr, Inhabited

/-- No options. -/
def Options.empty : Options := ⟨none, none, [], [], [], false, false, false⟩

/-- What a command line asks for. -/
inductive Request
  | run (command : Command) (options : Options)
  | help
  | version
  | usageError
  deriving DecidableEq, Repr

/-- The options that take a value. -/
inductive Valued
  | config
  | docsDir
  | allowExtension
  | allowPlugin
  | allowTheme
  deriving DecidableEq, Repr

/-- The options that take none. -/
inductive Flag
  | verbose
  | strict
  | json
  | help
  deriving DecidableEq, Repr

/-- The command with the given name. -/
def command? (name : String) : Option Command :=
  if name = "check" then some .check
  else if name = "nav" then some .nav
  else if name = "config" then some .config
  else none

/-- The option with the given long name that takes a value. -/
def longValued? (name : String) : Option Valued :=
  if name = "config" then some .config
  else if name = "docs-dir" then some .docsDir
  else if name = "allow-extension" then some .allowExtension
  else if name = "allow-plugin" then some .allowPlugin
  else if name = "allow-theme" then some .allowTheme
  else none

/-- The flag of a command with the given long name. -/
def longFlag? (command : Command) (name : String) : Option Flag :=
  if name = "verbose" then some .verbose
  else if name = "help" then some .help
  else if name = "strict" ∧ command = .check then some .strict
  else if name = "json" ∧ command = .nav then some .json
  else none

/-- The option with the given letter that takes a value. -/
def shortValued? (c : Char) : Option Valued :=
  if c = 'c' then some .config else if c = 'd' then some .docsDir else none

/-- The flag with the given letter. -/
def shortFlag? (c : Char) : Option Flag :=
  if c = 'v' then some .verbose else if c = 'h' then some .help else none

/-- Gives an option a value; `none` if it has one already or must not be
empty. -/
def setValue (option : Valued) (value : String) (o : Options) : Option Options :=
  match option with
  | .config => if value = "" ∨ o.config.isSome then none else some { o with config := some ⟨value⟩ }
  | .docsDir =>
    if value = "" ∨ o.docsDir.isSome then none else some { o with docsDir := some ⟨value⟩ }
  | .allowExtension => some { o with allowExtensions := o.allowExtensions ++ [value] }
  | .allowPlugin => some { o with allowPlugins := o.allowPlugins ++ [value] }
  | .allowTheme => some { o with allowThemes := o.allowThemes ++ [value] }

/-- Sets a flag. A flag may be given once. -/
def setFlag (flag : Flag) (o : Options) : Except Request Options :=
  match flag with
  | .help => .error .help
  | .verbose => if o.verbose then .error .usageError else .ok { o with verbose := true }
  | .strict => if o.strict then .error .usageError else .ok { o with strict := true }
  | .json => if o.json then .error .usageError else .ok { o with json := true }

/-- Short options run together: the options, and the one that still wants its
value. -/
def shortOptions : List Char → Options → Except Request (Options × Option Valued)
  | [], o => .ok (o, none)
  | c :: cs, o =>
    match shortFlag? c, shortValued? c with
    | some flag, _ => do
      let o ← setFlag flag o
      shortOptions cs o
    | none, some option =>
      match cs with
      | [] => .ok (o, some option)
      | '=' :: value =>
        match setValue option (String.ofList value) o with
        | some o => .ok (o, none)
        | none => .error .usageError
      | value =>
        match setValue option (String.ofList value) o with
        | some o => .ok (o, none)
        | none => .error .usageError
    | none, none => .error .usageError

/-- A long option without its hyphens. -/
def longOption (command : Command) (cs : List Char) (o : Options) :
    Except Request (Options × Option Valued) :=
  let name := String.ofList (cs.takeWhile (· != '='))
  match longFlag? command name, longValued? name, cs.dropWhile (· != '=') with
  | some flag, _, [] => (setFlag flag o).map fun o => (o, none)
  | none, some option, [] => .ok (o, some option)
  | none, some option, _ :: value =>
    match setValue option (String.ofList value) o with
    | some o => .ok (o, none)
    | none => .error .usageError
  | _, _, _ => .error .usageError

/-- The arguments of a command. `wanting` is the option whose value comes
next. -/
def commandArguments (command : Command) :
    List String → Option Valued → Options → Except Request Options
  | [], some _, _ => .error .usageError
  | [], none, o => .ok o
  | arg :: rest, some option, o =>
    match arg.toList with
    | '-' :: _ :: _ => .error .usageError
    | _ =>
      match setValue option arg o with
      | some o => commandArguments command rest none o
      | none => .error .usageError
  | arg :: rest, none, o =>
    match arg.toList with
    | ['-', '-'] => if rest.isEmpty then .ok o else .error .usageError
    | '-' :: '-' :: cs => do
      let (o, wanting) ← longOption command cs o
      commandArguments command rest wanting o
    | '-' :: c :: cs => do
      let (o, wanting) ← shortOptions (c :: cs) o
      commandArguments command rest wanting o
    | _ => .error .usageError

/-- Short flags in front of the command. -/
def leadingFlags : List Char → Bool → Except Request Bool
  | [], verbose => .ok verbose
  | 'v' :: cs, verbose => if verbose then .error .usageError else leadingFlags cs true
  | 'h' :: _, _ => .error .help
  | 'V' :: _, _ => .error .version
  | _, _ => .error .usageError

/-- A request for help on the named command, if any. -/
def helpRequest : List String → Request
  | [] => .help
  | [name] => if (command? name).isSome ∨ name = "help" then .help else .usageError
  | _ => .usageError

/-- The arguments up to the command and those of the command. -/
def requestOf : List String → Bool → Except Request Request
  | [], _ => .error .usageError
  | arg :: rest, verbose =>
    match command? arg with
    | some command => do
      let o ← commandArguments command rest none Options.empty
      .ok (.run command { o with verbose := o.verbose || verbose })
    | none =>
      if arg = "help" then .ok (helpRequest rest)
      else if arg = "--verbose" then
        if verbose then .error .usageError else requestOf rest true
      else if arg = "--help" then .ok .help
      else if arg = "--version" then .ok .version
      else match arg.toList with
        | '-' :: c :: cs =>
          if c = '-' then .error .usageError
          else do
            let verbose ← leadingFlags (c :: cs) verbose
            requestOf rest verbose
        | _ => .error .usageError

/-- What a command line asks for. -/
def parse (args : List String) : Request :=
  match requestOf args false with
  | .ok request => request
  | .error request => request

/-- The settings that the options make. -/
def Options.settings (o : Options) : Settings :=
  { Settings.empty with
    docsDir := o.docsDir, strict := if o.strict then some true else none
    allowExtensions := o.allowExtensions, allowPlugins := o.allowPlugins
    allowThemes := o.allowThemes }

end Cli
end SitePlan
