/-
# Running a command

`check` reports on a site, `nav` prints its navigation and `config` its
configuration as JSON. A command that fails ends with the code 1 and its error as
the last message; a command line that makes no sense ends with the code 2.

The outputs are those of the commands alone. The wording of help and of usage
errors is left out, and so are the log lines that `-v` or the variable `RUST_LOG`
turns on, which would stand on the standard error output among the messages.

Key definitions: `Cli.Message`, `Cli.execute`, `Cli.run`.
-/
import SitePlan.Cli.Arguments
import SitePlan.Cli.Output
import SitePlan.Json.Printer
import SitePlan.Nav.Check
import SitePlan.Page.Directory

namespace SitePlan
namespace Cli

/-- A message with its tone. -/
abbrev Message := Tone × String

/-- What a command did: its messages, its result, and the error it ended with. -/
structure Outcome where
  messages : List Message
  result : String
  error : Option String
  deriving DecidableEq, Repr, Inhabited

/-- An outcome that is an error alone. -/
def Outcome.failed (messages : List Message) (error : String) : Outcome :=
  ⟨messages, "", some error⟩

/-- The pages of a site on a host. -/
def pagesOf (h : Host) (c : Config) : PageSource :=
  PageDirectory.source ⟨h, c.paths.docsDir⟩

/-- The messages on what a check found. -/
def reportMessages (report : CheckReport) : List Message :=
  report.warnings.map (fun w => (Tone.warning, "warning: " ++ w)) ++
    (if report.orphans.isEmpty then []
      else (Tone.note, "Pages not included in nav:") ::
        report.orphans.map fun page => (Tone.note, "  - " ++ page)) ++
    report.errors.map fun e => (Tone.error, "error: " ++ e.message)

/-- The summary of a failed check. -/
def failureSummary (strict : Bool) (report : CheckReport) : String :=
  toString report.errors.length ++ " error(s), " ++ toString report.warnings.length ++
    " warning(s)" ++ (if strict && report.errors.isEmpty then " (strict mode)" else "")

/-- Checks a loaded site. -/
def check (h : Host) (c : Config) : Outcome :=
  let places :=
    (c.configPath.map fun p => (Tone.info, "Config: " ++ p.text)).toList ++
      [(Tone.info, "Docs: " ++ c.paths.docsDir.text)]
  match c.check (pagesOf h c) with
  | .error e => .failed places e.message
  | .ok report =>
    let messages := places ++ reportMessages report
    if report.isOk c.strict then
      ⟨messages ++ [(Tone.success, c.siteName ++ ": " ++ toString report.navigation.pages.length ++
        " pages in navigation")], "", none⟩
    else .failed messages (failureSummary c.strict report)

/-- Prints the navigation of a loaded site. -/
def nav (h : Host) (c : Config) (json : Bool) : Outcome :=
  match c.buildNav (pagesOf h c) with
  | .error e => .failed [] e.message
  | .ok navigation =>
    ⟨[], if json then navigation.toJson.pretty ++ "\n" else navigation.text, none⟩

/-- Prints a loaded configuration. -/
def config (c : Config) : Outcome :=
  let warnings := c.warnings.map fun w => (Tone.warning, "warning: " ++ w)
  match c.toJson with
  | .error e => .failed warnings e.message
  | .ok json => ⟨warnings, json.pretty ++ "\n", none⟩

/-- Loads a site and carries out a command on it. -/
def execute (h : Host) (command : Command) (o : Options) : Outcome :=
  match Config.load h o.config o.settings with
  | .error e => .failed [] e.message
  | .ok c =>
    match command with
    | .check => check h c
    | .nav => nav h c o.json
    | .config => config c

/-- Whether messages are coloured: only if the environment forces it. -/
def coloured (h : Host) : Bool :=
  match h.lookupVariable "CLICOLOR_FORCE" with
  | some value => value != "0"
  | none => false

/-- The name and version of the program. -/
def versionText : String := "docsite 0.1.0\n"

/-- The outcome as exit code and outputs. -/
def Outcome.output (coloured : Bool) (outcome : Outcome) : Output :=
  let messages := outcome.messages ++
    (outcome.error.map fun e => (Tone.error, "Error: " ++ e)).toList
  { code := if outcome.error.isSome then 1 else 0
    stdout := outcome.result
    stderr := String.join (messages.map fun m => m.1.line coloured m.2) }

/-- Runs a command line on a host; for help and usage errors this gives the exit
code only. -/
def run (h : Host) (args : List String) : Output :=
  match parse args with
  | .usageError => ⟨2, "", ""⟩
  | .help => ⟨0, "", ""⟩
  | .version => ⟨0, versionText, ""⟩
  | .run command o => (execute h command o).output (coloured h)

end Cli
end SitePlan
