/-
# Configurations are printed

A site that loads has its configuration printed exactly if this has a JSON form, which is
to say that all keys in its free values can name fields. So it is printed if all keys in
the document can. Loading does not ask for it: with a key that is null in its extra data a
document loads, and printing it fails.

Key theorems: `Config.load_eq_ok`, `Cli.config_exit_zero_iff`, `Cli.loaded_prints`,
`Cli.loaded_nullKey`.
-/
import SitePlan.Proofs.Cli.Agreement
import SitePlan.Proofs.Config.Printing

namespace SitePlan

open Yaml (Value)

namespace Config

variable {h : Host} {s : Settings} {c : Config}

theorem loadFile_eq_ok {file : Path} : loadFile h s file = .ok c ↔
    ∃ text loaded, h.readText file = .ok text ∧
      ofText h.lookupVariable file.directory s text = .ok loaded ∧
      c = { loaded with configPath := some file } := by
  unfold loadFile
  simp only [Outcome.bind_eq_ok, Outcome.mapError_eq_ok, Except.ok.injEq]
  constructor
  · rintro ⟨text, htext, loaded, hloaded, rfl⟩
    exact ⟨text, loaded, htext, hloaded, rfl⟩
  · rintro ⟨text, loaded, htext, hloaded, rfl⟩
    exact ⟨text, htext, loaded, hloaded, rfl⟩

/-- What is loaded is what the text of a file loads to. -/
theorem load_eq_ok {path : Option Path} (hload : load h path s = .ok c) :
    ∃ file text loaded, h.readText file = .ok text ∧
      ofText h.lookupVariable file.directory s text = .ok loaded ∧
      c = { loaded with configPath := some file } := by
  unfold load at hload
  cases path with
  | some path =>
    simp only at hload
    split_ifs at hload
    exact ⟨path, loadFile_eq_ok.mp hload⟩
  | none =>
    simp only at hload
    split at hload
    · exact ⟨_, loadFile_eq_ok.mp hload⟩
    · cases hload

end Config

namespace Cli

variable {h : Host} {c : Config} {o : Options} {args : List String}

theorem execute_config (hload : Config.load h o.config o.settings = .ok c) :
    execute h .config o = config c := by
  unfold execute
  rw [hload]

/-- Printing a configuration ends without an error exactly if it has a JSON form. -/
theorem config_error_eq_none_iff : (config c).error = none ↔ c.Printable := by
  rw [← Config.toJson_isOk_iff]
  unfold config
  cases c.toJson with
  | error e => simp [Outcome.failed]
  | ok json => simp

/-- Printing gives the code 0 exactly if the site loads and has a JSON form. -/
theorem config_exit_zero_iff (hparse : parse args = .run .config o) : (run h args).code = 0 ↔
    ∃ c, Config.load h o.config o.settings = .ok c ∧ c.Printable := by
  cases hload : Config.load h o.config o.settings with
  | error e => simp [run_of_misload hparse hload, failureOutput]
  | ok c =>
    rw [run_of_parse hparse, code_eq_zero_iff, execute_config hload, config_error_eq_none_iff]
    simp

/-- **What loads is printed exactly if all keys in its free values can name fields.** This
holds for texts and for the files that the command loads; what is printed is the JSON form
of the configuration; and if all keys in the document can name fields, then those can. -/
theorem loaded_prints (h : Host) {args : List String} {o : Options}
    (hparse : parse args = .run .config o) :
    (∀ (lookup : String → Option String) (dir : Path) (s : Settings) (text : String) (c : Config),
      Config.ofText lookup dir s text = .ok c → ((∃ j, c.toJson = .ok j) ↔ c.Printable) ∧
        ∃ v, Value.ofText text = .ok v ∧ (v.Printable → c.Printable)) ∧
      ∀ c, Config.load h o.config o.settings = .ok c →
        ((run h args).code = 0 ↔ c.Printable) ∧
        (∀ j, c.toJson = .ok j → (run h args).stdout = j.pretty ++ "\n") ∧
        ∃ file text v, c.configPath = some file ∧ h.readText file = .ok text ∧
          Value.ofText text = .ok v ∧ (v.Printable → c.Printable) := by
  refine ⟨fun lookup dir s text c hc => ⟨Config.toJson_isOk_iff, Config.ofText_printable hc⟩,
    fun c hload => ⟨?code, fun j hj => ?stdout, ?document⟩⟩
  case code =>
    rw [config_exit_zero_iff hparse, hload]
    simp
  case stdout =>
    have hprinted : (config c).result = j.pretty ++ "\n" := by
      unfold config
      rw [hj]
    rw [run_of_parse hparse, execute_config hload]
    exact hprinted
  case document =>
    obtain ⟨file, text, loaded, htext, hloaded, rfl⟩ := Config.load_eq_ok hload
    obtain ⟨v, hv, hprintable⟩ := Config.ofText_printable hloaded
    exact ⟨file, text, v, rfl, htext, hv, fun h => { hprintable h with }⟩

/-- A host with a configuration file that holds a text. -/
def fileHost (text : String) : Host :=
  ⟨.directory [("srv", .directory [("mkdocs.yml", .file text.toUTF8)])], ⟨"/srv"⟩, []⟩

/-- The options of a command that names the file. -/
def fileOptions : Options := { Options.empty with config := some ⟨"mkdocs.yml"⟩ }

theorem parse_fileOptions : parse ["config", "-cmkdocs.yml"] = .run .config fileOptions := by
  decide +kernel

/-- A document with a truth value and a number for keys. -/
def countedDocument : String := "site_name: Docs\nextra:\n  true: a\n  2: [b]\n"

/-- All keys of the document can name fields, so its configuration is printed. -/
theorem loaded_prints_countedDocument :
    (Config.load (fileHost countedDocument) fileOptions.config
        fileOptions.settings).toOption.isSome = true ∧
      (run (fileHost countedDocument) ["config", "-cmkdocs.yml"]).code = 0 := by
  have hloads : (Config.load (fileHost countedDocument) fileOptions.config
      fileOptions.settings).toOption.map Config.configPath = some (some ⟨"mkdocs.yml"⟩) := by
    decide +kernel
  have hread : (fileHost countedDocument).readText ⟨"mkdocs.yml"⟩ = .ok countedDocument :=
    Outcome.toOption_eq_some.mp (by decide +kernel)
  have hvalue : Value.ofText countedDocument =
      .ok (.mapping [(.string "site_name", .string "Docs"), (.string "extra", .mapping
        [(.bool true, .string "a"), (.number (.int 2), .sequence [.string "b"])])]) :=
    Outcome.toOption_eq_some.mp (by decide +kernel)
  obtain ⟨c, hc, hpath⟩ := Option.map_eq_some_iff.mp hloads
  obtain ⟨-, hprints⟩ := loaded_prints (fileHost countedDocument) parse_fileOptions
  obtain ⟨hcode, -, file, text, v, hfile, htext, hv, hprintable⟩ :=
    hprints c (Outcome.toOption_eq_some.mp hc)
  rw [hpath] at hfile
  cases hfile
  rw [hread] at htext
  cases htext
  rw [hvalue] at hv
  cases hv
  refine ⟨?loads, hcode.mpr (hprintable (by decide))⟩
  case loads =>
    rw [hc]
    rfl

/-- A document with a key that is null. -/
def nullKeyDocument : String := "site_name: Docs\nextra:\n  ~: a\n"

/-- The document loads, and printing it fails. -/
theorem loaded_nullKey :
    (∃ c, Config.load (fileHost nullKeyDocument) fileOptions.config fileOptions.settings = .ok c ∧
      ¬ ∃ j, c.toJson = .ok j) ∧
      run (fileHost nullKeyDocument) ["config", "-cmkdocs.yml"] =
        ⟨1, "", "Error: key must be a string\n"⟩ := by
  have hloads : (Config.load (fileHost nullKeyDocument) fileOptions.config
      fileOptions.settings).toOption.isSome = true := by
    decide +kernel
  have hrun : run (fileHost nullKeyDocument) ["config", "-cmkdocs.yml"] =
      ⟨1, "", "Error: key must be a string\n"⟩ := by
    decide +kernel
  obtain ⟨c, hc⟩ := Option.isSome_iff_exists.mp hloads
  have hload := Outcome.toOption_eq_some.mp hc
  refine ⟨⟨c, hload, fun hjson => ?_⟩, hrun⟩
  have hcode := (config_exit_zero_iff parse_fileOptions).mpr
    ⟨c, hload, Config.toJson_isOk_iff.mp hjson⟩
  rw [hrun] at hcode
  cases hcode

end Cli
end SitePlan
