/-
# The commands agree

What a check says of a site is what the other commands do with it. With the same
options all of them load the same site or fail to with the same error. A
navigation that passes its check is the one that is printed, and the first fault
that a check reports is the error with which printing it fails. Strictness comes in
when the check is decided and nowhere before, hence a site that passes in strict
mode passes, and without a warning the other way round.

Key definitions: `Cli.failureOutput`.
Key theorems: `Config.buildNav_of_sound`, `Config.buildNav_of_fault`,
`Cli.run_of_misload`, `Cli.check_exit_zero_iff`, `Cli.strict_exit_zero_iff`,
`Cli.run_agrees`.
-/
import SitePlan.Cli.Run
import SitePlan.Proofs.Cli.SharedArguments
import SitePlan.Proofs.Config.PlainText
import SitePlan.Proofs.Config.Settings
import SitePlan.Proofs.Nav.Verdict
import SitePlan.Proofs.Yaml.Equality

namespace SitePlan

/-! ### The navigation that was checked -/

namespace Config

variable {c : Config} {source : PageSource} {report : CheckReport}

/-- Building a navigation gives what a check without faults resolved. -/
theorem buildNav_of_sound (h : c.check source = .ok report) (hsound : report.errors = []) :
    c.buildNav source = .ok report.navigation := by
  obtain ⟨res, hres, hnavigation, herrors, -, -⟩ := check_eq_ok h
  rw [hsound] at herrors
  unfold buildNav
  rw [hres, Outcome.ok_bind, hnavigation, ← herrors]

/-- Building a navigation fails with the first fault that a check reports. -/
theorem buildNav_of_fault {e : NavError} {es : List NavError} (h : c.check source = .ok report)
    (hfault : report.errors = e :: es) : c.buildNav source = .error e := by
  obtain ⟨res, hres, -, herrors, -, -⟩ := check_eq_ok h
  rw [hfault] at herrors
  unfold buildNav
  rw [hres, Outcome.ok_bind, ← herrors]

end Config

namespace Cli

variable {h : Host} {c : Config} {o : Options} {report : CheckReport} {args : List String}

/-! ### What commands leave behind -/

/-- What a command leaves behind that ends with an error and nothing else. -/
def failureOutput (h : Host) (message : String) : Output :=
  ⟨1, "", Tone.error.line (coloured h) ("Error: " ++ message)⟩

theorem failed_output (h : Host) (message : String) :
    (Outcome.failed [] message).output (coloured h) = failureOutput h message := by
  show (⟨1, "", String.join [Tone.error.line (coloured h) ("Error: " ++ message)]⟩ : Output) = _
  rw [String.join_cons, String.join_nil, String.append_empty]
  rfl

theorem run_of_parse {command : Command} (hparse : parse args = .run command o) :
    run h args = (execute h command o).output (coloured h) := by
  unfold run
  rw [hparse]

/-- A site that does not load gives every command the same error. -/
theorem run_of_misload {command : Command} {e : ConfigError}
    (hparse : parse args = .run command o) (hload : Config.load h o.config o.settings = .error e) :
    run h args = failureOutput h e.message := by
  have hexecute : execute h command o = .failed [] e.message := by
    unfold execute
    rw [hload]
  rw [run_of_parse hparse, hexecute, failed_output]

theorem execute_check (hload : Config.load h o.config o.settings = .ok c) :
    execute h .check o = check h c := by
  unfold execute
  rw [hload]

theorem execute_nav (hload : Config.load h o.config o.settings = .ok c) :
    execute h .nav o = nav h c o.json := by
  unfold execute
  rw [hload]

/-- The last message of a command without an error is its last line. -/
theorem output_concat (coloured : Bool) (messages : List Message) (m : Message) (result : String) :
    (⟨messages ++ [m], result, none⟩ : Outcome).output coloured =
      ⟨0, result, String.join (messages.map fun m => m.1.line coloured m.2) ++
        m.1.line coloured m.2⟩ := by
  unfold Outcome.output
  simp only [Option.map_none, Option.toList_none, List.append_nil, List.map_append, List.map_cons,
    List.map_nil, String.join_append, String.join_cons, String.join_nil, String.append_empty]
  rfl

theorem code_eq_zero_iff {outcome : Outcome} {coloured : Bool} :
    (outcome.output coloured).code = 0 ↔ outcome.error = none := by
  unfold Outcome.output
  cases outcome.error <;> simp

/-! ### Checks -/

theorem check_of_isOk (hcheck : c.check (pagesOf h c) = .ok report)
    (hok : report.isOk c.strict = true) : ∃ places,
      check h c =
        ⟨places ++ reportMessages report ++
          [(.success, c.siteName ++ ": " ++ toString report.navigation.pages.length ++
            " pages in navigation")], "", none⟩ := by
  unfold check
  rw [hcheck]
  simp only [if_pos hok]
  exact ⟨_, rfl⟩

/-- What such a check leaves behind ends with the number of pages. -/
theorem check_output_of_isOk (hcheck : c.check (pagesOf h c) = .ok report)
    (hok : report.isOk c.strict = true) : ∃ front, (check h c).output (coloured h) =
      ⟨0, "", front ++ Tone.success.line (coloured h)
        (c.siteName ++ ": " ++ toString report.navigation.pages.length ++
          " pages in navigation")⟩ := by
  obtain ⟨places, hplaces⟩ := check_of_isOk hcheck hok
  rw [hplaces, output_concat]
  exact ⟨_, rfl⟩

/-- A check ends without an error exactly if the site passes. -/
theorem check_error_eq_none_iff : (check h c).error = none ↔
    ∃ report, c.check (pagesOf h c) = .ok report ∧ report.isOk c.strict = true := by
  cases hcheck : c.check (pagesOf h c) with
  | error e =>
    have herror : (check h c).error = some e.message := by
      unfold check
      rw [hcheck]
      rfl
    simp [herror]
  | ok report =>
    by_cases hok : report.isOk c.strict = true
    · obtain ⟨places, hplaces⟩ := check_of_isOk hcheck hok
      simp [hplaces, hok]
    · have herror : (check h c).error = some (failureSummary c.strict report) := by
        unfold check
        rw [hcheck]
        simp only [if_neg hok]
        rfl
      simp [herror, hok]

theorem check_exit_zero_iff (hparse : parse args = .run .check o) : (run h args).code = 0 ↔
    ∃ c report, Config.load h o.config o.settings = .ok c ∧ c.check (pagesOf h c) = .ok report ∧
      report.isOk c.strict = true := by
  cases hload : Config.load h o.config o.settings with
  | error e => simp [run_of_misload hparse hload, failureOutput]
  | ok c =>
    rw [run_of_parse hparse, code_eq_zero_iff, execute_check hload, check_error_eq_none_iff]
    simp

/-- A check that passes without a message of warning has found none. -/
theorem warnings_eq_nil (hcheck : c.check (pagesOf h c) = .ok report)
    (hok : report.isOk c.strict = true) (hquiet : ∀ m ∈ (check h c).messages, m.1 ≠ .warning) :
    report.warnings = [] := by
  obtain ⟨places, hplaces⟩ := check_of_isOk hcheck hok
  rw [hplaces] at hquiet
  refine List.eq_nil_iff_forall_not_mem.mpr fun w hw => ?_
  have hmem : (Tone.warning, "warning: " ++ w) ∈ reportMessages report :=
    List.mem_append_left _ (List.mem_append_left _ (List.mem_map.mpr ⟨w, hw, rfl⟩))
  exact hquiet _ (List.mem_append_left _ (List.mem_append_right _ hmem)) rfl

/-- A check in strict mode loads the same site and resolves the same navigation. -/
theorem strict_exit_zero_iff (hparse : parse args = .run .check { o with strict := true }) :
    (run h args).code = 0 ↔ ∃ c report, Config.load h o.config o.settings = .ok c ∧
      c.check (pagesOf h c) = .ok report ∧ report.isOk true = true := by
  have hload : Config.load h o.config ({ o with strict := true } : Options).settings =
      (Config.load h o.config o.settings).map fun c => { c with strict := true } :=
    Config.load_strict h o.config o.settings true
  rw [check_exit_zero_iff hparse]
  show (∃ c report, Config.load h o.config _ = _ ∧ _ ∧ _) ↔ _
  rw [hload]
  cases Config.load h o.config o.settings with
  | error e => simp [Except.map]
  | ok c =>
    constructor
    · rintro ⟨c', report, hc', hcheck, hok⟩
      cases hc'
      exact ⟨c, report, rfl, hcheck, hok⟩
    · rintro ⟨c', report, hc', hcheck, hok⟩
      cases hc'
      exact ⟨_, report, rfl, hcheck, hok⟩

/-! ### All commands -/

/-- **The commands agree.** The arguments are those of a check that is not strict.
If the check passes, the navigation that it resolved is printed, and its message
counts the pages of that navigation; if it reports faults in the navigation, then
printing it fails with the first of them; and if the site does not load, every
command fails with the same error. A site that passes in strict mode passes, and a
site that passes without a warning passes in strict mode. Outputs are meant as in
`Cli.run`, without log lines. -/
theorem run_agrees (h : Host) {args : List String} {o : Options}
    (hargs : parse ("check" :: args) = .run .check o) (hlenient : o.strict = false) :
    ((run h ("check" :: args)).code = 0 → ∃ c report front,
      Config.load h o.config o.settings = .ok c ∧ c.check (pagesOf h c) = .ok report ∧
        run h ("check" :: args) = ⟨0, "", front ++
          Tone.success.line (coloured h)
            (c.siteName ++ ": " ++ toString report.navigation.pages.length ++
              " pages in navigation")⟩ ∧
        run h ("nav" :: args) = ⟨0, report.navigation.text, ""⟩) ∧
      (∀ c report e es, Config.load h o.config o.settings = .ok c →
        c.check (pagesOf h c) = .ok report → report.errors = e :: es →
        run h ("nav" :: args) = failureOutput h e.message) ∧
      (∀ e, Config.load h o.config o.settings = .error e → ∀ name ∈ ["check", "nav", "config"],
        run h (name :: args) = failureOutput h e.message) ∧
      parse ("check" :: "--strict" :: args) = .run .check { o with strict := true } ∧
      ∀ strictArgs, parse ("check" :: strictArgs) = .run .check { o with strict := true } →
        ((run h ("check" :: strictArgs)).code = 0 → (run h ("check" :: args)).code = 0) ∧
        ((run h ("check" :: args)).code = 0 →
          (∀ m ∈ (execute h .check o).messages, m.1 ≠ .warning) →
          (run h ("check" :: strictArgs)).code = 0) := by
  obtain ⟨hjson, hparse, hstrictly⟩ := parse_shared hargs hlenient
  have hnavArgs : parse ("nav" :: args) = .run .nav o := hparse "nav" .nav rfl
  refine ⟨fun hpass => ?passed, fun c report e es hload hcheck hfault => ?faults,
    fun e hload name hname => ?misload, hstrictly, fun strictArgs hstrictArgs =>
      ⟨fun hpass => ?strict, fun hpass hquiet => ?quiet⟩⟩
  case passed =>
    obtain ⟨c, report, hload, hcheck, hok⟩ := (check_exit_zero_iff hargs).mp hpass
    have hsound : report.errors = [] := (CheckReport.isOk_iff.mp hok).1
    obtain ⟨front, hfront⟩ := check_output_of_isOk hcheck hok
    have hnav : nav h c o.json = ⟨[], report.navigation.text, none⟩ := by
      unfold nav
      rw [Config.buildNav_of_sound hcheck hsound, hjson]
      rfl
    refine ⟨c, report, front, hload, hcheck, ?_, ?_⟩
    · rw [run_of_parse hargs, execute_check hload, hfront]
    · rw [run_of_parse hnavArgs, execute_nav hload, hnav]
      rfl
  case faults =>
    have hnav : nav h c o.json = .failed [] e.message := by
      unfold nav
      rw [Config.buildNav_of_fault hcheck hfault]
    rw [run_of_parse hnavArgs, execute_nav hload, hnav, failed_output]
  case misload =>
    simp only [List.mem_cons, List.not_mem_nil, or_false] at hname
    rcases hname with rfl | rfl | rfl
    · exact run_of_misload hargs hload
    · exact run_of_misload hnavArgs hload
    · exact run_of_misload (hparse "config" .config rfl) hload
  case strict =>
    obtain ⟨c, report, hload, hcheck, hok⟩ := (strict_exit_zero_iff hstrictArgs).mp hpass
    obtain ⟨hsound, hwarnings⟩ := CheckReport.isOk_iff.mp hok
    have hlenientOk : report.isOk c.strict = true :=
      CheckReport.isOk_iff.mpr ⟨hsound, fun _ => hwarnings rfl⟩
    exact (check_exit_zero_iff hargs).mpr ⟨c, report, hload, hcheck, hlenientOk⟩
  case quiet =>
    obtain ⟨c, report, hload, hcheck, hok⟩ := (check_exit_zero_iff hargs).mp hpass
    rw [execute_check hload] at hquiet
    have hwarnings : report.warnings = [] := warnings_eq_nil hcheck hok hquiet
    have hstrictOk : report.isOk true = true :=
      CheckReport.isOk_iff.mpr ⟨(CheckReport.isOk_iff.mp hok).1, fun _ => hwarnings⟩
    exact (strict_exit_zero_iff hstrictArgs).mpr ⟨c, report, hload, hcheck, hstrictOk⟩

/-- A document that lists one page. -/
def guideDocument : String := "site_name: Docs\nnav:\n  - Home: index.md\n"

/-- A host with the document and the page. -/
def guideHost : Host :=
  ⟨.directory [("srv", .directory
      [("mkdocs.yml", .file guideDocument.toUTF8),
        ("docs", .directory [("index.md", .file "# Start\n".toUTF8)])])],
    ⟨"/srv"⟩, []⟩

/-- The site, loaded. -/
def guideSite : Config :=
  { (default : Config) with
    siteName := "Docs", docsDir := "docs", siteDir := "site", useDirectoryUrls := true
    devAddr := "127.0.0.1:8000", nav := some [.page (some "Home") "index.md"]
    theme := .named "mkdocs", plugins := [⟨"search", []⟩]
    paths := ⟨⟨"."⟩, ⟨"./docs"⟩, ⟨"./site"⟩⟩, configPath := some ⟨"mkdocs.yml"⟩ }

/-- A host without files. -/
def bareHost : Host := ⟨.directory [], ⟨"/"⟩, []⟩

/-- Arguments that name the configuration file and allow a plugin. -/
def guideArgs : List String := ["-cmkdocs.yml", "--allow-plugin", "charts"]

/-- The options of `guideArgs`. -/
def guideOptions : Options :=
  { Options.empty with config := some ⟨"mkdocs.yml"⟩, allowPlugins := ["charts"] }

theorem load_guideSite :
    Config.load guideHost guideOptions.config guideOptions.settings = .ok guideSite := by
  have hread : guideHost.readText ⟨"mkdocs.yml"⟩ = .ok guideDocument :=
    Outcome.toOption_eq_some.mp (by decide +kernel)
  have hplain : Config.IsPlainText guideDocument
      [(.string "site_name", .string "Docs"),
        (.string "nav", .sequence [.mapping [(.string "Home", .string "index.md")]])] :=
    { notBlank := by decide
      reads := Outcome.toOption_eq_some.mp (by decide +kernel)
      untagged := by decide }
  exact (Config.load_of_plain hread hplain _).trans rfl

/-- The site passes in strict mode, hence without, and its page is printed. Where
there is no file, every command says so. -/
theorem run_agrees_guideArgs :
    (run guideHost ("check" :: "--strict" :: guideArgs)).code = 0 ∧
      (run guideHost ("check" :: guideArgs)).code = 0 ∧
      run guideHost ("nav" :: guideArgs) = ⟨0, "- Home [index.md]\n", ""⟩ ∧
      ∀ name ∈ ["check", "nav", "config"], run bareHost (name :: guideArgs) =
        ⟨1, "", "Error: Configuration file not found: mkdocs.yml\n"⟩ := by
  have hargs : parse ("check" :: guideArgs) = .run .check guideOptions := by decide +kernel
  obtain ⟨hpassed, -, -, hstrictly, hstrict⟩ := run_agrees guideHost hargs rfl
  obtain ⟨-, -, hmisload, -, -⟩ := run_agrees bareHost hargs rfl
  have hreport : (guideSite.check (pagesOf guideHost guideSite)).toOption.map
      (fun report => (report.isOk true, report.navigation.text)) =
        some (true, "- Home [index.md]\n") := by
    decide +kernel
  obtain ⟨report, hcheck, hvalues⟩ := Option.map_eq_some_iff.mp hreport
  obtain ⟨hok, htext⟩ := Prod.mk.inj hvalues
  have hstrictPass : (run guideHost ("check" :: "--strict" :: guideArgs)).code = 0 :=
    (strict_exit_zero_iff hstrictly).mpr
      ⟨guideSite, report, load_guideSite, Outcome.toOption_eq_some.mp hcheck, hok⟩
  have hpass : (run guideHost ("check" :: guideArgs)).code = 0 :=
    (hstrict _ hstrictly).1 hstrictPass
  refine ⟨hstrictPass, hpass, ?_, hmisload (.notFound ⟨"mkdocs.yml"⟩) rfl⟩
  obtain ⟨c, report', -, hload, hcheck', -, hnav⟩ := hpassed hpass
  have hc : c = guideSite := Except.ok.inj (hload.symm.trans load_guideSite)
  subst hc
  have hsame : report' = report :=
    Except.ok.inj (hcheck'.symm.trans (Outcome.toOption_eq_some.mp hcheck))
  rw [hnav, hsame, htext]

end Cli
end SitePlan
