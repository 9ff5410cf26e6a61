/-
# The rules of a valid configuration

What validation asks of a configuration is a row of rules, each with the error
for breaking it: those for name and addresses first, then directories, theme,
extensions, their options, plugins, scripts and style sheets. A configuration
validates exactly if it keeps all of them, and otherwise the error is that of
the first one broken. In a list of names every entry has two rules in its turn,
to be recognised and to be no repeat. Warnings are those of the palette.

Key definitions: `Rule`, `FirstBroken`, `Enforces`, `Registry.Recognises`,
`IsHostPort`, `Config.Valid`, `Config.rules`.
Key theorems: `Enforces.bind`, `addressPort?_eq_some`, `validateNames_enforces`,
`Config.validate_enforces`, `Config.valid_iff_rules`, `Config.validate_exact`.
-/
import Mathlib.Data.Nat.Digits.Defs
import SitePlan.Proofs.Config.Directories

namespace SitePlan

/-! ### Rules in a row -/

/-- What is asked of a configuration, and the error of one that does not keep
to it. -/
structure Rule where
  Holds : Prop
  error : ConfigError

/-- The error of the first of some rules that does not hold. -/
inductive FirstBroken : List Rule → ConfigError → Prop
  | here {rule : Rule} {rest : List Rule} : ¬ rule.Holds → FirstBroken (rule :: rest) rule.error
  | later {rule : Rule} {rest : List Rule} {e : ConfigError} : rule.Holds → FirstBroken rest e →
      FirstBroken (rule :: rest) e

/-- A check that enforces rules: it gives its result if all of them hold, and
the error of the first broken one if not. -/
structure Enforces {α : Type} (check : Except ConfigError α) (result : α) (rules : List Rule) :
    Prop where
  passes : (∀ rule ∈ rules, rule.Holds) → check = .ok result
  fails : ∀ e, FirstBroken rules e → check = .error e

theorem not_firstBroken_nil {e : ConfigError} : ¬ FirstBroken [] e := nofun

theorem firstBroken_append {rules more : List Rule} {e : ConfigError}
    (h : FirstBroken (rules ++ more) e) :
    FirstBroken rules e ∨ (∀ rule ∈ rules, rule.Holds) ∧ FirstBroken more e := by
  induction rules with
  | nil => exact .inr ⟨by simp, h⟩
  | cons rule rest ih =>
    cases h with
    | here hbroken => exact .inl (.here hbroken)
    | later hholds h =>
      rcases ih h with h | ⟨hrest, h⟩
      · exact .inl (.later hholds h)
      · exact .inr ⟨List.forall_mem_cons.mpr ⟨hholds, hrest⟩, h⟩

/-- Either all rules hold or one of them is the first broken one. -/
theorem all_hold_or_firstBroken (rules : List Rule) :
    (∀ rule ∈ rules, rule.Holds) ∨ ∃ e, FirstBroken rules e := by
  induction rules with
  | nil => exact .inl (by simp)
  | cons rule rest ih =>
    by_cases hholds : rule.Holds
    · rcases ih with hrest | ⟨e, he⟩
      · exact .inl (List.forall_mem_cons.mpr ⟨hholds, hrest⟩)
      · exact .inr ⟨e, .later hholds he⟩
    · exact .inr ⟨rule.error, .here hholds⟩

namespace Enforces

variable {α : Type} {check more : Except ConfigError α} {result : α} {rules rules' : List Rule}

theorem ok_iff (h : Enforces check result rules) :
    check = .ok result ↔ ∀ rule ∈ rules, rule.Holds := by
  constructor
  · intro hok
    rcases all_hold_or_firstBroken rules with hall | ⟨e, he⟩
    · exact hall
    · rw [h.fails e he] at hok
      cases hok
  · exact h.passes

theorem error_iff (h : Enforces check result rules) {e : ConfigError} :
    check = .error e ↔ FirstBroken rules e := by
  constructor
  · intro herror
    rcases all_hold_or_firstBroken rules with hall | ⟨e', he'⟩
    · rw [h.passes hall] at herror
      cases herror
    · rw [h.fails e' he'] at herror
      cases herror
      exact he'
  · exact h.fails e

theorem eq_of_ok (h : Enforces check result rules) {a : α} (ha : check = .ok a) : a = result := by
  rcases all_hold_or_firstBroken rules with hall | ⟨e, he⟩
  · rw [h.passes hall] at ha
    cases ha
    rfl
  · rw [h.fails e he] at ha
    cases ha

theorem nil (result : α) : Enforces (.ok result) result [] :=
  ⟨fun _ => rfl, fun _ h => absurd h not_firstBroken_nil⟩

/-- A rule in front: where it is broken the check fails with its error, and
where it holds the check goes on as before. -/
theorem cons {P : Prop} {e : ConfigError} (hbroken : ¬ P → more = .error e)
    (hholds : P → more = check) (h : Enforces check result rules) :
    Enforces more result (⟨P, e⟩ :: rules) where
  passes hall := by
    obtain ⟨hP, hrest⟩ := List.forall_mem_cons.mp hall
    rw [hholds hP]
    exact h.passes hrest
  fails e' he' := by
    cases he' with
    | here hP => exact hbroken hP
    | later hP he' =>
      rw [hholds hP]
      exact h.fails e' he'

theorem single {check : Except ConfigError Unit} {P : Prop} {e : ConfigError}
    (hbroken : ¬ P → check = .error e) (hholds : P → check = .ok ()) :
    Enforces check () [⟨P, e⟩] :=
  cons hbroken hholds (nil ())

/-- Checks in a row enforce their rules in a row. -/
theorem bind {first : Except ConfigError Unit} (hfirst : Enforces first () rules)
    (h : Enforces check result rules') :
    Enforces (first >>= fun _ => check) result (rules ++ rules') where
  passes hall := by
    obtain ⟨hrules, hrules'⟩ := List.forall_mem_append.mp hall
    rw [hfirst.passes hrules, h.passes hrules']
    rfl
  fails e he := by
    rcases firstBroken_append he with he | ⟨hrules, he⟩
    · rw [hfirst.fails e he]
      rfl
    · rw [hfirst.passes hrules, h.fails e he]
      rfl

end Enforces

/-! ### Texts and addresses -/

/-- Some character of the text is not blank. -/
def Text.HasContent (s : String) : Prop := ∃ c ∈ s.toList, Text.isBlank c = false

/-- The text begins like a web address. -/
def IsWebAddress (url : String) : Prop :=
  "http://".toList <+: url.toList ∨ "https://".toList <+: url.toList

/-- The number that digits write in base ten. -/
def decimal (ds : List Char) : Nat := Nat.ofDigits 10 (ds.map fun d => d.toNat - '0'.toNat).reverse

/-- The text writes a port: digits, after at most one plus sign, for a number of
16 bits. -/
def WritesPort (cs : List Char) (port : Nat) : Prop :=
  ∃ ds, (cs = ds ∨ cs = '+' :: ds) ∧ ds ≠ [] ∧ (∀ d ∈ ds, d.isDigit = true) ∧ decimal ds = port ∧
    port < 65536

/-- The address is a host, a colon and a port. The colon is the last one, and the
host is not empty. -/
def IsHostPort (address : String) (port : Nat) : Prop :=
  ∃ host rest, address.toList = host ++ ':' :: rest ∧ ':' ∉ rest ∧ host ≠ [] ∧ WritesPort rest port

theorem startsWith_iff {start cs : List Char} :
    Text.startsWith start cs = true ↔ start <+: cs := by
  unfold Text.startsWith
  rw [Option.isSome_iff_exists]
  exact exists_congr fun rest => Text.dropStart?_eq_some.trans eq_comm

/-- The number that digits write, with those read before worth `n`. -/
def decimalAfter (n : Nat) (ds : List Char) : Nat :=
  ds.foldl (fun n d => 10 * n + (d.toNat - '0'.toNat)) n

theorem decimal_eq (ds : List Char) : decimal ds = decimalAfter 0 ds := by
  unfold decimal decimalAfter
  rw [Nat.ofDigits_eq_foldr, List.foldr_reverse, List.foldl_map]
  congr 1
  funext n d
  simp [Nat.add_comm]

theorem le_decimalAfter : ∀ (ds : List Char) (n : Nat), n ≤ decimalAfter n ds
  | [], n => Nat.le_refl n
  | d :: ds, n => by
    have ih := le_decimalAfter ds (10 * n + (d.toNat - '0'.toNat))
    show n ≤ decimalAfter (10 * n + (d.toNat - '0'.toNat)) ds
    omega

/-- Digits are read one by one, and the number stays small to the end. -/
theorem foldlM_digits : ∀ (ds : List Char) (n port : Nat), n < 65536 →
    (ds.foldlM (fun n c =>
      if c.isDigit then
        let m := 10 * n + (c.toNat - '0'.toNat)
        if m < 65536 then some m else none
      else none) n = some port ↔
      (∀ d ∈ ds, d.isDigit = true) ∧ decimalAfter n ds = port ∧ port < 65536)
  | [], n, port, hn => by
    have hafter : decimalAfter n [] = n := rfl
    rw [List.foldlM_nil, hafter]
    constructor
    · intro h
      cases h
      exact ⟨by simp, rfl, hn⟩
    · rintro ⟨-, rfl, -⟩
      rfl
  | d :: ds, n, port, hn => by
    have hafter : decimalAfter n (d :: ds) =
        decimalAfter (10 * n + (d.toNat - '0'.toNat)) ds := rfl
    have hle := le_decimalAfter ds (10 * n + (d.toNat - '0'.toNat))
    rw [List.foldlM_cons, hafter, List.forall_mem_cons]
    by_cases hd : d.isDigit = true
    · by_cases hm : 10 * n + (d.toNat - '0'.toNat) < 65536
      · have ih := foldlM_digits ds (10 * n + (d.toNat - '0'.toNat)) port hm
        simp only [hd, if_true, hm, Option.bind_eq_bind, Option.bind_some, true_and]
        exact ih
      · simp only [hd, if_true, hm, if_false, Option.bind_eq_bind, Option.bind_none, reduceCtorEq,
          false_iff]
        omega
    · simp [hd]

theorem smallNumber?_eq_some {ds : List Char} {port : Nat} : smallNumber? ds = some port ↔
    (∀ d ∈ ds, d.isDigit = true) ∧ decimal ds = port ∧ port < 65536 := by
  rw [decimal_eq]
  exact foldlM_digits ds 0 port (by omega)

theorem port?_eq_some {cs : List Char} {port : Nat} :
    port? cs = some port ↔ WritesPort cs port := by
  have hdigits : ∀ ds : List Char, (if ds = [] then none else smallNumber? ds) = some port ↔
      ds ≠ [] ∧ (∀ d ∈ ds, d.isDigit = true) ∧ decimal ds = port ∧ port < 65536 := by
    intro ds
    by_cases hds : ds = []
    · simp [hds]
    · simp [hds, smallNumber?_eq_some]
  unfold port? WritesPort
  split
  · rename_i ds
    simp only [hdigits]
    constructor
    · exact fun h => ⟨ds, .inr rfl, h⟩
    · rintro ⟨ds', rfl | hds, h⟩
      · -- a plus sign is no digit
        exact absurd (h.2.1 '+' List.mem_cons_self) (by decide)
      · cases hds
        exact h
  · rename_i hplus
    simp only [hdigits]
    constructor
    · exact fun h => ⟨cs, .inl rfl, h⟩
    · rintro ⟨ds, rfl | hds, h⟩
      · exact h
      · exact absurd hds (hplus ds)

/-- An address has a port exactly if it is a host, a colon and a port. -/
theorem addressPort?_eq_some {address : String} {port : Nat} :
    addressPort? address = some port ↔ IsHostPort address port := by
  unfold addressPort? IsHostPort
  rw [Option.bind_eq_bind, Option.bind_eq_some_iff]
  constructor
  · rintro ⟨⟨host, rest⟩, hsplit, h⟩
    obtain ⟨haddress, hlast⟩ := (Text.splitLast?_eq_some ':').mp hsplit
    simp only at h
    split at h
    · cases h
    · rename_i hhost
      exact ⟨host, rest, haddress, hlast, hhost, port?_eq_some.mp h⟩
  · rintro ⟨host, rest, haddress, hlast, hhost, hport⟩
    refine ⟨(host, rest), (Text.splitLast?_eq_some ':').mpr ⟨haddress, hlast⟩, ?_⟩
    simp only [if_neg hhost]
    exact port?_eq_some.mpr hport

/-! ### Recognised names -/

namespace Registry

/-- The name is registered, or it is the beginning that the kind allows with a
registered name after it. -/
def Recognises (r : Registry) (kind : IdentifierKind) (name : String) : Prop :=
  name ∈ r.names kind ∨
    ∃ start short, kind.namespaceText? = some start ∧ name = start ++ short ∧
      short ∈ r.names kind

variable {r : Registry} {kind : IdentifierKind} {name : String}

/-- A registered name is recognised as itself, another one as the registered name
after the beginning that the kind allows. -/
theorem recognise?_eq_some {id : String} : r.recognise? kind name = some id ↔
    id ∈ r.names kind ∧ (name = id ∨ name ∉ r.names kind ∧
      ∃ start, kind.namespaceText? = some start ∧ name = start ++ id) := by
  unfold recognise?
  by_cases hname : name ∈ r.names kind
  · have hcontains : (r.names kind).contains name = true := List.contains_iff_mem.mpr hname
    rw [if_pos hcontains]
    constructor
    · intro h
      cases h
      exact ⟨hname, .inl rfl⟩
    · rintro ⟨-, rfl | ⟨hnot, -⟩⟩
      · rfl
      · exact absurd hname hnot
  · have hcontains : ¬ (r.names kind).contains name = true := fun h =>
      hname (List.contains_iff_mem.mp h)
    rw [if_neg hcontains]
    simp only [Option.bind_eq_bind, Option.bind_eq_some_iff, Text.dropStart?_eq_some]
    constructor
    · rintro ⟨start, hstart, short, hshort, h⟩
      split at h
      · rename_i hmem
        cases h
        refine ⟨List.contains_iff_mem.mp hmem, .inr ⟨hname, start, hstart, ?_⟩⟩
        rw [← String.toList_inj, hshort, String.toList_append, String.toList_ofList]
      · cases h
    · rintro ⟨hid, rfl | ⟨-, start, hstart, rfl⟩⟩
      · exact absurd hid hname
      · refine ⟨start, hstart, id.toList, String.toList_append, ?_⟩
        rw [String.ofList_toList, if_pos (List.contains_iff_mem.mpr hid)]

theorem contains_iff : r.contains kind name = true ↔ r.Recognises kind name := by
  unfold contains Recognises
  rw [Option.isSome_iff_exists]
  simp only [recognise?_eq_some]
  constructor
  · rintro ⟨id, hid, rfl | ⟨-, start, hstart, rfl⟩⟩
    · exact .inl hid
    · exact .inr ⟨start, id, hstart, rfl, hid⟩
  · rintro (hname | ⟨start, short, hstart, rfl, hshort⟩)
    · exact ⟨name, hname, .inl rfl⟩
    · by_cases hname : start ++ short ∈ r.names kind
      · exact ⟨_, hname, .inl rfl⟩
      · exact ⟨short, hshort, .inr ⟨hname, start, hstart, rfl⟩⟩

/-- A name should be recognised. -/
def recognitionRule (r : Registry) (kind : IdentifierKind) (name : String) : Rule :=
  ⟨r.Recognises kind name, .unknownIdentifier kind name⟩

theorem require_enforces (r : Registry) (kind : IdentifierKind) (name : String) :
    Enforces (r.require kind name) () [r.recognitionRule kind name] := by
  refine .single (fun h => ?_) (fun h => ?_)
  · rw [← contains_iff] at h
    exact if_neg h
  · rw [← contains_iff] at h
    exact if_pos h

end Registry

/-! ### The rules of a configuration -/

/-- The options for highlighting code, where they are given: line numbers are on
or off, and their style is one that there is. -/
def NamedEntry.HighlightsWell (e : NamedEntry) : Prop :=
  (∀ v, e.option? "linenums" = some v → ∃ b, v.untagged = .bool b) ∧
    ∀ v, e.option? "linenums_style" = some v → ∃ s ∈ lineNumberStyles, v.untagged = .string s

theorem Yaml.Value.bool?_eq_some {v : Yaml.Value} {b : Bool} :
    v.bool? = some b ↔ v.untagged = .bool b := by
  unfold bool?
  cases v.untagged <;> simp

theorem Yaml.Value.text?_eq_some {v : Yaml.Value} {s : String} :
    v.text? = some s ↔ v.untagged = .string s := by
  unfold text?
  cases v.untagged <;> simp

namespace Config

/-- A configuration that keeps to all that validation asks. -/
structure Valid (c : Config) (r : Registry) : Prop where
  site_name : Text.HasContent c.siteName
  site_url : ∀ url ∈ c.siteUrl, IsWebAddress url
  repo_url : ∀ url ∈ c.repoUrl, IsWebAddress url
  dev_addr : ∃ port, port ≠ 0 ∧ IsHostPort c.devAddr port
  docs_config : c.paths.docsDir.components ≠ c.paths.configDir.components
  site_docs : ¬ c.paths.docsDir.components <+: c.paths.siteDir.components
  docs_site : ¬ c.paths.siteDir.components <+: c.paths.docsDir.components
  theme : r.Recognises .theme c.theme.name
  extensions : ∀ e ∈ c.markdownExtensions, r.Recognises .markdownExtension e.name
  extensions_nodup : (c.markdownExtensions.map NamedEntry.name).Nodup
  highlight : ∀ e ∈ c.markdownExtensions, e.name = highlightName → e.HighlightsWell
  plugins : ∀ e ∈ c.plugins, r.Recognises .plugin e.name
  plugins_nodup : (c.plugins.map NamedEntry.name).Nodup
  scripts : ∀ s ∈ c.extraJavascript, Text.HasContent s.path
  styles : ∀ s ∈ c.extraCss, Text.HasContent s

/-- The rule for a text that should not be blank. -/
def textRule (field text : String) : Rule :=
  ⟨Text.HasContent text, .invalid (.blankText field)⟩

/-- The rule for a web address that may be missing. -/
def urlRule (field : String) (url? : Option String) : Rule :=
  ⟨∀ url ∈ url?, IsWebAddress url, .invalid (.notHttpUrl field)⟩

/-- The rules for name and addresses. -/
def siteRules (c : Config) : List Rule :=
  [textRule "site_name" c.siteName, urlRule "site_url" c.siteUrl, urlRule "repo_url" c.repoUrl,
    ⟨∃ port, IsHostPort c.devAddr port, .invalid (.notHostPort c.devAddr)⟩,
    ⟨¬ IsHostPort c.devAddr 0, .invalid .portZero⟩]

/-- The rules for directories. -/
def pathRules (p : ResolvedPaths) : List Rule :=
  [⟨p.docsDir.components ≠ p.configDir.components, .invalid .docsIsConfigDirectory⟩,
    ⟨¬ p.docsDir.components <+: p.siteDir.components,
      .invalid (.siteInsideDocs p.siteDir p.docsDir)⟩,
    ⟨¬ p.siteDir.components <+: p.docsDir.components,
      .invalid (.docsInsideSite p.docsDir p.siteDir)⟩]

/-- The rules for names, each in its turn: it is recognised, and it is none of
the earlier ones. -/
def nameRules (kind : IdentifierKind) (field : String) (r : Registry) :
    List String → List String → List Rule
  | _, [] => []
  | earlier, name :: rest =>
    r.recognitionRule kind name :: ⟨name ∉ earlier, .invalid (.repeatedName field name)⟩ ::
      nameRules kind field r (name :: earlier) rest

/-- The rules for the options of an extension for highlighting code. -/
def highlightRules (e : NamedEntry) : List Rule :=
  [⟨∀ v, e.option? "linenums" = some v → ∃ b, v.untagged = .bool b,
      .invalid .lineNumbersNotBool⟩,
    ⟨∀ v, e.option? "linenums_style" = some v → ∃ s ∈ lineNumberStyles, v.untagged = .string s,
      .invalid .unknownLineNumberStyle⟩]

/-- All rules of a configuration, in the order in which they are checked. -/
def rules (c : Config) (r : Registry) : List Rule :=
  c.siteRules ++ (pathRules c.paths ++ ([r.recognitionRule .theme c.theme.name] ++
    (nameRules .markdownExtension "markdown_extensions" r []
        (c.markdownExtensions.map NamedEntry.name) ++
      ((c.markdownExtensions.filter fun e => e.name = highlightName).flatMap highlightRules ++
        (nameRules .plugin "plugins" r [] (c.plugins.map NamedEntry.name) ++
          ((c.extraJavascript.map fun s => textRule "extra_javascript path" s.path) ++
            c.extraCss.map (textRule "extra_css path")))))))

/-! ### Every check enforces its rules -/

theorem requireText_enforces (field text : String) :
    Enforces (requireText field text) () [textRule field text] := by
  have hblank : Text.isBlankText text = true ↔ ¬ Text.HasContent text := by
    unfold Text.isBlankText Text.HasContent
    simp
  refine .single (fun h => ?_) (fun h => ?_)
  · exact if_pos (hblank.mpr h)
  · exact if_neg fun hb => hblank.mp hb h

theorem requireUrl_enforces (field : String) (url? : Option String) :
    Enforces (requireUrl field url?) () [urlRule field url?] := by
  have hweb : ∀ url, isHttpUrl url = true ↔ IsWebAddress url := by
    intro url
    unfold isHttpUrl IsWebAddress
    rw [Bool.or_eq_true, startsWith_iff, startsWith_iff]
  cases url? with
  | none => exact .single (fun h => absurd (by simp) h) (fun _ => rfl)
  | some url =>
    refine .single (fun h => ?_) (fun h => ?_)
    · exact if_neg fun hu => h (by simpa using (hweb url).mp hu)
    · exact if_pos ((hweb url).mpr (h url rfl))

theorem validateSite_enforces (c : Config) : Enforces c.validateSite () c.siteRules := by
  have hport : ∀ port, addressPort? c.devAddr = some port ↔ IsHostPort c.devAddr port :=
    fun _ => addressPort?_eq_some
  have hname := requireText_enforces "site_name" c.siteName
  have hsite := requireUrl_enforces "site_url" c.siteUrl
  have hrepo := requireUrl_enforces "repo_url" c.repoUrl
  unfold validateSite siteRules
  refine hname.bind (hsite.bind (hrepo.bind ?_))
  simp only [← hport]
  cases addressPort? c.devAddr with
  | none =>
    have hrest : Enforces (.ok ()) () [⟨¬ (none : Option Nat) = some 0, .invalid .portZero⟩] :=
      .single (fun h => absurd nofun h) (fun _ => rfl)
    exact .cons (fun _ => rfl) (fun h => absurd h (by simp)) hrest
  | some port =>
    refine .cons (fun h => absurd ⟨port, rfl⟩ h) (fun _ => rfl) ?_
    cases port with
    | zero => exact .single (fun _ => rfl) (fun h => absurd rfl h)
    | succ n => exact .single (fun h => absurd (by simp) h) (fun _ => rfl)

theorem validatePaths_enforces (p : ResolvedPaths) :
    Enforces (validatePaths p) () (pathRules p) := by
  have hsame : ∀ x y : Path, x.same y = true ↔ x.components = y.components := by
    intro x y
    unfold Path.same
    rw [beq_iff_eq]
  have hwithin : ∀ x y : Path, x.isWithin y = true ↔ y.components <+: x.components := by
    intro x y
    unfold Path.isWithin
    rw [List.isPrefixOf_iff_prefix]
  unfold validatePaths
  simp only [hsame, hwithin]
  refine .cons (fun h => ?_) (fun h => if_neg h) (.cons (fun h => ?_) (fun h => if_neg h)
    (.single (fun h => ?_) (fun h => if_neg h)))
  · exact if_pos (not_not.mp h)
  · exact if_pos (not_not.mp h)
  · exact if_pos (not_not.mp h)

/-- Names are checked in their turn. What carries the induction is that `seen`
are the earlier ones. -/
theorem validateNames_enforces (kind : IdentifierKind) (field : String) (r : Registry) :
    ∀ (entries : List NamedEntry) (seen : List String),
    Enforces (validateNames kind field r seen entries) ()
      (nameRules kind field r seen (entries.map NamedEntry.name))
  | [], _ => .nil ()
  | e :: rest, seen => by
    have ih := validateNames_enforces kind field r rest (e.name :: seen)
    rw [validateNames, List.map_cons, nameRules]
    refine (r.require_enforces kind e.name).bind (.cons (fun h => ?_) (fun h => ?_) ih)
    · rw [if_pos (List.contains_iff_mem.mpr (not_not.mp h))]
    · rw [if_neg fun hc => h (List.contains_iff_mem.mp hc)]

theorem validateHighlight_enforces (e : NamedEntry) :
    Enforces (validateHighlight e) () (highlightRules e) := by
  have hbool : ((e.option? "linenums").any fun v => v.bool?.isNone) = true ↔
      ¬ ∀ v, e.option? "linenums" = some v → ∃ b, v.untagged = .bool b := by
    cases e.option? "linenums" with
    | none => simp
    | some v => simp [← Yaml.Value.bool?_eq_some, Option.eq_none_iff_forall_ne_some]
  have hstyle : ((e.option? "linenums_style").any fun v =>
        !v.text?.any fun s => lineNumberStyles.contains s) = true ↔
      ¬ ∀ v, e.option? "linenums_style" = some v →
        ∃ s ∈ lineNumberStyles, v.untagged = .string s := by
    cases e.option? "linenums_style" with
    | none => simp
    | some v =>
      have htext : (v.text?.any fun s => lineNumberStyles.contains s) = true ↔
          ∃ s ∈ lineNumberStyles, v.text? = some s := by
        cases v.text? <;> simp
      simp only [Option.any_some, Bool.not_eq_true', ← Bool.not_eq_true, htext, Option.some.injEq,
        forall_eq', Yaml.Value.text?_eq_some]
  unfold validateHighlight
  refine .cons (fun h => ?_) (fun h => if_neg fun hb => hbool.mp hb h)
    (.single (fun h => ?_) (fun h => if_neg fun hb => hstyle.mp hb h))
  · exact if_pos (hbool.mpr h)
  · exact if_pos (hstyle.mpr h)

theorem validateHighlights_enforces : ∀ entries : List NamedEntry,
    Enforces (validateHighlights entries) ()
      ((entries.filter fun e => e.name = highlightName).flatMap highlightRules)
  | [] => .nil ()
  | e :: rest => by
    have ih := validateHighlights_enforces rest
    rw [validateHighlights]
    by_cases hname : e.name = highlightName
    · rw [if_pos hname, List.filter_cons_of_pos (by simpa using hname), List.flatMap_cons]
      exact (validateHighlight_enforces e).bind ih
    · rw [if_neg hname, List.filter_cons_of_neg (by simpa using hname)]
      exact ih

theorem validateTexts_enforces (field : String) : ∀ texts : List String,
    Enforces (validateTexts field texts) () (texts.map (textRule field))
  | [] => .nil ()
  | text :: rest => by
    have ih := validateTexts_enforces field rest
    rw [validateTexts, List.map_cons]
    exact (requireText_enforces field text).bind ih

/-- Validation enforces the rules of a configuration, and its result are the
warnings of the palette. -/
theorem validate_enforces (c : Config) (r : Registry) :
    Enforces (c.validate r) c.theme.paletteWarnings (c.rules r) := by
  have hscripts := validateTexts_enforces "extra_javascript path"
    (c.extraJavascript.map Script.path)
  have hstyles := validateTexts_enforces "extra_css path" c.extraCss
  have hassets := hscripts.bind (hstyles.bind (.nil c.theme.paletteWarnings))
  have hplugins := (validateNames_enforces .plugin "plugins" r c.plugins []).bind hassets
  have hextensions := (validateNames_enforces .markdownExtension "markdown_extensions" r
    c.markdownExtensions []).bind ((validateHighlights_enforces c.markdownExtensions).bind hplugins)
  have htheme := (r.require_enforces .theme c.theme.name).bind hextensions
  have hall := c.validateSite_enforces.bind ((validatePaths_enforces c.paths).bind htheme)
  rw [List.append_nil, List.map_map] at hall
  exact hall

/-! ### The rules as a whole -/

/-- The rules for names hold if all are recognised and no two are the same. -/
theorem nameRules_hold (kind : IdentifierKind) (field : String) (r : Registry) :
    ∀ names earlier : List String, (∀ rule ∈ nameRules kind field r earlier names, rule.Holds) ↔
      (∀ name ∈ names, r.Recognises kind name) ∧ names.Nodup ∧ ∀ name ∈ names, name ∉ earlier
  | [], _ => by simp [nameRules]
  | name :: rest, earlier => by
    have ih := nameRules_hold kind field r rest (name :: earlier)
    have hrule : (r.recognitionRule kind name).Holds ↔ r.Recognises kind name := Iff.rfl
    rw [nameRules, List.forall_mem_cons, List.forall_mem_cons, ih, hrule, List.nodup_cons,
      List.forall_mem_cons, List.forall_mem_cons]
    simp only [List.mem_cons, not_or]
    constructor
    · rintro ⟨hname, hearlier, hrest, hnodup, hnot⟩
      exact ⟨⟨hname, hrest⟩, ⟨fun hmem => (hnot name hmem).1 rfl, hnodup⟩, hearlier,
        fun n hn => (hnot n hn).2⟩
    · rintro ⟨⟨hname, hrest⟩, ⟨hmem, hnodup⟩, hearlier, hnot⟩
      exact ⟨hname, hearlier, hrest, hnodup, fun n hn => ⟨fun he => hmem (he ▸ hn), hnot n hn⟩⟩

theorem siteRules_hold {c : Config} : (∀ rule ∈ c.siteRules, rule.Holds) ↔
    Text.HasContent c.siteName ∧ (∀ url ∈ c.siteUrl, IsWebAddress url) ∧
      (∀ url ∈ c.repoUrl, IsWebAddress url) ∧ ∃ port, port ≠ 0 ∧ IsHostPort c.devAddr port := by
  have hport : (∃ port, port ≠ 0 ∧ IsHostPort c.devAddr port) ↔
      (∃ port, IsHostPort c.devAddr port) ∧ ¬ IsHostPort c.devAddr 0 := by
    constructor
    · rintro ⟨port, hne, hport⟩
      refine ⟨⟨port, hport⟩, fun hzero => hne ?_⟩
      -- an address has one port
      rw [← addressPort?_eq_some] at hport hzero
      exact Option.some.inj (hport.symm.trans hzero)
    · rintro ⟨⟨port, hport⟩, hzero⟩
      exact ⟨port, fun he => hzero (he ▸ hport), hport⟩
  rw [hport]
  simp [siteRules, textRule, urlRule]

/-- A configuration is valid exactly if all its rules hold. -/
theorem valid_iff_rules {c : Config} {r : Registry} :
    c.Valid r ↔ ∀ rule ∈ c.rules r, rule.Holds := by
  have hextensions := nameRules_hold .markdownExtension "markdown_extensions" r
    (c.markdownExtensions.map NamedEntry.name) []
  have hplugins := nameRules_hold .plugin "plugins" r (c.plugins.map NamedEntry.name) []
  have hoptions : ∀ e : NamedEntry,
      (∀ rule ∈ highlightRules e, rule.Holds) ↔ e.HighlightsWell := by
    intro e
    simp [highlightRules, NamedEntry.HighlightsWell]
  have hhighlight : (∀ rule ∈ (c.markdownExtensions.filter fun e =>
      e.name = highlightName).flatMap highlightRules, rule.Holds) ↔
      ∀ e ∈ c.markdownExtensions, e.name = highlightName → e.HighlightsWell := by
    simp only [List.mem_flatMap, List.mem_filter, decide_eq_true_eq]
    constructor
    · exact fun h e he hname => (hoptions e).mp fun rule hrule => h rule ⟨e, ⟨he, hname⟩, hrule⟩
    · rintro h rule ⟨e, ⟨he, hname⟩, hrule⟩
      exact (hoptions e).mpr (h e he hname) rule hrule
  have htheme : (∀ rule ∈ [r.recognitionRule .theme c.theme.name], rule.Holds) ↔
      r.Recognises .theme c.theme.name := List.forall_mem_singleton
  have hpaths : (∀ rule ∈ pathRules c.paths, rule.Holds) ↔
      c.paths.docsDir.components ≠ c.paths.configDir.components ∧
        ¬ c.paths.docsDir.components <+: c.paths.siteDir.components ∧
        ¬ c.paths.siteDir.components <+: c.paths.docsDir.components := by
    simp [pathRules]
  have hscripts : (∀ rule ∈ c.extraJavascript.map fun s => textRule "extra_javascript path" s.path,
      rule.Holds) ↔ ∀ s ∈ c.extraJavascript, Text.HasContent s.path := List.forall_mem_map
  have hstyles : (∀ rule ∈ c.extraCss.map (textRule "extra_css path"), rule.Holds) ↔
      ∀ s ∈ c.extraCss, Text.HasContent s := List.forall_mem_map
  unfold rules
  rw [List.forall_mem_append, List.forall_mem_append, List.forall_mem_append,
    List.forall_mem_append, List.forall_mem_append, List.forall_mem_append,
    List.forall_mem_append, siteRules_hold, hpaths, htheme, hextensions, hhighlight, hplugins,
    hscripts, hstyles]
  simp only [List.forall_mem_map, List.not_mem_nil, not_false_iff, implies_true, and_true]
  constructor
  · intro h
    exact ⟨⟨h.site_name, h.site_url, h.repo_url, h.dev_addr⟩,
      ⟨h.docs_config, h.site_docs, h.docs_site⟩, h.theme, ⟨h.extensions, h.extensions_nodup⟩,
      h.highlight, ⟨h.plugins, h.plugins_nodup⟩, h.scripts, h.styles⟩
  · rintro ⟨⟨hname, hsite, hrepo, hdev⟩, ⟨hconfig, hin, hout⟩, htheme, ⟨hext, hextn⟩, hhigh,
      ⟨hplug, hplugn⟩, hscripts, hstyles⟩
    exact ⟨hname, hsite, hrepo, hdev, hconfig, hin, hout, htheme, hext, hextn, hhigh, hplug,
      hplugn, hscripts, hstyles⟩

end Config

/-! ### Warnings -/

namespace Theme

theorem repeatWarnings_eq_nil : ∀ (palette : List PaletteEntry) (i : Nat),
    repeatWarnings i palette = [] ↔ (palette.map PaletteEntry.scheme).IsChain (· ≠ ·)
  | [], _ => by simp [repeatWarnings]
  | [_], _ => by simp [repeatWarnings]
  | p :: q :: rest, i => by
    have ih := repeatWarnings_eq_nil (q :: rest) (i + 1)
    have hchain : ((p :: q :: rest).map PaletteEntry.scheme).IsChain (· ≠ ·) ↔
        p.scheme ≠ q.scheme ∧ ((q :: rest).map PaletteEntry.scheme).IsChain (· ≠ ·) :=
      List.isChain_cons_cons
    rw [repeatWarnings, List.append_eq_nil_iff, ih, hchain]
    by_cases hscheme : p.scheme = q.scheme <;> simp [hscheme]

theorem toggleWarnings_eq_nil : ∀ (palette : List PaletteEntry) (i : Nat),
    toggleWarnings i palette = [] ↔ ∀ p ∈ palette, p.toggle ≠ none
  | [], _ => by simp [toggleWarnings]
  | p :: rest, i => by
    have ih := toggleWarnings_eq_nil rest (i + 1)
    rw [toggleWarnings, List.append_eq_nil_iff, ih, List.forall_mem_cons]
    cases p.toggle <;> simp

/-- A palette gives no warning if it has fewer than two variants, or if neighbours
differ in scheme and every variant can be switched to. -/
theorem paletteWarnings_eq_nil {t : Theme} : t.paletteWarnings = [] ↔
    t.palette.length < 2 ∨ (t.palette.map PaletteEntry.scheme).IsChain (· ≠ ·) ∧
      ∀ p ∈ t.palette, p.toggle ≠ none := by
  unfold paletteWarnings
  by_cases hshort : t.palette.length < 2
  · simp [hshort]
  · rw [if_neg hshort, List.append_eq_nil_iff, repeatWarnings_eq_nil, toggleWarnings_eq_nil]
    simp [hshort]

end Theme

/-! ### Validation -/

namespace Config

/-- **Validation is exact.** A configuration validates exactly if it keeps to all
rules, the error is otherwise that of the first broken one in their order, and
no warning is given exactly if the palette has fewer than two variants or its
neighbours differ in scheme and every variant has a toggle. -/
theorem validate_exact (c : Config) (r : Registry) :
    ((∃ warnings, c.validate r = .ok warnings) ↔ c.Valid r) ∧
      (∀ e, c.validate r = .error e ↔ FirstBroken (c.rules r) e) ∧
      (c.validate r = .ok [] ↔ c.Valid r ∧ (c.theme.palette.length < 2 ∨
        (c.theme.palette.map PaletteEntry.scheme).IsChain (· ≠ ·) ∧
          ∀ p ∈ c.theme.palette, p.toggle ≠ none)) := by
  have henforces := c.validate_enforces r
  have hvalid : c.validate r = .ok c.theme.paletteWarnings ↔ c.Valid r := by
    rw [valid_iff_rules]
    exact henforces.ok_iff
  refine ⟨⟨?_, fun h => ⟨_, hvalid.mpr h⟩⟩, fun e => henforces.error_iff, ?_⟩
  · rintro ⟨warnings, h⟩
    rw [henforces.eq_of_ok h] at h
    exact hvalid.mp h
  · rw [← Theme.paletteWarnings_eq_nil]
    constructor
    · intro h
      have hnone := henforces.eq_of_ok h
      rw [hnone] at h
      exact ⟨hvalid.mp h, hnone.symm⟩
    · rintro ⟨h, hnone⟩
      rw [hvalid.mpr h, hnone]

/-- Extensions come before plugins, and an unknown name before a repeated one. -/
example : (Config.validate
    { (default : Config) with
      siteName := "Docs", devAddr := "[::1]:+8000", theme := .named "mkdocs"
      paths := ⟨⟨"."⟩, ⟨"docs"⟩, ⟨"site"⟩⟩
      markdownExtensions := [.plain "toc", .plain "tables", .plain "toc", .plain "gone"]
      plugins := [.plain "gone"] } .builtin) =
    .error (.invalid (.repeatedName "markdown_extensions" "toc")) := rfl

end Config
end SitePlan
