/-
# Arguments that every command takes

A command line for a check that does not ask for strictness makes sense for every
command, and with the same options. Strictness and the form of a result belong to
one command each; reading any other option neither looks at them nor changes
them, so that reading the same arguments in strict mode ends with the same options
in strict mode.

Key definitions: `Cli.Options.mark`, `Cli.Stops`.
Key theorems: `Cli.shortOptions_mark`, `Cli.longOption_shared`,
`Cli.commandArguments_shared`, `Cli.commandArguments_stops`, `Cli.parse_eq_run`,
`Cli.parse_shared`.
-/
import Mathlib.Tactic.SplitIfs
import SitePlan.Cli.Arguments
import SitePlan.Proofs.Outcome

namespace SitePlan
namespace Cli

/-- The options with the flags that belong to one command set as given. -/
def Options.mark (strict json : Bool) (o : Options) : Options :=
  { o with strict := strict, json := json }

variable {o o' : Options} {w w' : Option Valued}

/-! ### Reading one argument -/

theorem setValue_mark (option : Valued) (value : String) (o : Options) (strict json : Bool) :
    setValue option value (o.mark strict json) =
      (setValue option value o).map (Options.mark strict json) := by
  cases option with
  | config =>
    show (if value = "" ∨ o.config.isSome then none else _) = Option.map _ (if _ then none else _)
    rw [apply_ite (Option.map _)]
    rfl
  | docsDir =>
    show (if value = "" ∨ o.docsDir.isSome then none else _) = Option.map _ (if _ then none else _)
    rw [apply_ite (Option.map _)]
    rfl
  | allowExtension | allowPlugin | allowTheme => rfl

theorem setFlag_mark {flag : Flag} (hflag : flag = .verbose ∨ flag = .help) (o : Options)
    (strict json : Bool) :
    setFlag flag (o.mark strict json) = (setFlag flag o).map (Options.mark strict json) := by
  rcases hflag with rfl | rfl
  · show (if o.verbose then Except.error _ else _) = Except.map _ (if o.verbose then _ else _)
    rw [apply_ite (Except.map _)]
    rfl
  · rfl

theorem shortFlag?_shared {c : Char} {flag : Flag} (h : shortFlag? c = some flag) :
    flag = .verbose ∨ flag = .help := by
  unfold shortFlag? at h
  split_ifs at h with hv hh
  · exact .inl (Option.some.inj h).symm
  · exact .inr (Option.some.inj h).symm

theorem shortOptions_mark (strict json : Bool) : ∀ (cs : List Char) (o : Options),
    shortOptions cs (o.mark strict json) =
      (shortOptions cs o).map fun read => (read.1.mark strict json, read.2)
  | [], o => rfl
  | c :: cs, o => by
    rw [shortOptions.eq_def, shortOptions.eq_def]
    simp only
    cases hflag : shortFlag? c with
    | some flag =>
      simp only [setFlag_mark (shortFlag?_shared hflag)]
      cases setFlag flag o with
      | error e => rfl
      | ok o₁ => exact shortOptions_mark strict json cs o₁
    | none =>
      cases hvalued : shortValued? c with
      | none => rfl
      | some option =>
        simp only
        split
        · rfl
        · rw [setValue_mark]
          cases setValue option _ o <;> rfl
        · rw [setValue_mark]
          cases setValue option _ o <;> rfl

/-- A flag that a check takes is strictness, or every command takes it. -/
theorem longFlag?_shared {name : String} {flag : Flag} (h : longFlag? .check name = some flag)
    (hflag : flag ≠ .strict) :
    (flag = .verbose ∨ flag = .help) ∧ ∀ command, longFlag? command name = some flag := by
  unfold longFlag? at h ⊢
  split_ifs at h with hverbose hhelp hstrict hjson
  · cases h
    exact ⟨.inl rfl, fun command => if_pos hverbose⟩
  · cases h
    exact ⟨.inr rfl, fun command => by rw [if_neg hverbose, if_pos hhelp]⟩
  · exact absurd (Option.some.inj h).symm hflag
  · cases hjson.2

theorem longFlag?_of_valued {name : String} {option : Valued} (h : longValued? name = some option)
    (command : Command) : longFlag? command name = none := by
  have hname : name = "config" ∨ name = "docs-dir" ∨ name = "allow-extension" ∨
      name = "allow-plugin" ∨ name = "allow-theme" := by
    unfold longValued? at h
    split_ifs at h <;> simp_all
  rcases hname with rfl | rfl | rfl | rfl | rfl <;> rfl

/-- A reading that goes alike whichever flags are set leaves them as they are. -/
theorem Options.kept {α : Type} {read r : Options → α} (g : Bool → Bool → α → α)
    (hinjective : Function.Injective r)
    (hg : ∀ strict json, g strict json (r o') = r (o'.mark strict json))
    (hread : ∀ strict json, read (o.mark strict json) = g strict json (read o))
    (h : read o = r o') : o'.strict = o.strict ∧
      ∀ strict json, read (o.mark strict json) = r (o'.mark strict json) := by
  have hmark : ∀ strict json, read (o.mark strict json) = r (o'.mark strict json) := by
    intro strict json
    rw [hread, h, hg]
  have hsame : o'.mark o.strict o.json = o' := hinjective ((hmark o.strict o.json).symm.trans h)
  exact ⟨(congrArg Options.strict hsame).symm, hmark⟩

theorem setValue_shared {option : Valued} {value : String} (h : setValue option value o = some o') :
    o'.strict = o.strict ∧ ∀ strict json,
      setValue option value (o.mark strict json) = some (o'.mark strict json) :=
  Options.kept (fun strict json => Option.map (Options.mark strict json))
    (fun _ _ => Option.some.inj) (fun _ _ => rfl) (setValue_mark option value o) h

theorem setFlag_shared {flag : Flag} (hflag : flag = .verbose ∨ flag = .help)
    (h : setFlag flag o = .ok o') : o'.strict = o.strict ∧ ∀ strict json,
      setFlag flag (o.mark strict json) = .ok (o'.mark strict json) :=
  Options.kept (fun strict json => Except.map (Options.mark strict json))
    (fun _ _ => Except.ok.inj) (fun _ _ => rfl) (setFlag_mark hflag o) h

theorem shortOptions_shared {cs : List Char} (h : shortOptions cs o = .ok (o', w)) :
    o'.strict = o.strict ∧ ∀ strict json,
      shortOptions cs (o.mark strict json) = .ok (o'.mark strict json, w) :=
  Options.kept (r := fun o => .ok (o, w))
    (fun strict json => Except.map fun read => (read.1.mark strict json, read.2))
    (fun _ _ h => congrArg Prod.fst (Except.ok.inj h)) (fun _ _ => rfl)
    (fun strict json => shortOptions_mark strict json cs o) h

theorem setFlag_strict (h : setFlag .strict o = .ok o') : o'.strict = true := by
  have hset : (if o.strict then Except.error _ else Except.ok { o with strict := true }) =
      Except.ok o' := h
  split_ifs at hset
  cases hset
  rfl

/-- A long option of a check that does not ask for strictness is read alike for every
command. -/
theorem longOption_shared {cs : List Char} (h : longOption .check cs o = .ok (o', w))
    (hlenient : o'.strict = false) : o.strict = false ∧ ∀ command strict json,
      longOption command cs (o.mark strict json) = .ok (o'.mark strict json, w) := by
  unfold longOption at h ⊢
  simp only at h ⊢
  generalize String.ofList (cs.takeWhile (· != '=')) = name at h ⊢
  generalize cs.dropWhile (· != '=') = rest at h ⊢
  cases hflag : longFlag? .check name with
  | some flag =>
    cases rest with
    | cons c value =>
      rw [hflag] at h
      cases h
    | nil =>
      rw [hflag] at h
      obtain ⟨o₁, hset, hpair⟩ := Outcome.map_eq_ok.mp h
      cases hpair
      have hne : flag ≠ .strict := by
        rintro rfl
        rw [setFlag_strict hset] at hlenient
        cases hlenient
      obtain ⟨hshared, hname⟩ := longFlag?_shared hflag hne
      obtain ⟨hsame, hmark⟩ := setFlag_shared hshared hset
      refine ⟨hsame.symm.trans hlenient, fun command strict json => ?_⟩
      simp only [hname command]
      rw [hmark]
      rfl
  | none =>
    rw [hflag] at h
    cases hvalued : longValued? name with
    | none =>
      rw [hvalued] at h
      cases rest <;> cases h
    | some option =>
      rw [hvalued] at h
      have hname := longFlag?_of_valued hvalued
      cases rest with
      | nil =>
        cases h
        refine ⟨hlenient, fun command strict json => ?_⟩
        simp only [hname command]
      | cons c value =>
        simp only at h
        split at h
        · rename_i hset
          cases h
          obtain ⟨hsame, hmark⟩ := setValue_shared hset
          refine ⟨hsame.symm.trans hlenient, fun command strict json => ?_⟩
          simp only [hname command]
          rw [hmark]
        · cases h

/-! ### Reading the arguments -/

/-- **Arguments of a check that is not strict are arguments of every command.** What
carries the induction is that options that end up lenient have been so all along. -/
theorem commandArguments_shared : ∀ (args : List String) (w : Option Valued) (o : Options),
    commandArguments .check args w o = .ok o' → o'.strict = false →
    o.strict = false ∧ ∀ command strict json,
      commandArguments command args w (o.mark strict json) = .ok (o'.mark strict json)
  | [], some _, o, h, _ => by
    cases h
  | [], none, o, h, hlenient => by
    cases h
    exact ⟨hlenient, fun _ _ _ => rfl⟩
  | arg :: rest, some option, o, h, hlenient => by
    simp only [commandArguments] at h ⊢
    generalize arg.toList = chars at h ⊢
    split at h
    · cases h
    · cases hset : setValue option arg o with
      | none =>
        rw [hset] at h
        cases h
      | some o₁ =>
        rw [hset] at h
        obtain ⟨hlenient₁, hrest⟩ := commandArguments_shared rest none o₁ h hlenient
        obtain ⟨hsame, hmark⟩ := setValue_shared hset
        refine ⟨hsame.symm.trans hlenient₁, fun command strict json => ?_⟩
        rw [hmark]
        exact hrest command strict json
  | arg :: rest, none, o, h, hlenient => by
    simp only [commandArguments] at h ⊢
    generalize arg.toList = chars at h ⊢
    split at h
    case h_1 =>
      by_cases hempty : rest.isEmpty = true
      · rw [if_pos hempty] at h
        cases h
        exact ⟨hlenient, fun _ _ _ => if_pos hempty⟩
      · rw [if_neg hempty] at h
        cases h
    case h_2 cs _ =>
      obtain ⟨⟨o₁, w₁⟩, hlong, h⟩ := Outcome.bind_eq_ok.mp h
      obtain ⟨hlenient₁, hrest⟩ := commandArguments_shared rest w₁ o₁ h hlenient
      obtain ⟨hlenient₀, hmark⟩ := longOption_shared hlong hlenient₁
      refine ⟨hlenient₀, fun command strict json => ?_⟩
      rw [hmark, Outcome.ok_bind]
      exact hrest command strict json
    case h_3 c cs _ _ =>
      obtain ⟨⟨o₁, w₁⟩, hshort, h⟩ := Outcome.bind_eq_ok.mp h
      obtain ⟨hlenient₁, hrest⟩ := commandArguments_shared rest w₁ o₁ h hlenient
      obtain ⟨hsame, hmark⟩ := shortOptions_shared hshort
      refine ⟨hsame.symm.trans hlenient₁, fun command strict json => ?_⟩
      rw [hmark, Outcome.ok_bind]
      exact hrest command strict json
    case h_4 => cases h

/-! ### What ends the reading -/

/-- Reading ends with a request for help or a usage error, if it does not go on. -/
def Stops {α : Type} (read : Except Request α) : Prop :=
  ∀ request, read = .error request → request = .help ∨ request = .usageError

theorem Stops.ok {α : Type} (a : α) : Stops (.ok a) := nofun

theorem Stops.usageError {α : Type} : Stops (.error .usageError : Except Request α) := by
  rintro _ ⟨⟩
  exact .inr rfl

theorem Stops.bind {α β : Type} {read : Except Request α} {next : α → Except Request β}
    (h : Stops read) (hnext : ∀ a, Stops (next a)) : Stops (read >>= next) := by
  cases read with
  | error r =>
    rintro _ ⟨⟩
    exact h r rfl
  | ok a => exact hnext a

theorem Stops.once {α : Type} (given : Bool) (a : α) :
    Stops (if given = true then .error .usageError else .ok a) := by
  cases given with
  | true => exact .usageError
  | false => exact .ok a

theorem setFlag_stops (flag : Flag) (o : Options) : Stops (setFlag flag o) := by
  cases flag with
  | help =>
    rintro _ ⟨⟩
    exact .inl rfl
  | verbose | strict | json => exact .once _ _

theorem shortOptions_stops : ∀ (cs : List Char) (o : Options), Stops (shortOptions cs o)
  | [], o => .ok _
  | c :: cs, o => by
    unfold shortOptions
    split
    · exact (setFlag_stops _ o).bind fun o => shortOptions_stops cs o
    · split
      · exact .ok _
      · split
        · exact .ok _
        · exact .usageError
      · split
        · exact .ok _
        · exact .usageError
    · exact .usageError

theorem longOption_stops (command : Command) (cs : List Char) (o : Options) :
    Stops (longOption command cs o) := by
  unfold longOption
  simp only
  split
  · exact (setFlag_stops _ o).bind fun o => .ok (o, none)
  · exact .ok _
  · split
    · exact .ok _
    · exact .usageError
  · exact .usageError

theorem commandArguments_stops (command : Command) : ∀ (args : List String) (w : Option Valued)
    (o : Options), Stops (commandArguments command args w o)
  | [], some _, _ => .usageError
  | [], none, o => .ok o
  | arg :: rest, some option, o => by
    unfold commandArguments
    split
    · exact .usageError
    · split
      · exact commandArguments_stops command rest none _
      · exact .usageError
  | arg :: rest, none, o => by
    unfold commandArguments
    split
    · split
      · exact .ok o
      · exact .usageError
    · exact (longOption_stops command _ o).bind fun read =>
        commandArguments_stops command rest read.2 read.1
    · exact (shortOptions_stops _ o).bind fun read =>
        commandArguments_stops command rest read.2 read.1
    · exact .usageError

/-! ### Command lines -/

theorem requestOf_command {name : String} {command : Command}
    (hname : command? name = some command) (args : List String) :
    requestOf (name :: args) false =
      (commandArguments command args none .empty).map (Request.run command) := by
  rw [requestOf, hname]
  simp only
  cases commandArguments command args none .empty with
  | error e => rfl
  | ok o =>
    show Except.ok (Request.run command { o with verbose := o.verbose || false }) = _
    rw [Bool.or_false]
    rfl

theorem parse_eq_run {name : String} {command : Command} (hname : command? name = some command)
    {args : List String} : parse (name :: args) = .run command o ↔
      commandArguments command args none .empty = .ok o := by
  unfold parse
  rw [requestOf_command hname]
  cases hread : commandArguments command args none .empty with
  | ok o' =>
    show Request.run command o' = .run command o ↔ _
    simp
  | error r =>
    show r = .run command o ↔ _
    rcases commandArguments_stops command args none .empty r hread with rfl | rfl
    · simp
    · simp

/-- **A command line for a check that is not strict is one for every command**, with
the same options; and with strictness asked for in front it is one for the check in
strict mode. -/
theorem parse_shared {args : List String} (h : parse ("check" :: args) = .run .check o)
    (hlenient : o.strict = false) : o.json = false ∧
      (∀ name command, command? name = some command → parse (name :: args) = .run command o) ∧
      parse ("check" :: "--strict" :: args) = .run .check { o with strict := true } := by
  have hcheck : command? "check" = some .check := rfl
  rw [parse_eq_run hcheck] at h
  obtain ⟨-, hmark⟩ := commandArguments_shared args none .empty h hlenient
  have hsame : o.mark false false = o := by
    have hread : commandArguments .check args none .empty = .ok (o.mark false false) :=
      hmark .check false false
    exact Except.ok.inj (hread.symm.trans h)
  have hjson : o.json = false := (congrArg Options.json hsame).symm
  refine ⟨hjson, fun name command hname => ?_, ?_⟩
  · have hread : commandArguments command args none .empty = .ok (o.mark false false) :=
      hmark command false false
    rw [parse_eq_run hname, hread, hsame]
  · have hread : commandArguments .check args none (Options.empty.mark true false) =
        .ok (o.mark true false) := hmark .check true false
    have hstrict : longOption .check "strict".toList .empty =
        .ok (Options.empty.mark true false, none) := rfl
    rw [parse_eq_run hcheck]
    show (longOption .check "strict".toList .empty >>= fun read =>
      commandArguments .check args read.2 read.1) = .ok (o.mark true o.json)
    rw [hstrict, Outcome.ok_bind, hread, hjson]

end Cli
end SitePlan
