/-
# The faults of a declared navigation

Resolving notes the faults of a declaration in the order of its entries, depth
first: those of an entry stand before those of the entries below it, and these
before those of its later siblings. What is noted of an entry depends on the
entry, its earlier siblings, the titles of the groups around it and the pages
that there are, and on nothing that was found before.

Key definitions: `NavEntry.fault?`, `Spot`, `NavEntry.spots`, `Spot.diagnosis`.
Key theorems: `Resolver.entries_errors`, `Config.resolveNav_errors`.
-/
import Mathlib.Tactic.SplitIfs
import SitePlan.Nav.Build
import SitePlan.Page.Memory

namespace SitePlan

/-- What keeps an entry out of the tree: a path that leads out of the source
directory, to no markdown page or to no file, or the want of children. -/
def NavEntry.fault? (source : PageSource) : NavEntry → Option NavError
  | .page title path =>
    match normalizePath? path with
    | none => some (.invalidPath (title.getD path) path)
    | some p =>
      if Page.isMarkdown p = false then some (.notMarkdown (title.getD path) path)
      else if source.holds p = false then some (.missingPage (title.getD path) path)
      else none
  | .link _ _ => none
  | .group title [] => some (.emptyGroup title)
  | .group _ (_ :: _) => none

/-- An entry where it is declared: with the titles of the groups around it,
outermost first, and its earlier siblings. -/
structure Spot where
  trail : List String
  earlier : List NavEntry
  entry : NavEntry

namespace NavEntry

mutual

/-- The spots below an entry within the groups of `trail`, depth first. -/
def spotsBelow (trail : List String) : NavEntry → List Spot
  | .page _ _ => []
  | .link _ _ => []
  | .group title children => spotsAfter (trail ++ [title]) [] children

/-- The spots of the entries that follow the siblings `earlier`, depth first. -/
def spotsAfter (trail : List String) (earlier : List NavEntry) : List NavEntry → List Spot
  | [] => []
  | e :: rest => ⟨trail, earlier, e⟩ :: (spotsBelow trail e ++ spotsAfter trail (earlier ++ [e]) rest)

end

/-- All spots of a declaration, depth first from left to right. -/
def spots (entries : List NavEntry) : List Spot := spotsAfter [] [] entries

end NavEntry

namespace Spot

/-- The groups around a spot in words. -/
def place (s : Spot) : String :=
  match s.trail with
  | [] => "the top level"
  | titles => "section " ++ " > ".intercalate titles

/-- The fault of a label that an earlier sibling has too. -/
def repeated? (s : Spot) : Option NavError :=
  match s.entry.label? with
  | some l => if ∃ e ∈ s.earlier, e.label? = some l then some (.duplicateLabel l s.place) else none
  | none => none

/-- All that is wrong with the entry of a spot itself: its label first, then
what keeps it out. -/
def diagnosis (source : PageSource) (s : Spot) : List NavError :=
  s.repeated?.toList ++ (s.entry.fault? source).toList

theorem place_eq (s : Spot) : s.place = Resolver.describePlace s.trail := by
  obtain ⟨trail, earlier, entry⟩ := s
  cases trail <;> rfl

end Spot

@[simp] theorem Findings.fault_errors (e : NavError) (f : Findings) :
    (f.fault e).errors = f.errors ++ [e] := rfl

@[simp] theorem Findings.reference_errors (source : String) (f : Findings) :
    (f.reference source).errors = f.errors := by
  unfold Findings.reference
  split <;> rfl

namespace Resolver

variable (r : Resolver) (trail : List String)

/-! ### One entry -/

/-- A label is a fault if it is among those of the earlier siblings. -/
theorem noteLabel_errors (seen : List String) (earlier : List NavEntry)
    (hseen : ∀ l, l ∈ seen ↔ ∃ e ∈ earlier, e.label? = some l) (e : NavEntry) (f : Findings) :
    (noteLabel trail seen e.label? f).errors =
      f.errors ++ (Spot.mk trail earlier e).repeated?.toList := by
  unfold noteLabel Spot.repeated?
  cases e.label? with
  | none => simp
  | some l =>
    simp only [List.contains_iff_mem, hseen, Spot.place_eq]
    split <;> simp

/-- A page without a fault leads to a markdown file. -/
theorem fault?_page_eq_none {source : PageSource} {title : Option String} {path : String} :
    (NavEntry.page title path).fault? source = none ↔
      ∃ p, normalizePath? path = some p ∧ Page.isMarkdown p = true ∧ source.holds p = true := by
  simp only [NavEntry.fault?]
  cases hp : normalizePath? path with
  | none => simp
  | some p =>
    simp only [Option.some.injEq, exists_eq_left']
    split_ifs with hmd hf <;> simp_all

theorem page_of_fault {title : Option String} {path : String} {x : NavError}
    (h : (NavEntry.page title path).fault? r.source = some x) (f : Findings) :
    r.page title path f = (none, f.fault x) := by
  simp only [NavEntry.fault?] at h
  unfold page
  cases hp : normalizePath? path with
  | none =>
    rw [hp] at h
    cases h
    rfl
  | some p =>
    simp only [hp] at h
    simp only [Bool.not_eq_true']
    split_ifs at h ⊢ <;> cases h <;> rfl

theorem page_of_target {title : Option String} {path p : String} (hp : normalizePath? path = some p)
    (hmd : Page.isMarkdown p = true) (hf : r.source.holds p = true) (f : Findings) :
    r.page title path f = (some (r.pageItem title p), f.reference p) := by
  simp [page, hp, hmd, hf]

/-- A page without a label has the title that its text gives, if it gives one. -/
theorem pageTitle_eq (p : String) : r.pageTitle p =
    ((r.source.read p).toOption.bind Page.extractTitle?).getD (Page.titleFromPath p) := by
  unfold pageTitle
  cases r.source.read p <;> rfl

/-! ### All entries -/

mutual

theorem entry_errors (trail : List String) : ∀ (e : NavEntry) (f : Findings),
    (r.entry trail e f).2.errors = f.errors ++ ((e.fault? r.source).toList ++
      (e.spotsBelow trail).flatMap (Spot.diagnosis r.source))
  | .page title path, f => by
    cases h : (NavEntry.page title path).fault? r.source with
    | some x => simp [entry, page_of_fault r h, NavEntry.spotsBelow]
    | none =>
      obtain ⟨p, hp, hmd, hf⟩ := fault?_page_eq_none.mp h
      simp [entry, page_of_target r hp hmd hf, NavEntry.spotsBelow]
  | .link title url, f => by simp [entry, NavEntry.fault?, NavEntry.spotsBelow]
  | .group title [], f => by
    simp [entry, NavEntry.fault?, NavEntry.spotsBelow, NavEntry.spotsAfter]
  | .group title (child :: rest), f => by
    have ih := entries_errors (trail ++ [title]) (child :: rest) [] [] (by simp) f
    simpa [entry, NavEntry.fault?, NavEntry.spotsBelow] using ih

/-- Entries add the diagnoses of their spots. What carries the induction is that
`seen` holds the labels of the earlier siblings. -/
theorem entries_errors (trail : List String) : ∀ (es earlier : List NavEntry) (seen : List String),
    (∀ l, l ∈ seen ↔ ∃ e ∈ earlier, e.label? = some l) → ∀ f : Findings,
    (r.entries trail seen es f).2.errors = f.errors ++
      (NavEntry.spotsAfter trail earlier es).flatMap (Spot.diagnosis r.source)
  | [], _, _, _, f => by simp [entries, NavEntry.spotsAfter]
  | e :: rest, earlier, seen, hseen, f => by
    have hseen' : ∀ l, l ∈ e.label?.toList ++ seen ↔
        ∃ e' ∈ earlier ++ [e], e'.label? = some l := by
      intro l
      simp [hseen, or_and_right, exists_or, or_comm]
    have hrest := entries_errors trail rest (earlier ++ [e]) _ hseen'
    have he := entry_errors trail e
    have hl := noteLabel_errors trail seen earlier hseen e f
    simp only [entries, hrest, he, hl, NavEntry.spotsAfter, List.flatMap_cons, List.flatMap_append,
      Spot.diagnosis, List.append_assoc]

end

end Resolver

/-! ### The declaration -/

namespace Config

variable {c : Config} {source : PageSource} {entries : List NavEntry}

theorem resolveNav_declared (h : c.nav = some entries) : c.resolveNav source =
    .ok ⟨⟨((c.resolver source).entries [] [] entries Findings.empty).1, false⟩,
      ((c.resolver source).entries [] [] entries Findings.empty).2⟩ := by
  simp [resolveNav, h]

/-- The faults of a declaration are the diagnoses of its spots. -/
theorem declared_errors (entries : List NavEntry) :
    ((c.resolver source).entries [] [] entries Findings.empty).2.errors =
      (NavEntry.spots entries).flatMap (Spot.diagnosis source) :=
  ((c.resolver source).entries_errors [] entries [] [] (by simp) Findings.empty).trans
    (List.nil_append _)

/-- Building gives the first fault, or the tree if there is none. -/
theorem buildNav_of_resolveNav {res : Resolution} (h : c.resolveNav source = .ok res) :
    c.buildNav source = match res.findings.errors with
      | [] => .ok res.navigation
      | e :: _ => .error e := by
  unfold buildNav
  rw [h]
  rfl

/-- **The faults are complete and in order.** Resolving a declaration finds the
diagnoses of its spots, depth first, and building fails with the first one. -/
theorem resolveNav_errors (source : PageSource) (h : c.nav = some entries) :
    ∃ res, c.resolveNav source = .ok res ∧
      res.findings.errors = (NavEntry.spots entries).flatMap (Spot.diagnosis source) ∧
      ∀ e, res.findings.errors.head? = some e → c.buildNav source = .error e := by
  refine ⟨_, resolveNav_declared h, declared_errors entries, fun e he => ?_⟩
  rw [buildNav_of_resolveNav (resolveNav_declared h)]
  obtain ⟨rest, hrest⟩ := List.head?_eq_some_iff.mp he
  rw [hrest]

/-- A declaration with every kind of fault, some of them below groups. -/
def faultySite : Config :=
  { (default : Config) with
    nav := some
      [.page (some "A") "a.md", .page (some "A") "gone.md",
        .group "Guides"
          [.page none "site.css", .link "Repo" "https://example.org",
            .group "Repo" [.page (some "Up") "../up.md", .link "Up" "//up.example"],
            .group "Empty" []]] }

/-- The faults of `faultySite` in order, where the source holds `a.md` only. -/
theorem resolveNav_errors_faultySite :
    faultySite.nav.isSome ∧
      ∃ res, faultySite.resolveNav (MemoryPages.empty.add "a.md" "").source = .ok res ∧
        res.findings.errors =
          [.duplicateLabel "A" "the top level", .missingPage "A" "gone.md",
            .notMarkdown "site.css" "site.css", .duplicateLabel "Repo" "section Guides",
            .invalidPath "Up" "../up.md", .duplicateLabel "Up" "section Guides > Repo",
            .emptyGroup "Empty"] ∧
        faultySite.buildNav (MemoryPages.empty.add "a.md" "").source =
          .error (.duplicateLabel "A" "the top level") := by
  obtain ⟨res, hres, herr, hfirst⟩ :=
    resolveNav_errors (MemoryPages.empty.add "a.md" "").source (c := faultySite) rfl
  refine ⟨rfl, res, hres, herr.trans (by decide), hfirst _ ?_⟩
  rw [herr]
  decide

end Config
end SitePlan
