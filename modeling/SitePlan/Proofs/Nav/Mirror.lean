/-
# The tree mirrors the declaration

Resolving a declared navigation keeps exactly the entries without a fault of
their own and makes one item of each, in declared order at every level. An item
depends on its entry and the source alone, so what is wrong with an entry never
touches the items of the others.

Key definitions: `NavEntry.isKept`, `Shows`, `Mirrors`.
Key theorems: `Resolver.entries_mirrors`, `Mirrors.unique`,
`Config.resolveNav_mirrors`.
-/
import Mathlib.Data.List.Forall2
import SitePlan.Proofs.Nav.Faults

namespace SitePlan

/-- Whether an entry has no fault that keeps it out. -/
def NavEntry.isKept (source : PageSource) (e : NavEntry) : Bool := (e.fault? source).isNone

/-- What an entry becomes. A page has the source and address of its file, under
its label or else the title of the file; a link stands as it is declared; a
group holds what its children without fault become, in their order. -/
inductive Shows (r : Resolver) : NavEntry → NavItem → Prop
  | labelled {title path p : String} : normalizePath? path = some p →
      Page.isMarkdown p = true → r.source.holds p = true →
      Shows r (.page (some title) path)
        ⟨title, .page, some (Page.url p r.directoryUrls), some p, []⟩
  | bare {path p : String} : normalizePath? path = some p →
      Page.isMarkdown p = true → r.source.holds p = true →
      Shows r (.page none path)
        ⟨((r.source.read p).toOption.bind Page.extractTitle?).getD (Page.titleFromPath p), .page,
          some (Page.url p r.directoryUrls), some p, []⟩
  | link {title url : String} :
      Shows r (.link title url) ⟨title, .link, some url, none, []⟩
  | group {title : String} {children : List NavEntry} {items : List NavItem} : children ≠ [] →
      List.Forall₂ (Shows r) (children.filter (NavEntry.isKept r.source)) items →
      Shows r (.group title children) ⟨title, .group, none, none, items⟩

/-- The items are those of the kept entries, one for each and in their order. -/
def Mirrors (r : Resolver) (es : List NavEntry) (items : List NavItem) : Prop :=
  List.Forall₂ (Shows r) (es.filter (NavEntry.isKept r.source)) items

variable {r : Resolver}

theorem Mirrors.nil : Mirrors r [] [] := List.Forall₂.nil

theorem Mirrors.append {es es' : List NavEntry} {is is' : List NavItem} (h : Mirrors r es is)
    (h' : Mirrors r es' is') : Mirrors r (es ++ es') (is ++ is') := by
  unfold Mirrors
  rw [List.filter_append]
  exact List.rel_append h h'

theorem mirrors_of_shows {e : NavEntry} {i : NavItem} (hk : e.isKept r.source = true)
    (h : Shows r e i) : Mirrors r [e] [i] := by
  unfold Mirrors
  rw [List.filter_cons_of_pos hk]
  exact .cons h .nil

theorem mirrors_of_fault {e : NavEntry} (hk : e.isKept r.source = false) : Mirrors r [e] [] := by
  unfold Mirrors
  rw [List.filter_cons_of_neg (by simp [hk])]
  exact .nil

/-! ### Resolving mirrors -/

namespace Resolver

theorem shows_pageItem (title : Option String) {path p : String} (hp : normalizePath? path = some p)
    (hmd : Page.isMarkdown p = true) (hf : r.source.holds p = true) :
    Shows r (.page title path) (r.pageItem title p) := by
  cases title with
  | some title => exact .labelled hp hmd hf
  | none =>
    have h := Shows.bare hp hmd hf
    rw [← pageTitle_eq] at h
    exact h

mutual

theorem entry_mirrors (trail : List String) : ∀ (e : NavEntry) (f : Findings),
    Mirrors r [e] (r.entry trail e f).1.toList
  | .page title path, f => by
    rw [entry]
    cases h : (NavEntry.page title path).fault? r.source with
    | some x =>
      rw [page_of_fault r h]
      exact mirrors_of_fault (by simp [NavEntry.isKept, h])
    | none =>
      obtain ⟨p, hp, hmd, hf⟩ := fault?_page_eq_none.mp h
      rw [page_of_target r hp hmd hf]
      exact mirrors_of_shows (by simp [NavEntry.isKept, h]) (shows_pageItem title hp hmd hf)
  | .link title url, f => by
    rw [entry]
    exact mirrors_of_shows rfl .link
  | .group title [], f => by
    rw [entry]
    exact mirrors_of_fault rfl
  | .group title (child :: rest), f => by
    rw [entry]
    have ih := entries_mirrors (trail ++ [title]) (child :: rest) [] f
    exact mirrors_of_shows rfl (.group (List.cons_ne_nil child rest) ih)

/-- The items of entries mirror them, whatever was found before. -/
theorem entries_mirrors (trail : List String) :
    ∀ (es : List NavEntry) (seen : List String) (f : Findings),
    Mirrors r es (r.entries trail seen es f).1
  | [], _, f => by
    rw [entries]
    exact .nil
  | e :: rest, seen, f => by
    rw [entries]
    exact (entry_mirrors trail e _).append (entries_mirrors trail rest _ _)

end

end Resolver

/-! ### An entry determines its item -/

mutual

theorem Shows.unique : ∀ {e : NavEntry} {i j : NavItem}, Shows r e i → Shows r e j → i = j
  | .page (some title) path, _, _, .labelled hp _ _, .labelled hp' _ _ => by
    cases hp.symm.trans hp'
    rfl
  | .page none path, _, _, .bare hp _ _, .bare hp' _ _ => by
    cases hp.symm.trans hp'
    rfl
  | .link _ _, _, _, .link, .link => rfl
  | .group title children, _, _, .group _ h, .group _ h' => by
    rw [Mirrors.unique h h']

theorem Mirrors.unique : ∀ {es : List NavEntry} {is js : List NavItem},
    Mirrors r es is → Mirrors r es js → is = js
  | [], _, _, h, h' =>
    (List.forall₂_nil_left_iff.mp h).trans (List.forall₂_nil_left_iff.mp h').symm
  | e :: rest, is, js, h, h' => by
    unfold Mirrors at h h'
    cases hk : e.isKept r.source with
    | false =>
      rw [List.filter_cons_of_neg (by simp [hk])] at h h'
      exact Mirrors.unique h h'
    | true =>
      rw [List.filter_cons_of_pos hk] at h h'
      cases h with
      | cons he hr =>
        cases h' with
        | cons he' hr' => rw [Shows.unique he he', Mirrors.unique hr hr']

end

/-- Siblings become some items, and no others. -/
theorem existsUnique_mirrors (r : Resolver) (es : List NavEntry) : ∃! items, Mirrors r es items :=
  ⟨_, Resolver.entries_mirrors [] es [] Findings.empty, fun _ h =>
    h.unique (Resolver.entries_mirrors [] es [] Findings.empty)⟩

/-- Whatever stands in the place of an entry, the items of its siblings are the
same and stand around what it becomes. -/
theorem mirrors_around (r : Resolver) (before after : List NavEntry) :
    ∃ l n, ∀ e items, Mirrors r (before ++ e :: after) items →
      ∃ m, Mirrors r [e] m ∧ items = l ++ m ++ n := by
  obtain ⟨l, hl, -⟩ := existsUnique_mirrors r before
  obtain ⟨n, hn, -⟩ := existsUnique_mirrors r after
  refine ⟨l, n, fun e items h => ?_⟩
  obtain ⟨m, hm, -⟩ := existsUnique_mirrors r [e]
  have hall : Mirrors r (before ++ [e] ++ after) (l ++ m ++ n) := (hl.append hm).append hn
  rw [← List.append_cons] at hall
  exact ⟨m, hm, h.unique hall⟩

/-! ### The declaration -/

namespace Config

variable {c : Config} {entries : List NavEntry}

theorem fault_mem_errors (source : PageSource) (entries : List NavEntry) {s : Spot}
    (hs : s ∈ NavEntry.spots entries) {x : NavError} (hx : s.entry.fault? source = some x) :
    x ∈ ((c.resolver source).entries [] [] entries Findings.empty).2.errors := by
  rw [declared_errors, List.mem_flatMap]
  exact ⟨s, hs, by simp [Spot.diagnosis, hx]⟩

/-- **The tree mirrors the declaration**, with faults or without: at every level
one item for each kept entry, in declared order. An entry is left out only for
an error that is reported. What siblings become is theirs alone, and an entry
touches no item but its own. -/
theorem resolveNav_mirrors (source : PageSource) (h : c.nav = some entries) :
    ∃ res, c.resolveNav source = .ok res ∧ res.navigation.generated = false ∧
      Mirrors (c.resolver source) entries res.navigation.items ∧
      (∀ s ∈ NavEntry.spots entries, ∀ x, s.entry.fault? source = some x →
        x ∈ res.findings.errors) ∧
      (∀ es, ∃! items, Mirrors (c.resolver source) es items) ∧
      ∀ before after, ∃ l n, ∀ e items, Mirrors (c.resolver source) (before ++ e :: after) items →
        ∃ m, Mirrors (c.resolver source) [e] m ∧ items = l ++ m ++ n :=
  ⟨_, resolveNav_declared h, rfl, Resolver.entries_mirrors [] entries [] Findings.empty,
    fun _ hs _ hx => fault_mem_errors source entries hs hx,
    existsUnique_mirrors _, mirrors_around _⟩

/-- Siblings of which the first and a child of the second are at fault. -/
def mixedEntries : List NavEntry :=
  [.page (some "A") "gone.md", .group "B" [.page none "../up.md", .page none "./a.md"],
    .link "B" "//b.example"]

/-- What `mixedEntries` become where the source holds `a.md` only. -/
theorem resolveNav_mirrors_mixedEntries :
    { (default : Config) with nav := some mixedEntries }.nav = some mixedEntries ∧
      ∃ res, { (default : Config) with nav := some mixedEntries }.resolveNav
          (MemoryPages.empty.add "a.md" "# Hello").source = .ok res ∧
        res.navigation.items =
          [⟨"B", .group, none, none, [⟨"Hello", .page, some "a.html", some "a.md", []⟩]⟩,
            ⟨"B", .link, some "//b.example", none, []⟩] := by
  obtain ⟨res, hres, -, hm, -⟩ :=
    resolveNav_mirrors (MemoryPages.empty.add "a.md" "# Hello").source
      (show { (default : Config) with nav := some mixedEntries }.nav = some mixedEntries from rfl)
  refine ⟨rfl, res, hres, hm.unique ?_⟩
  have hpage : Shows ⟨(MemoryPages.empty.add "a.md" "# Hello").source, false⟩ (.page none "./a.md")
      ⟨"Hello", .page, some "a.html", some "a.md", []⟩ := by
    have h := Shows.bare (r := ⟨(MemoryPages.empty.add "a.md" "# Hello").source, false⟩)
      (show normalizePath? "./a.md" = some "a.md" by decide) (by decide) (by decide)
    have ht : (((MemoryPages.empty.add "a.md" "# Hello").source.read "a.md").toOption.bind
        Page.extractTitle?).getD (Page.titleFromPath "a.md") = "Hello" := by decide
    have hu : Page.url "a.md" false = "a.html" := by decide
    rwa [ht, hu] at h
  have hchildren := (mirrors_of_fault (r := ⟨(MemoryPages.empty.add "a.md" "# Hello").source, false⟩)
    (show (NavEntry.page none "../up.md").isKept _ = false by decide)).append
      (mirrors_of_shows (by decide) hpage)
  exact ((mirrors_of_fault (by decide)).append
    (mirrors_of_shows (by decide) (.group (by simp) hchildren))).append
      (mirrors_of_shows (by decide) .link)

end Config
end SitePlan
