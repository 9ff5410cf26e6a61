/-
# The titles that no declaration gives

A page without a label takes its title from its text, or else from its path, and a group
of a generated navigation takes it from the name of its directory. Such a title is blank
only for want of a name: where nothing but separators stands in the name of the directory,
or in the name that the page is called by, the text of the page giving no title.

Key definitions: `NavItem.MadeOf`, `NavItem.Within`, `PageSource.Unnamed`.
Key theorems: `NavItem.MadeOf.shows`, `Resolver.isBlankText_pageTitle_iff`,
`Lays.exists_directory`, `Config.resolveNav_derivedTitles`.
-/
import SitePlan.Proofs.Nav.Addresses
import SitePlan.Proofs.Nav.Mirror
import SitePlan.Proofs.Page.Titles

namespace SitePlan

/-- Where entries become items, the item is that of the entry, at some depth. -/
inductive NavItem.MadeOf (source : PageSource) :
    List NavEntry → List NavItem → NavEntry → NavItem → Prop
  | here {es : List NavEntry} {items : List NavItem} {e : NavEntry} {i : NavItem} :
      (e, i) ∈ (es.filter (NavEntry.isKept source)).zip items → MadeOf source es items e i
  | deeper {es children : List NavEntry} {items : List NavItem} {title : String} {e : NavEntry}
      {parent i : NavItem} :
      (.group title children, parent) ∈ (es.filter (NavEntry.isKept source)).zip items →
      MadeOf source children parent.children e i → MadeOf source es items e i

/-- The item is one of the items or stands below one of them. -/
inductive NavItem.Within (item : NavItem) : List NavItem → Prop
  | here {items : List NavItem} : item ∈ items → Within item items
  | deeper {items : List NavItem} {parent : NavItem} : parent ∈ items →
      Within item parent.children → Within item items

/-- The text of a page gives no title, and there are only separators in the name that it is
called by. -/
def PageSource.Unnamed (source : PageSource) (p : String) : Prop :=
  (∀ text, source.read p = .ok text → Page.extractTitle? text = none) ∧
    ∃ name, Page.name? p = some name ∧ name.all Page.isSeparator = true

/-! ### Pages -/

/-- The title that a page is given is blank only for want of a name. -/
theorem Resolver.isBlankText_pageTitle_iff (r : Resolver) (p : String) :
    Text.isBlankText (r.pageTitle p) = true ↔ r.source.Unnamed p := by
  unfold PageSource.Unnamed
  rw [pageTitle, ← Page.isBlankText_titleFromPath_iff]
  cases hread : r.source.read p with
  | error e => simp
  | ok text =>
    cases htitle : Page.extractTitle? text with
    | none => simp [htitle]
    | some title => simp [htitle, Page.extractTitle?_notBlank htitle]

namespace NavItem

variable {r : Resolver} {items : List NavItem}

theorem shows_of_mem_zip {es : List NavEntry} {e : NavEntry} {i : NavItem}
    (h : Mirrors r es items) (he : (e, i) ∈ (es.filter (NavEntry.isKept r.source)).zip items) :
    Shows r e i :=
  (List.forall₂_iff_zip.mp h).2 he

/-- What an entry becomes at some depth is what it becomes by itself. -/
theorem MadeOf.shows {es : List NavEntry} {e : NavEntry} {i : NavItem}
    (h : MadeOf r.source es items e i) : Mirrors r es items → Shows r e i := by
  induction h with
  | here he => exact fun hitems => shows_of_mem_zip hitems he
  | deeper hparent _ ih =>
    intro hitems
    cases shows_of_mem_zip hitems hparent with
    | group _ hchildren => exact ih hchildren

theorem title_of_bare {path : String} {i : NavItem} (h : Shows r (.page none path) i) :
    ∃ p, normalizePath? path = some p ∧ i.source = some p ∧ i.title = r.pageTitle p := by
  cases h with
  | bare hp _ _ => exact ⟨_, hp, rfl, (r.pageTitle_eq _).symm⟩

/-! ### Groups -/

theorem not_within_nil {item : NavItem} : ¬ Within item [] := by
  intro h
  cases h with
  | here h => cases h
  | deeper h _ => cases h

theorem within_cons {item i : NavItem} :
    Within item (i :: items) ↔ item = i ∨ Within item i.children ∨ Within item items := by
  constructor
  · intro h
    cases h with
    | here h =>
      rcases List.mem_cons.mp h with rfl | h
      · exact .inl rfl
      · exact .inr (.inr (.here h))
    | deeper h hbelow =>
      rcases List.mem_cons.mp h with rfl | h
      · exact .inr (.inl hbelow)
      · exact .inr (.inr (.deeper h hbelow))
  · rintro (rfl | h | h)
    · exact .here List.mem_cons_self
    · exact .deeper List.mem_cons_self h
    · cases h with
      | here h => exact .here (List.mem_cons_of_mem i h)
      | deeper h hbelow => exact .deeper (List.mem_cons_of_mem i h) hbelow

end NavItem

/-- Every group in the content of a directory stands for a directory and has its title. -/
theorem Lays.exists_directory {dir : List String} {items : List NavItem}
    {groups : List (List String)} (h : Lays dir items groups) :
    ∀ item, NavItem.Within item items → item.kind = .group →
      ∃ above name, above ++ [name] ∈ groups ∧ item.title = directoryTitle name := by
  induction h with
  | nil => exact fun item hwithin => absurd hwithin NavItem.not_within_nil
  | page _ _ ih =>
    intro item hwithin hkind
    rcases NavItem.within_cons.mp hwithin with rfl | hbelow | hrest
    · cases hkind
    · exact absurd hbelow NavItem.not_within_nil
    · exact ih item hrest hkind
  | @group dir name children items inner groups _ _ _ ihc ih =>
    intro item hwithin hkind
    rcases NavItem.within_cons.mp hwithin with rfl | hbelow | hrest
    · exact ⟨dir, name, List.mem_cons_self, rfl⟩
    · obtain ⟨above, n, hmem, htitle⟩ := ihc item hbelow hkind
      exact ⟨above, n, List.mem_cons_of_mem _ (List.mem_append_left groups hmem), htitle⟩
    · obtain ⟨above, n, hmem, htitle⟩ := ih item hrest hkind
      exact ⟨above, n, List.mem_cons_of_mem _ (List.mem_append_right inner hmem), htitle⟩

namespace Config

variable {c : Config} {source : PageSource} {res : Resolution}

/-- **A derived title is blank only for want of a name.** The page of an entry without a
label and every page of a generated navigation has a blank title exactly if its text gives
none and there are only separators in the name that it is called by; every group of a
generated navigation stands for a directory on the way to a page, and has a blank title
exactly if there are only separators in the name of the directory. -/
theorem resolveNav_derivedTitles (h : c.resolveNav source = .ok res) :
    (∀ entries, c.nav = some entries → ∀ path item,
      NavItem.MadeOf source entries res.navigation.items (.page none path) item →
      ∃ p, normalizePath? path = some p ∧ item.source = some p ∧
        (Text.isBlankText item.title = true ↔ source.Unnamed p)) ∧
    (c.nav = none →
      (∀ item ∈ res.navigation.pages, ∃ p, item.source = some p ∧
        (Text.isBlankText item.title = true ↔ source.Unnamed p)) ∧
      ∀ item, NavItem.Within item res.navigation.items → item.kind = .group →
        ∃ ps p dir name more, source.pages = .ok ps ∧ p ∈ ps ∧ LiesIn (dir ++ name :: more) p ∧
          (Text.isBlankText item.title = true ↔ name.toList.all Page.isSeparator = true)) := by
  constructor
  · intro entries hnav path item hitem
    rw [resolveNav_declared hnav] at h
    cases h
    have hmirrors : Mirrors (c.resolver source) entries _ :=
      Resolver.entries_mirrors [] entries [] Findings.empty
    obtain ⟨p, hp, hsource, htitle⟩ := NavItem.title_of_bare (hitem.shows hmirrors)
    refine ⟨p, hp, hsource, ?_⟩
    rw [htitle]
    exact (c.resolver source).isBlankText_pageTitle_iff p
  · intro hnav
    obtain ⟨ps, hps⟩ := pages_ok_of_resolveNav hnav h
    rw [resolveNav_none source hnav hps] at h
    cases h
    have hlays := (PageTree.ofPaths_placed ps).lays (c.resolver source) Findings.empty
    constructor
    · intro item hitem
      obtain ⟨p, rfl⟩ := (c.resolver source).directoryItems_pageItems _ _ item hitem
      exact ⟨p, rfl, (c.resolver source).isBlankText_pageTitle_iff p⟩
    · intro item hwithin hkind
      obtain ⟨dir, name, hgroup, htitle⟩ := hlays.exists_directory item hwithin hkind
      obtain ⟨-, p, hp, more, hlies⟩ := PageTree.mem_subdirectories_ofPaths.mp hgroup
      rw [List.append_assoc, List.singleton_append] at hlies
      refine ⟨ps, p, dir, name, more, hps, hp, hlies, ?_⟩
      rw [htitle, directoryTitle, Page.isBlankText_titleFromName]

/-- Two pages of which one has a title in its text; only separators stand in the names of
both pages and in that of the one directory. -/
def dashedPages : MemoryPages :=
  (MemoryPages.empty.add "-.md" "").add "__/_.md" "# Start"

/-- Entries without labels for the pages of `dashedPages`. -/
def bareEntries : List NavEntry := [.page none "__/_.md", .group "More" [.page none "-.md"]]

/-- A declaration with the entries of `bareEntries`. -/
def bareSite : Config := { (default : Config) with nav := some bareEntries }

theorem resolveNav_bareSite : ∃ res, bareSite.resolveNav dashedPages.source = .ok res ∧
    res.navigation.items =
      [.page "Start" "__/_.md" "__/_.html", .group "More" [.page "" "-.md" "-.html"]] :=
  ⟨_, resolveNav_declared rfl, rfl⟩

theorem resolveNav_dashedPages : ∃ res, (default : Config).resolveNav dashedPages.source = .ok res ∧
    res.navigation.items =
      [.page "" "-.md" "-.html", .group "" [.page "Start" "__/_.md" "__/_.html"]] := by
  have hps : dashedPages.source.pages = .ok ["-.md", "__/_.md"] := congrArg Except.ok (by decide)
  refine ⟨_, resolveNav_none _ rfl hps, ?_⟩
  have htree : PageTree.ofPaths ["-.md", "__/_.md"] = ⟨["-.md"], [("__", ⟨["__/_.md"], []⟩)]⟩ := by
    have htop : PageTree.directoriesOf "-.md" = [] := by decide
    have hbelow : PageTree.directoriesOf "__/_.md" = ["__"] := by decide
    simp only [PageTree.ofPaths, List.foldl_cons, List.foldl_nil, htop, hbelow, PageTree.insert,
      PageTree.insertInto, PageTree.empty, List.nil_append]
  simp only [htree, Resolver.directoryItems, Resolver.groupItems, Resolver.sortPages,
    List.mergeSort_singleton]
  rfl

/-- The page with a title in its text has one that is not blank, declared or generated. -/
theorem resolveNav_derivedTitles_dashedPages :
    (∃ res item, bareSite.resolveNav dashedPages.source = .ok res ∧
      NavItem.MadeOf dashedPages.source bareEntries res.navigation.items (.page none "__/_.md")
        item ∧ Text.isBlankText item.title = false) ∧
    ∃ res item, (default : Config).resolveNav dashedPages.source = .ok res ∧
      item ∈ res.navigation.pages ∧ item.source = some "__/_.md" ∧
      Text.isBlankText item.title = false := by
  have hnamed : ¬ dashedPages.source.Unnamed "__/_.md" := fun h =>
    Option.some_ne_none "Start" (h.1 "# Start" rfl)
  constructor
  · obtain ⟨res, hres, hitems⟩ := resolveNav_bareSite
    have hmade : NavItem.MadeOf dashedPages.source bareEntries res.navigation.items
        (.page none "__/_.md") (.page "Start" "__/_.md" "__/_.html") := by
      rw [hitems]
      exact .here List.mem_cons_self
    obtain ⟨p, -, hsource, hblank⟩ :=
      (resolveNav_derivedTitles hres).1 bareEntries rfl "__/_.md" _ hmade
    cases hsource
    exact ⟨res, _, hres, hmade, Bool.eq_false_iff.mpr (mt hblank.mp hnamed)⟩
  · obtain ⟨res, hres, hitems⟩ := resolveNav_dashedPages
    have hitem : .page "Start" "__/_.md" "__/_.html" ∈ res.navigation.pages := by
      rw [Navigation.pages, hitems]
      exact List.mem_cons_of_mem _ List.mem_cons_self
    obtain ⟨p, hsource, hblank⟩ := ((resolveNav_derivedTitles hres).2 rfl).1 _ hitem
    cases hsource
    exact ⟨res, _, hres, hitem, rfl, Bool.eq_false_iff.mpr (mt hblank.mp hnamed)⟩

/-- The titles are blank of a declared page, a generated page and a group: every path has
segments that are not empty, but their names are made of separators. -/
theorem resolveNav_shows_blankTitles :
    (∀ file ∈ dashedPages.files, [] ∉ Text.splitAt '/' file.1.toList) ∧
      (∃ res, bareSite.resolveNav dashedPages.source = .ok res ∧
        (res.navigation.pages.map fun i => (i.source, i.title)) =
          [(some "__/_.md", "Start"), (some "-.md", "")]) ∧
      ∃ res, (default : Config).resolveNav dashedPages.source = .ok res ∧
        (res.navigation.items.map fun i => (i.kind, i.title)) = [(.page, ""), (.group, "")] := by
  obtain ⟨declared, hdeclared, hitems⟩ := resolveNav_bareSite
  obtain ⟨generated, hgenerated, hgroups⟩ := resolveNav_dashedPages
  refine ⟨by decide, ⟨declared, hdeclared, ?_⟩, ⟨generated, hgenerated, ?_⟩⟩
  · rw [Navigation.pages, hitems]
    rfl
  · rw [hgroups]
    rfl

end Config
end SitePlan
