/-
# Paths that are declared again

A path is trimmed, and then the `./` that it begins with are dropped. It is settled if
there is nothing to trim or drop and nothing stands against it: then it is its own
normal path, and no other path is. What normalising gives is settled unless it begins with
a blank, one that stood behind a `./` and so was not trimmed. So the source of a
page item names the same page again exactly if it does not begin with a blank; if it
does, it names another page or none.

Key definitions: `Page.Settled`, `Page.HidesBlank`.
Key theorems: `exists_eq_dropHere`, `normalizePath?_eq_self_iff`, `Page.settled_iff`,
`Page.beginsBlank_iff_hidesBlank`, `normalizePath?_again`,
`Config.resolveNav_sources_again`.
-/
import SitePlan.Proofs.Nav.Addresses
import SitePlan.Proofs.Page.Confinement
import SitePlan.Proofs.Text.Blank

namespace SitePlan

/-! ### The beginning of a path -/

theorem dropHere_replicate_append (n : Nat) (rest : List Char) :
    dropHere ((List.replicate n ['.', '/']).flatten ++ rest) = dropHere rest := by
  induction n with
  | zero => rfl
  | succ n ih => simpa [List.replicate_succ, dropHere] using ih

/-- A path is some `./` and what is left of it. -/
theorem exists_eq_dropHere (cs : List Char) :
    ∃ n, cs = (List.replicate n ['.', '/']).flatten ++ dropHere cs := by
  fun_induction dropHere cs with
  | case1 rest ih =>
    obtain ⟨n, hn⟩ := ih
    refine ⟨n + 1, ?_⟩
    rw [List.replicate_succ, List.flatten_cons, List.append_assoc, ← hn]
    rfl
  | case2 cs hcs => exact ⟨0, rfl⟩

theorem dropHere_suffix (cs : List Char) : dropHere cs <:+ cs := by
  obtain ⟨n, hn⟩ := exists_eq_dropHere cs
  exact ⟨_, hn.symm⟩

theorem not_prefix_dropHere (cs : List Char) : ¬ ['.', '/'] <+: dropHere cs := by
  fun_induction dropHere cs with
  | case1 rest ih => exact ih
  | case2 cs hcs =>
    rintro ⟨rest, rfl⟩
    exact hcs rest rfl

theorem dropHere_eq_self_iff {cs : List Char} : dropHere cs = cs ↔ ¬ ['.', '/'] <+: cs := by
  constructor
  · intro h
    have hdropped := not_prefix_dropHere cs
    rwa [h] at hdropped
  · intro h
    fun_cases dropHere cs with
    | case1 rest => exact absurd ⟨rest, rfl⟩ h
    | case2 hcs => rfl

/-- Dropping and trimming leave a path as it is only if each of them does. -/
theorem dropHere_trimChars_eq_self_iff {cs : List Char} : dropHere (Text.trimChars cs) = cs ↔
    ¬ Text.BeginsBlank cs ∧ ¬ Text.EndsBlank cs ∧ ¬ ['.', '/'] <+: cs := by
  rw [← and_assoc, ← Text.trimChars_eq_self_iff, ← dropHere_eq_self_iff]
  constructor
  · intro h
    have htrim : Text.trimChars cs = cs := by
      refine (Text.trimChars_infix cs).sublist.eq_of_length_le ?_
      have hlength := (dropHere_suffix (Text.trimChars cs)).length_le
      rwa [h] at hlength
    refine ⟨htrim, ?_⟩
    rwa [htrim] at h
  · rintro ⟨htrim, hdrop⟩
    rw [htrim, hdrop]

/-! ### Settled paths -/

namespace Page

/-- A path that a declaration may lead to and of which nothing is trimmed or dropped. -/
structure Settled (cs : List Char) : Prop where
  ne_nil : cs ≠ []
  relative : cs.head? ≠ some '/'
  no_backslash : '\\' ∉ cs
  no_up : ['.', '.'] ∉ Text.splitAt '/' cs
  no_here : ¬ ['.', '/'] <+: cs
  begins : ¬ Text.BeginsBlank cs
  ends : ¬ Text.EndsBlank cs

/-- Behind the `./` that the trimmed path begins with stands a blank. -/
def HidesBlank (path : String) : Prop :=
  ∃ n rest, Text.trimChars path.toList = (List.replicate (n + 1) ['.', '/']).flatten ++ rest ∧
    Text.BeginsBlank rest

end Page

/-- Settled paths are their own normal paths, and no others are. -/
theorem normalizePath?_eq_self_iff {p : String} :
    normalizePath? p = some p ↔ Page.Settled p.toList := by
  rw [normalizePath?_eq_some_iff, dropHere_trimChars_eq_self_iff]
  constructor
  · rintro ⟨⟨hbegins, hends, hhere⟩, hne, hroot, hback, hup⟩
    exact ⟨hne, hroot, hback, hup, hhere, hbegins, hends⟩
  · intro h
    exact ⟨⟨h.begins, h.ends, h.no_here⟩, h.ne_nil, h.relative, h.no_backslash, h.no_up⟩

namespace Page

variable {path p : String}

/-- The one thing that can keep a normal path from being settled is a blank at its
beginning: it ends as the trimmed path does. -/
theorem settled_iff (h : normalizePath? path = some p) :
    Settled p.toList ↔ ¬ Text.BeginsBlank p.toList := by
  obtain ⟨hleft, hne, hroot, hback, hup⟩ := normalizePath?_eq_some_iff.mp h
  have hhere : ¬ ['.', '/'] <+: p.toList := hleft ▸ not_prefix_dropHere _
  have hsuffix : p.toList <:+ Text.trimChars path.toList := hleft ▸ dropHere_suffix _
  have hends : ¬ Text.EndsBlank p.toList := fun hblank =>
    Text.not_endsBlank_trimChars path.toList (hblank.of_suffix hsuffix)
  exact ⟨fun hsettled => hsettled.begins,
    fun hbegins => ⟨hne, hroot, hback, hup, hhere, hbegins, hends⟩⟩

theorem not_prefix_of_beginsBlank {cs : List Char} (h : Text.BeginsBlank cs) :
    ¬ ['.', '/'] <+: cs := by
  rintro ⟨rest, rfl⟩
  obtain ⟨c, hc, hblank⟩ := h
  cases hc
  exact absurd hblank (by decide)

/-- A blank comes to the beginning only from behind a `./`: the path was trimmed. -/
theorem beginsBlank_iff_hidesBlank (h : normalizePath? path = some p) :
    Text.BeginsBlank p.toList ↔ HidesBlank path := by
  obtain ⟨hleft, -⟩ := normalizePath?_eq_some_iff.mp h
  constructor
  · intro hblank
    obtain ⟨n, hn⟩ := exists_eq_dropHere (Text.trimChars path.toList)
    rw [hleft] at hn
    cases n with
    | zero => exact absurd (hn ▸ hblank) (Text.not_beginsBlank_trimChars path.toList)
    | succ n => exact ⟨n, p.toList, hn, hblank⟩
  · rintro ⟨n, rest, htrim, hblank⟩
    rw [← hleft, htrim, dropHere_replicate_append,
      dropHere_eq_self_iff.mpr (not_prefix_of_beginsBlank hblank)]
    exact hblank

end Page

/-- **A normal path is its own normal path unless a blank begins it.** One does if it
stood behind the `./` of the path that was written. -/
theorem normalizePath?_again {path p : String} (h : normalizePath? path = some p) :
    (normalizePath? p = some p ↔ ¬ Text.BeginsBlank p.toList) ∧
      (Text.BeginsBlank p.toList ↔ Page.HidesBlank path) := by
  rw [normalizePath?_eq_self_iff]
  exact ⟨Page.settled_iff h, Page.beginsBlank_iff_hidesBlank h⟩

/-! ### A page that is declared alone -/

namespace Resolver

variable (r : Resolver)

theorem entries_singleton_page (title : Option String) (path : String) :
    r.entries [] [] [.page title path] Findings.empty =
      ((r.page title path Findings.empty).1.toList, (r.page title path Findings.empty).2) := by
  have hnote : noteLabel [] [] (NavEntry.page title path).label? Findings.empty =
      Findings.empty := by
    cases title <;> rfl
  simp only [entries, entry, hnote, List.append_nil]

/-- A path is the source of its own page exactly if it is settled and leads to a markdown
page. -/
theorem mem_sources_page_iff (title : Option String) (p : String) (f : Findings) :
    p ∈ NavItem.sources (r.page title p f).1.toList ↔
      Page.Settled p.toList ∧ Page.isMarkdown p = true ∧ r.source.holds p = true := by
  rw [← normalizePath?_eq_self_iff]
  cases h : (NavEntry.page title p).fault? r.source with
  | some x =>
    rw [page_of_fault r h]
    refine iff_of_false List.not_mem_nil fun hself => ?_
    rw [fault?_page_eq_none.mpr ⟨p, hself⟩] at h
    cases h
  | none =>
    obtain ⟨q, hq, hmd, hholds⟩ := fault?_page_eq_none.mp h
    rw [page_of_target r hq hmd hholds, Option.toList_some, NavItem.sources_pageItem,
      List.mem_singleton, hq, Option.some_inj]
    constructor
    · rintro rfl
      exact ⟨rfl, hmd, hholds⟩
    · exact fun hself => hself.1.symm

end Resolver

namespace Config

variable {c : Config} {source : PageSource} {res : Resolution}

/-- Declared alone, a page becomes its item or gives its fault, and nothing else does. -/
theorem resolveNav_alone (c : Config) (source : PageSource) (title : Option String)
    (path : String) : { c with nav := some [.page title path] }.resolveNav source =
      .ok ⟨⟨((c.resolver source).page title path Findings.empty).1.toList, false⟩,
        ((c.resolver source).page title path Findings.empty).2⟩ := by
  have hentries := (c.resolver source).entries_singleton_page title path
  exact (resolveNav_declared rfl).trans
    (congrArg (fun found => Except.ok (Resolution.mk ⟨found.1, false⟩ found.2)) hentries)

theorem settled_iff_of_declared (h : c.resolveNav source = .ok res) (hnav : c.nav ≠ none)
    {item : NavItem} {p : String} (hitem : item ∈ res.navigation.pages)
    (hsource : item.source = some p) :
    (Page.Settled p.toList ∧ Page.isMarkdown p = true ∧ source.holds p = true) ↔
      ¬ Text.BeginsBlank p.toList := by
  obtain ⟨q, hq, hpage⟩ := exists_source h hitem
  cases hsource.symm.trans hq
  rcases hpage with ⟨path, hpath, hmd, hholds⟩ | ⟨hnone, -⟩
  · rw [Page.settled_iff hpath]
    exact and_iff_left ⟨hmd, hholds⟩
  · exact absurd hnone hnav

/-- **A path that is declared again names the same page unless a blank begins it.** A path
is its own normal path exactly if it is settled, and a normal path is settled exactly if it
does not begin with a blank; it does if one stood behind the `./` of the path that was
written. The source of a page item, declared again under any title, is the source of a
page exactly if it is settled and leads to a markdown page, in a declared navigation
exactly if it does not begin with a blank; and then it gives the same item under that
title and no fault. -/
theorem resolveNav_sources_again (path : String) :
    (normalizePath? path = some path ↔ Page.Settled path.toList) ∧
    (∀ p, normalizePath? path = some p →
      (normalizePath? p = some p ↔ ¬ Text.BeginsBlank p.toList) ∧
      (Text.BeginsBlank p.toList ↔ Page.HidesBlank path)) ∧
    ∀ (c : Config) (source : PageSource) (res : Resolution), c.resolveNav source = .ok res →
      ∀ item ∈ res.navigation.pages, ∃ p, item.source = some p ∧ ∀ title, ∃ again,
        { c with nav := some [.page title p] }.resolveNav source = .ok again ∧
        (p ∈ again.navigation.sources ↔
          Page.Settled p.toList ∧ Page.isMarkdown p = true ∧ source.holds p = true) ∧
        (c.nav ≠ none → (p ∈ again.navigation.sources ↔ ¬ Text.BeginsBlank p.toList)) ∧
        (p ∈ again.navigation.sources → again.findings = ⟨[], [], [p]⟩ ∧
          again.navigation.items =
            [{ item with title := title.getD ((c.resolver source).pageTitle p) }]) := by
  refine ⟨normalizePath?_eq_self_iff, fun p => normalizePath?_again,
    fun c source res h item hitem => ?_⟩
  obtain ⟨label, p, rfl⟩ := resolveNav_pageItems h item hitem
  refine ⟨p, rfl, fun title => ⟨_, resolveNav_alone c source title p, ?_⟩⟩
  have hagain := (c.resolver source).mem_sources_page_iff title p Findings.empty
  refine ⟨hagain, fun hnav => hagain.trans (settled_iff_of_declared h hnav hitem rfl),
    fun hmem => ?_⟩
  obtain ⟨hsettled, hmd, hholds⟩ := hagain.mp hmem
  rw [Resolver.page_of_target _ (normalizePath?_eq_self_iff.mpr hsettled) hmd hholds]
  exact ⟨rfl, rfl⟩

/-- Two declared pages, a blank behind the `./` of the first. -/
def hereSite : Config :=
  { (default : Config) with
    nav := some [.page (some "A") "./ a.md", .page (some "B") "././b.md"]
    useDirectoryUrls := true }

/-- Three pages, of which two differ by a blank. -/
def herePages : MemoryPages := MemoryPages.addPages [" a.md", "a.md", "b.md"] .empty

/-- The source of the first item of `hereSite` does not name its page again, and that of the
second does. -/
theorem resolveNav_sources_again_hereSite :
    Page.HidesBlank "./ a.md" ∧
    ∃ res, hereSite.resolveNav herePages.source = .ok res ∧
      res.navigation.pages = [.page "A" " a.md" " a/", .page "B" "b.md" "b/"] ∧
      (∃ again, { hereSite with nav := some [.page (some "A") " a.md"] }.resolveNav
          herePages.source = .ok again ∧ " a.md" ∉ again.navigation.sources) ∧
      ∃ again, { hereSite with nav := some [.page (some "B") "b.md"] }.resolveNav
          herePages.source = .ok again ∧
        again.navigation.items = [.page "B" "b.md" "b/"] ∧ again.findings.errors = [] := by
  obtain ⟨res, hres, hpages⟩ : ∃ res, hereSite.resolveNav herePages.source = .ok res ∧
      res.navigation.pages = [.page "A" " a.md" " a/", .page "B" "b.md" "b/"] :=
    ⟨_, resolveNav_declared rfl, rfl⟩
  obtain ⟨-, hnormal, hdeclared⟩ := resolveNav_sources_again "./ a.md"
  have hitems := hdeclared hereSite herePages.source res hres
  rw [hpages, List.forall_mem_cons, List.forall_mem_singleton] at hitems
  obtain ⟨⟨a, hasource, ha⟩, b, hbsource, hb⟩ := hitems
  cases hasource
  cases hbsource
  have hnav : hereSite.nav ≠ none := by decide
  have hblank := (hnormal " a.md" (by decide)).2
  obtain ⟨again, hagain, -, hsource, -⟩ := ha (some "A")
  obtain ⟨again', hagain', -, hsource', hsame⟩ := hb (some "B")
  obtain ⟨hfindings, hitem⟩ := hsame ((hsource' hnav).mpr (by decide))
  refine ⟨hblank.mp (by decide), res, hres, hpages, ⟨again, hagain, ?_⟩, again', hagain', hitem,
    by rw [hfindings]⟩
  exact fun hmem => (hsource hnav).mp hmem (by decide)

/-- A path with a blank behind its `./` and the source of its item are two pages, or the
source is refused. -/
theorem resolveNav_shows_hiddenBlanks :
    (¬ ∀ path p, normalizePath? path = some p → normalizePath? p = some p) ∧
    (normalizePath? "./ a.md" = some " a.md" ∧ normalizePath? " a.md" = some "a.md") ∧
    (normalizePath? "./ ../a.md" = some " ../a.md" ∧ normalizePath? " ../a.md" = none) ∧
    ∃ res, { hereSite with
          nav := some [.page (some "A") "./ a.md", .page (some "B") " a.md"] }.resolveNav
        (MemoryPages.addPages [" a.md", "a.md"] .empty).source = .ok res ∧
      res.findings = ⟨[], [], [" a.md", "a.md"]⟩ ∧
      res.navigation.items = [.page "A" " a.md" " a/", .page "B" "a.md" "a/"] := by
  have hfirst : normalizePath? "./ a.md" = some " a.md" := by decide
  have hsecond : normalizePath? " a.md" = some "a.md" := by decide
  refine ⟨fun h => ?_, ⟨hfirst, hsecond⟩, ⟨by decide, by decide⟩, _, resolveNav_declared rfl,
    by decide, rfl⟩
  exact absurd (hsecond.symm.trans (h _ _ hfirst)) (by decide)

end Config
end SitePlan
