/-
# Which declarations are accepted

A declared navigation builds exactly if it is sound: among siblings no label
stands twice, no group is without children, and every page leads to a markdown
file of the source. This holds at every depth. The source is asked about the
files that the pages lead to and about nothing else; so a link is never looked
up, and it can only stand in the way by its label.

Key definitions: `NavEntry.Sound`, `NavEntry.SoundLevel`, `NavEntry.targets`,
`PageSource.AgreesOn`, `PageSource.TellsSame`.
Key theorems: `NavEntry.soundLevel_iff`, `Resolver.entries_congr_tells`,
`Config.buildNav_isOk_iff`.
-/
import Mathlib.Data.List.Nodup
import SitePlan.Proofs.Nav.Faults

namespace SitePlan
namespace NavEntry

/-- The labels of those entries that have one. -/
def labels (es : List NavEntry) : List String := es.filterMap label?

/-- An entry that is well formed, and so is all below it. -/
inductive Sound (source : PageSource) : NavEntry → Prop
  | page {title : Option String} {path p : String} : normalizePath? path = some p →
      Page.isMarkdown p = true → source.holds p = true → Sound source (.page title path)
  | link {title url : String} : Sound source (.link title url)
  | group {title : String} {children : List NavEntry} : children ≠ [] →
      (labels children).Nodup → (∀ e ∈ children, Sound source e) →
      Sound source (.group title children)

/-- Siblings that are sound, with no label among them twice. -/
def SoundLevel (source : PageSource) (es : List NavEntry) : Prop :=
  (labels es).Nodup ∧ ∀ e ∈ es, Sound source e

/-! ### A sound entry is one without a diagnosis -/

variable {source : PageSource}

theorem mem_labels {l : String} {es : List NavEntry} :
    l ∈ labels es ↔ ∃ e ∈ es, e.label? = some l := List.mem_filterMap

theorem labels_concat (es : List NavEntry) (e : NavEntry) :
    labels (es ++ [e]) = labels es ++ e.label?.toList := by
  cases h : e.label? <;> simp [labels, h]

theorem nodup_labels_of_append {es es' : List NavEntry} (h : (labels (es ++ es')).Nodup) :
    (labels es).Nodup := by
  rw [labels, List.filterMap_append] at h
  exact h.of_append_left

/-- After siblings with distinct labels, an entry repeats none of them if the
labels stay distinct with its own. -/
theorem repeated?_eq_none (trail : List String) {earlier : List NavEntry}
    (h : (labels earlier).Nodup) (e : NavEntry) :
    (Spot.mk trail earlier e).repeated? = none ↔ (labels (earlier ++ [e])).Nodup := by
  rw [labels_concat]
  unfold Spot.repeated?
  cases hl : e.label? with
  | none => simpa [hl] using h
  | some l =>
    simp only [← mem_labels, Option.toList_some]
    rw [← List.concat_eq_append, List.nodup_concat]
    split_ifs with hmem <;> simp [hmem, h]

theorem diagnosis_eq_nil (s : Spot) :
    s.diagnosis source = [] ↔ s.repeated? = none ∧ s.entry.fault? source = none := by
  simp [Spot.diagnosis]

mutual

theorem sound_iff (trail : List String) : ∀ e : NavEntry, Sound source e ↔
    e.fault? source = none ∧ ∀ s ∈ e.spotsBelow trail, s.diagnosis source = []
  | .page title path => by
    rw [Resolver.fault?_page_eq_none]
    constructor
    · rintro ⟨hp, hmd, hf⟩
      exact ⟨⟨_, hp, hmd, hf⟩, by simp [spotsBelow]⟩
    · rintro ⟨⟨p, hp, hmd, hf⟩, -⟩
      exact .page hp hmd hf
  | .link title url => by
    simp [fault?, spotsBelow, Sound.link]
  | .group title [] => by
    have hne : ¬ Sound source (.group title []) := fun h => by
      cases h
      contradiction
    simp [fault?, hne]
  | .group title (child :: rest) => by
    have ih := soundLevel_iff (trail ++ [title]) (child :: rest) [] List.nodup_nil
    simp only [List.nil_append] at ih
    simp only [fault?, spotsBelow, true_and, ih]
    constructor
    · rintro (_ | _ | ⟨-, hn, hs⟩)
      exact ⟨hn, hs⟩
    · exact fun h => .group (by simp) h.1 h.2

/-- Entries are sound if their spots have no diagnosis. What carries the
induction is that the labels of the earlier siblings are distinct. -/
theorem soundLevel_iff (trail : List String) : ∀ es earlier : List NavEntry,
    (labels earlier).Nodup →
    ((∀ s ∈ spotsAfter trail earlier es, s.diagnosis source = []) ↔
      (labels (earlier ++ es)).Nodup ∧ ∀ e ∈ es, Sound source e)
  | [], earlier, h => by simp [spotsAfter, h]
  | e :: rest, earlier, h => by
    have hr := repeated?_eq_none trail h e
    rw [spotsAfter, List.forall_mem_cons, List.forall_mem_append, diagnosis_eq_nil, hr,
      List.forall_mem_cons, sound_iff trail e, List.append_cons earlier e rest]
    by_cases hn : (labels (earlier ++ [e])).Nodup
    · rw [soundLevel_iff trail rest (earlier ++ [e]) hn]
      tauto
    · have hn' : ¬ (labels (earlier ++ [e] ++ rest)).Nodup :=
        fun hd => hn (nodup_labels_of_append hd)
      tauto

end

theorem soundLevel_iff_spots (entries : List NavEntry) : SoundLevel source entries ↔
    ∀ s ∈ spots entries, s.diagnosis source = [] :=
  (soundLevel_iff [] entries [] List.nodup_nil).symm

instance (source : PageSource) (entries : List NavEntry) :
    Decidable (SoundLevel source entries) :=
  decidable_of_iff _ (soundLevel_iff_spots entries).symm

end NavEntry

/-! ### What the source is asked -/

/-- The file that an entry leads to, if it is a page. -/
def NavEntry.target? : NavEntry → Option String
  | .page _ path => normalizePath? path
  | .link _ _ => none
  | .group _ _ => none

/-- The files that the pages of a declaration lead to. -/
def NavEntry.targets (entries : List NavEntry) : List String :=
  (NavEntry.spots entries).filterMap fun s => s.entry.target?

/-- Two sources say the same of the file at a path. -/
def PageSource.AgreesOn (other source : PageSource) (p : String) : Prop :=
  other.holds p = source.holds p ∧ other.read p = source.read p

/-- Two sources tell the same of the file at a path: whether it is there, and
its text if it can be read. -/
structure PageSource.TellsSame (other source : PageSource) (p : String) : Prop where
  holds : other.holds p = source.holds p
  text : (other.read p).toOption = (source.read p).toOption

theorem PageSource.AgreesOn.tellsSame {other source : PageSource} {p : String}
    (h : other.AgreesOn source p) : other.TellsSame source p :=
  ⟨h.1, congrArg Except.toOption h.2⟩

namespace Resolver

variable (r : Resolver) {other : PageSource}

theorem pageTitle_congr {p : String} (h : (other.read p).toOption = (r.source.read p).toOption) :
    { r with source := other }.pageTitle p = r.pageTitle p := by
  rw [pageTitle_eq, pageTitle_eq, ← h]

theorem page_congr {title : Option String} {path : String}
    (h : ∀ p, normalizePath? path = some p → other.TellsSame r.source p) (f : Findings) :
    { r with source := other }.page title path f = r.page title path f := by
  unfold page
  cases hp : normalizePath? path with
  | none => rfl
  | some p =>
    have htitle := r.pageTitle_congr (h p hp).text
    simp only [(h p hp).holds, pageItem, htitle]

mutual

theorem entry_congr (trail : List String) : ∀ (e : NavEntry) (f : Findings),
    (∀ p, e.target? = some p → other.TellsSame r.source p) →
    (∀ s ∈ e.spotsBelow trail, ∀ p, s.entry.target? = some p → other.TellsSame r.source p) →
    { r with source := other }.entry trail e f = r.entry trail e f
  | .page title path, f, he, _ => by
    rw [entry, entry, page_congr r he]
  | .link title url, f, _, _ => by
    rw [entry, entry]
  | .group title [], f, _, _ => by
    rw [entry, entry]
  | .group title (child :: rest), f, _, hs => by
    rw [entry, entry, entries_congr_tells (trail ++ [title]) (child :: rest) [] [] f hs]

/-- The result depends on the source only through what it tells of the files that
the pages among the entries and below them lead to. -/
theorem entries_congr_tells (trail : List String) :
    ∀ (es earlier : List NavEntry) (seen : List String) (f : Findings),
    (∀ s ∈ NavEntry.spotsAfter trail earlier es, ∀ p, s.entry.target? = some p →
      other.TellsSame r.source p) →
    { r with source := other }.entries trail seen es f = r.entries trail seen es f
  | [], _, _, _, _ => by
    rw [entries, entries]
  | e :: rest, earlier, seen, f, hs => by
    rw [NavEntry.spotsAfter, List.forall_mem_cons, List.forall_mem_append] at hs
    obtain ⟨he, hb, hr⟩ := hs
    rw [entries, entries, entry_congr trail e _ he hb]
    simp only [entries_congr_tells trail rest (earlier ++ [e]) _ _ hr]

end

theorem entries_congr (trail : List String) (es earlier : List NavEntry) (seen : List String)
    (f : Findings) (hs : ∀ s ∈ NavEntry.spotsAfter trail earlier es, ∀ p,
      s.entry.target? = some p → other.AgreesOn r.source p) :
    { r with source := other }.entries trail seen es f = r.entries trail seen es f :=
  r.entries_congr_tells trail es earlier seen f fun s hmem p hp => (hs s hmem p hp).tellsSame

end Resolver

/-! ### Acceptance -/

namespace Config

variable {c : Config} {source : PageSource} {entries : List NavEntry}

theorem buildNav_ok_iff {res : Resolution} (h : c.resolveNav source = .ok res) :
    (∃ n, c.buildNav source = .ok n) ↔ res.findings.errors = [] := by
  rw [buildNav_of_resolveNav h]
  cases res.findings.errors <;> simp

/-- **A declaration builds exactly if it is sound**, and what comes out depends
on the source only through the files that its pages lead to. -/
theorem buildNav_isOk_iff (source : PageSource) (h : c.nav = some entries) :
    ((∃ n, c.buildNav source = .ok n) ↔ NavEntry.SoundLevel source entries) ∧
      ∀ other : PageSource, (∀ p ∈ NavEntry.targets entries, other.AgreesOn source p) →
        c.buildNav other = c.buildNav source := by
  constructor
  · rw [buildNav_ok_iff (resolveNav_declared h), declared_errors, List.flatMap_eq_nil_iff,
      NavEntry.soundLevel_iff_spots]
  · intro other ho
    have hspots : ∀ s ∈ NavEntry.spots entries, ∀ p, s.entry.target? = some p →
        other.AgreesOn source p :=
      fun s hs p hp => ho p (List.mem_filterMap.mpr ⟨s, hs, hp⟩)
    have hc : (c.resolver other).entries [] [] entries Findings.empty =
        (c.resolver source).entries [] [] entries Findings.empty :=
      (c.resolver source).entries_congr [] entries [] [] Findings.empty hspots
    have hres : c.resolveNav other = c.resolveNav source := by
      rw [resolveNav_declared h, resolveNav_declared h, hc]
    unfold buildNav
    rw [hres]

/-- A sound declaration: labels return below another group, and links stand
anywhere. -/
def soundSite : Config :=
  { (default : Config) with
    nav := some
      [.page none "./a.md", .link "Repo" "https://example.org",
        .group "Guides"
          [.page (some "Repo") " b/c.md", .group "Guides" [.link "Up" "//up.example"]]] }

/-- `soundSite` builds where its two pages are there, and further files change
nothing. -/
theorem buildNav_soundSite :
    soundSite.nav.isSome ∧
      (∃ n, soundSite.buildNav (MemoryPages.addPages ["a.md", "b/c.md"] .empty).source = .ok n) ∧
      soundSite.buildNav
          (MemoryPages.addPages ["a.md", "b/c.md", "https://example.org"] .empty).source =
        soundSite.buildNav (MemoryPages.addPages ["a.md", "b/c.md"] .empty).source := by
  obtain ⟨hok, hother⟩ :=
    buildNav_isOk_iff (MemoryPages.addPages ["a.md", "b/c.md"] .empty).source (c := soundSite) rfl
  refine ⟨rfl, hok.mpr (by decide), hother _ ?_⟩
  have htargets : ∀ p ∈ ["a.md", "b/c.md"],
      (MemoryPages.addPages ["a.md", "b/c.md", "https://example.org"] .empty).source.AgreesOn
        (MemoryPages.addPages ["a.md", "b/c.md"] .empty).source p := by
    simp only [List.forall_mem_cons]
    exact ⟨⟨by decide, rfl⟩, ⟨by decide, rfl⟩, by simp⟩
  exact htargets

end Config
end SitePlan
