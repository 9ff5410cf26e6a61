/-
# Items by the titles on the way to them

A path of titles is looked up level by level: at each level the first item with the next
title is taken, and no other is tried if the rest of the path leads nowhere from there. So
whatever is found does lie at the end of the path, but an item need not be found by its own
path. It is where siblings have distinct titles: then the path leads to no other item
either. A declaration that builds gives such a tree if all its pages have labels, since no
label stands twice among siblings; and then the labels around an entry with its own are the
titles on the way to what the entry becomes.

Key definitions: `NavItem.titlesOn`, `NavItem.TitlesDiffer`.
Key theorems: `NavItem.findIn_titlesOn`, `NavItem.titlesOn_injective`,
`NavItem.exists_way_of_findIn`, `NavItem.titlesDiffer_of_sound`,
`NavItem.exists_way_of_spot`, `Navigation.find?_titles`.
-/
import SitePlan.Proofs.Nav.Outline
import SitePlan.Proofs.Nav.SiblingTitles
import SitePlan.Proofs.Outcome

namespace SitePlan
namespace NavItem

/-- The titles of the items that a way passes, with that of the item at its end. -/
def titlesOn : List NavItem → List Nat → List String
  | _, [] => []
  | items, place :: rest =>
    match items[place]? with
    | some item => item.title :: titlesOn item.children rest
    | none => []

/-- No two of the given items have the same title, and neither have two children of any
item at or below them. -/
inductive TitlesDiffer : List NavItem → Prop
  | level {items : List NavItem} : (items.map (·.title)).Nodup →
      (∀ item ∈ items, TitlesDiffer item.children) → TitlesDiffer items

variable {items : List NavItem} {item parent : NavItem}

/-! ### Steps of a way and of a path -/

theorem at?_cons_eq_some {place : Nat} {rest : List Nat} :
    at? items (place :: rest) = some item ↔ ∃ parent, items[place]? = some parent ∧
      (rest = [] ∧ parent = item ∨ at? parent.children rest = some item) := by
  cases rest with
  | nil => simp [at?]
  | cons next rest => simp [at?, Option.bind_eq_some_iff]

theorem findIn_nil (items : List NavItem) : findIn items [] = none := by
  unfold findIn
  rfl

theorem findIn_cons_eq_some {title : String} {rest : List String} :
    findIn items (title :: rest) = some item ↔
      ∃ parent, items.find? (fun i => i.title == title) = some parent ∧
        (rest = [] ∧ parent = item ∨ findIn parent.children rest = some item) := by
  cases rest with
  | nil => simp [findIn]
  | cons next rest => simp [findIn, Option.bind_eq_some_iff]

theorem titlesOn_cons {place : Nat} (h : items[place]? = some parent) (rest : List Nat) :
    titlesOn items (place :: rest) = parent.title :: titlesOn parent.children rest := by
  rw [titlesOn, h]

theorem titlesOn_stepRight (item : NavItem) (items : List NavItem) : ∀ way : List Nat,
    titlesOn (item :: items) (stepRight way) = titlesOn items way
  | [] => rfl
  | place :: rest => by
    rw [stepRight, titlesOn, titlesOn, List.getElem?_cons_succ]

theorem length_titlesOn : ∀ {way : List Nat} {items : List NavItem},
    at? items way = some item → (titlesOn items way).length = way.length
  | [], _, _ => rfl
  | place :: rest, items, h => by
    obtain ⟨parent, hparent, ⟨rfl, -⟩ | hrest⟩ := at?_cons_eq_some.mp h
    · rw [titlesOn_cons hparent]
      rfl
    · rw [titlesOn_cons hparent, List.length_cons, length_titlesOn hrest, List.length_cons]

/-! ### What a path leads to -/

/-- An item that is found lies at the end of the path. -/
theorem exists_way_of_findIn : ∀ {titles : List String} {items : List NavItem},
    findIn items titles = some item →
    ∃ way, at? items way = some item ∧ titlesOn items way = titles
  | [], items, h => by
    rw [findIn_nil] at h
    cases h
  | title :: rest, items, h => by
    obtain ⟨parent, hfind, hrest⟩ := findIn_cons_eq_some.mp h
    have htitle : parent.title = title := by simpa using List.find?_some hfind
    obtain ⟨place, hplace⟩ := List.getElem?_of_mem (List.mem_of_find?_eq_some hfind)
    rcases hrest with ⟨rfl, rfl⟩ | hrest
    · refine ⟨[place], at?_cons_eq_some.mpr ⟨parent, hplace, .inl ⟨rfl, rfl⟩⟩, ?_⟩
      rw [titlesOn_cons hplace, htitle]
      rfl
    · obtain ⟨way, hway, htitles⟩ := exists_way_of_findIn hrest
      refine ⟨place :: way, at?_cons_eq_some.mpr ⟨parent, hplace, .inr hway⟩, ?_⟩
      rw [titlesOn_cons hplace, htitle, htitles]

/-- Where titles are distinct, an item is the first with its title. -/
theorem find?_title (h : (items.map (·.title)).Nodup) (hitem : item ∈ items) :
    items.find? (fun i => i.title == item.title) = some item := by
  have hsome : (items.find? fun i => i.title == item.title).isSome :=
    List.find?_isSome.mpr ⟨item, hitem, beq_self_eq_true _⟩
  obtain ⟨first, hfirst⟩ := Option.isSome_iff_exists.mp hsome
  have htitle : first.title = item.title := by simpa using List.find?_some hfirst
  have hmem := List.mem_of_find?_eq_some hfirst
  rw [hfirst, List.inj_on_of_nodup_map h hmem hitem htitle]

/-- **Every item is found by its path** where siblings have distinct titles. -/
theorem findIn_titlesOn : ∀ {way : List Nat} {items : List NavItem}, TitlesDiffer items →
    at? items way = some item → findIn items (titlesOn items way) = some item
  | [], _, _, h => nomatch h
  | place :: rest, items, .level hnodup hbelow, h => by
    obtain ⟨parent, hparent, hrest⟩ := at?_cons_eq_some.mp h
    have hmem : parent ∈ items := List.mem_of_getElem? hparent
    rw [titlesOn_cons hparent]
    refine findIn_cons_eq_some.mpr ⟨parent, find?_title hnodup hmem, ?_⟩
    rcases hrest with ⟨rfl, rfl⟩ | hrest
    · exact .inl ⟨rfl, rfl⟩
    · exact .inr (findIn_titlesOn (hbelow parent hmem) hrest)

/-- No two items have the same path where siblings have distinct titles. -/
theorem titlesOn_injective : ∀ {v w : List Nat} {items : List NavItem} {a b : NavItem},
    TitlesDiffer items → at? items v = some a → at? items w = some b →
    titlesOn items v = titlesOn items w → v = w
  | [], _, _, _, _, _, hv, _, _ => nomatch hv
  | _ :: _, [], _, _, _, _, _, hw, _ => nomatch hw
  | p :: v, q :: w, items, a, b, .level hnodup hbelow, hv, hw, htitles => by
    have hlength := congrArg List.length htitles
    rw [length_titlesOn hv, length_titlesOn hw] at hlength
    obtain ⟨x, hx, hv⟩ := at?_cons_eq_some.mp hv
    obtain ⟨y, hy, hw⟩ := at?_cons_eq_some.mp hw
    rw [titlesOn_cons hx, titlesOn_cons hy] at htitles
    obtain ⟨htitle, hrest⟩ := List.cons.inj htitles
    have hplace : p = q := by
      have hp : (items.map (·.title))[p]? = some x.title := by rw [List.getElem?_map, hx]; rfl
      have hq : (items.map (·.title))[q]? = some x.title := by
        rw [List.getElem?_map, hy, htitle]; rfl
      obtain ⟨hlt, -⟩ := List.getElem?_eq_some_iff.mp hp
      exact (List.getElem?_inj hlt hnodup).mp (hp.trans hq.symm)
    subst hplace
    obtain rfl : x = y := Option.some.inj (hx.symm.trans hy)
    rcases hv with ⟨rfl, -⟩ | hv
    · obtain rfl : w = [] := List.length_eq_zero_iff.mp (Nat.succ.inj hlength).symm
      rfl
    · rcases hw with ⟨rfl, -⟩ | hw
      · rw [List.length_eq_zero_iff.mp (Nat.succ.inj hlength)]
      · rw [titlesOn_injective (hbelow x (List.mem_of_getElem? hx)) hv hw hrest]

/-! ### The tree of a declaration that builds -/

variable {r : Resolver} {e : NavEntry} {es : List NavEntry}

theorem filter_isKept (h : ∀ e ∈ es, e.Sound r.source) :
    es.filter (NavEntry.isKept r.source) = es := by
  refine List.filter_eq_self.mpr fun e he => ?_
  rw [NavEntry.isKept, ((NavEntry.sound_iff [] e).mp (h e he)).1]
  rfl

/-- The titles are the labels where all entries have one. -/
theorem titles_of_labelled (h : List.Forall₂ (Shows r) es items)
    (hlabel : ∀ e ∈ es, ∃ l, e.label? = some l) : items.map (·.title) = NavEntry.labels es := by
  induction h with
  | nil => rfl
  | @cons e i es items he _ ih =>
    obtain ⟨⟨l, hl⟩, hrest⟩ := List.forall_mem_cons.mp hlabel
    unfold NavEntry.labels at ih ⊢
    rw [List.filterMap_cons_some hl, List.map_cons, ih hrest, title_of_shows he hl]

theorem exists_spot_of_mem (trail : List String) : ∀ {es : List NavEntry} (earlier : List NavEntry),
    e ∈ es → ∃ s ∈ NavEntry.spotsAfter trail earlier es, s.entry = e
  | first :: rest, earlier, h => by
    rw [NavEntry.spotsAfter]
    rcases List.mem_cons.mp h with rfl | h
    · exact ⟨_, List.mem_cons_self, rfl⟩
    · obtain ⟨s, hs, he⟩ := exists_spot_of_mem trail (earlier ++ [first]) h
      exact ⟨s, List.mem_cons_of_mem _ (List.mem_append_right _ hs), he⟩

/-- What sound entries with labels become differs in title if it does so below each of them. -/
theorem titlesDiffer_of_labelled (trail : List String) (earlier : List NavEntry)
    (hnodup : (NavEntry.labels es).Nodup)
    (hlabel : ∀ s ∈ NavEntry.spotsAfter trail earlier es, ∃ l, s.entry.label? = some l)
    (h : List.Forall₂ (Shows r) es items) (hbelow : ∀ i ∈ items, TitlesDiffer i.children) :
    TitlesDiffer items := by
  refine .level ?_ hbelow
  rwa [titles_of_labelled h fun e he => ?_]
  obtain ⟨s, hs, rfl⟩ := exists_spot_of_mem trail earlier he
  exact hlabel s hs

mutual

theorem titlesDiffer_children (trail : List String) : ∀ {e : NavEntry} {i : NavItem},
    e.Sound r.source → (∀ s ∈ e.spotsBelow trail, ∃ l, s.entry.label? = some l) → Shows r e i →
    TitlesDiffer i.children
  | _, _, _, _, .labelled _ _ _ => .level List.nodup_nil nofun
  | _, _, _, _, .bare _ _ _ => .level List.nodup_nil nofun
  | _, _, _, _, .link => .level List.nodup_nil nofun
  | .group title children, _, .group _ hlabels hsound, hlabel, .group _ hitems => by
    rw [filter_isKept hsound] at hitems
    exact titlesDiffer_of_labelled (trail ++ [title]) [] hlabels hlabel hitems
      (titlesDiffer_below (trail ++ [title]) [] hsound hlabel hitems)

/-- Below what sound entries become, titles are distinct at every level if all entries
have labels. -/
theorem titlesDiffer_below (trail : List String) : ∀ (earlier : List NavEntry)
    {es : List NavEntry} {items : List NavItem}, (∀ e ∈ es, e.Sound r.source) →
    (∀ s ∈ NavEntry.spotsAfter trail earlier es, ∃ l, s.entry.label? = some l) →
    List.Forall₂ (Shows r) es items → ∀ i ∈ items, TitlesDiffer i.children
  | _, [], _, _, _, .nil => nofun
  | earlier, e :: es, i :: items, hsound, hlabel, .cons he hes => by
    obtain ⟨hsound, hsounds⟩ := List.forall_mem_cons.mp hsound
    rw [NavEntry.spotsAfter, List.forall_mem_cons, List.forall_mem_append] at hlabel
    obtain ⟨-, hbelow, hafter⟩ := hlabel
    have hfirst := titlesDiffer_children trail hsound hbelow he
    have hrest := titlesDiffer_below trail (earlier ++ [e]) hsounds hafter hes
    exact List.forall_mem_cons.mpr ⟨hfirst, hrest⟩

end

mutual

theorem exists_way_of_spotBelow (trail : List String) : ∀ {e : NavEntry} {i : NavItem},
    e.Sound r.source → (∀ s ∈ e.spotsBelow trail, ∃ l, s.entry.label? = some l) → Shows r e i →
    ∀ s ∈ e.spotsBelow trail, ∃ l titles way item, s.entry.label? = some l ∧
      s.trail = trail ++ i.title :: titles ∧ Shows r s.entry item ∧
      at? i.children way = some item ∧ titlesOn i.children way = titles ++ [l]
  | .page _ _, _, _, _, _ => by simp [NavEntry.spotsBelow]
  | .link _ _, _, _, _, _ => by simp [NavEntry.spotsBelow]
  | .group title children, _, .group _ _ hsound, hlabel, .group _ hitems => by
    rw [filter_isKept hsound] at hitems
    intro s hs
    obtain ⟨l, titles, way, item, hl, htrail, hshows, hway, htitles⟩ :=
      exists_way_of_spot (trail ++ [title]) [] hsound hlabel hitems s hs
    exact ⟨l, titles, way, item, hl, htrail.trans (List.append_cons trail title titles).symm,
      hshows, hway, htitles⟩

/-- The titles on some way to what an entry becomes are those of the groups around the
entry and its label. -/
theorem exists_way_of_spot (trail : List String) : ∀ (earlier : List NavEntry)
    {es : List NavEntry} {items : List NavItem}, (∀ e ∈ es, e.Sound r.source) →
    (∀ s ∈ NavEntry.spotsAfter trail earlier es, ∃ l, s.entry.label? = some l) →
    List.Forall₂ (Shows r) es items →
    ∀ s ∈ NavEntry.spotsAfter trail earlier es, ∃ l titles way item, s.entry.label? = some l ∧
      s.trail = trail ++ titles ∧ Shows r s.entry item ∧ at? items way = some item ∧
      titlesOn items way = titles ++ [l]
  | _, [], _, _, _, .nil => by simp [NavEntry.spotsAfter]
  | earlier, e :: es, i :: items, hsound, hlabel, .cons he hes => by
    obtain ⟨hsound, hsounds⟩ := List.forall_mem_cons.mp hsound
    rw [NavEntry.spotsAfter, List.forall_mem_cons, List.forall_mem_append] at hlabel
    obtain ⟨⟨l, hl⟩, hbelow, hafter⟩ := hlabel
    rw [NavEntry.spotsAfter, List.forall_mem_cons, List.forall_mem_append]
    refine ⟨?_, fun s hs => ?_, fun s hs => ?_⟩
    · have hnone : titlesOn i.children [] = [] := rfl
      refine ⟨l, [], [0], i, hl, (List.append_nil trail).symm, he, rfl, ?_⟩
      rw [titlesOn_cons rfl, hnone, title_of_shows he hl]
      rfl
    · obtain ⟨l, titles, way, item, hl, htrail, hshows, hway, htitles⟩ :=
        exists_way_of_spotBelow trail hsound hbelow he s hs
      refine ⟨l, i.title :: titles, 0 :: way, item, hl, htrail, hshows,
        at?_cons_eq_some.mpr ⟨i, rfl, .inr hway⟩, ?_⟩
      rw [titlesOn_cons rfl, htitles, List.cons_append]
    · obtain ⟨l, titles, way, item, hl, htrail, hshows, hway, htitles⟩ :=
        exists_way_of_spot trail (earlier ++ [e]) hsounds hafter hes s hs
      refine ⟨l, titles, stepRight way, item, hl, htrail, hshows, ?_, ?_⟩
      · rw [at?_stepRight, hway]
      · rw [titlesOn_stepRight, htitles]

end

end NavItem

/-! ### Looking up -/

namespace Config

variable {c : Config} {source : PageSource} {entries : List NavEntry} {n : Navigation}

/-- What builds is what resolving gives without a fault. -/
theorem resolveNav_of_buildNav (hn : c.buildNav source = .ok n) :
    ∃ res, c.resolveNav source = .ok res ∧ res.navigation = n ∧ res.findings.errors = [] := by
  unfold buildNav at hn
  obtain ⟨res, hres, hn⟩ := Outcome.bind_eq_ok.mp hn
  split at hn
  · rename_i hnone
    cases hn
    exact ⟨res, hres, rfl, hnone⟩
  · cases hn

/-- A declaration that builds is sound, and its entries become the items one by one. -/
theorem shows_of_buildNav (h : c.nav = some entries) (hn : c.buildNav source = .ok n) :
    NavEntry.SoundLevel source entries ∧
      List.Forall₂ (Shows (c.resolver source)) entries n.items := by
  obtain ⟨res, hres, rfl, hnone⟩ := resolveNav_of_buildNav hn
  have hsound : NavEntry.SoundLevel source entries :=
    (resolveNav_errors_eq_nil hres).mp hnone entries h
  rw [resolveNav_declared h] at hres
  cases hres
  have hmirrors : Mirrors (c.resolver source) entries
      ((c.resolver source).entries [] [] entries Findings.empty).1 :=
    Resolver.entries_mirrors [] entries [] Findings.empty
  unfold Mirrors at hmirrors
  rw [NavItem.filter_isKept hsound.2] at hmirrors
  exact ⟨hsound, hmirrors⟩

end Config

namespace Navigation

open NavItem (at? titlesOn TitlesDiffer)

/-- **An item is found by the titles on the way to it.** Where siblings have distinct
titles at every level, the path of an item leads to this item and to no other. In any tree
what is found lies as deep as the path is long, past items with the titles of the path. So
in the tree of a declaration that builds, with labels for all pages, the labels of the
groups around an entry and its own lead to what the entry becomes. -/
theorem find?_titles (n : Navigation) :
    (TitlesDiffer n.items → ∀ way item, at? n.items way = some item →
      n.find? (titlesOn n.items way) = some item ∧
      ∀ other, at? n.items other ≠ none → titlesOn n.items other = titlesOn n.items way →
        other = way) ∧
    (∀ titles item, n.find? titles = some item → titles ≠ [] ∧
      ∃ way, at? n.items way = some item ∧ way.length = titles.length ∧
        titlesOn n.items way = titles) ∧
    ∀ (c : Config) (source : PageSource) (entries : List NavEntry), c.nav = some entries →
      (∀ s ∈ NavEntry.spots entries, ∀ path, s.entry ≠ .page none path) →
      c.buildNav source = .ok n → TitlesDiffer n.items ∧
        ∀ s ∈ NavEntry.spots entries, ∃ label item, s.entry.label? = some label ∧
          Shows (c.resolver source) s.entry item ∧ n.find? (s.trail ++ [label]) = some item := by
  refine ⟨fun hdiffer way item hway => ⟨NavItem.findIn_titlesOn hdiffer hway, ?_⟩, ?_, ?_⟩
  · intro other hother htitles
    obtain ⟨i, hi⟩ := Option.ne_none_iff_exists'.mp hother
    exact NavItem.titlesOn_injective hdiffer hi hway htitles
  · intro titles item h
    obtain ⟨way, hway, rfl⟩ := NavItem.exists_way_of_findIn h
    refine ⟨fun hnil => ?_, way, hway, (NavItem.length_titlesOn hway).symm, rfl⟩
    unfold find? at h
    rw [hnil, NavItem.findIn_nil] at h
    cases h
  · intro c source entries hnav hpages hn
    obtain ⟨⟨hlabels, hsound⟩, hshows⟩ := Config.shows_of_buildNav hnav hn
    have hlabel : ∀ s ∈ NavEntry.spots entries, ∃ l, s.entry.label? = some l := by
      intro s hs
      have hpage := hpages s hs
      cases he : s.entry with
      | page title path =>
        cases title with
        | none => exact absurd he (hpage path)
        | some title => exact ⟨title, rfl⟩
      | link title url => exact ⟨title, rfl⟩
      | group title children => exact ⟨title, rfl⟩
    have hdiffer : TitlesDiffer n.items :=
      NavItem.titlesDiffer_of_labelled [] [] hlabels hlabel hshows
        (NavItem.titlesDiffer_below [] [] hsound hlabel hshows)
    refine ⟨hdiffer, fun s hs => ?_⟩
    obtain ⟨l, titles, way, item, hl, htrail, hshow, hway, htitles⟩ :=
      NavItem.exists_way_of_spot [] [] hsound hlabel hshows s hs
    refine ⟨l, item, hl, hshow, ?_⟩
    rw [htrail, List.nil_append, ← htitles]
    exact NavItem.findIn_titlesOn hdiffer hway

/-- A declaration in which a label returns at other levels, and two pages lead to one file. -/
def labelledEntries : List NavEntry :=
  [.page (some "A") "a.md",
    .group "Guides" [.page (some "A") "./a.md", .group "Guides" [.link "Up" "//up.example"]]]

/-- The tree of `labelledEntries`. -/
def labelledTree : Navigation where
  items :=
    [.page "A" "a.md" "a.html",
      .group "Guides" [.page "A" "a.md" "a.html", .group "Guides" [.link "Up" "//up.example"]]]
  generated := false

/-- In the tree of `labelledEntries` items are found by their paths, and entries by their
labels. -/
theorem find?_titles_labelledTree :
    { (default : Config) with nav := some labelledEntries }.buildNav
        (MemoryPages.addPages ["a.md"] .empty).source = .ok labelledTree ∧
      TitlesDiffer labelledTree.items ∧
      labelledTree.find? ["Guides", "Guides", "Up"] = some (.link "Up" "//up.example") ∧
      (∃ way, at? labelledTree.items way = some (.link "Up" "//up.example") ∧ way.length = 3) ∧
      ∀ s ∈ NavEntry.spots labelledEntries, ∃ label item, s.entry.label? = some label ∧
        labelledTree.find? (s.trail ++ [label]) = some item := by
  have hbuild : { (default : Config) with nav := some labelledEntries }.buildNav
      (MemoryPages.addPages ["a.md"] .empty).source = .ok labelledTree := by rfl
  have hpages : ∀ s ∈ NavEntry.spots labelledEntries, ∀ path, s.entry ≠ .page none path := by
    simp [labelledEntries, NavEntry.spots, NavEntry.spotsAfter, NavEntry.spotsBelow]
  obtain ⟨hfound, hback, hdeclared⟩ := find?_titles labelledTree
  obtain ⟨hdiffer, hentries⟩ := hdeclared _ _ labelledEntries rfl hpages hbuild
  have hup := (hfound hdiffer [1, 1, 0] _ rfl).1
  obtain ⟨-, way, hway, hlength, -⟩ := hback _ _ hup
  refine ⟨hbuild, hdiffer, hup, ⟨way, hway, hlength⟩, fun s hs => ?_⟩
  obtain ⟨label, item, hlabel, -, hitem⟩ := hentries s hs
  exact ⟨label, item, hlabel, hitem⟩

/-- Looking up does not go back: of two groups with one title only the first is entered. -/
example : (Navigation.mk [.group "A" [], .group "A" [.link "B" "//b"]] false).find? ["A", "B"] =
    none := rfl

end Navigation
end SitePlan
