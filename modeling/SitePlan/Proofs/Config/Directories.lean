/-
# Sources and output are apart

The lexical normal form of a path drops what says nothing and cancels a name
against a `..` after it. Sources and output of a site should be apart in this
sense: neither in nor above the other, and the sources not the directory of the
configuration. Validation compares components as they are spelled. For two paths
that are spelled in the same way this is the same: where after a common
beginning nothing is dropped or cancelled, and where only one begins at the root.
So it is for the directories that a document writes relative and without `..`.
For other spellings it is not.

Key definitions: `Path.normal`, `Path.Aligned`, `ResolvedPaths.Apart`.
Key theorems: `Path.Aligned.normal_prefix_iff`, `Config.validatePaths_eq_ok`,
`Config.validatePaths_iff_apart`, `Config.validate_apart`,
`Config.ofDocument_apart`.
-/
import SitePlan.Config.Load
import SitePlan.Proofs.Files.Components
import SitePlan.Proofs.Outcome

namespace SitePlan

/-! ### Normal forms -/

namespace Path

/-- A normal form with one more component. The root is its own parent. -/
def normalStep (done : List Component) : Component → List Component
  | .root => [.root]
  | .here => done
  | .name s => done ++ [.name s]
  | .up =>
    match done.getLast? with
    | some (.name _) => done.dropLast
    | some .root => done
    | _ => done ++ [.up]

/-- The lexical normal form of components in a row. -/
def normalForm (xs : List Component) : List Component := xs.foldl normalStep []

/-- The lexical normal form of a path. -/
def normal (p : Path) : List Component := normalForm p.components

/-- Two paths that are spelled in the same way: their normal forms keep all that
is written after a common beginning, or only one begins at the root and the
other leads somewhere. -/
inductive Aligned (p q : Path) : Prop
  | fork (start xs ys : List Component)
      (hp : p.components = start ++ xs ∧ p.normal = normalForm start ++ xs)
      (hq : q.components = start ++ ys ∧ q.normal = normalForm start ++ ys) : Aligned p q
  | crossing (h : p.isAbsolute ≠ q.isAbsolute) (hp : p.normal ≠ []) (hq : q.normal ≠ []) :
      Aligned p q

theorem foldl_normalStep_names : ∀ (names : List (List Char)) (done : List Component),
    (names.map Component.name).foldl normalStep done = done ++ names.map Component.name
  | [], done => by simp
  | name :: names, done => by
    have ih := foldl_normalStep_names names (done ++ [.name name])
    rw [List.map_cons, List.foldl_cons, normalStep, ih, List.append_assoc, List.singleton_append]

/-- Names stand in a normal form as they are written. -/
theorem normalForm_append_names (start : List Component) (names : List (List Char)) :
    normalForm (start ++ names.map Component.name) =
      normalForm start ++ names.map Component.name := by
  unfold normalForm
  rw [List.foldl_append, foldl_normalStep_names]

/-- No component but the root puts the root in front or takes it away. -/
theorem head?_normalStep {x : Component} (hx : x ≠ .root) (done : List Component) :
    (normalStep done x).head? = some .root ↔ done.head? = some .root := by
  cases x with
  | root => exact absurd rfl hx
  | here => rfl
  | name s => cases done <;> simp [normalStep]
  | up =>
    -- what is taken away is a name, so the root stays if it is in front
    rcases List.eq_nil_or_concat done with rfl | ⟨front, last, rfl⟩
    · simp [normalStep]
    · rw [List.concat_eq_append, normalStep, List.getLast?_concat, List.dropLast_concat]
      cases last <;> cases front <;> simp

theorem head?_foldl_normalStep : ∀ (xs done : List Component), .root ∉ xs →
    ((xs.foldl normalStep done).head? = some .root ↔ done.head? = some .root)
  | [], _, _ => Iff.rfl
  | x :: xs, done, h => by
    have hx : x ≠ .root := fun he => h (he ▸ List.mem_cons_self)
    have hxs : .root ∉ xs := fun hr => h (List.mem_cons_of_mem _ hr)
    rw [List.foldl_cons, head?_foldl_normalStep xs _ hxs, head?_normalStep hx]

theorem head?_normal {p : Path} : p.normal.head? = some .root ↔ p.isAbsolute = true := by
  unfold normal normalForm
  cases hp : p.isAbsolute with
  | true =>
    obtain ⟨rest, hrest, hroot⟩ := components_absolute hp
    rw [hrest, List.foldl_cons, head?_foldl_normalStep rest _ hroot]
    exact iff_of_true rfl rfl
  | false =>
    rw [head?_foldl_normalStep _ _ (root_not_mem_components hp)]
    exact iff_of_false (by simp) Bool.false_ne_true

theorem isAbsolute_eq_of_normal {p q : Path} (h : p.normal.head? = q.normal.head?) :
    p.isAbsolute = q.isAbsolute := by
  rw [Bool.eq_iff_iff, ← head?_normal, ← head?_normal, h]

namespace Aligned

variable {p q : Path}

/-- Paths with names only after a common beginning are aligned. -/
theorem of_names {start : List Component} {ns ms : List (List Char)}
    (hp : p.components = start ++ ns.map Component.name)
    (hq : q.components = start ++ ms.map Component.name) : Aligned p q := by
  have hnormal : ∀ {r : Path} {names : List (List Char)},
      r.components = start ++ names.map Component.name →
      r.normal = normalForm start ++ names.map Component.name := by
    intro r names hr
    rw [normal, hr, normalForm_append_names]
  exact .fork start _ _ ⟨hp, hnormal hp⟩ ⟨hq, hnormal hq⟩

theorem symm (h : Aligned p q) : Aligned q p := by
  cases h with
  | fork start xs ys hp hq => exact .fork start ys xs hq hp
  | crossing h hp hq => exact .crossing h.symm hq hp

theorem normal_prefix_iff (h : Aligned p q) :
    p.normal <+: q.normal ↔ p.components <+: q.components := by
  cases h with
  | fork start xs ys hp hq =>
    rw [hp.1, hp.2, hq.1, hq.2, List.prefix_append_right_inj, List.prefix_append_right_inj]
  | crossing h hp hq =>
    have hcomponents : p.components ≠ [] := by
      intro hnil
      exact hp (by rw [normal, hnil]; rfl)
    -- of a path and one above it, both begin at the root or none does
    refine iff_of_false (fun hpre => h ?_) (fun hpre => h ?_) <;> obtain ⟨rest, hrest⟩ := hpre
    · exact isAbsolute_eq_of_normal (by rw [← hrest, List.head?_append_of_ne_nil _ hp])
    · rw [Bool.eq_iff_iff, ← head?_components, ← head?_components, ← hrest,
        List.head?_append_of_ne_nil _ hcomponents]

theorem normal_eq_iff (h : Aligned p q) : p.normal = q.normal ↔ p.components = q.components := by
  have hle : ∀ {xs ys : List Component}, xs = ys ↔ xs <+: ys ∧ ys <+: xs := by
    intro xs ys
    exact ⟨fun he => he ▸ ⟨List.prefix_rfl, List.prefix_rfl⟩,
      fun ⟨hxy, hyx⟩ => hxy.eq_of_length_le hyx.length_le⟩
  rw [hle, hle, h.normal_prefix_iff, h.symm.normal_prefix_iff]

end Aligned

end Path

/-! ### What validation asks of directories -/

/-- Neither of sources and output is in the other, and the sources are not the
directory of the configuration. -/
structure ResolvedPaths.Apart (p : ResolvedPaths) : Prop where
  site_docs : ¬ p.docsDir.normal <+: p.siteDir.normal
  docs_site : ¬ p.siteDir.normal <+: p.docsDir.normal
  docs_config : p.docsDir.normal ≠ p.configDir.normal

namespace Config

/-- Validation compares the directories component by component. -/
theorem validatePaths_eq_ok {p : ResolvedPaths} : validatePaths p = .ok () ↔
    p.docsDir.components ≠ p.configDir.components ∧
      ¬ p.docsDir.components <+: p.siteDir.components ∧
      ¬ p.siteDir.components <+: p.docsDir.components := by
  unfold validatePaths Path.same Path.isWithin
  simp only [beq_iff_eq, List.isPrefixOf_iff_prefix]
  split_ifs <;> simp_all

theorem validatePaths_of_validate {c : Config} {r : Registry} {warnings : List String}
    (h : c.validate r = .ok warnings) : validatePaths c.paths = .ok () := by
  unfold validate at h
  obtain ⟨_, -, h⟩ := Outcome.bind_eq_ok.mp h
  obtain ⟨_, hpaths, -⟩ := Outcome.bind_eq_ok.mp h
  exact hpaths

/-- Directories that are spelled in the same way are accepted exactly if they are
apart. -/
theorem validatePaths_iff_apart {p : ResolvedPaths} (hsite : Path.Aligned p.siteDir p.docsDir)
    (hconfig : Path.Aligned p.docsDir p.configDir) : validatePaths p = .ok () ↔ p.Apart := by
  rw [validatePaths_eq_ok, ← hconfig.normal_eq_iff.ne, ← hsite.normal_prefix_iff,
    ← hsite.symm.normal_prefix_iff]
  exact ⟨fun ⟨hc, hd, hs⟩ => ⟨hd, hs, hc⟩, fun ⟨hd, hs, hc⟩ => ⟨hc, hd, hs⟩⟩

/-- **Sources and output of a valid site are apart** if they are spelled in the
same way: the output is neither in nor above the sources. So the sources are not
the directory of the configuration, nor if only one of these begins at the
root. -/
theorem validate_apart {c : Config} {r : Registry} {warnings : List String}
    (h : c.validate r = .ok warnings) :
    (Path.Aligned c.paths.siteDir c.paths.docsDir →
      ¬ c.paths.docsDir.normal <+: c.paths.siteDir.normal ∧
        ¬ c.paths.siteDir.normal <+: c.paths.docsDir.normal) ∧
    (Path.Aligned c.paths.docsDir c.paths.configDir ∨
        c.paths.docsDir.isAbsolute ≠ c.paths.configDir.isAbsolute →
      c.paths.docsDir.normal ≠ c.paths.configDir.normal) := by
  obtain ⟨hconfig, hsite, hdocs⟩ := validatePaths_eq_ok.mp (validatePaths_of_validate h)
  refine ⟨fun haligned => ⟨?_, ?_⟩, ?_⟩
  · rwa [haligned.symm.normal_prefix_iff]
  · rwa [haligned.normal_prefix_iff]
  · rintro (haligned | hcrossing)
    · rwa [Ne, haligned.normal_eq_iff]
    · exact fun he => hcrossing (Path.isAbsolute_eq_of_normal (by rw [he]))

/-- A site in the given directories that says nothing but its name. -/
def namedSite (paths : ResolvedPaths) : Config :=
  { (default : Config) with
    siteName := "Docs", devAddr := "127.0.0.1:8000"
    theme := Theme.named Theme.defaultName, paths := paths }

/-- The directories of a site below `..`, spelled with separators and `.` in
between. -/
def parentPaths : ResolvedPaths := ⟨⟨".."⟩, ⟨"..//docs/."⟩, ⟨".././public/docs"⟩⟩

/-- The directories of `parentPaths` are accepted and apart. -/
theorem validate_apart_parentPaths :
    (namedSite parentPaths).validate .builtin = .ok [] ∧
      Path.Aligned parentPaths.siteDir parentPaths.docsDir ∧
      Path.Aligned parentPaths.docsDir parentPaths.configDir ∧ parentPaths.Apart := by
  have hvalid : (namedSite parentPaths).validate .builtin = .ok [] := rfl
  have hsite : Path.Aligned parentPaths.siteDir parentPaths.docsDir :=
    .fork [.up] [.name "public".toList, .name "docs".toList] [.name "docs".toList]
      (by decide) (by decide)
  have hconfig : Path.Aligned parentPaths.docsDir parentPaths.configDir :=
    .fork [.up] [.name "docs".toList] [] (by decide) (by decide)
  obtain ⟨hapart, hdiffer⟩ := validate_apart hvalid
  exact ⟨hvalid, hsite, hconfig, (hapart hsite).1, (hapart hsite).2,
    hdiffer (.inl hconfig)⟩

/-- What loading a site with the given output directory from the working
directory gives, with the sources named by the settings. -/
def siteBeside (siteDir docsDir : String) : Except ConfigError Config :=
  ofDocument ⟨"."⟩ { Settings.empty with docsDir := some ⟨docsDir⟩ }
    (.mapping [(.string "site_name", .string "Docs"), (.string "site_dir", .string siteDir)])

/-- Sites are accepted with the output in the sources, with the sources in the
output, and with the directory of the configuration for sources. -/
theorem validate_accepts_overlap :
    (∃ c, siteBeside "docs/site" "docs" = .ok c ∧ c.validate .builtin = .ok [] ∧
      c.paths.docsDir.normal <+: c.paths.siteDir.normal) ∧
    (∃ c, siteBeside "site" "site/docs" = .ok c ∧ c.validate .builtin = .ok [] ∧
      c.paths.siteDir.normal <+: c.paths.docsDir.normal) ∧
    ∃ c, siteBeside "/srv/site" "docs/.." = .ok c ∧ c.validate .builtin = .ok [] ∧
      c.paths.docsDir.normal = c.paths.configDir.normal :=
  ⟨⟨_, rfl, rfl, by decide⟩, ⟨_, rfl, rfl, by decide⟩, ⟨_, rfl, rfl, by decide⟩⟩

/-! ### Sites that are loaded -/

/-- What a document that loads says of the directories. -/
theorem ofDocument_paths {dir : Path} {s : Settings} {v : Yaml.Value} {c : Config}
    (h : ofDocument dir s v = .ok c) : validatePaths c.paths = .ok () ∧
      c.paths =
        ⟨dir, s.docsDir.getD (dir.join ⟨c.docsDir⟩), s.siteDir.getD (dir.join ⟨c.siteDir⟩)⟩ := by
  unfold ofDocument at h
  obtain ⟨read, -, h⟩ := Outcome.bind_eq_ok.mp h
  obtain ⟨warnings, hvalid, h⟩ := Outcome.bind_eq_ok.mp h
  cases h
  exact ⟨validatePaths_of_validate hvalid, rfl⟩

/-- A document that writes its directories relative and without `..` loads with
sources and output apart, wherever its file is. -/
theorem ofDocument_apart {dir : Path} {s : Settings} {v : Yaml.Value} {c : Config}
    (h : ofDocument dir s v = .ok c) (hdir : dir.text ≠ "")
    (hs : s.docsDir = none ∧ s.siteDir = none)
    (hwritten : ∀ p ∈ [Path.mk c.docsDir, Path.mk c.siteDir], p.isAbsolute = false ∧
      ['.', '.'] ∉ Text.splitAt '/' p.chars) : c.paths.Apart := by
  obtain ⟨hvalid, hpaths⟩ := ofDocument_paths h
  rw [hs.1, hs.2, Option.getD_none, Option.getD_none] at hpaths
  obtain ⟨hdocs, hsite, -⟩ := by simpa only [List.forall_mem_cons] using hwritten
  have hns := Path.join_components_names hdir hdocs.1 hdocs.2
  have hms := Path.join_components_names hdir hsite.1 hsite.2
  refine (validatePaths_iff_apart ?_ ?_).mp hvalid
  · rw [hpaths]
    exact .of_names hms hns
  · rw [hpaths]
    have hnone : dir.components = dir.components ++ [].map Path.Component.name :=
      (List.append_nil _).symm
    exact .of_names hns hnone

end Config
end SitePlan
