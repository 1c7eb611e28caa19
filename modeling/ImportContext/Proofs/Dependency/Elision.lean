import ImportContext.Dependency.Filter
import ImportContext.Proofs.Dependency.Tables

/-!
# Settings and what is left out

An import is left out because its module is listed, because it comes with the interpreter, because
it is popular, or because nothing is known of it. The names that are popular in any case speak in
two ways: whoever is named is known, which speaks for keeping an import, and popular, which speaks
for leaving it out. The second one wins, since nothing becomes known by them without becoming
popular.

Results:
* `dismisses_iff`, `elides_iff`: exactly when an import is left out.
* `elides_mono`: tightening any of the settings leaves out at least what was left out before.
* `elision_follows_settings`: each setting by itself, the order of the two lists, and what the
  answer rests on.
-/

namespace ImportContext

/-! ## Names that are popular in any case -/

namespace DownloadTable

variable {t u : DownloadTable} {d : String} {low high threshold : Nat}

/-- The second table gives the same counts, and at least as many names in it are popular in any
case. -/
structure WidenedTo (t u : DownloadTable) : Prop where
  counts_eq : u.counts = t.counts
  popular_subset : t.alwaysPopular ⊆ u.alwaysPopular

theorem WidenedTo.refl (t : DownloadTable) : t.WidenedTo t :=
  ⟨rfl, List.Subset.refl _⟩

theorem WidenedTo.contains (h : t.WidenedTo u) {name : String}
    (hname : t.alwaysPopular.contains name = true) : u.alwaysPopular.contains name = true :=
  List.contains_iff_mem.mpr (h.popular_subset (List.contains_iff_mem.mp hname))

theorem isPopular_iff : t.isPopular d threshold = true ↔
    t.alwaysPopular.contains (normalizeDistribution d) = true ∨
      ∃ count, t.counts.lookup (normalizeDistribution d) = some count ∧ threshold ≤ count := by
  simp [isPopular, Option.any_eq_true]

/-- Lower thresholds and more names make more popular. -/
theorem isPopular_mono (htu : t.WidenedTo u) (hle : low ≤ high) (h : t.isPopular d high = true) :
    u.isPopular d low = true := by
  rw [isPopular_iff] at h ⊢
  rcases h with hnamed | ⟨count, hcount, hhigh⟩
  · exact .inl (htu.contains hnamed)
  · rw [← htu.counts_eq] at hcount
    exact .inr ⟨count, hcount, Nat.le_trans hle hhigh⟩

/-- What becomes known by more names becomes popular, at any threshold. -/
theorem isPopular_of_newly_known (htu : t.WidenedTo u) (ht : ¬ t.knows d = true)
    (hu : u.knows d = true) : u.isPopular d threshold = true := by
  rw [knows, Bool.or_eq_true] at ht hu
  rw [isPopular_iff]
  rcases hu with hnamed | hcounted
  · exact .inl hnamed
  · rw [htu.counts_eq] at hcounted
    exact absurd (.inr hcounted) ht

/-- The same tables can be read whatever names are popular in any case. -/
theorem exists_widened_of_addTables {names more texts : List String} (hsub : names ⊆ more)
    (ht : (ofPopular names).addTables texts = .ok t) :
    ∃ u, (ofPopular more).addTables texts = .ok u ∧ t.WidenedTo u := by
  obtain ⟨tables, htables, rfl⟩ := addTables_eq_ok_iff.mp ht
  refine ⟨_, addTables_eq_ok_iff.mpr ⟨tables, htables, rfl⟩, rfl, ?_⟩
  exact List.map_subset _ hsub

end DownloadTable

/-! ## Modules that are dismissed -/

/-- The module comes with the interpreter. -/
def IsShipped (module : String) : Prop :=
  module ∈ builtinModules ∨ module ∈ standardModules

namespace ModuleKnowledge

/-- The module is found in one of the given roots. -/
def FoundIn (k : ModuleKnowledge) (h : Host) (roots : SearchPath) (module : String) : Prop :=
  (k.layout.findModule h roots (ModuleIdentity.parse module)).isSome = true

/-- The module is code of the project itself. -/
def InProject (k : ModuleKnowledge) (h : Host) (roots : SearchPath) (module : String) : Prop :=
  k.FoundIn h (projectRoots k.siteRoots roots) module

/-- The module is found among the installed packages. -/
def IsInstalled (k : ModuleKnowledge) (h : Host) (module : String) : Prop :=
  k.FoundIn h k.siteRoots module

variable {k : ModuleKnowledge} {h : Host} {roots : SearchPath} {module : String}

theorem classify_unshipped (hshipped : ¬ IsShipped module) :
    classifyModule k h roots module =
      if (k.layout.findModule h (projectRoots k.siteRoots roots)
          (ModuleIdentity.parse module)).isSome = true then some { kind := .thirdParty }
      else if ((k.layout.findModule h k.siteRoots (ModuleIdentity.parse module)).isSome ||
          k.downloads.knows (distributionOf module)) = true then
        some { kind := .thirdParty, distribution := some (distributionOf module) }
      else none := by
  obtain ⟨hbuiltin, hstandard⟩ := not_or.mp hshipped
  unfold classifyModule
  dsimp only
  rw [if_neg (mt List.contains_iff_mem.mp hbuiltin), if_neg (mt List.contains_iff_mem.mp hstandard)]

theorem classify_inProject (hshipped : ¬ IsShipped module) (hproject : k.InProject h roots module) :
    classifyModule k h roots module = some { kind := .thirdParty } := by
  rw [classify_unshipped hshipped]
  exact if_pos hproject

theorem classify_known (hshipped : ¬ IsShipped module) (hproject : ¬ k.InProject h roots module)
    (hfound : k.IsInstalled h module ∨ k.downloads.knows (distributionOf module) = true) :
    classifyModule k h roots module =
      some { kind := .thirdParty, distribution := some (distributionOf module) } := by
  rw [classify_unshipped hshipped]
  exact (if_neg hproject).trans (if_pos (Bool.or_eq_true_iff.mpr hfound))

theorem classify_unknown (hshipped : ¬ IsShipped module) (hproject : ¬ k.InProject h roots module)
    (hfound : ¬ (k.IsInstalled h module ∨ k.downloads.knows (distributionOf module) = true)) :
    classifyModule k h roots module = none := by
  rw [classify_unshipped hshipped]
  exact (if_neg hproject).trans (if_neg (mt Bool.or_eq_true_iff.mp hfound))

end ModuleKnowledge

namespace DependencyFilter

variable {f g : DependencyFilter} {h : Host} {roots : SearchPath} {module : String}
  {d : ImportDeclaration}

theorem dismisses_of_isShipped (hshipped : IsShipped module) :
    f.dismisses h roots module = true := by
  unfold dismisses classifyModule
  by_cases hbuiltin : module ∈ builtinModules
  · simp [hbuiltin]
  · have hstandard : module ∈ standardModules := hshipped.resolve_left hbuiltin
    simp [hbuiltin, hstandard]

/-- A module is dismissed if it comes with the interpreter, or if it is no code of the project and
is popular or not known at all. -/
theorem dismisses_iff : f.dismisses h roots module = true ↔
    IsShipped module ∨ ¬ f.knowledge.InProject h roots module ∧
      (f.knowledge.downloads.isPopular (distributionOf module) f.threshold = true ∨
        ¬ f.knowledge.IsInstalled h module ∧
          ¬ f.knowledge.downloads.knows (distributionOf module) = true) := by
  by_cases hshipped : IsShipped module
  · exact iff_of_true (dismisses_of_isShipped hshipped) (.inl hshipped)
  by_cases hproject : f.knowledge.InProject h roots module
  · simp [dismisses, ModuleKnowledge.classify_inProject hshipped hproject, hshipped, hproject]
  by_cases hfound : f.knowledge.IsInstalled h module ∨
      f.knowledge.downloads.knows (distributionOf module) = true
  · -- A module that is installed or known is dismissed for being popular only.
    have hknown := ModuleKnowledge.classify_known hshipped hproject hfound
    simp only [dismisses, hknown, Option.any_some, hshipped, hproject, hfound, ← not_or, not_true,
      not_false_eq_true, true_and, false_or, or_false]
  · have hunknown := ModuleKnowledge.classify_unknown hshipped hproject hfound
    rw [dismisses, hunknown]
    exact iff_of_true rfl (.inr ⟨hproject, .inr (not_or.mp hfound)⟩)

/-- Exactly when an import is left out: the list of ignored modules comes before that of kept
ones, and both before what is known of the module. -/
theorem elides_iff : f.elides h roots d = true ↔
    f.enabled = true ∧ d.isRelative = false ∧
      (d.rootModule ∈ f.ignored ∨
        d.rootModule ∉ f.kept ∧ f.dismisses h roots d.rootModule = true) := by
  unfold elides
  by_cases hactive : f.enabled = true ∧ d.isRelative = false
  · obtain ⟨henabled, hrelative⟩ := hactive
    by_cases hignored : d.rootModule ∈ f.ignored
    · simp [henabled, hrelative, hignored]
    · by_cases hkept : d.rootModule ∈ f.kept <;>
        simp [henabled, hrelative, hignored, hkept]
  · have hinactive : (!f.enabled || d.isRelative) = true := by
      rw [not_and_or, Bool.not_eq_true, Bool.not_eq_false] at hactive
      rcases hactive with hoff | hrelative
      · rw [hoff]
        rfl
      · rw [hrelative, Bool.or_true]
    rw [if_pos hinactive, ← and_assoc]
    exact iff_of_false Bool.false_ne_true fun hall => hactive hall.1

/-! ## Tightening settings -/

/-- No setting of the second filter speaks more for keeping an import than that of the first one,
and both look for modules in the same places. -/
structure TightenedTo (f g : DependencyFilter) : Prop where
  enabled : f.enabled = true → g.enabled = true
  threshold_le : g.threshold ≤ f.threshold
  ignored_subset : f.ignored ⊆ g.ignored
  kept_subset : g.kept ⊆ f.kept
  layout_eq : g.knowledge.layout = f.knowledge.layout
  siteRoots_eq : g.knowledge.siteRoots = f.knowledge.siteRoots
  downloads : f.knowledge.downloads.WidenedTo g.knowledge.downloads

theorem TightenedTo.refl (f : DependencyFilter) : f.TightenedTo f where
  enabled := id
  threshold_le := Nat.le_refl _
  ignored_subset := List.Subset.refl _
  kept_subset := List.Subset.refl _
  layout_eq := rfl
  siteRoots_eq := rfl
  downloads := .refl _

theorem TightenedTo.inProject_iff (hfg : f.TightenedTo g) :
    g.knowledge.InProject h roots module ↔ f.knowledge.InProject h roots module := by
  unfold ModuleKnowledge.InProject ModuleKnowledge.FoundIn
  rw [hfg.layout_eq, hfg.siteRoots_eq]

theorem TightenedTo.isInstalled_iff (hfg : f.TightenedTo g) :
    g.knowledge.IsInstalled h module ↔ f.knowledge.IsInstalled h module := by
  unfold ModuleKnowledge.IsInstalled ModuleKnowledge.FoundIn
  rw [hfg.layout_eq, hfg.siteRoots_eq]

theorem dismisses_mono (hfg : f.TightenedTo g) (hf : f.dismisses h roots module = true) :
    g.dismisses h roots module = true := by
  rw [dismisses_iff] at hf ⊢
  rw [hfg.inProject_iff, hfg.isInstalled_iff]
  apply hf.imp_right
  rintro ⟨hproject, hpopular | ⟨hinstalled, hunknown⟩⟩
  · exact ⟨hproject, .inl (DownloadTable.isPopular_mono hfg.downloads hfg.threshold_le hpopular)⟩
  · by_cases hknown : g.knowledge.downloads.knows (distributionOf module) = true
    · have hpopular : g.knowledge.downloads.isPopular (distributionOf module) g.threshold = true :=
        DownloadTable.isPopular_of_newly_known hfg.downloads hunknown hknown
      exact ⟨hproject, .inl hpopular⟩
    · exact ⟨hproject, .inr ⟨hinstalled, hknown⟩⟩

/-- Tightening settings, one or several of them, leaves out at least what was left out before. -/
theorem elides_mono (hfg : f.TightenedTo g) (hf : f.elides h roots d = true) :
    g.elides h roots d = true := by
  rw [elides_iff] at hf ⊢
  obtain ⟨henabled, hrelative, hlisted⟩ := hf
  refine ⟨hfg.enabled henabled, hrelative, ?_⟩
  rcases hlisted with hignored | ⟨hkept, hdismissed⟩
  · exact .inl (hfg.ignored_subset hignored)
  · exact .inr ⟨fun hmem => hkept (hfg.kept_subset hmem), dismisses_mono hfg hdismissed⟩

/-- What is kept under tighter settings was kept before. -/
theorem keeps_of_tightened (hfg : f.TightenedTo g) (hg : g.elides h roots d = false) :
    f.elides h roots d = false := by
  rw [← Bool.not_eq_true] at hg ⊢
  exact fun hf => hg (elides_mono hfg hf)

/-! ## One setting at a time -/

theorem tightened_threshold {threshold : Nat} (hle : f.threshold ≤ threshold) :
    { f with threshold := threshold }.TightenedTo f :=
  { TightenedTo.refl f with threshold_le := hle }

theorem tightened_kept {names : List String} (hsub : f.kept ⊆ names) :
    { f with kept := names }.TightenedTo f :=
  { TightenedTo.refl f with kept_subset := hsub }

theorem tightened_ignored {names : List String} (hsub : f.ignored ⊆ names) :
    f.TightenedTo { f with ignored := names } :=
  { TightenedTo.refl f with ignored_subset := hsub }

/-- The filter with what is known of downloads replaced. -/
def withDownloads (f : DependencyFilter) (t : DownloadTable) : DependencyFilter :=
  { f with knowledge := { f.knowledge with downloads := t } }

theorem tightened_downloads {t u : DownloadTable} (htu : t.WidenedTo u) :
    (f.withDownloads t).TightenedTo (f.withDownloads u) :=
  { TightenedTo.refl f with downloads := htu }

/-- Raising the threshold and keeping more modules never leaves out an import that was kept;
ignoring more modules and making more names popular in any case, the tables of counts being the
same, never keeps an import that was left out. Relative imports are kept, ignoring a module comes
before keeping it, and two imports are treated alike if they have the same top-level module and
both are relative or both are not. -/
theorem elision_follows_settings (f : DependencyFilter) (h : Host) (roots : SearchPath)
    (d : ImportDeclaration) :
    (∀ threshold, f.threshold ≤ threshold → f.elides h roots d = false →
      { f with threshold := threshold }.elides h roots d = false) ∧
    (∀ names, f.kept ⊆ names → f.elides h roots d = false →
      { f with kept := names }.elides h roots d = false) ∧
    (∀ names, f.ignored ⊆ names → f.elides h roots d = true →
      { f with ignored := names }.elides h roots d = true) ∧
    (∀ names more texts t, names ⊆ more →
      (DownloadTable.ofPopular names).addTables texts = .ok t →
      ∃ u, (DownloadTable.ofPopular more).addTables texts = .ok u ∧
        ((f.withDownloads t).elides h roots d = true →
          (f.withDownloads u).elides h roots d = true)) ∧
    (d.isRelative = true → f.elides h roots d = false) ∧
    (f.enabled = true → d.isRelative = false → d.rootModule ∈ f.ignored → d.rootModule ∈ f.kept →
      f.elides h roots d = true) ∧
    (∀ d' : ImportDeclaration, d'.isRelative = d.isRelative → d'.rootModule = d.rootModule →
      f.elides h roots d' = f.elides h roots d) := by
  refine ⟨?threshold, ?kept, ?ignored, ?popular, ?relative, ?order, ?alike⟩
  case threshold => exact fun threshold hle => keeps_of_tightened (tightened_threshold hle)
  case kept => exact fun names hsub => keeps_of_tightened (tightened_kept hsub)
  case ignored => exact fun names hsub => elides_mono (tightened_ignored hsub)
  case popular =>
    intro names more texts t hsub ht
    obtain ⟨u, hu, htu⟩ := DownloadTable.exists_widened_of_addTables hsub ht
    exact ⟨u, hu, elides_mono (tightened_downloads htu)⟩
  case relative =>
    intro hrelative
    rw [elides, hrelative, Bool.or_true, if_pos rfl]
  case order =>
    intro henabled hrelative hignored hkept
    exact elides_iff.mpr ⟨henabled, hrelative, .inl hignored⟩
  case alike =>
    intro d' hrelative hroot
    rw [elides, elides, hrelative, hroot]

/-- A filter with a table of one count, and with one module in both lists. -/
def nicheFilter : DependencyFilter :=
  { threshold := 20, ignored := ["legacy"], kept := ["os", "legacy"],
    knowledge := { downloads := { counts := [("niche", 10)] } } }

/-- The import of a top-level module at the start of a file. -/
def importOf (module : String) : ImportDeclaration :=
  .plain ⟨module, none, ⟨1, 0⟩⟩

/-- A module whose count is below the threshold, however high that gets; one that is unknown first
and popular then; and one that is in both lists. -/
theorem elision_follows_settings_niche :
    nicheFilter.elides {} [] (importOf "niche") = false ∧
    { nicheFilter with threshold := 30 }.elides {} [] (importOf "niche") = false ∧
    { nicheFilter with threshold := 10 }.elides {} [] (importOf "niche") = true ∧
    (∃ u, (DownloadTable.ofPopular ["NumPy"]).addTables ["name,last_month\nniche,10\n"] = .ok u ∧
      nicheFilter.knowledge.downloads.knows "numpy" = false ∧ u.isPopular "numpy" 20 = true ∧
      nicheFilter.elides {} [] (importOf "numpy") = true ∧
      (nicheFilter.withDownloads u).elides {} [] (importOf "numpy") = true) ∧
    nicheFilter.elides {} [] (importOf "legacy.sub") = true := by
  have hniche : nicheFilter.elides {} [] (importOf "niche") = false := by decide +kernel
  have settings := elision_follows_settings nicheFilter {} []
  refine ⟨hniche, (settings _).1 30 (by decide) hniche, by decide +kernel, ?popular, ?order⟩
  case popular =>
    have ht : (DownloadTable.ofPopular []).addTables ["name,last_month\nniche,10\n"] =
        .ok nicheFilter.knowledge.downloads := eq_ok_of_toOption (by decide +kernel)
    have hv : (DownloadTable.ofPopular ["NumPy"]).addTables ["name,last_month\nniche,10\n"] =
        .ok ⟨[("niche", 10)], ["numpy"]⟩ := eq_ok_of_toOption (by decide +kernel)
    have helided : nicheFilter.elides {} [] (importOf "numpy") = true := by decide +kernel
    obtain ⟨u, hu, hmono⟩ := (settings _).2.2.2.1 [] ["NumPy"] _ _ (List.nil_subset _) ht
    cases hv.symm.trans hu
    exact ⟨_, hv, by decide +kernel, by decide +kernel, helided, hmono helided⟩
  case order =>
    exact (settings _).2.2.2.2.2.1 rfl rfl (by decide +kernel) (by decide +kernel)

end DependencyFilter

end ImportContext
