import ImportContext.Bundle.Build
import ImportContext.Proofs.Locate.Agreement

/-!
# Bundles on hosts that agree

A bundler that reads source text asks for files below the root of its source file and below the
search paths, and for its template. Hosts that agree there give the same bundle, or the same error.

Results:
* `ImportInquiry.collect_congr`, `Bundler.collect_congr`: what is gathered for imports.
* `buildTree_congr`: the tree of a directory depends on that directory.
* `Bundler.bundle_congr`: a bundle depends on what is below its roots.
-/

namespace ImportContext

variable {b : Bundler} {h s : Host} {location : ModuleLocation} {roots : SearchPath}
  {d : ImportDeclaration}

/-! ## Search roots -/

theorem SearchPath.ofPaths_subset (paths : List Path) : SearchPath.ofPaths paths ⊆ paths := by
  suffices hall : ∀ seen : List Path, paths.foldl
      (fun seen p => if seen.any (·.same p) then seen else seen ++ [p]) seen ⊆ seen ++ paths from
    hall []
  induction paths with
  | nil => simp
  | cons p rest ih =>
    intro seen
    rw [List.foldl_cons]
    split
    · refine List.Subset.trans (ih seen) (List.append_subset.mpr ⟨List.subset_append_left _ _, ?_⟩)
      exact List.subset_append_of_subset_right _ (List.subset_cons_self p rest)
    · simpa using ih (seen ++ [p])

/-- The directories below which a bundle of a file asks for files. -/
def Bundler.rootsOf (b : Bundler) (h : Host) (file : Path) : List Path :=
  b.layout.rootOf h (h.normalize file) :: (b.searchPaths ++ b.filter.knowledge.siteRoots)

/-- A bundler that reads source text, and whose layouts ask for names of files. -/
structure Bundler.IsPlain (b : Bundler) : Prop where
  kind : b.locator.kind = .static
  layout : b.layout.IsPlain
  locator : b.locator.layout.IsPlain
  filter : b.filter.knowledge.layout.IsPlain

/-! ## Imports -/

theorem slash_not_mem_rootModule (hd : d.Written) : '/' ∉ d.rootModule.toList := by
  rw [ImportDeclaration.rootModule, rootSegment, String.toList_ofList]
  exact fun hslash => hd.slash_not_mem_modulePath ((List.takeWhile_sublist _).mem hslash)

theorem classifyModule_congr {k : ModuleKnowledge} {module : String} (hlayout : k.layout.IsPlain)
    (ha : Host.Agree (roots ++ k.siteRoots) h s) (hmodule : '/' ∉ module.toList) :
    classifyModule k s roots module = classifyModule k h roots module := by
  have hplain := ModuleIdentity.isPlain_parse hmodule
  have hproject : k.layout.findModule s (projectRoots k.siteRoots roots) (.parse module) =
      k.layout.findModule h (projectRoots k.siteRoots roots) (.parse module) := by
    refine PackageLayout.findModule_congr hlayout (ha.mono ?_) hplain
    exact List.Subset.trans List.filter_sublist.subset (List.subset_append_left _ _)
  have hsite : k.layout.findModule s k.siteRoots (.parse module) =
      k.layout.findModule h k.siteRoots (.parse module) :=
    PackageLayout.findModule_congr hlayout (ha.mono (List.subset_append_right _ _)) hplain
  rw [classifyModule, classifyModule]
  simp only [hproject, hsite]

/-- Walks whose answers are the same for all imports gather the same. -/
theorem ImportInquiry.collect_congr {q q' : ImportInquiry} {ds : List ImportDeclaration}
    (hgoesOn : q'.goesOn = q.goesOn) (helides : ∀ d ∈ ds, q'.elides d = q.elides d)
    (hsection : ∀ d ∈ ds, q'.sectionFor d = q.sectionFor d) (g : Gathered) :
    q'.collect g ds = q.collect g ds := by
  induction ds generalizing g with
  | nil => rfl
  | cons d rest ih =>
    obtain ⟨hd, hrest⟩ := List.forall_mem_cons.mp helides
    obtain ⟨hd', hrest'⟩ := List.forall_mem_cons.mp hsection
    rw [collect, collect, hd, hd', hgoesOn]
    simp only [ih hrest hrest']

namespace Bundler

theorem elides_congr (hb : b.IsPlain)
    (ha : Host.Agree (roots ++ b.filter.knowledge.siteRoots) h s) (hd : d.Written) :
    b.filter.elides s roots d = b.filter.elides h roots d := by
  rw [DependencyFilter.elides, DependencyFilter.elides, DependencyFilter.dismisses,
    DependencyFilter.dismisses,
    classifyModule_congr hb.filter ha (slash_not_mem_rootModule hd)]

theorem sectionFor_congr (hb : b.IsPlain) (ha : Host.Agree roots h s)
    (hlocation : ∀ n ∈ location.packageSegments, Path.IsName n) (hd : d.Written) :
    b.sectionFor s location roots d = b.sectionFor h location roots d := by
  unfold sectionFor ImportInquiry.sectionFor inquiry
  dsimp only
  cases hr : PackageLayout.resolve location d with
  | error e => rfl
  | ok r =>
    obtain ⟨hmodule, hsymbol⟩ := resolve_isPlain hlocation hd hr
    have hlocate : b.locator.locate s roots r = b.locator.locate h roots r := by
      rw [Locator.locate, Locator.locate, hb.kind]
      exact locateStatic_congr hb.locator ha hmodule hsymbol
    have hfind := PackageLayout.findModule_congr hb.layout ha hmodule
    simp only [Except.mapError, bind, Except.bind, hlocate, hfind]

/-- What is gathered for imports depends on what is below the search roots. -/
theorem collect_congr (hb : b.IsPlain)
    (ha : Host.Agree (roots ++ b.filter.knowledge.siteRoots) h s)
    (hlocation : ∀ n ∈ location.packageSegments, Path.IsName n)
    {ds : List ImportDeclaration} (hds : ∀ d ∈ ds, d.Written) (g : Gathered) :
    b.collect s location roots g ds = b.collect h location roots g ds := by
  unfold collect
  have hgoesOn : (b.inquiry s location roots).goesOn = (b.inquiry h location roots).goesOn := rfl
  refine ImportInquiry.collect_congr hgoesOn ?_ ?_ g
  · intro d hd
    exact elides_congr hb ha (hds d hd)
  · intro d hd
    have hroots := ha.mono (List.subset_append_left roots b.filter.knowledge.siteRoots)
    exact sectionFor_congr hb hroots hlocation (hds d hd)

end Bundler

/-! ## The tree and the template -/

/-- The tree of a directory depends on that directory. -/
theorem buildTree_congr {dir : Path} (hcwd : s.cwd = h.cwd)
    (hdir : s.files.lookup (s.normalize dir) = h.files.lookup (h.normalize dir))
    (rules : IgnoreRuleSet) (focus : FocusItems) (depth : Option Nat) :
    buildTree s dir rules focus depth = buildTree h dir rules focus depth := by
  have hnormalize : s.normalize = h.normalize := by
    funext p
    rw [Host.normalize, Host.normalize, hcwd]
  have htarget : FocusItems.target s = FocusItems.target h := by
    funext root p
    rw [FocusItems.target, FocusItems.target, hnormalize]
  have houtside : ∀ root, focus.outside? s root = focus.outside? h root := by
    intro root
    rw [FocusItems.outside?, FocusItems.outside?, htarget]
  have hlabel : ∀ root, focus.labelBelow s root = focus.labelBelow h root := by
    intro root
    funext names
    rw [FocusItems.labelBelow, FocusItems.labelBelow, FocusItems.labelAt, FocusItems.labelAt,
      htarget]
  rw [hnormalize] at hdir
  rw [buildTree, buildTree]
  simp only [hnormalize, hdir, houtside, hlabel]

theorem findTemplate_congr {name : String}
    (hname : name ≠ "markdown" → name ≠ "plain" →
      s.files.lookup (s.path ⟨name⟩) = h.files.lookup (h.path ⟨name⟩)) :
    findTemplate s name = findTemplate h name := by
  unfold findTemplate
  split
  · rfl
  · rfl
  · next hmarkdown hplain =>
    have hlookup := hname hmarkdown hplain
    rw [Host.isFile_congr hlookup, Host.readText_congr hlookup]

/-! ## Bundles -/

namespace Bundler

theorem packageSegments_of_locate {layout : PackageLayout} {file : Path}
    (hlocate : layout.locate h file = .ok location) :
    (∀ n ∈ location.packageSegments, Path.IsName n) ∧
      ∃ names : List String, (∀ n ∈ names, Path.IsName n) ∧
        location.topLevelDir = names.foldl Path.child location.root := by
  obtain ⟨root, packages, name, -, hpackages, -, -, -, -, -, hsegments⟩ :=
    PackageLayout.locate_eq_ok hlocate
  rw [PackageLayout.packageSegments_of_segments hsegments,
    PackageLayout.topLevelDir_of_segments hsegments]
  exact ⟨hpackages, packages.take 1, fun n hn => hpackages n (List.mem_of_mem_take hn), rfl⟩

theorem loadUnit_congr {file : Path}
    (ha : Host.Agree [b.layout.rootOf h (h.normalize file)] h s) :
    loadUnit s file = loadUnit h file := by
  rw [loadUnit, loadUnit]
  split
  · rfl
  · next htext =>
    obtain ⟨ns, hns, hnormal⟩ : ∃ ns, (∀ n ∈ ns, Path.IsName n) ∧ h.normalize file = .ofNames ns :=
      Path.exists_normalize (by simpa using htext)
    obtain ⟨names, hnames, hbelow⟩ := b.layout.exists_below_rootOf h hns
    have hread : s.readText (h.normalize file) = h.readText (h.normalize file) := by
      rw [← hnormal] at hbelow
      have hlookup := ha.lookup _ List.mem_cons_self names hnames
      rw [← hbelow] at hlookup
      exact Host.readText_congr hlookup
    simp only [ha.normalize, hread]

theorem assemble_congr {file : Path} {unit : SourceUnit}
    (hlocate : b.layout.locate h file = .ok location) (ha : Host.Agree [location.root] h s)
    (htemplate : ∀ name, b.options.template = some name → name ≠ "markdown" → name ≠ "plain" →
      s.files.lookup (s.path ⟨name⟩) = h.files.lookup (h.path ⟨name⟩)) (g : Gathered) :
    b.assemble s unit location g = b.assemble h unit location g := by
  have htree : b.shownTree s location = b.shownTree h location := by
    obtain ⟨root, -, -, hroot, -, -, hlocation, -⟩ := PackageLayout.locate_eq_ok hlocate
    obtain ⟨-, names, hnames, htop⟩ := packageSegments_of_locate hlocate
    have hlookup := ha.lookup _ List.mem_cons_self names hnames
    rw [hlocation, Path.foldl_child_ofNames hroot hnames] at htop
    rw [hlocation, Path.foldl_child_ofNames hroot hnames, Host.path, Host.path,
      Path.absolute_ofNames, Path.absolute_ofNames] at hlookup
    have hdir : s.files.lookup (s.normalize location.topLevelDir) =
        h.files.lookup (h.normalize location.topLevelDir) := by
      have hall := List.forall_mem_append.mpr ⟨hroot, hnames⟩
      rw [htop, Host.normalize, Host.normalize, Path.normalize_ofNames hall,
        Path.normalize_ofNames hall, hlookup]
    rw [shownTree, shownTree, projectTree, projectTree]
    simp only [buildTree_congr ha.cwd hdir]
  have hfind : findTemplate s (b.options.template.getD b.options.format.name) =
      findTemplate h (b.options.template.getD b.options.format.name) := by
    refine findTemplate_congr fun hmarkdown hplain => ?_
    cases hname : b.options.template with
    | some name =>
      rw [hname] at hmarkdown hplain
      exact htemplate name hname hmarkdown hplain
    | none =>
      rw [hname] at hmarkdown hplain
      cases hformat : b.options.format with
      | markdown => exact absurd (congrArg BundleFormat.name hformat) hmarkdown
      | plain => exact absurd (congrArg BundleFormat.name hformat) hplain
  have hrender : ∀ scope, renderBundle s b.options scope = renderBundle h b.options scope := by
    intro scope
    rw [renderBundle, renderBundle]
    simp only [hfind]
  rw [assemble, assemble, htree]
  simp only [hrender]

/-- A bundle depends on what is below its roots, and on its template. -/
theorem bundle_congr (hb : b.IsPlain) {file : Path} (ha : Host.Agree (b.rootsOf h file) h s)
    (htemplate : ∀ name, b.options.template = some name → name ≠ "markdown" → name ≠ "plain" →
      s.files.lookup (s.path ⟨name⟩) = h.files.lookup (h.path ⟨name⟩)) :
    b.bundle s file = b.bundle h file := by
  have hroot : Host.Agree [b.layout.rootOf h (h.normalize file)] h s :=
    ha.mono (List.cons_subset.mpr ⟨List.mem_cons_self, List.nil_subset _⟩)
  rw [bundle, bundle, loadUnit_congr hroot]
  cases hunit : loadUnit h file with
  | error e => rfl
  | ok unit =>
    obtain ⟨hpath, hwritten⟩ :
        unit.path = h.normalize file ∧ ∀ d ∈ unit.declarations, d.Written := by
      rw [loadUnit] at hunit
      split at hunit
      · cases hunit
      · dsimp only at hunit
        split at hunit
        · cases hunit
        · split at hunit
          · cases hunit
          · next ds hds =>
            cases hunit
            exact ⟨rfl, fun d => extractImports_written hds⟩
    rw [← hpath] at hroot
    simp only [bind, Except.bind, PackageLayout.locate_congr hb.layout hroot]
    cases hlocate : b.layout.locate h unit.path with
    | error e => rfl
    | ok location =>
      have hsame := PackageLayout.root_of_locate hlocate
      have hroots : SearchPath.forModule location b.searchPaths ++
          b.filter.knowledge.siteRoots ⊆ b.rootsOf h file := by
        refine List.append_subset.mpr ⟨List.Subset.trans (SearchPath.ofPaths_subset _) ?_, ?_⟩
        · rw [rootsOf, hsame, hpath]
          exact List.cons_subset_cons _ (List.subset_append_left _ _)
        · exact List.subset_cons_of_subset _ (List.subset_append_right _ _)
      have hcollect := collect_congr hb (ha.mono hroots) (packageSegments_of_locate hlocate).1
        hwritten {}
      rw [← hsame] at hroot
      simp only [Except.mapError, hcollect, assemble_congr hlocate hroot htemplate]

end Bundler

end ImportContext
