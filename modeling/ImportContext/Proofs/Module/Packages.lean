import ImportContext.Bundle.Section
import ImportContext.Proofs.Module.Agreement
import ImportContext.Proofs.Module.Relative

/-!
# The packages above a file

The climb from a file passes directories with a marker and stops at the first one without. Going
down from there, every directory that was passed is found again as a package, whatever roots are
searched after it. So the package that the dots of an import name is never unknown.

Results:
* `marker_of_climb`, `climb_stops`: what the climb passes, and where it stops.
* `packageChain_of_locate`: the packages between the root of a file and the file.
* `packages_found`: a lookup finds each of them, and imports from them are left to the locator.
-/

namespace ImportContext

namespace PackageLayout

variable {layout : PackageLayout} {h : Host}

/-! ## The climb -/

/-- Every directory that the climb passes has the marker. The names are innermost first. -/
theorem marker_of_climb {above passed : List String} (hpassed : passed <:+ above)
    (hlength : (layout.climb h above).length < passed.length) :
    h.isFile ((Path.ofNames passed.reverse).child layout.marker) = true := by
  induction above with
  | nil =>
    rw [List.suffix_nil.mp hpassed, List.length_nil] at hlength
    omega
  | cons name above ih =>
    rw [climb] at hlength
    split at hlength
    · next hmarker =>
      rcases List.suffix_cons_iff.mp hpassed with rfl | hpassed
      · exact hmarker
      · exact ih hpassed hlength
    · have hshort : passed.length ≤ (name :: above).length := hpassed.length_le
      omega

/-- The climb stops at the topmost directory or at one without the marker. -/
theorem climb_stops (layout : PackageLayout) (h : Host) (above : List String) :
    layout.climb h above = [] ∨
      h.isFile ((Path.ofNames (layout.climb h above).reverse).child layout.marker) = false := by
  induction above with
  | nil => exact .inl rfl
  | cons name above ih =>
    rw [climb]
    split
    · exact ih
    · next hmarker => exact .inr (Bool.eq_false_iff.mpr hmarker)

theorem sourceFile_of_locate {file : Path} {loc : ModuleLocation}
    (hloc : layout.locate h file = .ok loc) : loc.sourceFile = h.normalize file := by
  rw [locate] at hloc
  simp only at hloc
  split at hloc
  · cases hloc
  · next name above _ =>
    generalize (if (name == layout.marker) = true then _ else _ : List String) = segments at hloc
    split at hloc
    · cases hloc
    · cases hloc
      rfl

/-! ## Packages -/

/-- A file stands behind some directories below a root. The root has no marker unless it is the
topmost directory, and each of the directories has one: so the root is the nearest directory above
the file without a marker. -/
structure PackageChain (layout : PackageLayout) (h : Host) (root : Path) (packages : List String)
    (file : Path) : Prop where
  leads : ∃ name, (∀ s ∈ packages ++ [name], Path.IsName s) ∧
    file = (packages ++ [name]).foldl Path.child root
  unmarked : root = ⟨"/"⟩ ∨ h.isFile (root.child layout.marker) = false
  marked : ∀ between, between ≠ [] → between <+: packages →
    h.isFile ((between.foldl Path.child root).child layout.marker) = true

theorem packageChain_of_locate {file : Path} {loc : ModuleLocation}
    (hloc : layout.locate h file = .ok loc) :
    layout.PackageChain h loc.root loc.packageSegments loc.sourceFile := by
  obtain ⟨root, packages, name, hroot, hpackages, hname, hroot', hsource, -, -, hsegments⟩ :=
    locate_eq_ok hloc
  have hbelow : ∀ s ∈ packages ++ [name], Path.IsName s := by
    simpa [or_imp, forall_and] using ⟨hpackages, hname⟩
  rw [packageSegments_of_segments hsegments]
  -- the climb starts in the directory of the file and stops at the root
  obtain ⟨above, habove⟩ : ∃ above, above = packages.reverse ++ root.reverse := ⟨_, rfl⟩
  have hclimb : layout.climb h above = root.reverse := by
    have hnames : (h.normalize file).names.reverse.tail = above := by
      have hall : ∀ s ∈ root ++ (packages ++ [name]), Path.IsName s := fun s hs =>
        (List.mem_append.mp hs).elim (hroot s) (hbelow s)
      rw [← sourceFile_of_locate hloc, hsource, Path.names_ofNames hall, habove]
      simp
    have hsame := root_of_locate hloc
    rw [rootOf, hnames, hroot'] at hsame
    have hstops : ∀ s ∈ (layout.climb h above).reverse, Path.IsName s := by
      intro s hs
      have hmem := (climb_suffix layout h above).mem (List.mem_reverse.mp hs)
      rw [habove, List.mem_append, List.mem_reverse, List.mem_reverse] at hmem
      exact hmem.elim (hpackages s) (hroot s)
    have hrev := congrArg Path.names hsame
    rw [Path.names_ofNames hroot, Path.names_ofNames hstops] at hrev
    rw [hrev, List.reverse_reverse]
  refine ⟨⟨name, hbelow, ?_⟩, ?_, ?_⟩
  · rw [hsource, hroot', Path.foldl_child_ofNames hroot hbelow]
  · have hstops := climb_stops layout h above
    rw [hclimb, List.reverse_reverse, List.reverse_eq_nil_iff, ← hroot'] at hstops
    refine hstops.imp_left fun hnil => ?_
    rw [hroot', hnil]
    rfl
  · intro between hne hbetween
    have hnames : ∀ s ∈ between, Path.IsName s := fun s hs => hpackages s (hbetween.mem hs)
    have hpassed : (root ++ between).reverse <:+ above := by
      rw [habove, ← List.reverse_append, List.reverse_suffix, List.prefix_append_right_inj]
      exact hbetween
    have hlonger : (layout.climb h above).length < (root ++ between).reverse.length := by
      have hpos := List.length_pos_iff.mpr hne
      rw [hclimb, List.length_reverse, List.length_reverse, List.length_append]
      omega
    have hmarker := marker_of_climb hpassed hlonger
    rw [List.reverse_reverse] at hmarker
    rw [hroot', Path.foldl_child_ofNames hroot hnames, hmarker]

/-- Each package above a file is found, whatever roots are searched after that of the file. -/
theorem PackageChain.findModule {root file : Path} {packages between : List String}
    (hchain : layout.PackageChain h root packages file) (hne : between ≠ [])
    (hbetween : between <+: packages) (extra : List Path) :
    layout.findModule h (root :: extra) ⟨between⟩ =
      some (.package ((between.foldl Path.child root).child layout.marker)) :=
  findModule_marker hne (hchain.marked between hne hbetween)

end PackageLayout

/-! ## Imports from a package -/

/-- The root of a module comes first among the roots that are searched for it. -/
theorem SearchPath.exists_forModule (l : ModuleLocation) (extra : List Path) :
    ∃ more, SearchPath.forModule l extra = l.root :: more := by
  have hkept : ∀ (paths seen : List Path), ∃ more, paths.foldl
      (fun seen p => if seen.any (·.same p) then seen else seen ++ [p]) (l.root :: seen) =
        l.root :: more := by
    intro paths
    induction paths with
    | nil => exact fun seen => ⟨seen, rfl⟩
    | cons p paths ih =>
      intro seen
      rw [List.foldl_cons]
      split
      · exact ih seen
      · exact ih (seen ++ [p])
  exact hkept extra []

open PackageLayout

/-- Dots alone name one of the packages of the importing module. -/
theorem PackageLayout.resolve_package {loc : ModuleLocation} {d : FromImport} {r : ResolvedImport}
    (hdots : 1 ≤ d.depth) (hpath : d.modulePath = "")
    (hr : resolve loc (.member d) = .ok r) :
    ∃ between, between ≠ [] ∧ between <+: loc.packageSegments ∧ r.module = ⟨between⟩ := by
  have hrelative : d.isRelative = true := by
    rw [FromImport.isRelative, hpath]
    exact Bool.or_true _
  rw [resolve, if_pos hrelative, hpath] at hr
  obtain ⟨i, hi, hr⟩ := bind_eq_ok_iff.mp hr
  cases hr
  obtain ⟨hdepth, rfl⟩ := resolveRelative_eq_ok hdots hi
  rw [ModuleIdentity.parts_empty, List.append_nil]
  refine ⟨_, ?_, List.take_prefix _ _, rfl⟩
  apply List.ne_nil_of_length_pos
  rw [List.length_take]
  omega

/-- An import of a module that is found fails only if the locator does. -/
theorem ImportInquiry.sectionFor_error_of_found (q : ImportInquiry) {d : ImportDeclaration}
    {r : ResolvedImport} {found : ModuleFile} {e : BundleError}
    (hr : resolve q.location d = .ok r) (hfound : q.findModule r.module = some found)
    (he : q.sectionFor d = .error e) :
    ∃ cause, q.locate r = .error cause ∧ e = .locate d.text cause := by
  rcases bind_eq_error_iff.mp he with he | ⟨resolved, hresolved, he⟩
  · rw [hr] at he
    cases he
  · obtain rfl : r = resolved := by
      rw [hr] at hresolved
      exact Except.ok.inj hresolved
    rw [hfound, Option.isNone_some, Bool.and_false, if_neg Bool.false_ne_true] at he
    rcases bind_eq_error_iff.mp he with he | ⟨location, -, he⟩
    · obtain ⟨cause, hcause, rfl⟩ := mapError_eq_error_iff.mp he
      exact ⟨cause, hcause, rfl⟩
    · cases he

namespace PackageLayout

/-- The directories above a file are climbed to the nearest one without a marker. Those that are
passed are the packages of the file: each leading part of them is found again by its marker file,
whatever roots are searched after that of the file. An import that names one of them by dots alone
is left to the locator, and fails only if that does. -/
theorem packages_found {layout : PackageLayout} {h : Host} {file : Path} {loc : ModuleLocation}
    (hloc : layout.locate h file = .ok loc) :
    loc.sourceFile = h.normalize file ∧
    layout.PackageChain h loc.root loc.packageSegments loc.sourceFile ∧
    (∀ between, between ≠ [] → between <+: loc.packageSegments → ∀ extra,
      layout.findModule h (loc.root :: extra) ⟨between⟩ =
        some (.package ((between.foldl Path.child loc.root).child layout.marker))) ∧
    ∀ (b : Bundler) (d : FromImport) (r : ResolvedImport), b.layout = layout → 1 ≤ d.depth →
      d.modulePath = "" → PackageLayout.resolve loc (.member d) = .ok r →
      ∀ e, b.sectionFor h loc (.forModule loc b.searchPaths) (.member d) = .error e →
        ∃ cause, b.locator.locate h (.forModule loc b.searchPaths) r = .error cause ∧
          e = .locate (ImportDeclaration.member d).text cause := by
  have hchain := packageChain_of_locate hloc
  refine ⟨sourceFile_of_locate hloc, hchain, ?_, ?_⟩
  · intro between hne hbetween extra
    exact hchain.findModule hne hbetween extra
  · rintro b d r rfl hdots hpath hr e he
    obtain ⟨between, hne, hbetween, hmodule⟩ := resolve_package hdots hpath hr
    obtain ⟨more, hmore⟩ := SearchPath.exists_forModule loc b.searchPaths
    have hfound : b.layout.findModule h (SearchPath.forModule loc b.searchPaths) r.module =
        some (.package ((between.foldl Path.child loc.root).child b.layout.marker)) := by
      rw [hmore, hmodule]
      exact hchain.findModule hne hbetween more
    exact (b.inquiry h loc _).sectionFor_error_of_found hr hfound he

/-- Two packages below a directory without a marker, which stands in a package itself, and a
package elsewhere that has the name of the outer one. -/
def gapHost : Host :=
  let marker : Entry := .file "__init__.py" ⟨#[]⟩ false
  { files := ⟨[
      .directory "src" [.directory "a" [marker, .directory "b" [.directory "c" [
        marker, .directory "d" [marker, .file "x.py" ⟨#[]⟩ false]]]]],
      .directory "lib" [.directory "c" [marker]]]⟩ }

theorem packages_found_gap :
    let loc : ModuleLocation := ⟨⟨"/src/a/b/c/d/x.py"⟩, ⟨"/src/a/b"⟩, ⟨["c", "d", "x"]⟩, false⟩
    ({} : PackageLayout).locate gapHost ⟨"/src/a/b/c/d/x.py"⟩ = .ok loc ∧
    gapHost.isFile ⟨"/src/a/b/__init__.py"⟩ = false ∧
    ({} : PackageLayout).findModule gapHost [⟨"/src/a/b"⟩, ⟨"/lib"⟩] ⟨["c"]⟩ =
      some (.package ⟨"/src/a/b/c/__init__.py"⟩) ∧
    ∀ e, ({} : Bundler).sectionFor gapHost loc (.forModule loc [])
      (.member ⟨"", "y", none, 2, ⟨1, 0⟩⟩) = .error e →
        ∃ cause, e = .locate "from .. import y" cause := by
  intro loc
  have hloc : ({} : PackageLayout).locate gapHost ⟨"/src/a/b/c/d/x.py"⟩ = .ok loc :=
    eq_ok_of_toOption (by decide +kernel)
  obtain ⟨-, hchain, hfind, hsection⟩ := packages_found hloc
  refine ⟨hloc, ?_, ?_, ?_⟩
  · have hroot : gapHost.isFile ((⟨"/src/a/b"⟩ : Path).child "__init__.py") = false :=
      hchain.unmarked.resolve_left (by decide)
    rwa [show (⟨"/src/a/b"⟩ : Path).child "__init__.py" = ⟨"/src/a/b/__init__.py"⟩ by
      decide +kernel] at hroot
  · refine (hfind ["c"] (by decide) (by decide) [⟨"/lib"⟩]).trans ?_
    decide +kernel
  · intro e he
    obtain ⟨cause, -, hcause⟩ :=
      hsection {} ⟨"", "y", none, 2, ⟨1, 0⟩⟩ ⟨⟨["c"]⟩, some "y"⟩ rfl (by decide) rfl rfl e he
    refine ⟨cause, hcause.trans ?_⟩
    rw [show (ImportDeclaration.member ⟨"", "y", none, 2, ⟨1, 0⟩⟩).text = "from .. import y" by
      decide +kernel]

end PackageLayout

end ImportContext
