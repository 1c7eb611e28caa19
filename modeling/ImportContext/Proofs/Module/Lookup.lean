import ImportContext.Module.Layout
import ImportContext.Proofs.Fallible
import ImportContext.Proofs.Path.Names

/-!
# Identities and lookups

The identity of a file is found by climbing from it to a root, and the file of an identity by
going down from a root. The second undoes the first, but for a package that has the name of a
source file and wins over it.

Results:
* `locate_eq_ok`: the names of a file are those of its root, of its packages and its own.
* `findModule_marker`, `findModule_source`: what is found under the first root.
* `findModule_locate`: the identity of a file leads back to it.
-/

namespace ImportContext

namespace PackageLayout

variable {layout : PackageLayout} {h : Host}

/-! ## From a file to its identity -/

theorem climb_suffix (layout : PackageLayout) (h : Host) (above : List String) :
    layout.climb h above <:+ above := by
  induction above with
  | nil => exact List.suffix_refl []
  | cons name above ih =>
    rw [climb]
    split
    · exact ih.trans (List.suffix_cons name above)
    · exact List.suffix_refl _

/-- A normal form with a name in it is the absolute path of its names. -/
theorem normalize_eq_ofNames {file : Path} (hne : (h.normalize file).names ≠ []) :
    h.normalize file = Path.ofNames (h.normalize file).names ∧
      ∀ s ∈ (h.normalize file).names, Path.IsName s := by
  have htext : file.text ≠ "" := by
    intro hempty
    obtain rfl : file = ⟨""⟩ := congrArg Path.mk hempty
    exact hne rfl
  obtain ⟨ns, hns, hsource⟩ : ∃ ns, (∀ s ∈ ns, Path.IsName s) ∧ h.normalize file = .ofNames ns :=
    Path.exists_normalize htext
  rw [hsource, Path.names_ofNames hns]
  exact ⟨rfl, hns⟩

/-- A file with an identity stands below its root, behind the packages of the identity. -/
theorem locate_eq_ok {file : Path} {loc : ModuleLocation} (hloc : layout.locate h file = .ok loc) :
    ∃ root packages name, (∀ s ∈ root, Path.IsName s) ∧ (∀ s ∈ packages, Path.IsName s) ∧
      Path.IsName name ∧ loc.root = .ofNames root ∧
      loc.sourceFile = .ofNames (root ++ (packages ++ [name])) ∧
      loc.isPackage = (name == layout.marker) ∧ loc.identity.segments ≠ [] ∧
      loc.identity.segments =
        if loc.isPackage then packages else packages ++ [layout.moduleName name] := by
  rw [locate] at hloc
  simp only at hloc
  split at hloc
  · cases hloc
  · next name above hreverse =>
    obtain ⟨packages, hclimb⟩ := climb_suffix layout h above
    have hnames : (h.normalize file).names =
        (layout.climb h above).reverse ++ (packages.reverse ++ [name]) := by
      rw [← List.append_assoc, ← List.reverse_append, hclimb, ← List.reverse_cons, ← hreverse,
        List.reverse_reverse]
    obtain ⟨hsource, hall⟩ : h.normalize file = .ofNames (h.normalize file).names ∧
        ∀ s ∈ (h.normalize file).names, Path.IsName s := normalize_eq_ofNames (by simp [hnames])
    have hpackages : ((h.normalize file).names.drop
        (layout.climb h above).reverse.length).dropLast = packages.reverse := by
      rw [hnames, List.drop_left, List.dropLast_concat]
    rw [hpackages] at hloc
    rw [hnames] at hsource hall
    simp only [List.mem_append, or_imp, forall_and, List.mem_singleton, forall_eq] at hall
    generalize hsegments : (if (name == layout.marker) = true then packages.reverse
      else packages.reverse ++ [layout.moduleName name]) = segments at hloc
    split at hloc
    · cases hloc
    · next hne =>
      cases hloc
      exact ⟨_, packages.reverse, name, hall.1, hall.2.1, hall.2.2, rfl, hsource, rfl,
        by simpa using hne, hsegments.symm⟩

section Segments

variable {loc : ModuleLocation} {packages : List String} {last : String}
  (hsegments : loc.identity.segments = if loc.isPackage then packages else packages ++ [last])
include hsegments

theorem packageSegments_of_segments : loc.packageSegments = packages := by
  rw [ModuleLocation.packageSegments, hsegments]
  cases loc.isPackage with
  | true => rfl
  | false => exact List.dropLast_concat

/-- The tree of a file is that of its outermost package, if there is one. -/
theorem topLevelDir_of_segments :
    loc.topLevelDir = (packages.take 1).foldl Path.child loc.root := by
  rw [ModuleLocation.topLevelDir, hsegments]
  cases packages <;> cases loc.isPackage <;> simp

theorem treeDepth_of_segments (hne : loc.identity.segments ≠ []) :
    loc.treeDepth = if packages = [] then some 1 else none := by
  rw [hsegments] at hne
  rw [ModuleLocation.treeDepth, hsegments]
  cases packages <;> cases hpackage : loc.isPackage <;> simp_all

end Segments

/-- A name with the extension of source files is that of its module with the extension. -/
theorem moduleName_append {name : String}
    (hext : ("." ++ layout.extension).toList <:+ name.toList) :
    layout.moduleName name ++ "." ++ layout.extension = name := by
  obtain ⟨front, hfront⟩ := hext
  apply String.toList_inj.mp
  rw [moduleName, if_pos (by simp [← hfront])]
  simp [← hfront]

/-! ## From an identity to its file -/

/-- A package or source file under the first root is what a lookup gives. -/
theorem findModule_of_regular {root : Path} {extra : List Path} {parents : List String}
    {last : String} {found : ModuleFile}
    (hfound : layout.findRegular h last (parents.foldl Path.child root) = some found) :
    layout.findModule h (root :: extra) ⟨parents ++ [last]⟩ = some found := by
  simp only [findModule, List.getLast?_concat, List.dropLast_concat, List.map_cons,
    List.findSome?_cons, parentDir, hfound]

theorem foldl_child_concat (root : Path) (parents : List String) (last : String) :
    (parents ++ [last]).foldl Path.child root = (parents.foldl Path.child root).child last := by
  rw [List.foldl_append, List.foldl_cons, List.foldl_nil]

/-- A package under the first root is found by its marker file. -/
theorem findModule_marker {root : Path} {extra : List Path} {packages : List String}
    (hne : packages ≠ [])
    (hfile : h.isFile ((packages.foldl Path.child root).child layout.marker) = true) :
    layout.findModule h (root :: extra) ⟨packages⟩ =
      some (.package ((packages.foldl Path.child root).child layout.marker)) := by
  obtain ⟨parents, last, rfl⟩ : ∃ parents last, packages = parents ++ [last] :=
    ⟨packages.dropLast, packages.getLast hne, (List.dropLast_concat_getLast hne).symm⟩
  rw [foldl_child_concat] at hfile ⊢
  refine findModule_of_regular ?_
  rw [findRegular, if_pos hfile]

/-- A source file is found unless there is a package of its name. -/
theorem findModule_source {root : Path} {packages : List String} {name : String}
    (hext : ("." ++ layout.extension).toList <:+ name.toList)
    (hfile : h.isFile ((packages.foldl Path.child root).child name) = true) :
    layout.findModule h [root] ⟨packages ++ [layout.moduleName name]⟩ =
      let marker := ((packages ++ [layout.moduleName name]).foldl Path.child root).child
        layout.marker
      if h.isFile marker then some (.package marker)
      else some (.source ((packages.foldl Path.child root).child name)) := by
  simp only [foldl_child_concat]
  split
  · next hother =>
    refine findModule_of_regular ?_
    rw [findRegular, if_pos hother]
  · next hother =>
    refine findModule_of_regular ?_
    rw [findRegular, if_neg hother, moduleName_append hext, if_pos hfile]

/-- The identity of a file leads back to it: that of a marker file to the package, and that of a
source file to the file itself, unless there is a package of the same name. What is left of the
path below the root leads from the root to the file. -/
theorem findModule_locate {file : Path} {loc : ModuleLocation}
    (hloc : layout.locate h file = .ok loc) :
    (∀ name, loc.sourceFile.fileName? = some name → h.isFile loc.sourceFile = true →
      name = layout.marker ∨ ("." ++ layout.extension).toList <:+ name.toList →
      layout.findModule h [loc.root] loc.identity =
        if loc.isPackage then some (.package loc.sourceFile)
        else
          let marker := (loc.identity.segments.foldl Path.child loc.root).child layout.marker
          if h.isFile marker then some (.package marker) else some (.source loc.sourceFile)) ∧
    loc.root.join loc.relativeFile = loc.sourceFile := by
  obtain ⟨root, packages, name, hroot, hpackages, hname, hroot', hsource, hpackage, hne,
    hsegments⟩ := locate_eq_ok hloc
  have hbelow : ∀ s ∈ packages ++ [name], Path.IsName s := by
    simpa [or_imp, forall_and] using ⟨hpackages, hname⟩
  have hchild : (packages.foldl Path.child loc.root).child name = loc.sourceFile := by
    rw [hsource, hroot', ← Path.foldl_child_ofNames hroot hbelow, foldl_child_concat]
  refine ⟨?_, ?_⟩
  · intro name' hname' hfile hkind
    obtain rfl : name = name' := by
      have hall : ∀ s ∈ root ++ packages ++ [name], Path.IsName s := by
        intro s hs
        rw [List.append_assoc] at hs
        exact (List.mem_append.mp hs).elim (hroot s) (hbelow s)
      rw [hsource, ← List.append_assoc, Path.fileName?_ofNames hall] at hname'
      exact Option.some.inj hname'
    rw [← hchild] at hfile ⊢
    cases hmarker : loc.isPackage with
    | true =>
      obtain rfl : name = layout.marker := by simpa [hmarker] using hpackage
      have hidentity : loc.identity = ⟨packages⟩ := by
        rw [← hsegments.trans (if_pos hmarker)]
      rw [hidentity] at hne ⊢
      exact findModule_marker hne hfile
    | false =>
      have hext : ("." ++ layout.extension).toList <:+ name.toList := by
        refine hkind.resolve_left ?_
        rintro rfl
        simp [hmarker] at hpackage
      have hidentity : loc.identity = ⟨packages ++ [layout.moduleName name]⟩ := by
        rw [← hsegments.trans (if_neg (by simp [hmarker]))]
      rw [hidentity]
      exact findModule_source hext hfile
  · rw [ModuleLocation.relativeFile, hsource, hroot', Path.stripBase?_ofNames hroot hbelow,
      Option.getD_some, Path.join_ofNames hroot hbelow (by simp)]

/-- A package with a source file, and with another one that stands beside a package of the same
name. -/
def packageHost : Host :=
  { files := ⟨[.directory "src" [.directory "pkg" [
      .file "__init__.py" ⟨#[]⟩ false, .file "alone.py" ⟨#[]⟩ false, .file "both.py" ⟨#[]⟩ false,
      .directory "both" [.file "__init__.py" ⟨#[]⟩ false]]]]⟩ }

theorem locate_packageHost :
    ({} : PackageLayout).locate packageHost ⟨"/src/pkg/__init__.py"⟩ =
      .ok ⟨⟨"/src/pkg/__init__.py"⟩, ⟨"/src"⟩, ⟨["pkg"]⟩, true⟩ ∧
    ({} : PackageLayout).locate packageHost ⟨"/src/pkg/alone.py"⟩ =
      .ok ⟨⟨"/src/pkg/alone.py"⟩, ⟨"/src"⟩, ⟨["pkg", "alone"]⟩, false⟩ ∧
    ({} : PackageLayout).locate packageHost ⟨"/src/pkg/both.py"⟩ =
      .ok ⟨⟨"/src/pkg/both.py"⟩, ⟨"/src"⟩, ⟨["pkg", "both"]⟩, false⟩ :=
  ⟨eq_ok_of_toOption (by decide +kernel), eq_ok_of_toOption (by decide +kernel),
    eq_ok_of_toOption (by decide +kernel)⟩

theorem findModule_locate_packageHost :
    ({} : PackageLayout).findModule packageHost [⟨"/src"⟩] ⟨["pkg"]⟩ =
      some (.package ⟨"/src/pkg/__init__.py"⟩) ∧
    ({} : PackageLayout).findModule packageHost [⟨"/src"⟩] ⟨["pkg", "alone"]⟩ =
      some (.source ⟨"/src/pkg/alone.py"⟩) ∧
    ({} : PackageLayout).findModule packageHost [⟨"/src"⟩] ⟨["pkg", "both"]⟩ =
      some (.package ⟨"/src/pkg/both/__init__.py"⟩) := by
  obtain ⟨hpackage, halone, hboth⟩ := locate_packageHost
  refine ⟨?_, ?_, ?_⟩
  · exact (findModule_locate hpackage).1 "__init__.py" (by decide +kernel) (by decide +kernel)
      (.inl rfl)
  · refine ((findModule_locate halone).1 "alone.py" (by decide +kernel) (by decide +kernel)
      (.inr (by decide +kernel))).trans ?_
    decide +kernel
  · refine ((findModule_locate hboth).1 "both.py" (by decide +kernel) (by decide +kernel)
      (.inr (by decide +kernel))).trans ?_
    decide +kernel

end PackageLayout

end ImportContext
