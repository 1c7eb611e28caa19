import ImportContext.Bundle.Build
import ImportContext.Proofs.FileSystem.Descent
import ImportContext.Proofs.Module.Lookup
import ImportContext.Proofs.Tree.Labels

/-!
# The source file in its project tree

The project tree of a source file is that of its outermost package, or lists the directory of the
file if it is in no package. Either way the file is below the root of the tree and not too deep. So
the item that points it out is never refused, and its node is there unless the rules ignore it.

Results:
* `PackageLayout.exists_standsBelow`: the names that lead from the root of the tree to the file.
* `Bundler.projectTree_insert`: an item of the caller under the label of the file has no effect.
* `StandsBelow.projectTree_ne_outside`: the item of the file is not refused.
* `StandsBelow.exists_showsLocation`: where the file is in a tree that is built.
* `Bundler.projectTree_location`: the tree points the file out, and is not refused because of it.
-/

namespace ImportContext

variable {layout : PackageLayout} {h : Host} {file : Path} {loc : ModuleLocation} {b : Bundler}
  {rules : IgnoreRuleSet} {top below names : List String}

/-- A source file stands behind some names below the directory whose tree is drawn, and right in it
if only the entries of that directory are listed. -/
structure ModuleLocation.StandsBelow (loc : ModuleLocation) (top below : List String) : Prop where
  isName_top : ∀ s ∈ top, Path.IsName s
  isName_below : ∀ s ∈ below, Path.IsName s
  ne_nil : below ≠ []
  topLevelDir_eq : loc.topLevelDir = .ofNames top
  sourceFile_eq : loc.sourceFile = .ofNames (top ++ below)
  within : ∀ d ∈ loc.treeDepth, below.length ≤ d

theorem PackageLayout.exists_standsBelow (hloc : layout.locate h file = .ok loc) :
    ∃ top below, loc.StandsBelow top below := by
  obtain ⟨root, packages, name, hroot, hpackages, hname, hroot', hsource, -, hne, hsegments⟩ :=
    locate_eq_ok hloc
  have htop : ∀ s ∈ packages.take 1, Path.IsName s :=
    fun s hs => hpackages s (List.mem_of_mem_take hs)
  have hbelow : ∀ s ∈ packages.drop 1, Path.IsName s :=
    fun s hs => hpackages s (List.mem_of_mem_drop hs)
  refine ⟨root ++ packages.take 1, packages.drop 1 ++ [name],
    List.forall_mem_append.mpr ⟨hroot, htop⟩,
    List.forall_mem_append.mpr ⟨hbelow, by simpa using hname⟩, by simp, ?_, ?_, ?_⟩
  · rw [topLevelDir_of_segments hsegments, hroot', Path.foldl_child_ofNames hroot htop]
  · rw [hsource, List.append_assoc, ← List.append_assoc (packages.take 1), List.take_append_drop]
  · rw [treeDepth_of_segments hsegments hne]
    split
    · next hnil => simp [hnil]
    · simp

/-- Under the label of the source file only the file itself is shown. -/
theorem Bundler.projectTree_insert (b : Bundler) (h : Host) (loc : ModuleLocation) (path : Path) :
    Bundler.projectTree { b with options :=
      { b.options with focus := b.options.focus.insert locationLabel path } } h loc =
      b.projectTree h loc := by
  simp only [projectTree, FocusItems.insert_insert]

/-- The tree that is drawn for a source file, which stands behind some names below its root. -/
structure Bundler.ShowsLocation (b : Bundler) (h : Host) (loc : ModuleLocation)
    (rules : IgnoreRuleSet) (below : List String) (tree : TreeNode) : Prop where
  built : buildTree h loc.topLevelDir rules
    (b.options.focus.insert locationLabel loc.sourceFile) loc.treeDepth = .ok tree
  drawn : b.projectTree h loc = .ok tree.render
  /-- The file has a node, with its label among others, just if the rules keep it. -/
  pointed : (∃ t labels, tree.descend below = some t ∧
    (b.options.focus.insert locationLabel loc.sourceFile).LabelsAt h loc.topLevelDir
      loc.sourceFile labels ∧
    t.label = FocusItems.labelText labels ∧ locationLabel ∈ labels) ↔
      rules.matches (Path.ofPieces below) = false
  /-- No other node has this label. -/
  alone : ∀ p t, tree.descend p = some t → ∃ labels,
    (b.options.focus.insert locationLabel loc.sourceFile).LabelsAt h loc.topLevelDir
      (p.foldl Path.child loc.topLevelDir) labels ∧
    t.label = FocusItems.labelText labels ∧ (locationLabel ∈ labels ↔ p = below)

namespace ModuleLocation.StandsBelow

variable (hloc : loc.StandsBelow top below)
include hloc

theorem normalize_topLevelDir : h.normalize loc.topLevelDir = loc.topLevelDir := by
  rw [hloc.topLevelDir_eq, Host.normalize, Path.normalize_ofNames hloc.isName_top]

theorem foldl_child (hnames : ∀ s ∈ names, Path.IsName s) :
    names.foldl Path.child loc.topLevelDir = .ofNames (top ++ names) := by
  rw [hloc.topLevelDir_eq, Path.foldl_child_ofNames hloc.isName_top hnames]

theorem sourceFile_eq_foldl : loc.sourceFile = below.foldl Path.child loc.topLevelDir := by
  rw [hloc.foldl_child hloc.isName_below, hloc.sourceFile_eq]

theorem isName_sourceFile : ∀ s ∈ top ++ below, Path.IsName s :=
  List.forall_mem_append.mpr ⟨hloc.isName_top, hloc.isName_below⟩

/-! ## The item of the source file -/

theorem inside : FocusItems.Inside h loc.topLevelDir loc.sourceFile := by
  refine ⟨below, hloc.isName_below, ?_⟩
  rw [← hloc.sourceFile_eq_foldl, hloc.sourceFile_eq,
    FocusItems.target_ofNames hloc.isName_sourceFile]

/-- Nothing is refused if all other items point inside. -/
theorem outside?_eq_none {focus : FocusItems} (hfocus : ∀ item ∈ focus.items,
      item.1 ≠ locationLabel → FocusItems.Inside h loc.topLevelDir item.2) :
    (focus.insert locationLabel loc.sourceFile).outside? h loc.topLevelDir = none := by
  rw [hloc.topLevelDir_eq, FocusItems.outside?_eq_none_iff hloc.isName_top, ← hloc.topLevelDir_eq]
  rintro ⟨label, path⟩ hitem
  rcases FocusItems.mem_items_insert.mp hitem with ⟨-, rfl⟩ | ⟨hother, hitem⟩
  · exact hloc.inside
  · exact hfocus _ hitem hother

/-- The item of the source file is never refused. -/
theorem outside?_ne {focus : FocusItems} {path : Path} :
    (focus.insert locationLabel loc.sourceFile).outside? h loc.topLevelDir ≠
      some (locationLabel, path) := by
  intro hout
  rw [hloc.topLevelDir_eq] at hout
  obtain ⟨hitem, houtside, -⟩ := FocusItems.outside?_eq_some hloc.isName_top hout
  obtain rfl : path = loc.sourceFile := by
    simpa using FocusItems.mem_items_insert.mp hitem
  rw [← hloc.topLevelDir_eq] at houtside
  exact houtside hloc.inside

theorem projectTree_ne_outside (path root : Path) :
    b.projectTree h loc ≠ .error (.tree (.focusOutside locationLabel path root)) := by
  intro herror
  rcases bind_eq_error_iff.mp herror with herror | ⟨rules, -, herror⟩
  · obtain ⟨cause, -, hcause⟩ := mapError_eq_error_iff.mp herror
    cases hcause
  rcases bind_eq_error_iff.mp herror with herror | ⟨tree, -, herror⟩
  · obtain ⟨cause, hbuild, hcause⟩ := mapError_eq_error_iff.mp herror
    cases hcause
    rcases buildTree_eq_error hbuild with ⟨cause, -, hcause⟩ | ⟨label, path, hout, hcause⟩
    · cases hcause
    · cases hcause
      rw [hloc.normalize_topLevelDir] at hout
      exact hloc.outside?_ne hout
  · cases herror

/-! ## The node of the source file -/

/-- An existing source file is an entry below the directory whose tree is drawn. -/
theorem exists_entry (hfile : h.isFile loc.sourceFile = true)
    (hlinks : ∀ between, between <+: below → between ≠ [] → between ≠ below →
      h.isLink (between.foldl Path.child loc.topLevelDir) = false) :
    ∃ name entries x, h.files.lookup (h.normalize loc.topLevelDir) = .ok (.directory name entries) ∧
      (Entry.directory name entries).descend below = some x ∧ x.isDirectory = false := by
  rw [hloc.sourceFile_eq, Host.isFile, Host.path, Path.absolute_ofNames] at hfile
  rw [hloc.normalize_topLevelDir, hloc.topLevelDir_eq]
  refine FileSystem.exists_entry_below hloc.isName_top hloc.isName_below hloc.ne_nil hfile ?_
  intro between hbetween hne hproper
  have hlink := hlinks between hbetween hne hproper
  rwa [hloc.foldl_child fun s hs => hloc.isName_below s (hbetween.mem hs), Host.isLink, Host.path,
    Path.absolute_ofNames] at hlink

/-- Of the nodes of the tree, that of the source file alone is labelled as such. -/
theorem exists_labels {focus : FocusItems} {tree t : TreeNode}
    (hnames : ∀ s ∈ names, Path.IsName s)
    (htree : buildTree h loc.topLevelDir rules (focus.insert locationLabel loc.sourceFile)
      loc.treeDepth = .ok tree) (ht : tree.descend names = some t) :
    ∃ labels, (focus.insert locationLabel loc.sourceFile).LabelsAt h loc.topLevelDir
        (names.foldl Path.child loc.topLevelDir) labels ∧
      t.label = FocusItems.labelText labels ∧ (locationLabel ∈ labels ↔ names = below) := by
  obtain ⟨labels, hat, hlabel⟩ := FocusItems.exists_labelsAt h
    (focus.insert locationLabel loc.sourceFile) loc.topLevelDir
    (names.foldl Path.child loc.topLevelDir)
  refine ⟨labels, hat, ?_, ?_⟩
  · rw [label_of_buildTree htree ht, hloc.normalize_topLevelDir]
    exact hlabel
  · rw [hloc.foldl_child hnames, hloc.sourceFile_eq] at hat
    rw [hat.mem_insert_iff hloc.isName_sourceFile
      (List.forall_mem_append.mpr ⟨hloc.isName_top, hnames⟩), List.append_cancel_left_eq]

/-- Where the source file is in a tree that is built. -/
theorem exists_showsLocation (hfiles : h.files.isWellFormed = true)
    (hfile : h.isFile loc.sourceFile = true)
    (hlinks : ∀ between, between <+: below → between ≠ [] → between ≠ below →
      h.isLink (between.foldl Path.child loc.topLevelDir) = false)
    (hrules : IgnoreRuleSet.ofPatterns b.options.ignorePatterns = .ok rules)
    (hfocus : ∀ item ∈ b.options.focus.items, item.1 ≠ locationLabel →
      FocusItems.Inside h loc.topLevelDir item.2) :
    ∃ tree, b.ShowsLocation h loc rules below tree := by
  obtain ⟨name, entries, x, hroot, hx, hkind⟩ := hloc.exists_entry hfile hlinks
  have hwell := FileSystem.isWellFormed_lookup hfiles hroot
  have hinside := hloc.outside?_eq_none hfocus
  rw [← hloc.normalize_topLevelDir (h := h)] at hinside
  obtain ⟨tree, htree, hprunes⟩ : ∃ tree, buildTree h loc.topLevelDir rules
      (b.options.focus.insert locationLabel loc.sourceFile) loc.treeDepth = .ok tree ∧
      tree.Prunes rules loc.treeDepth (.directory name entries) :=
    exists_buildTree (IgnoreRuleSet.ofPatterns_plain hrules)
      (Entry.isWellFormed_directory.mp hwell) hroot hinside
  have hnode : (∃ t, tree.descend below = some t) ↔
      rules.matches (Path.ofPieces below) = false := by
    rw [hprunes.node below hloc.ne_nil]
    constructor
    · rintro (hvisible | ⟨⟨y, hy, hy'⟩, -⟩)
      · exact hvisible.kept
      · -- what stands there is no directory
        rw [hx] at hy
        cases hy
        rw [hkind] at hy'
        cases hy'
    · intro hkept
      exact .inl ⟨⟨x, hx, hkind⟩, hloc.within, hkept⟩
  refine ⟨tree, htree, ?_, ?_, ?_⟩
  · refine bind_eq_ok_iff.mpr ⟨rules, mapError_eq_ok_iff.mpr hrules, ?_⟩
    exact bind_eq_ok_iff.mpr ⟨tree, mapError_eq_ok_iff.mpr htree, rfl⟩
  · rw [← hnode]
    constructor
    · rintro ⟨t, -, ht, -⟩
      exact ⟨t, ht⟩
    · rintro ⟨t, ht⟩
      obtain ⟨labels, hat, hlabel, hmem⟩ := hloc.exists_labels hloc.isName_below htree ht
      rw [← hloc.sourceFile_eq_foldl] at hat
      exact ⟨t, labels, ht, hat, hlabel, hmem.mpr rfl⟩
  · intro p t ht
    obtain ⟨y, hy, -⟩ := hprunes.kind p t ht
    exact hloc.exists_labels (Entry.isWellFormed_descend hwell hy).2 htree ht

end ModuleLocation.StandsBelow

/-- A source file stands below the directory whose tree is drawn for it, right in it if the tree
only lists a directory. The item that points the file out is therefore never refused, and an item
of the caller under the same label has no effect. If the file exists, no directory on the way to it
is a link and the other items point inside, then a tree is drawn; in it the file has a node, with
the label and the only one with it, just if the rules do not ignore the path of the file. -/
theorem Bundler.projectTree_location (hloc : layout.locate h file = .ok loc) :
    ∃ below : List String, below ≠ [] ∧ (∀ s ∈ below, Path.IsName s) ∧
      loc.sourceFile = below.foldl Path.child loc.topLevelDir ∧
      (loc.treeDepth = some 1 → below.length = 1) ∧
      ∀ b : Bundler,
        (∀ path root,
          b.projectTree h loc ≠ .error (.tree (.focusOutside locationLabel path root))) ∧
        (∀ path, Bundler.projectTree { b with options :=
          { b.options with focus := b.options.focus.insert locationLabel path } } h loc =
          b.projectTree h loc) ∧
        ∀ rules, IgnoreRuleSet.ofPatterns b.options.ignorePatterns = .ok rules →
          h.files.isWellFormed = true → h.isFile loc.sourceFile = true →
          (∀ between, between <+: below → between ≠ [] → between ≠ below →
            h.isLink (between.foldl Path.child loc.topLevelDir) = false) →
          (∀ item ∈ b.options.focus.items, item.1 ≠ locationLabel →
            FocusItems.Inside h loc.topLevelDir item.2) →
          ∃ tree, b.ShowsLocation h loc rules below tree := by
  obtain ⟨top, below, hbelow⟩ := PackageLayout.exists_standsBelow hloc
  refine ⟨below, hbelow.ne_nil, hbelow.isName_below, hbelow.sourceFile_eq_foldl, ?_, ?_⟩
  · intro hlisted
    have hshort := hbelow.within 1 hlisted
    have hpos := List.length_pos_iff.mpr hbelow.ne_nil
    omega
  · intro b
    refine ⟨hbelow.projectTree_ne_outside, b.projectTree_insert h loc, ?_⟩
    intro rules hrules hfiles hfile hlinks hfocus
    exact hbelow.exists_showsLocation hfiles hfile hlinks hrules hfocus

/-- A module in a package of a package, and a link to its directory beside it. -/
def linkedHost : Host :=
  let marker : Entry := .file "__init__.py" ⟨#[]⟩ false
  { files := ⟨[.directory "src" [.directory "app" [marker,
      .directory "pkg" [marker, .file "mod.py" ⟨#[]⟩ false], .link "alias" ⟨"pkg"⟩]]]⟩ }

/-- An item that points at a package, and one under the label of the source file. -/
def pointedItems : FocusItems where
  items := [("API", ⟨"pkg"⟩), ("My Location", ⟨"/elsewhere"⟩)]
  ordered := by decide +kernel

theorem Bundler.projectTree_location_nested :
    let b : Bundler := { options := { focus := pointedItems } }
    let loc : ModuleLocation :=
      ⟨⟨"/src/app/pkg/mod.py"⟩, ⟨"/src"⟩, ⟨["app", "pkg", "mod"]⟩, false⟩
    ({} : PackageLayout).locate linkedHost ⟨"/src/app/pkg/mod.py"⟩ = .ok loc ∧
    ∃ tree t : TreeNode, ∃ labels, b.projectTree linkedHost loc = .ok tree.render ∧
      tree.descend ["pkg", "mod.py"] = some t ∧ t.label = FocusItems.labelText labels ∧
      locationLabel ∈ labels := by
  intro b loc
  have hloc : ({} : PackageLayout).locate linkedHost ⟨"/src/app/pkg/mod.py"⟩ = .ok loc :=
    eq_ok_of_toOption (by decide +kernel)
  obtain ⟨below, -, hnames, hsource, -, hshown⟩ := Bundler.projectTree_location hloc
  obtain rfl : below = ["pkg", "mod.py"] := by
    have htop : ∀ s ∈ ["src", "app"], Path.IsName s := by decide +kernel
    rw [show loc.topLevelDir = .ofNames ["src", "app"] by decide +kernel,
      Path.foldl_child_ofNames htop hnames] at hsource
    have hsame : ["src", "app"] ++ ["pkg", "mod.py"] = ["src", "app"] ++ below := by
      rw [← Path.names_ofNames (List.forall_mem_append.mpr ⟨htop, hnames⟩), ← hsource]
      decide +kernel
    exact (List.append_cancel_left hsame).symm
  obtain ⟨rules, hrules, hmatches⟩ := IgnoreRuleSet.standardRules
  obtain ⟨hkept, -⟩ : rules.matches ⟨"pkg/mod.py"⟩ = false ∧
      rules.matches ⟨"build/mod.py"⟩ = true := by simpa using hmatches
  have hlinks : ∀ between, between <+: ["pkg", "mod.py"] → between ≠ [] →
      between ≠ ["pkg", "mod.py"] →
      linkedHost.isLink (between.foldl Path.child loc.topLevelDir) = false := by
    intro between hbetween hne hproper
    obtain ⟨rest, rfl, hrest⟩ := (List.prefix_cons_iff.mp hbetween).resolve_left hne
    rcases List.prefix_cons_iff.mp hrest with rfl | ⟨more, rfl, hmore⟩
    · decide +kernel
    · obtain rfl := List.prefix_nil.mp hmore
      exact absurd rfl hproper
  have hfocus : ∀ item ∈ b.options.focus.items, item.1 ≠ locationLabel →
      FocusItems.Inside linkedHost loc.topLevelDir item.2 := by
    have htop : ∀ n ∈ ["src", "app"], Path.IsName n := by decide +kernel
    have hstarts : ∀ item ∈ b.options.focus.items, item.1 ≠ locationLabel →
        (FocusItems.target linkedHost (.ofNames ["src", "app"]) item.2).startsWith
          (.ofNames ["src", "app"]) = true := by decide +kernel
    intro item hitem hother
    rw [show loc.topLevelDir = .ofNames ["src", "app"] by decide +kernel]
    exact (FocusItems.startsWith_iff_inside htop).mp (hstarts item hitem hother)
  obtain ⟨tree, htree⟩ :=
    (hshown b).2.2 rules hrules (by decide +kernel) (by decide +kernel) hlinks hfocus
  obtain ⟨t, labels, ht, -, hlabel, hmem⟩ := htree.pointed.mpr hkept
  exact ⟨hloc, tree, t, labels, htree.drawn, ht, hlabel, hmem⟩

end ImportContext
