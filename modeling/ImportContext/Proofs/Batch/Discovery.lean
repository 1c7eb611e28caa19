import ImportContext.Proofs.Batch.Sources
import ImportContext.Proofs.Path.Order

/-!
# Discovery and the project tree

A batch walks its root and sorts what it found, and a project tree is put together from a walk of
its own. Both come to the same files: those that one question about their own path does not
ignore. A root that is written `-` is taken for no directory, so a batch finds nothing there,
although the tree shows the directory of that name.

Results:
* `mem_keptFilesOfAll`: the walk finds the regular files that are not ignored.
* `discoverSources_exact`: what is discovered, in which order, and how it stands in the tree and
  in the outcomes of a batch.
* `dash_not_discovered`: a directory whose files are in the tree and are not discovered.
-/

namespace ImportContext

open ImportContext.Path Entry

variable {rules : IgnoreRuleSet} {p : List String}

/-! ## What the walk finds -/

/-- A regular file. -/
def Entry.IsRegular (e : Entry) : Prop :=
  ∃ name bytes executable, e = .file name bytes executable

mutual

theorem mem_keptFiles (hplain : rules.Plain) (e : Entry) (h : e.isWellFormed = true)
    (above : List String) : p ∈ keptFiles rules above e ↔ ∃ q x, e.descend q = some x ∧
      x.IsRegular ∧ p = above ++ e.name :: q ∧ rules.matchesNames p false = false := by
  match e with
  | .file name bytes executable =>
    have hself : (Entry.file name bytes executable).descend [] =
        some (.file name bytes executable) := rfl
    rw [keptFiles]
    constructor
    · intro hp
      split at hp
      · cases hp
      · next hkept =>
        obtain rfl := List.mem_singleton.mp hp
        exact ⟨[], _, hself, ⟨_, _, _, rfl⟩, rfl, by simpa using hkept⟩
    · rintro ⟨q, x, hx, -, rfl, hkept⟩
      obtain rfl := descend_of_not_directory rfl hx
      rw [Entry.name] at hkept ⊢
      rw [if_neg (by simp [hkept])]
      exact List.mem_singleton_self _
  | .link name target =>
    rw [keptFiles]
    simp only [List.not_mem_nil, false_iff]
    rintro ⟨q, x, hx, ⟨_, _, _, rfl⟩, -⟩
    cases q with
    | nil => cases hx
    | cons n q => cases hx
  | .directory name entries =>
    rw [isWellFormed_directory] at h
    rw [keptFiles, Entry.name]
    split
    · next hignored =>
      -- what is below an ignored directory is ignored as well
      simp only [List.not_mem_nil, false_iff]
      rintro ⟨q, x, hx, ⟨_, _, _, rfl⟩, rfl, hkept⟩
      cases q with
      | nil => cases hx
      | cons n q =>
        have hbelow :=
          IgnoreRuleSet.matchesNames_append hplain (List.cons_ne_nil n q) hignored false
        rw [List.append_assoc, List.singleton_append, hkept] at hbelow
        cases hbelow
    · rw [mem_keptFilesOfAll hplain entries h]
      constructor
      · rintro ⟨e, he, q, x, hx, hregular, rfl, hkept⟩
        have hbelow : (Entry.directory name entries).descend (e.name :: q) = some x :=
          (descend_cons_eq_some_iff h).mpr ⟨e, he, rfl, hx⟩
        refine ⟨e.name :: q, x, hbelow, hregular, ?_, hkept⟩
        simp
      · rintro ⟨q, x, hx, hregular, rfl, hkept⟩
        cases q with
        | nil =>
          cases hx
          obtain ⟨_, _, _, hfile⟩ := hregular
          cases hfile
        | cons n q =>
          obtain ⟨e, he, rfl, hbelow⟩ := (descend_cons_eq_some_iff h).mp hx
          exact ⟨e, he, q, x, hbelow, hregular, by simp, hkept⟩

theorem mem_keptFilesOfAll (hplain : rules.Plain) (entries : List Entry)
    (h : allWellFormed entries = true) (above : List String) :
    p ∈ keptFilesOfAll rules above entries ↔ ∃ e ∈ entries, ∃ q x, e.descend q = some x ∧
      x.IsRegular ∧ p = above ++ e.name :: q ∧ rules.matchesNames p false = false := by
  match entries with
  | [] => simp [keptFilesOfAll]
  | e :: rest =>
    obtain ⟨-, he, -, hrest⟩ := allWellFormed_cons h
    rw [keptFilesOfAll, List.mem_append, mem_keptFiles hplain e he,
      mem_keptFilesOfAll hplain rest hrest]
    simp only [List.mem_cons, or_and_right, exists_or, exists_eq_left]

end

/-- A regular file below a directory that the rules keep, asked about by its own path, and that the
include set selects. -/
structure Entry.IsSource (rules : IgnoreRuleSet) (selected : IncludeSet) (top : Entry)
    (p : List String) : Prop where
  regular : ∃ x, top.descend p = some x ∧ x.IsRegular
  kept : rules.matches (ofPieces p) = false
  selects : selected.selects (ofPieces p) = true

section Found

variable {selected : IncludeSet} {top : Entry} {name : String} {entries : List Entry}

theorem Entry.IsRegular.isDirectory {x : Entry} (hx : x.IsRegular) : x.isDirectory = false := by
  obtain ⟨name, bytes, executable, rfl⟩ := hx
  rfl

theorem Entry.IsSource.isName (htop : top.isWellFormed = true)
    (hp : top.IsSource rules selected p) : ∀ n ∈ p, IsName n := by
  obtain ⟨x, hx, -⟩ := hp.regular
  exact (isWellFormed_descend htop hx).2

theorem Entry.IsSource.sourceAt (htop : (directory name entries).isWellFormed = true)
    (hp : (directory name entries).IsSource rules selected p) (root : Path) :
    SourceAt root (p.foldl child root) p := by
  refine ⟨?_, hp.isName htop, rfl⟩
  rintro rfl
  obtain ⟨x, hx, hregular⟩ := hp.regular
  cases hx
  exact absurd hregular.isDirectory (by simp [Entry.isDirectory])

/-- The walk and the include set leave the source files. -/
theorem mem_filter_keptFilesOfAll (hplain : rules.Plain) (h : allWellFormed entries = true) :
    p ∈ (keptFilesOfAll rules [] entries).filter (fun names => selected.selects (ofPieces names)) ↔
      (directory name entries).IsSource rules selected p := by
  have hmatches : ∀ x, (directory name entries).descend p = some x →
      rules.matches (ofPieces p) = rules.matchesNames p false := by
    intro x hx
    have hnames := (isWellFormed_descend (isWellFormed_directory.mpr h) hx).2
    rw [IgnoreRuleSet.matches, IgnoreRuleSet.matchesEntry, names_ofPieces hnames]
  rw [List.mem_filter, mem_keptFilesOfAll hplain entries h]
  constructor
  · rintro ⟨⟨e, he, q, x, hx, hregular, rfl, hkept⟩, hselected⟩
    have hbelow : (directory name entries).descend (e.name :: q) = some x :=
      (descend_cons_eq_some_iff h).mpr ⟨e, he, rfl, hx⟩
    exact ⟨⟨x, hbelow, hregular⟩, (hmatches x hbelow).trans hkept, hselected⟩
  · rintro ⟨⟨x, hx, hregular⟩, hkept, hselected⟩
    rw [hmatches x hx] at hkept
    refine ⟨?_, hselected⟩
    cases p with
    | nil =>
      cases hx
      exact absurd hregular.isDirectory (by simp [Entry.isDirectory])
    | cons n q =>
      obtain ⟨e, he, rfl, hbelow⟩ := (descend_cons_eq_some_iff h).mp hx
      exact ⟨e, he, q, x, hbelow, hregular, rfl, hkept⟩

end Found

/-! ## Order -/

/-- Paths that are all different, put in order, increase. -/
theorem pairwise_key_mergeSort {paths : List Path} (h : (paths.map Path.key).Nodup) :
    (paths.mergeSort Path.le).Pairwise fun p q => p.key < q.key := by
  have hsorted : (paths.mergeSort Path.le).Pairwise fun p q => p.le q = true := by
    refine List.pairwise_mergeSort ?_ ?_ paths
    · intro p q r hpq hqr
      exact (le_iff p r).mpr (((le_iff p q).mp hpq).trans ((le_iff q r).mp hqr))
    · intro p q
      rw [Bool.or_eq_true, le_iff, le_iff]
      exact le_total p.key q.key
  have hdistinct : ((paths.mergeSort Path.le).map Path.key).Nodup :=
    ((List.mergeSort_perm paths Path.le).map Path.key).nodup_iff.mpr h
  rw [List.Nodup, List.pairwise_map] at hdistinct
  exact hsorted.imp₂ (fun p q hle hne => lt_of_le_of_ne ((le_iff p q).mp hle) hne) hdistinct

/-! ## The discovered files -/

/-- What is discovered below a directory: its source files as names below it, in the order of their
paths. A root that is written `-` has none. -/
structure Discovers (h : Host) (root : Path) (rules : IgnoreRuleSet) (selected : IncludeSet)
    (top : Entry) (found : List (List String)) : Prop where
  sources : discoverSources h root rules selected = found.map fun p => p.foldl child root
  mem : ∀ p, p ∈ found ↔ root.same ⟨"-"⟩ = false ∧ top.IsSource rules selected p
  increasing : (discoverSources h root rules selected).Pairwise fun p q => p.key < q.key

section Discovery

variable {h : Host} {root : Path} {patterns : List String} {selected : IncludeSet} {name : String}
  {entries : List Entry} {found : List (List String)}

theorem exists_discovers (hplain : rules.Plain) (hfiles : h.files.isWellFormed = true)
    (hroot : h.files.lookup (h.path root) = .ok (.directory name entries)) :
    ∃ found, Discovers h root rules selected (.directory name entries) found := by
  by_cases hdash : root.same ⟨"-"⟩ = true
  · have hnone : discoverSources h root rules selected = [] := by
      rw [discoverSources, if_pos hdash]
    exact ⟨[], by rw [hnone, List.map_nil], by simp [hdash], by rw [hnone]; exact .nil⟩
  · have hdir : h.isDirectory root = true := by
      rw [Host.isDirectory, FileSystem.isDirectory, hroot]
    have htext := text_ne_empty_of_isDirectory hdir
    have hwell : allWellFormed entries = true :=
      isWellFormed_directory.mp (FileSystem.isWellFormed_lookup hfiles hroot)
    obtain ⟨walked, hwalked⟩ : ∃ walked, walked = (keptFilesOfAll rules [] entries).filter
        fun names => selected.selects (ofPieces names) := ⟨_, rfl⟩
    have hmem : ∀ p, p ∈ walked ↔ (Entry.directory name entries).IsSource rules selected p := by
      intro p
      rw [hwalked, mem_filter_keptFilesOfAll hplain hwell]
    have hsource : ∀ p ∈ walked, SourceAt root (p.foldl child root) p := fun p hp =>
      ((hmem p).mp hp).sourceAt (isWellFormed_directory.mpr hwell) root
    have hsources : discoverSources h root rules selected =
        (walked.map fun p => p.foldl child root).mergeSort Path.le := by
      rw [discoverSources, if_neg hdash, hroot, hwalked]
    have hback : ∀ p ∈ walked, (relativeTo root (p.foldl child root)).names = p := by
      intro p hp
      rw [relativeTo_sourceAt htext (hsource p hp), names_ofPieces (hsource p hp).isName]
    have hpath : ∀ path, path ∈ discoverSources h root rules selected ↔
        ∃ p ∈ walked, p.foldl child root = path := by
      intro path
      rw [hsources, List.mem_mergeSort, List.mem_map]
    -- the names are read off the sorted paths
    refine ⟨(discoverSources h root rules selected).map fun path => (relativeTo root path).names,
      ?_, ?_, ?_⟩
    · rw [List.map_map]
      refine (List.map_id _).symm.trans (List.map_congr_left fun path hfound => ?_)
      obtain ⟨p, hp, rfl⟩ := (hpath path).mp hfound
      rw [id, Function.comp_apply, hback p hp]
    · intro p
      rw [List.mem_map, and_iff_right (by simpa using hdash), ← hmem]
      constructor
      · rintro ⟨path, hfound, rfl⟩
        obtain ⟨p, hp, rfl⟩ := (hpath path).mp hfound
        rwa [hback p hp]
      · exact fun hp => ⟨_, (hpath _).mpr ⟨p, hp, rfl⟩, hback p hp⟩
    · rw [hsources]
      refine pairwise_key_mergeSort ?_
      have hnodup : walked.Nodup := hwalked ▸ (nodup_keptFilesOfAll entries hwell []).filter _
      rw [List.map_map]
      exact hnodup.map_on fun p hp q hq hkey =>
        eq_of_key_foldl_child htext (hsource p hp).isName (hsource q hq).isName hkey

end Discovery

/-! ## The leaves of the tree -/

/-- The leaves of a pruned tree are the entries that the rules keep. -/
theorem TreeNode.Prunes.leaf_iff {depth : Option Nat} {top : Entry} {tree : TreeNode}
    (hprunes : tree.Prunes rules depth top) (htop : top.isDirectory = true) :
    (∃ t, tree.descend p = some t ∧ t.isDirectory = false) ↔ top.Visible rules depth p := by
  have hself : top.descend [] = some top := by cases top <;> rfl
  constructor
  · rintro ⟨t, ht, hleaf⟩
    obtain ⟨x, hx, hkind⟩ := hprunes.kind p t ht
    rw [hleaf] at hkind
    have hp : p ≠ [] := by
      rintro rfl
      cases hself.symm.trans hx
      rw [htop] at hkind
      cases hkind
    rcases (hprunes.node p hp).mp ⟨t, ht⟩ with hvisible | ⟨⟨y, hy, hdirectory⟩, -⟩
    · exact hvisible
    · cases hx.symm.trans hy
      rw [hdirectory] at hkind
      cases hkind
  · intro hvisible
    obtain ⟨x, hx, hfile⟩ := hvisible.entry
    have hp : p ≠ [] := by
      rintro rfl
      cases hself.symm.trans hx
      rw [htop] at hfile
      cases hfile
    obtain ⟨t, ht⟩ := (hprunes.node p hp).mpr (.inl hvisible)
    obtain ⟨y, hy, hkind⟩ := hprunes.kind p t ht
    cases hx.symm.trans hy
    exact ⟨t, ht, hkind.symm.trans hfile⟩

/-- Source files are the regular files among the leaves that the include set selects. -/
theorem TreeNode.Prunes.isSource_iff {selected : IncludeSet} {top : Entry} {tree : TreeNode}
    (hprunes : tree.Prunes rules none top) (htop : top.isDirectory = true) :
    top.IsSource rules selected p ↔ (∃ t, tree.descend p = some t ∧ t.isDirectory = false) ∧
      (∃ x, top.descend p = some x ∧ x.IsRegular) ∧ selected.selects (ofPieces p) = true := by
  rw [hprunes.leaf_iff htop]
  constructor
  · rintro ⟨⟨x, hx, hregular⟩, hkept, hselects⟩
    exact ⟨⟨⟨x, hx, hregular.isDirectory⟩, by simp, hkept⟩, ⟨x, hx, hregular⟩, hselects⟩
  · rintro ⟨hvisible, hregular, hselects⟩
    exact ⟨hregular, hvisible.kept, hselects⟩

/-! ## The batch -/

/-- A file has one outcome, whatever becomes of it. -/
theorem path_processFile (b : Bundler) (root : Path) (outputDir : Option Path) (h : Host)
    (path : Path) : (processFile b root outputDir h path).1.path = relativeTo root path := by
  rw [processFile]
  split
  · rfl
  · split
    · rfl
    · dsimp only
      split
      · rfl
      · rfl

theorem map_path_processAll (b : Bundler) (root : Path) (outputDir : Option Path) (h : Host)
    (files : List Path) :
    (processAll b root outputDir h files).1.map (·.path) = files.map (relativeTo root) := by
  induction files generalizing h with
  | nil => rfl
  | cons path files ih =>
    rw [processAll, List.map_cons, List.map_cons, path_processFile, ih]

section Agreement

variable {h : Host} {root : Path} {patterns : List String} {selected : IncludeSet}
  {focus : FocusItems} {name : String} {entries : List Entry}

/-- What is discovered below a directory is what the rules keep and the include set selects of its
regular files, in strictly increasing order of the paths. These are the regular files among the
leaves of the project tree that the include set selects, and a batch has one outcome for each of
them, in this order. Nothing is discovered below a root that is written `-`. -/
theorem discoverSources_exact (hrules : IgnoreRuleSet.ofPatterns patterns = .ok rules)
    (hfiles : h.files.isWellFormed = true)
    (hroot : h.files.lookup (h.path root) = .ok (.directory name entries))
    (hsame : h.files.lookup (h.normalize root) = h.files.lookup (h.path root))
    (hfocus : focus.outside? h (h.normalize root) = none) :
    ∃ found tree, Discovers h root rules selected (.directory name entries) found ∧
      buildTree h root rules focus none = .ok tree ∧
      (∀ p, p ∈ found ↔ root.same ⟨"-"⟩ = false ∧
        (∃ t, tree.descend p = some t ∧ t.isDirectory = false) ∧
        (∃ x, (Entry.directory name entries).descend p = some x ∧ x.IsRegular) ∧
        selected.selects (ofPieces p) = true) ∧
      ∀ (b : Bundler) (options : BatchOptions),
        IgnoreRuleSet.ofPatterns b.options.ignorePatterns = .ok rules →
        IncludeSet.ofPatterns options.selection = .ok selected →
        ∃ outcomes after, runBatch b h root options = .ok (outcomes, after) ∧
          outcomes.map (·.path) = found.map ofPieces := by
  have hplain : rules.Plain := IgnoreRuleSet.ofPatterns_plain hrules
  have hdir : h.isDirectory root = true := by
    rw [Host.isDirectory, FileSystem.isDirectory, hroot]
  have htop := FileSystem.isWellFormed_lookup hfiles hroot
  have htext := text_ne_empty_of_isDirectory hdir
  obtain ⟨found, hfound⟩ : ∃ found,
      Discovers h root rules selected (.directory name entries) found :=
    exists_discovers hplain hfiles hroot
  obtain ⟨tree, htree, hprunes⟩ : ∃ tree, buildTree h root rules focus none = .ok tree ∧
      tree.Prunes rules none (.directory name entries) :=
    exists_buildTree hplain (isWellFormed_directory.mp htop) (hsame.trans hroot) hfocus
  refine ⟨found, tree, hfound, htree, ?_, ?_⟩
  · intro p
    rw [hfound.mem, hprunes.isSource_iff rfl]
  · intro b options hb hselected
    have hrun : runBatch b h root options =
        .ok (processAll b root options.outputDir h (discoverSources h root rules selected)) :=
      runBatch_eq_ok_iff.mpr ⟨_, ⟨hdir, rules, selected, hb, hselected, rfl⟩, rfl⟩
    refine ⟨_, _, hrun, ?_⟩
    rw [map_path_processAll, hfound.sources, List.map_map]
    refine List.map_congr_left fun p hp => ?_
    have hsource := ((hfound.mem p).mp hp).2
    rw [Function.comp_apply, relativeTo_sourceAt htext (hsource.sourceAt htop root)]

end Agreement

/-- Sources whose paths are in another order than their texts, and one among build output. -/
def listingEntries : List Entry :=
  [.file "pkg-old.py" "x = 1\n".toUTF8 false,
    .directory "pkg" [.file "mod.py" "y = 2\n".toUTF8 false],
    .directory "build" [.file "mod.py" "z = 3\n".toUTF8 false]]

/-- A host with these sources in a directory of the given name. -/
def listingHost (name : String) : Host where
  files := ⟨[.directory name listingEntries]⟩

theorem listingSelection : ∃ selected, IncludeSet.ofPatterns ["**/*.py"] = .ok selected ∧
    selected.selects (ofPieces ["pkg", "mod.py"]) = true :=
  exists_ok_of_any (by decide +kernel)

theorem discoverSources_exact_listing : ∃ rules selected found tree,
    IgnoreRuleSet.ofPatterns [] = .ok rules ∧ IncludeSet.ofPatterns ["**/*.py"] = .ok selected ∧
    Discovers (listingHost "src") ⟨"src"⟩ rules selected (.directory "src" listingEntries) found ∧
    buildTree (listingHost "src") ⟨"src"⟩ rules {} none = .ok tree ∧
    ["pkg", "mod.py"] ∈ found ∧
    (∃ t, tree.descend ["pkg", "mod.py"] = some t ∧ t.isDirectory = false) ∧
    ["build", "mod.py"] ∉ found := by
  obtain ⟨rules, hrules, hmatches⟩ := IgnoreRuleSet.standardRules
  obtain ⟨selected, hselected, hselects⟩ := listingSelection
  obtain ⟨hkept, hignored⟩ : rules.matches ⟨"pkg/mod.py"⟩ = false ∧
      rules.matches ⟨"build/mod.py"⟩ = true := by simpa using hmatches
  obtain ⟨found, tree, hfound, htree, hleaves, -⟩ :=
    @discoverSources_exact rules (listingHost "src") ⟨"src"⟩ [] selected {} "src" listingEntries
      hrules (by decide +kernel) rfl rfl rfl
  have hmem : ["pkg", "mod.py"] ∈ found :=
    (hfound.mem _).mpr ⟨rfl, ⟨_, rfl, _, _, _, rfl⟩, hkept, hselects⟩
  refine ⟨rules, selected, found, tree, hrules, hselected, hfound, htree, hmem,
    ((hleaves _).mp hmem).2.1, fun hbuild => ?_⟩
  have hkept' := ((hfound.mem _).mp hbuild).2.kept
  exact absurd (hignored.symm.trans hkept') (by simp)

/-- The directory is there, its file is a leaf of its tree that the include set selects, and
neither the discovery nor the batch finds it. -/
theorem dash_not_discovered : ∃ rules selected tree,
    IgnoreRuleSet.ofPatterns [] = .ok rules ∧ IncludeSet.ofPatterns ["**/*.py"] = .ok selected ∧
    (listingHost "-").files.isWellFormed = true ∧
    (listingHost "-").files.lookup ((listingHost "-").normalize ⟨"-"⟩) =
      .ok (.directory "-" listingEntries) ∧
    (listingHost "-").files.lookup ((listingHost "-").path ⟨"-"⟩) =
      .ok (.directory "-" listingEntries) ∧
    (Entry.directory "-" listingEntries).IsSource rules selected ["pkg", "mod.py"] ∧
    buildTree (listingHost "-") ⟨"-"⟩ rules {} none = .ok tree ∧
    (∃ t, tree.descend ["pkg", "mod.py"] = some t ∧ t.isDirectory = false) ∧
    discoverSources (listingHost "-") ⟨"-"⟩ rules selected = [] ∧
    runBatch {} (listingHost "-") ⟨"-"⟩ {} = .ok ([], listingHost "-") := by
  obtain ⟨rules, hrules, hmatches⟩ := IgnoreRuleSet.standardRules
  obtain ⟨selected, hselected, hselects⟩ := listingSelection
  have hkept : rules.matches ⟨"pkg/mod.py"⟩ = false := by
    simpa using (Bool.and_eq_true_iff.mp hmatches).1
  have hsource : (Entry.directory "-" listingEntries).IsSource rules selected ["pkg", "mod.py"] :=
    ⟨⟨_, rfl, _, _, _, rfl⟩, hkept, hselects⟩
  have hnone : discoverSources (listingHost "-") ⟨"-"⟩ rules selected = [] :=
    if_pos rfl
  have hwell : allWellFormed listingEntries = true := by decide +kernel
  obtain ⟨tree, htree, hprunes⟩ : ∃ tree, buildTree (listingHost "-") ⟨"-"⟩ rules {} none =
      .ok tree ∧ tree.Prunes rules none (.directory "-" listingEntries) :=
    exists_buildTree (IgnoreRuleSet.ofPatterns_plain hrules) hwell rfl rfl
  refine ⟨rules, selected, tree, hrules, hselected, by decide +kernel, rfl, rfl, hsource, htree,
    ((hprunes.isSource_iff rfl).mp hsource).1, hnone, ?_⟩
  exact runBatch_eq_ok_iff.mpr ⟨[], ⟨rfl, rules, selected, hrules, hselected, hnone.symm⟩, rfl⟩

end ImportContext
