import ImportContext.Batch.Run
import ImportContext.Proofs.Path.Below
import ImportContext.Proofs.Tree.Pruning
import Mathlib.Data.List.Nodup

/-!
# The discovered files

The files of a batch are below its root: each is told by the names that lead to it, each comes
once, and seen from the root its path is written from these names.

Results:
* `sourceAt_of_mem_discoverSources`: a discovered file is some names below the root.
* `nodup_discoverSources`: no file is discovered twice.
* `relativeTo_sourceAt`: the path of a discovered file as seen from the root.
* `runBatch_eq_ok_iff`: a batch goes over the discovered files.
-/

namespace ImportContext

open ImportContext.Path Entry

variable {rules : IgnoreRuleSet} {p : List String}

/-! ## The walk -/

mutual

/-- The files at or below an entry lead through its name. -/
theorem names_of_mem_keptFiles (e : Entry) (hname : IsName e.name) (h : e.isWellFormed = true)
    (above : List String) (hp : p ∈ keptFiles rules above e) :
    ∃ ns, p = above ++ e.name :: ns ∧ ∀ s ∈ e.name :: ns, IsName s := by
  match e with
  | .file name bytes executable =>
    rw [keptFiles] at hp
    split at hp
    · cases hp
    · exact ⟨[], List.mem_singleton.mp hp, by simpa using hname⟩
  | .link name target =>
    rw [keptFiles] at hp
    cases hp
  | .directory name entries =>
    rw [keptFiles] at hp
    split at hp
    · cases hp
    · obtain ⟨x, -, ns, rfl, hns⟩ :=
        names_of_mem_keptFilesOfAll entries (isWellFormed_directory.mp h) _ hp
      exact ⟨x.name :: ns, by simp [Entry.name], List.forall_mem_cons.mpr ⟨hname, hns⟩⟩

theorem names_of_mem_keptFilesOfAll (entries : List Entry) (h : allWellFormed entries = true)
    (above : List String) (hp : p ∈ keptFilesOfAll rules above entries) :
    ∃ e ∈ entries, ∃ ns, p = above ++ e.name :: ns ∧ ∀ s ∈ e.name :: ns, IsName s := by
  match entries with
  | [] =>
    rw [keptFilesOfAll] at hp
    cases hp
  | e :: rest =>
    obtain ⟨hname, he, -, hrest⟩ := allWellFormed_cons h
    rw [keptFilesOfAll] at hp
    rcases List.mem_append.mp hp with hp | hp
    · exact ⟨e, List.mem_cons_self, names_of_mem_keptFiles e hname he above hp⟩
    · obtain ⟨x, hx, hns⟩ := names_of_mem_keptFilesOfAll rest hrest above hp
      exact ⟨x, List.mem_cons_of_mem _ hx, hns⟩

end

mutual

theorem nodup_keptFiles (e : Entry) (h : e.isWellFormed = true) (above : List String) :
    (keptFiles rules above e).Nodup := by
  match e with
  | .file name bytes executable =>
    rw [keptFiles]
    split
    · exact List.nodup_nil
    · exact List.nodup_singleton _
  | .link name target =>
    rw [keptFiles]
    exact List.nodup_nil
  | .directory name entries =>
    rw [keptFiles]
    split
    · exact List.nodup_nil
    · exact nodup_keptFilesOfAll entries (isWellFormed_directory.mp h) _

theorem nodup_keptFilesOfAll (entries : List Entry) (h : allWellFormed entries = true)
    (above : List String) : (keptFilesOfAll rules above entries).Nodup := by
  match entries with
  | [] =>
    rw [keptFilesOfAll]
    exact List.nodup_nil
  | e :: rest =>
    obtain ⟨hname, he, hdistinct, hrest⟩ := allWellFormed_cons h
    rw [keptFilesOfAll]
    refine (nodup_keptFiles e he above).append (nodup_keptFilesOfAll rest hrest above) ?_
    -- the files of two entries differ in the name that follows
    intro p hp hp'
    obtain ⟨ns, rfl, -⟩ := names_of_mem_keptFiles e hname he above hp
    obtain ⟨x, hx, ns', heq, -⟩ := names_of_mem_keptFilesOfAll rest hrest above hp'
    exact hdistinct x hx (List.cons.inj (List.append_cancel_left heq)).1.symm

end

/-! ## The batch -/

/-- A path leads through names to a file below a root. -/
structure SourceAt (root path : Path) (names : List String) : Prop where
  ne_nil : names ≠ []
  isName : ∀ s ∈ names, IsName s
  path_eq : path = names.foldl child root

variable {h : Host} {root path : Path} {selected : IncludeSet} {names : List String}

theorem text_ne_empty_of_isDirectory (hdir : h.isDirectory root = true) : root.text ≠ "" := by
  intro hempty
  rw [Host.isDirectory, Host.path, absolute, if_pos (by simpa using hempty), FileSystem.isDirectory,
    FileSystem.lookup, FileSystem.resolve, if_pos (by simpa using hempty)] at hdir
  cases hdir

/-- The files of a batch are found below its root. -/
theorem exists_discoverSources (rules : IgnoreRuleSet) (selected : IncludeSet)
    (hdir : h.isDirectory root = true) :
    ∃ name entries, h.files.lookup (h.path root) = .ok (.directory name entries) ∧
      (root.same ⟨"-"⟩ = true ∧ discoverSources h root rules selected = [] ∨
        discoverSources h root rules selected =
          (((keptFilesOfAll rules [] entries).filter fun names =>
            selected.selects (ofPieces names)).map fun names =>
              names.foldl child root).mergeSort Path.le) := by
  rw [Host.isDirectory, FileSystem.isDirectory] at hdir
  split at hdir
  · next name entries hlookup =>
    refine ⟨name, entries, hlookup, ?_⟩
    rw [discoverSources]
    split
    · next hdash => exact .inl ⟨hdash, rfl⟩
    · rw [hlookup]
      exact .inr rfl
  · cases hdir

theorem sourceAt_foldl_child {entries : List Entry} (hwell : allWellFormed entries = true)
    (hnames : names ∈ keptFilesOfAll rules [] entries) :
    SourceAt root (names.foldl child root) names := by
  obtain ⟨e, -, ns, rfl, hns⟩ := names_of_mem_keptFilesOfAll entries hwell [] hnames
  exact ⟨List.cons_ne_nil _ _, hns, rfl⟩

/-- A discovered file is some names below the root. -/
theorem sourceAt_of_mem_discoverSources (hfs : h.files.isWellFormed = true)
    (hdir : h.isDirectory root = true) (hpath : path ∈ discoverSources h root rules selected) :
    ∃ names, SourceAt root path names := by
  obtain ⟨name, entries, hlookup, ⟨-, hsources⟩ | hsources⟩ :=
    exists_discoverSources rules selected hdir
  · rw [hsources] at hpath
    cases hpath
  · rw [hsources, List.mem_mergeSort] at hpath
    obtain ⟨names, hnames, rfl⟩ := List.mem_map.mp hpath
    have hwell := isWellFormed_directory.mp (FileSystem.isWellFormed_lookup hfs hlookup)
    exact ⟨names, sourceAt_foldl_child hwell (List.mem_filter.mp hnames).1⟩

theorem relativeTo_sourceAt (hroot : root.text ≠ "") (hs : SourceAt root path names) :
    relativeTo root path = ofPieces names := by
  rw [relativeTo, hs.path_eq, stripBase?_foldl_child hroot hs.ne_nil hs.isName, Option.getD_some]

/-- The names of a file below a root are told by its path. -/
theorem SourceAt.unique {names' : List String} (hroot : root.text ≠ "")
    (hs : SourceAt root path names) (hs' : SourceAt root path names') : names = names' := by
  have heq := (relativeTo_sourceAt hroot hs).symm.trans (relativeTo_sourceAt hroot hs')
  have hnames := congrArg Path.names heq
  rwa [names_ofPieces hs.isName, names_ofPieces hs'.isName] at hnames

/-- No file is discovered twice. -/
theorem nodup_discoverSources (hfs : h.files.isWellFormed = true)
    (hdir : h.isDirectory root = true) : (discoverSources h root rules selected).Nodup := by
  have hroot := text_ne_empty_of_isDirectory hdir
  obtain ⟨name, entries, hlookup, ⟨-, hsources⟩ | hsources⟩ :=
    exists_discoverSources rules selected hdir
  · rw [hsources]
    exact List.nodup_nil
  · have hwell := isWellFormed_directory.mp (FileSystem.isWellFormed_lookup hfs hlookup)
    rw [hsources, (List.mergeSort_perm _ _).nodup_iff]
    refine List.Nodup.map_on ?_ ((nodup_keptFilesOfAll entries hwell []).filter _)
    intro names hnames names' hnames' heq
    have hs : SourceAt root (names.foldl child root) names :=
      sourceAt_foldl_child hwell (List.mem_filter.mp hnames).1
    have hs' : SourceAt root (names'.foldl child root) names' :=
      sourceAt_foldl_child hwell (List.mem_filter.mp hnames').1
    exact hs.unique hroot (heq ▸ hs')

/-! ## Batches -/

/-- A batch bundles these files, in this order. -/
structure BatchFiles (b : Bundler) (h : Host) (root : Path) (options : BatchOptions)
    (files : List Path) : Prop where
  isDirectory : h.isDirectory root = true
  found : ∃ rules selected, IgnoreRuleSet.ofPatterns b.options.ignorePatterns = .ok rules ∧
    IncludeSet.ofPatterns options.selection = .ok selected ∧
    files = discoverSources h root rules selected

theorem runBatch_eq_ok_iff {b : Bundler} {options : BatchOptions}
    {result : List FileOutcome × Host} : runBatch b h root options = .ok result ↔
      ∃ files, BatchFiles b h root options files ∧
        processAll b root options.outputDir h files = result := by
  rw [runBatch]
  split
  · next hdir =>
    simp only [reduceCtorEq, false_iff]
    rintro ⟨files, hfiles, -⟩
    rw [hfiles.isDirectory] at hdir
    cases hdir
  · next hdir =>
    rw [bind_eq_ok_iff]
    constructor
    · rintro ⟨rules, hrules, hrun⟩
      obtain ⟨selected, hselected, hrun⟩ := bind_eq_ok_iff.mp hrun
      exact ⟨_, ⟨by simpa using hdir, rules, selected, mapError_eq_ok_iff.mp hrules,
        mapError_eq_ok_iff.mp hselected, rfl⟩, Except.ok.inj hrun⟩
    · rintro ⟨files, ⟨-, rules, selected, hrules, hselected, rfl⟩, rfl⟩
      exact ⟨rules, mapError_eq_ok_iff.mpr hrules,
        bind_eq_ok_iff.mpr ⟨selected, mapError_eq_ok_iff.mpr hselected, rfl⟩⟩

section Files

variable {b : Bundler} {options : BatchOptions} {files : List Path}

/-- Files that are found in the order of their paths. -/
theorem batchFiles_of_sorted {rules : IgnoreRuleSet} {name : String} {entries : List Entry}
    {found : List (List String)} (hdash : root.same ⟨"-"⟩ = false)
    (hlookup : h.files.lookup (h.path root) = .ok (.directory name entries))
    (hrules : IgnoreRuleSet.ofPatterns b.options.ignorePatterns = .ok rules)
    (hkept : keptFilesOfAll rules [] entries = found)
    (hfound : (IncludeSet.ofPatterns options.selection).toOption.any (fun selected =>
      decide ((found.filter fun names => selected.selects (ofPieces names)).map
        (fun names => names.foldl child root) = files)) = true)
    (hsorted : files.Pairwise fun p q => p.le q = true) : BatchFiles b h root options files := by
  obtain ⟨selected, hselected, hfound⟩ := exists_ok_of_any hfound
  refine ⟨?_, rules, selected, hrules, hselected, ?_⟩
  · rw [Host.isDirectory, FileSystem.isDirectory, hlookup]
  · rw [discoverSources, if_neg (by simp [hdash]), hlookup]
    simp only [hkept, of_decide_eq_true hfound]
    exact (List.mergeSort_of_pairwise hsorted).symm

theorem BatchFiles.sourceAt (hfs : h.files.isWellFormed = true)
    (hfiles : BatchFiles b h root options files) (hpath : path ∈ files) :
    ∃ names, SourceAt root path names := by
  obtain ⟨hdir, rules, selected, -, -, rfl⟩ := hfiles
  exact sourceAt_of_mem_discoverSources hfs hdir hpath

theorem BatchFiles.nodup (hfs : h.files.isWellFormed = true)
    (hfiles : BatchFiles b h root options files) : files.Nodup := by
  obtain ⟨hdir, rules, selected, -, -, rfl⟩ := hfiles
  exact nodup_discoverSources hfs hdir

end Files

end ImportContext
