import ImportContext.Proofs.FileSystem.Views

/-!
# From a directory down to a file

Where a path leads to a file, the path without its last names leads to a directory. The file is
found again by going down from there, entry by entry, unless a link stands in between.

Results:
* `isLink_of_node`: a link that stands behind a directory is one when it is asked for by its path.
* `exists_node_below`, `exists_entry_below`: a file is found by going down, past directories that
  are no links.
-/

namespace ImportContext

open ImportContext.Path

namespace FileSystem

variable {fs : FileSystem} {dir names root below u : List String}

/-! ## Links -/

/-- A link stands at the end of a path. -/
def isLink (fs : FileSystem) (p : Path) : Bool :=
  match fs.resolve false p with
  | .ok names =>
    match fs.node? names with
    | some (.link _) => true
    | _ => false
  | .error _ => false

theorem pieces_ofNames_append (hroot : ∀ s ∈ root, IsName s) (hu : ∀ s ∈ u, IsName s)
    (hne : u ≠ []) : (ofNames (root ++ u)).pieces = ("" :: root) ++ u := by
  have hslash : ∀ s ∈ root ++ u, '/' ∉ s.toList := fun s hs =>
    ((List.mem_append.mp hs).elim (hroot s) (hu s)).2.2.2
  rw [pieces_ofNames, pieces_ofPieces (by simp [hne]) hslash, List.cons_append]

theorem resolve_ofNames (follow : Bool) (ns : List String) :
    fs.resolve follow (ofNames ns) = fs.walk follow false maxLinks [] (ofNames ns).pieces := by
  refine if_neg ?_
  intro hempty
  have habsolute := isAbsolute_ofNames ns
  rw [show ofNames ns = ⟨""⟩ from congrArg Path.mk (beq_iff_eq.mp hempty)] at habsolute
  cases habsolute

section Below

variable (hroot : ∀ s ∈ root, IsName s) (hleads : Leads fs dir maxLinks [] ("" :: root))
include hroot hleads

/-- A link that stands behind a directory is one when it is asked for by its path. -/
theorem isLink_of_node (hu : ∀ s ∈ u, IsName s) {target : Path}
    (hlink : fs.node? (dir ++ u) = some (.link target)) :
    fs.isLink (ofNames (root ++ u)) = true := by
  cases u using List.reverseRecOn with
  | nil =>
    rw [List.append_nil, hleads.directory] at hlink
    cases hlink
  | append_singleton v m =>
    rw [← List.append_assoc] at hlink
    have hm : IsName m := hu m (by simp)
    have hv : ∀ s ∈ v, IsName s := fun s hs => hu s (List.mem_append_left _ hs)
    have hdirectory : fs.node? (dir ++ v) = some .directory := node?_parent hlink
    -- above the link stand directories only
    have hclear : fs.Clear dir v := by
      rintro w ⟨t, rfl⟩ target' hlink'
      rw [← List.append_assoc] at hdirectory
      by_cases ht : t = []
      · rw [ht, List.append_nil, hlink'] at hdirectory
        cases hdirectory
      · rw [node?_of_append hdirectory ht] at hlink'
        cases hlink'
    obtain ⟨n, hn⟩ := hleads.walk_append
    have hgo := walk_append_of_node false false n [m] hv hclear hdirectory
    have hresolve : fs.resolve false (ofNames (root ++ (v ++ [m]))) = .ok (dir ++ v ++ [m]) := by
      rw [resolve_ofNames, pieces_ofNames_append hroot hu (by simp), hn _ _ _ (by simp), hgo,
        walk_name hdirectory (isIdle_of_isName hm) hm.2.2.1, hlink]
      rfl
    rw [isLink, hresolve]
    simp only [hlink]

theorem openWay_ofNames (hbelow : ∀ s ∈ below, IsName s) (hclear : fs.Clear dir below) :
    OpenWay fs (ofNames (root ++ below)) root dir below := by
  have hall : ∀ s ∈ root ++ below, IsName s := List.forall_mem_append.mpr ⟨hroot, hbelow⟩
  have hpieces : dropIdle (ofNames (root ++ below)).pieces = root ++ below := by
    rw [pieces_ofNames, dropIdle_cons_idle (by decide)]
    by_cases hnil : root ++ below = []
    · rw [hnil]
      rfl
    · rw [pieces_ofPieces hnil fun s hs => (hall s hs).2.2.2, dropIdle_of_isName hall]
  refine ⟨⟨isAbsolute_ofNames _, hpieces, hbelow, ?_⟩, ?_, hclear⟩
  · rintro ns m rfl
    refine ⟨("" :: root) ++ ns, ?_⟩
    rw [pieces_ofNames_append hroot hbelow (by simp), List.append_assoc]
  · refine hleads.of_dropIdle_eq ?_
    rw [dropIdle_cons_idle (by decide)]

/-- The path of a directory is found to be that directory. -/
theorem lookup_ofNames {e : Entry} (hdir : fs.entry? dir = some e) :
    fs.lookup (ofNames root) = .ok e := by
  have hself : fs.node? (dir ++ []) = some .directory := by
    rw [List.append_nil, hleads.directory]
  have hclear : fs.Clear dir [] := by
    intro u hu target hlink
    rw [List.prefix_nil.mp hu, hself] at hlink
    cases hlink
  have hway := openWay_ofNames hroot hleads (List.forall_mem_nil _) hclear
  have hresolve := hway.resolve_node hself
  rw [List.append_nil, List.append_nil] at hresolve
  rw [lookup, hresolve]
  simp only [bind, Except.bind, hdir]

/-- Between a directory and a file no link stands on the way if none does by its path. -/
theorem clear_of_isLink (hbelow : ∀ s ∈ below, IsName s)
    (hlinks : ∀ u, u <+: below → u ≠ [] → u ≠ below → fs.isLink (ofNames (root ++ u)) = false)
    (hlast : ∀ target, fs.node? (dir ++ below) ≠ some (.link target)) : fs.Clear dir below := by
  intro u hu target hlink
  by_cases hnil : u = []
  · rw [hnil, List.append_nil, hleads.directory] at hlink
    cases hlink
  · by_cases hall : u = below
    · exact hlast target (hall ▸ hlink)
    · have hnames : ∀ s ∈ u, IsName s := fun s hs => hbelow s (hu.mem hs)
      have hlinked := isLink_of_node hroot hleads hnames hlink
      rw [hlinks u hu hnil hall] at hlinked
      cases hlinked

/-- Where names lead to a file, a file or a link stands behind them. -/
theorem exists_node_below (hbelow : ∀ s ∈ below, IsName s)
    (hlinks : ∀ u, u <+: below → u ≠ [] → u ≠ below → fs.isLink (ofNames (root ++ u)) = false)
    {k : Node} (hresolve : fs.resolve true (ofNames (root ++ below)) = .ok names)
    (hnode : fs.node? names = some k) (hkind : k ≠ .directory) :
    ∃ k', fs.node? (dir ++ below) = some k' ∧ k' ≠ .directory := by
  by_cases hlast : ∃ target, fs.node? (dir ++ below) = some (.link target)
  · obtain ⟨target, hlast⟩ := hlast
    exact ⟨_, hlast, by simp⟩
  · have hclear := clear_of_isLink hroot hleads hbelow hlinks (not_exists.mp hlast)
    have hway := openWay_ofNames hroot hleads hbelow hclear
    rcases way_cases hleads.directory hclear with
      ⟨k', hk'⟩ | ⟨u, m, v, rfl, hu, hm⟩ | ⟨u, v, bytes, executable, rfl, hv, hu⟩
    · rw [hway.resolve_node hk'] at hresolve
      cases hresolve
      exact ⟨k, hnode, hkind⟩
    · rw [hway.resolve_missing hu hm] at hresolve
      cases hresolve
    · rw [hway.resolve_file hv hu] at hresolve
      cases hresolve

end Below

theorem exists_of_isFile {p : Path} (hfile : fs.isFile p = true) :
    ∃ names k, fs.resolve true p = .ok names ∧ fs.node? names = some k ∧ k ≠ .directory := by
  rw [isFile] at hfile
  split at hfile
  · next name bytes executable hlookup =>
    obtain ⟨names, hresolve, hentry⟩ := bind_eq_ok_iff.mp hlookup
    refine ⟨names, .file bytes executable, hresolve, ?_, by simp⟩
    split at hentry
    · next e he =>
      cases hentry
      rw [node?, he]
      rfl
    · cases hentry
  · cases hfile

/-- A file is found by going down from a directory, past directories that are no links. -/
theorem exists_entry_below (hroot : ∀ s ∈ root, IsName s) (hbelow : ∀ s ∈ below, IsName s)
    (hne : below ≠ []) (hfile : fs.isFile (ofNames (root ++ below)) = true)
    (hlinks : ∀ u, u <+: below → u ≠ [] → u ≠ below →
      fs.isLink (ofNames (root ++ u)) = false) :
    ∃ name entries x, fs.lookup (ofNames root) = .ok (.directory name entries) ∧
      (Entry.directory name entries).descend below = some x ∧ x.isDirectory = false := by
  obtain ⟨names, k, hresolve, hnode, hkind⟩ := exists_of_isFile hfile
  obtain ⟨dir, hleads⟩ : ∃ dir, Leads fs dir maxLinks [] ("" :: root) := by
    rw [resolve_ofNames, pieces_ofNames_append hroot hbelow hne] at hresolve
    exact exists_leads_of_append hne hresolve
  obtain ⟨k', hk', hkind'⟩ :=
    exists_node_below hroot hleads hbelow hlinks hresolve hnode hkind
  obtain ⟨name, entries, hdir⟩ := exists_directory hleads.directory
  rw [node?, entry?_append, hdir, Option.bind_some] at hk'
  obtain ⟨x, hx, rfl⟩ := Option.map_eq_some_iff.mp hk'
  refine ⟨name, entries, x, lookup_ofNames hroot hleads hdir, hx, ?_⟩
  cases x with
  | file name bytes executable => rfl
  | link name target => rfl
  | directory name children => exact absurd rfl hkind'

end FileSystem

/-- A link stands at the end of a path. -/
def Host.isLink (h : Host) (p : Path) : Bool :=
  h.files.isLink (h.path p)

end ImportContext
