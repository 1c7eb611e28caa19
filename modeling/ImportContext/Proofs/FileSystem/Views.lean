import ImportContext.Proofs.FileSystem.Creating

/-!
# What is seen below a directory

Where no links stand below a directory, the paths that go on from it by names see nothing else of
the file system. So what is written aside of the directory is not seen by them.

Results:
* `OpenWay.lookup_congr`: what an open way leads to depends on the directory that it starts from.
* `Host.agree_of_spares`: roots that are aside of a place do not see what is written there.
-/

namespace ImportContext

/-! ## Entries without links -/

mutual

/-- Neither an entry nor anything below it is a link. -/
def Entry.isLinkless (e : Entry) : Bool :=
  match e with
  | .file _ _ _ => true
  | .link _ _ => false
  | .directory _ children => allLinkless children

/-- Neither the entries of a directory nor those below them are links. -/
def Entry.allLinkless (entries : List Entry) : Bool :=
  match entries with
  | [] => true
  | e :: rest => e.isLinkless && allLinkless rest

end

namespace Entry

theorem isLinkless_of_mem {entries : List Entry} {e : Entry} (h : allLinkless entries = true)
    (he : e ∈ entries) : e.isLinkless = true := by
  induction entries with
  | nil => cases he
  | cons first rest ih =>
    rw [allLinkless, Bool.and_eq_true] at h
    rcases List.mem_cons.mp he with rfl | he
    · exact h.1
    · exact ih h.2 he

theorem isLinkless_descend {e e' : Entry} {q : List String} (h : e.isLinkless = true)
    (hq : e.descend q = some e') : e'.isLinkless = true := by
  induction q generalizing e with
  | nil =>
    rw [descend] at hq
    cases hq
    exact h
  | cons n q ih =>
    cases e with
    | file name bytes executable => cases hq
    | link name target => cases hq
    | directory name children =>
      rw [descend] at hq
      cases hfound : find? children n with
      | none => simp [hfound] at hq
      | some next =>
        simp only [hfound] at hq
        rw [isLinkless] at h
        exact ih (isLinkless_of_mem h (List.mem_of_find?_eq_some hfound)) hq

end Entry

namespace FileSystem

variable {fs fs' : FileSystem} {p : Path} {before dir t : List String}

theorem entry?_append (fs : FileSystem) (q u : List String) :
    fs.entry? (q ++ u) = (fs.entry? q).bind fun e => e.descend u :=
  Entry.descend_append fs.root q u

theorem node?_append_congr (h : fs'.entry? dir = fs.entry? dir) (u : List String) :
    fs'.node? (dir ++ u) = fs.node? (dir ++ u) := by
  rw [node?, node?, entry?_append, entry?_append, h]

theorem clear_of_isLinkless {e : Entry} (h : fs.entry? dir = some e) (he : e.isLinkless = true)
    (names : List String) : fs.Clear dir names := by
  intro u _ target hlink
  rw [node?, entry?_append, h, Option.bind_some] at hlink
  obtain ⟨e', he', hnode⟩ := Option.map_eq_some_iff.mp hlink
  have hless := Entry.isLinkless_descend he he'
  cases e' with
  | file name bytes executable => cases hnode
  | link name target => cases hless
  | directory name children => cases hnode

/-- What an open way leads to depends on the directory that it starts from. -/
theorem OpenWay.lookup_congr (hp : OpenWay fs p before dir t) (hext : fs.Extends fs')
    (hsame : fs'.entry? dir = fs.entry? dir) : fs'.lookup p = fs.lookup p := by
  have hp' : OpenWay fs' p before dir t := by
    refine hp.mono hext fun u hu target => ?_
    rw [node?_append_congr hsame]
    exact hp.clear u hu target
  rcases way_cases hp.leads.directory hp.clear with
    ⟨k, hk⟩ | ⟨u, m, v, rfl, hu, hm⟩ | ⟨u, v, bytes, executable, rfl, hv, hfile⟩
  · have hk' : fs'.node? (dir ++ t) = some k := by rw [node?_append_congr hsame, hk]
    rw [lookup, lookup, hp.resolve_node hk, hp'.resolve_node hk']
    simp only [bind, Except.bind, entry?_append, hsame]
  · have hu' : fs'.node? (dir ++ u) = some .directory := by rw [node?_append_congr hsame, hu]
    have hm' : fs'.node? (dir ++ u ++ [m]) = none := by
      rw [List.append_assoc, node?_append_congr hsame, ← List.append_assoc, hm]
    rw [lookup, lookup, hp.resolve_missing hu hm, hp'.resolve_missing hu' hm']
    rfl
  · have hfile' : fs'.node? (dir ++ u) = some (.file bytes executable) := by
      rw [node?_append_congr hsame, hfile]
    rw [lookup, lookup, hp.resolve_file hv hfile, hp'.resolve_file hv hfile']
    rfl

end FileSystem

/-! ## Hosts -/

namespace Host

open FileSystem

variable {h s : Host} {root : Path} {roots roots' : List Path} {place names : List String}

section Lookup

variable {p : Path} (hp : s.files.lookup (s.path p) = h.files.lookup (h.path p))
include hp

theorem isFile_congr : s.isFile p = h.isFile p := by
  rw [Host.isFile, Host.isFile, FileSystem.isFile, FileSystem.isFile, hp]

theorem isDirectory_congr : s.isDirectory p = h.isDirectory p := by
  rw [Host.isDirectory, Host.isDirectory, FileSystem.isDirectory, FileSystem.isDirectory, hp]

theorem readText_congr : s.readText p = h.readText p := by
  rw [Host.readText, Host.readText, FileSystem.readText, FileSystem.readText,
    FileSystem.readBytes, FileSystem.readBytes, hp]

end Lookup

/-- Two hosts show the same below some roots. -/
structure Agree (roots : List Path) (h s : Host) : Prop where
  cwd : s.cwd = h.cwd
  lookup : ∀ root ∈ roots, ∀ names : List String, (∀ n ∈ names, Path.IsName n) →
    s.files.lookup (s.path (names.foldl Path.child root)) =
      h.files.lookup (h.path (names.foldl Path.child root))

namespace Agree

theorem mono (ha : Agree roots h s) (hsub : roots' ⊆ roots) : Agree roots' h s :=
  ⟨ha.cwd, fun root hroot => ha.lookup root (hsub hroot)⟩

theorem normalize (ha : Agree roots h s) (p : Path) : s.normalize p = h.normalize p := by
  rw [Host.normalize, Host.normalize, ha.cwd]

theorem isFile (ha : Agree roots h s) (hroot : root ∈ roots)
    (hnames : ∀ n ∈ names, Path.IsName n) :
    s.isFile (names.foldl Path.child root) = h.isFile (names.foldl Path.child root) :=
  isFile_congr (ha.lookup root hroot names hnames)

theorem isDirectory (ha : Agree roots h s) (hroot : root ∈ roots)
    (hnames : ∀ n ∈ names, Path.IsName n) :
    s.isDirectory (names.foldl Path.child root) =
      h.isDirectory (names.foldl Path.child root) :=
  isDirectory_congr (ha.lookup root hroot names hnames)

theorem readText (ha : Agree roots h s) (hroot : root ∈ roots)
    (hnames : ∀ n ∈ names, Path.IsName n) :
    s.readText (names.foldl Path.child root) = h.readText (names.foldl Path.child root) :=
  readText_congr (ha.lookup root hroot names hnames)

end Agree

/-- A path leads to a directory aside of a place, with no links below it. -/
def Aside (h : Host) (place : List String) (root : Path) : Prop :=
  ∃ dir name children, h.files.resolve true (h.path root) = .ok dir ∧
    h.files.entry? dir = some (.directory name children) ∧
    (Entry.directory name children).isLinkless = true ∧ ¬ place <+: dir ∧ ¬ dir <+: place

/-- Roots that are aside of a place do not see what is written there. -/
theorem agree_of_spares (habsolute : h.cwd.isAbsolute = true) (hcwd : s.cwd = h.cwd)
    (hext : h.files.Extends s.files) (hspares : Spares place h.files s.files)
    (hroots : ∀ root ∈ roots, h.Aside place root) : Agree roots h s := by
  refine ⟨hcwd, fun root hroot names hnames => ?_⟩
  obtain ⟨dir, name, children, hresolve, hentry, hlinkless, hbelow, habove⟩ := hroots root hroot
  have htext : root.text ≠ "" := by
    intro hempty
    rw [Host.path, Path.absolute, if_pos (by simpa using hempty), resolve,
      if_pos (by simpa using hempty)] at hresolve
    cases hresolve
  have hdirectory : h.files.node? dir = some .directory :=
    Option.map_eq_some_iff.mpr ⟨_, hentry, rfl⟩
  have hway : OpenWay h.files (h.path (names.foldl Path.child root)) (h.path root).steps dir
      names :=
    ⟨Path.way_foldl_child habsolute htext hnames, leads_of_resolve hdirectory hresolve,
      clear_of_isLinkless hentry hlinkless names⟩
  rw [Host.path, hcwd]
  exact hway.lookup_congr hext (hspares dir hbelow habove)

end Host

end ImportContext
