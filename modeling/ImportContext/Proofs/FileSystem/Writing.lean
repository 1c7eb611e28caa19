import ImportContext.Proofs.FileSystem.Nodes

/-!
# What writing changes

A directory is created where nothing stood, and a file is written where a file or nothing stood.
All else stays, so paths that led somewhere still do; the path of a written file leads to it.

Results:
* `spares_put`: an entry put at a place leaves everything aside of the place as it is.
* `createDirectories_keeps`: creating directories keeps what stands.
* `writeFile_effect`: writing a file changes the place that its path leads to.
* `readBytes_eq_ok_iff`: what can be read stands where the path leads.
-/

namespace ImportContext.FileSystem

open Entry

variable {fs fs' : FileSystem} {p : Path} {bytes : ByteArray} {names : List String}

/-- Whatever stands in the first file system stands unchanged in the second. -/
def Keeps (fs fs' : FileSystem) : Prop :=
  ∀ q k, fs.node? q = some k → fs'.node? q = some k

theorem Keeps.refl (fs : FileSystem) : fs.Keeps fs :=
  fun _ _ h => h

theorem Keeps.trans {a b c : FileSystem} (hab : a.Keeps b) (hbc : b.Keeps c) : a.Keeps c :=
  fun q k h => hbc q k (hab q k h)

theorem Keeps.extends (h : fs.Keeps fs') : fs.Extends fs' :=
  fun q k hk => ⟨k, h q k hk, .refl k⟩

/-! ## Aside of a place -/

/-- Nothing differs but at a place, below it, and in the directories that it is in. -/
def Spares (place : List String) (fs fs' : FileSystem) : Prop :=
  ∀ q, ¬ place <+: q → ¬ q <+: place → fs'.entry? q = fs.entry? q

theorem Spares.refl (place : List String) (fs : FileSystem) : Spares place fs fs :=
  fun _ _ _ => rfl

theorem Spares.trans {place : List String} {a b c : FileSystem} (hab : Spares place a b)
    (hbc : Spares place b c) : Spares place a c :=
  fun q hbelow habove => (hbc q hbelow habove).trans (hab q hbelow habove)

/-- An entry put into a directory changes nothing aside of its place. -/
theorem descend_put {e : Entry} {dir q : List String} {top : String} {entries : List Entry}
    (hbelow : ¬ dir ++ [e.name] <+: q) (habove : ¬ q <+: dir) :
    (Entry.directory top (modifyChildren (put · e) dir entries)).descend q =
      (Entry.directory top entries).descend q := by
  induction dir generalizing top entries q with
  | nil =>
    cases q with
    | nil => exact absurd List.nil_prefix habove
    | cons n q =>
      have hn : n ≠ e.name := by
        rintro rfl
        exact hbelow (List.cons_prefix_cons.mpr ⟨rfl, List.nil_prefix⟩)
      rw [modifyChildren, descend, descend, find?_put, if_neg hn]
  | cons d dir ih =>
    cases q with
    | nil => exact absurd List.nil_prefix habove
    | cons n q =>
      rw [descend, descend, find?_modifyChildren]
      cases hfound : find? entries n with
      | none => rfl
      | some x =>
        have hname : x.name = n := name_of_find? hfound
        simp only [Option.map_some]
        cases x with
        | file name bytes executable => rfl
        | link name target => rfl
        | directory name below =>
          obtain rfl : name = n := hname
          rw [modifyEntry]
          split
          · next hn =>
            obtain rfl : name = d := beq_iff_eq.mp hn
            refine ih ?_ ?_
            · exact fun h => hbelow (List.cons_prefix_cons.mpr ⟨rfl, h⟩)
            · exact fun h => habove (List.cons_prefix_cons.mpr ⟨rfl, h⟩)
          · rfl

/-- A place is spared by what is put below it. -/
theorem spares_put {e : Entry} {place dir : List String} (h : place <+: dir ++ [e.name]) :
    Spares place fs (fs.updateDirectory dir (put · e)) := by
  intro q hbelow habove
  refine descend_put (fun hq => hbelow (h.trans hq)) fun hq => ?_
  rcases List.prefix_or_prefix_of_prefix h (hq.trans (List.prefix_append dir [e.name])) with hp | hp
  · exact hbelow hp
  · exact habove hp

/-! ## Directories -/

theorem resolveSlot_directory {dir : List String} {name : String}
    (h : fs.resolveSlot p = .ok (dir, name)) : fs.node? dir = some .directory := by
  rw [resolveSlot] at h
  split at h
  · obtain ⟨names, -, h⟩ := bind_eq_ok_iff.mp h
    split at h
    · next hentry =>
      cases h
      exact Option.map_eq_some_iff.mpr ⟨_, hentry, rfl⟩
    · cases h
    · cases h
  · cases h

/-- A directory is created at one place, where nothing stood. -/
theorem makeDirectory_effect (h : fs.makeDirectory p = .ok fs') :
    ∃ dir name, fs.node? dir = some .directory ∧ fs.node? (dir ++ [name]) = none ∧
      ∀ q, fs'.node? q = if q = dir ++ [name] then some .directory else fs.node? q := by
  rw [makeDirectory] at h
  split at h
  · cases h
  · obtain ⟨⟨dir, name⟩, hslot, h⟩ := bind_eq_ok_iff.mp h
    have hdir := resolveSlot_directory hslot
    dsimp only at h
    split at h
    · cases h
    · next hmissing =>
      cases h
      have hnone : fs.node? (dir ++ [name]) = none := by
        rw [node?, Option.not_isSome_iff_eq_none.mp hmissing, Option.map_none]
      refine ⟨dir, name, hdir, hnone, fun q => ?_⟩
      exact node?_put (e := .directory name []) hdir (by rw [Entry.name, hnone]; simp)
        fun _ _ => rfl
  · cases h

theorem makeDirectory_keeps (h : fs.makeDirectory p = .ok fs') : fs.Keeps fs' := by
  obtain ⟨dir, name, -, hnone, hnodes⟩ := makeDirectory_effect h
  intro q k hk
  rw [hnodes, if_neg]
  · exact hk
  · rintro rfl
    rw [hnone] at hk
    cases hk

theorem ensureDirectory_keeps (fs : FileSystem) (p : Path) : fs.Keeps (fs.ensureDirectory p).2 := by
  rw [ensureDirectory]
  split
  · next hmake => exact makeDirectory_keeps hmake
  · exact .refl fs

theorem createDirectoriesWithin_keeps (depth : Nat) (fs : FileSystem) (p : Path) :
    fs.Keeps (createDirectoriesWithin depth fs p).2 := by
  induction depth generalizing p with
  | zero => exact .refl fs
  | succ depth ih =>
    rw [createDirectoriesWithin]
    split
    · exact .refl fs
    · split
      · next dir _ _ =>
        have hparents := ih dir
        split
        · next hmade =>
          rw [hmade] at hparents
          exact hparents.trans (ensureDirectory_keeps _ p)
        · exact hparents
      · exact .refl fs
      · exact ensureDirectory_keeps fs p

/-- Creating directories keeps what stands, even where it fails. -/
theorem createDirectories_keeps (fs : FileSystem) (p : Path) :
    fs.Keeps (fs.createDirectories p).2 :=
  createDirectoriesWithin_keeps _ fs p

/-! ## Files -/

theorem readBytes_eq_ok_iff : fs.readBytes p = .ok bytes ↔
    ∃ names executable, fs.resolve true p = .ok names ∧
      fs.node? names = some (.file bytes executable) := by
  rw [readBytes, bind_eq_ok_iff]
  constructor
  · rintro ⟨e, hlookup, h⟩
    obtain ⟨names, hnames, hentry⟩ := bind_eq_ok_iff.mp hlookup
    split at hentry
    · next e' he' =>
      cases hentry
      cases e with
      | file name bytes' executable =>
        cases h
        exact ⟨names, executable, hnames, Option.map_eq_some_iff.mpr ⟨_, he', rfl⟩⟩
      | link name target => cases h
      | directory name children => cases h
    · cases hentry
  · rintro ⟨names, executable, hnames, hnode⟩
    obtain ⟨e, he, hnode⟩ := Option.map_eq_some_iff.mp hnode
    refine ⟨e, bind_eq_ok_iff.mpr ⟨names, hnames, ?_⟩, ?_⟩
    · rw [he]
    · cases e with
      | file name bytes' executable' =>
        cases hnode
        rfl
      | link name target => cases hnode
      | directory name children => cases hnode

/-- One place, where nothing or a file stands, holds the given bytes in the second file system; all
other places are the same in both. -/
structure WritesAt (names : List String) (bytes : ByteArray) (fs fs' : FileSystem) : Prop where
  open_ : fs.node? names = none ∨ ∃ old executable, fs.node? names = some (.file old executable)
  held : ∃ executable, fs'.node? names = some (.file bytes executable)
  others : ∀ q, q ≠ names → fs'.node? q = fs.node? q
  spares : ∀ place, place <+: names → Spares place fs fs'

theorem WritesAt.extends (h : WritesAt names bytes fs fs') : fs.Extends fs' := by
  intro q k hk
  by_cases hq : q = names
  · subst hq
    obtain ⟨executable, hheld⟩ := h.held
    rcases h.open_ with hnone | ⟨old, executable', hfile⟩
    · rw [hnone] at hk
      cases hk
    · rw [hfile] at hk
      cases hk
      exact ⟨_, hheld, trivial⟩
  · exact ⟨k, by rw [h.others q hq, hk], .refl k⟩

/-- Putting a file where nothing or a file stands. -/
theorem writesAt_put (bytes : ByteArray) (executable : Bool) {dir : List String} {name : String}
    (hdir : fs.node? dir = some .directory)
    (hopen : fs.node? (dir ++ [name]) = none ∨
      ∃ old x, fs.node? (dir ++ [name]) = some (.file old x)) :
    WritesAt (dir ++ [name]) bytes fs
      (fs.updateDirectory dir (put · (.file name bytes executable))) := by
  have hold : fs.node? (dir ++ [name]) ≠ some .directory := by
    intro h
    rcases hopen with hnone | ⟨old, x, hfile⟩
    · rw [hnone] at h
      cases h
    · rw [hfile] at h
      cases h
  have hnodes : ∀ q, (fs.updateDirectory dir (put · (.file name bytes executable))).node? q =
      if q = dir ++ [name] then some (.file bytes executable) else fs.node? q := fun q =>
    node?_put (e := .file name bytes executable) hdir hold fun _ _ => rfl
  refine ⟨hopen, ⟨executable, ?_⟩, ?_, ?_⟩
  · rw [hnodes, if_pos rfl]
  · intro q hq
    rw [hnodes, if_neg hq]
  · intro place hplace
    exact spares_put (e := .file name bytes executable) hplace

/-- Writing a file changes the place that its path leads to. -/
theorem writeFile_effect (h : fs.writeFile p bytes = .ok fs') :
    ∃ names, fs.resolvePlace p = .ok names ∧ WritesAt names bytes fs fs' := by
  rw [writeFile] at h
  split at h
  · next names hplace =>
    refine ⟨names, hplace, ?_⟩
    have hlast : ∀ {name}, names.getLast? = some name → names = names.dropLast ++ [name] := by
      intro name hname
      obtain ⟨front, rfl⟩ := List.getLast?_eq_some_iff.mp hname
      rw [List.dropLast_concat]
    split at h
    · next old executable name hentry hname =>
      cases h
      have hfile : fs.node? (names.dropLast ++ [name]) = some (.file old executable) := by
        rw [← hlast hname]
        exact Option.map_eq_some_iff.mpr ⟨_, hentry, rfl⟩
      have hwrites := writesAt_put bytes executable (node?_parent hfile)
        (.inr ⟨old, executable, hfile⟩)
      rwa [← hlast hname] at hwrites
    · next name hentry hname =>
      cases h
      have hnone : fs.node? names = none := by rw [node?, hentry, Option.map_none]
      have hdir : fs.node? names.dropLast = some .directory := by
        rcases resolvePlace_isPlace hplace with hsome | ⟨dir, n, rfl, hdir⟩
        · rw [hnone] at hsome
          cases hsome
        · rwa [List.dropLast_concat]
      have hwrites := writesAt_put bytes false hdir
        (.inl (by rw [← hlast hname]; exact hnone))
      rwa [← hlast hname] at hwrites
    · cases h
  · split at h
    · cases h
    · cases h
  · cases h

end ImportContext.FileSystem
