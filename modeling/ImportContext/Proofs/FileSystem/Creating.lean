import ImportContext.Proofs.FileSystem.Ways
import ImportContext.Proofs.FileSystem.Writing

/-!
# Creating what a way lacks

On a way without links the directories that are missing can be created unless a file stands on it,
and a file can be written at its end unless a directory stands there. Nothing else decides about
success, and nothing off the way changes.

Results:
* `OpenWay.createDirectories_ok`: the directories of a way are created where no file stands.
* `OpenWay.createDirectories_error`: a file on the way stands in the way of directories.
* `OpenWay.writeFile_ok`, `OpenWay.writeFile_error`: when a file can be written.
* `Returns.writeFile_error`: no file is written where a path goes up again.
-/

namespace ImportContext.FileSystem

open ImportContext.Path

variable {fs : FileSystem} {p : Path} {m : String} {before dir t u v : List String}
  {follow : Bool}

/-- A path goes on by names from a directory that its first steps lead to, past no link. -/
structure OpenWay (fs : FileSystem) (p : Path) (before dir names : List String) : Prop where
  way : Way p before names
  leads : Leads fs dir maxLinks [] before
  clear : fs.Clear dir names

namespace OpenWay

/-! ## Where the path leads -/

theorem exists_parent (hp : OpenWay fs p before dir (t ++ [m])) :
    ∃ r, p.parent? = some r ∧ OpenWay fs r before dir t := by
  obtain ⟨r, hr, hway⟩ := hp.way.exists_parent
  exact ⟨r, hr, hway, hp.leads, hp.clear.of_prefix (List.prefix_append t [m])⟩

theorem resolve_eq (hp : OpenWay fs p before dir t) (follow : Bool) :
    fs.resolve follow p = fs.walk follow false maxLinks [] p.pieces := by
  rw [resolve, if_neg (by simpa using hp.way.text_ne_empty)]

theorem exists_walk (hp : OpenWay fs p before dir t) (ht : t ≠ []) :
    ∃ n, ∀ follow create, fs.walk follow create maxLinks [] p.pieces =
      fs.walk follow create n dir t := by
  obtain ⟨n, hn⟩ := hp.leads.walk_append
  refine ⟨n, fun follow create => ?_⟩
  cases t using List.reverseRecOn with
  | nil => exact absurd rfl ht
  | append_singleton ns m =>
    obtain ⟨zs, hzs⟩ := hp.way.ends ns m rfl
    have hm : isIdle m = false := isIdle_of_isName (hp.way.isName m (by simp))
    rw [hzs, walk_dropIdle, ← steps_of_pieces hzs hm, hp.way.steps_eq]
    exact hn follow create _ ht

theorem leads_pieces (hp : OpenWay fs p before dir []) : Leads fs dir maxLinks [] p.pieces := by
  refine hp.leads.of_dropIdle_eq ?_
  have hsteps := hp.way.steps_eq
  rw [List.append_nil] at hsteps
  rw [← hsteps, steps, dropIdle_dropIdle]

/-- The path leads to what stands at its end. -/
theorem resolve_node {k : Node} (hp : OpenWay fs p before dir t)
    (hnode : fs.node? (dir ++ t) = some k) : fs.resolve true p = .ok (dir ++ t) := by
  rw [hp.resolve_eq]
  by_cases ht : t = []
  · subst ht
    rw [List.append_nil]
    exact hp.leads_pieces.walk
  · obtain ⟨n, hn⟩ := hp.exists_walk ht
    have hgo := walk_append_of_node true false n [] hp.way.isName hp.clear hnode
    rw [List.append_nil] at hgo
    rw [hn, hgo, walk_nil]

theorem exists_unfollowed {k : Node} (hp : OpenWay fs p before dir t)
    (hnode : fs.node? (dir ++ t) = some k) : ∃ names, fs.resolve false p = .ok names := by
  rw [hp.resolve_eq]
  by_cases ht : t = []
  · subst ht
    exact hp.leads_pieces.exists_unfollowed
  · obtain ⟨n, hn⟩ := hp.exists_walk ht
    have hgo := walk_append_of_node false false n [] hp.way.isName hp.clear hnode
    rw [List.append_nil] at hgo
    exact ⟨dir ++ t, by rw [hn, hgo, walk_nil]⟩

/-- Nothing is found on a way that breaks off. -/
theorem resolve_missing (hp : OpenWay fs p before dir (u ++ m :: v))
    (hu : fs.node? (dir ++ u) = some .directory) (hm : fs.node? (dir ++ u ++ [m]) = none) :
    fs.resolve follow p = .error .notFound := by
  obtain ⟨n, hn⟩ := hp.exists_walk (by simp)
  have hname : IsName m := hp.way.isName m (by simp)
  have hgo := walk_append_of_node follow false n (m :: v)
    (fun s hs => hp.way.isName s (List.mem_append_left _ hs))
    (hp.clear.of_prefix (List.prefix_append u _)) hu
  rw [hp.resolve_eq, hn, hgo, walk_name hu (isIdle_of_isName hname) hname.2.2.1, hm]
  rfl

/-- A way does not lead through a file. -/
theorem resolve_file {bytes : ByteArray} {executable : Bool}
    (hp : OpenWay fs p before dir (u ++ v)) (hv : v ≠ [])
    (hu : fs.node? (dir ++ u) = some (.file bytes executable)) :
    fs.resolve follow p = .error .notDirectory := by
  obtain ⟨n, hn⟩ := hp.exists_walk (by simp [hv])
  have hgo := walk_append_of_node follow false n v
    (fun s hs => hp.way.isName s (List.mem_append_left _ hs))
    (hp.clear.of_prefix (List.prefix_append u _)) hu
  rw [hp.resolve_eq, hn, hgo, walk_of_not_directory (by rw [hu]; simp) hv, hu]
  rfl

theorem resolvePlace_eq (hp : OpenWay fs p before dir (t ++ [m]))
    (hdir : fs.node? (dir ++ t) = some .directory) :
    fs.resolvePlace p = .ok (dir ++ t ++ [m]) := by
  obtain ⟨n, hn⟩ := hp.exists_walk (by simp)
  have hname : IsName m := hp.way.isName m (by simp)
  have hgo := walk_append_of_node true true n [m]
    (fun s hs => hp.way.isName s (List.mem_append_left _ hs))
    (hp.clear.of_prefix (List.prefix_append t _)) hdir
  rw [resolvePlace, if_neg (by simpa using hp.way.text_ne_empty), hn, hgo,
    walk_name hdir (isIdle_of_isName hname) hname.2.2.1]
  split
  · rfl
  · next target hlink =>
    refine absurd ?_ (hp.clear (t ++ [m]) List.prefix_rfl target)
    rwa [← List.append_assoc]
  · exact walk_nil ..

end OpenWay

/-! ## Directories -/

section Directory

variable {names : List String}

theorem isDirectory_of_directory (hp : fs.resolve true p = .ok names)
    (hnode : fs.node? names = some .directory) : fs.isDirectory p = true := by
  obtain ⟨name, children, hentry⟩ := exists_directory hnode
  simp only [isDirectory, lookup, hp, bind, Except.bind, hentry]

theorem isDirectory_of_file {bytes : ByteArray} {executable : Bool}
    (hp : fs.resolve true p = .ok names) (hnode : fs.node? names = some (.file bytes executable)) :
    fs.isDirectory p = false := by
  obtain ⟨e, hentry, he⟩ := Option.map_eq_some_iff.mp hnode
  cases e with
  | file name bytes' executable' => simp only [isDirectory, lookup, hp, bind, Except.bind, hentry]
  | link name target => cases he
  | directory name children => cases he

theorem isDirectory_of_error {e : OsError} (hp : fs.resolve true p = .error e) :
    fs.isDirectory p = false := by
  simp only [isDirectory, lookup, hp, bind, Except.bind]

end Directory

namespace OpenWay

theorem makeDirectory_exists {k : Node} (hp : OpenWay fs p before dir t)
    (hnode : fs.node? (dir ++ t) = some k) : fs.makeDirectory p = .error .alreadyExists := by
  obtain ⟨names, hnames⟩ := hp.exists_unfollowed hnode
  simp only [makeDirectory, hnames]

theorem makeDirectory_file {bytes : ByteArray} {executable : Bool}
    (hp : OpenWay fs p before dir (u ++ v)) (hv : v ≠ [])
    (hu : fs.node? (dir ++ u) = some (.file bytes executable)) :
    fs.makeDirectory p = .error .notDirectory := by
  simp only [makeDirectory, hp.resolve_file hv hu]

/-- A directory is not created where its parent is missing. -/
theorem makeDirectory_missing (hp : OpenWay fs p before dir (u ++ m :: v)) (hv : v ≠ [])
    (hu : fs.node? (dir ++ u) = some .directory) (hm : fs.node? (dir ++ u ++ [m]) = none) :
    fs.makeDirectory p = .error .notFound := by
  have hnone : fs.resolve false p = .error .notFound := hp.resolve_missing hu hm
  cases v using List.reverseRecOn with
  | nil => exact absurd rfl hv
  | append_singleton v s =>
    have hsplit : u ++ m :: (v ++ [s]) = (u ++ m :: v) ++ [s] := by simp
    rw [hsplit] at hp
    obtain ⟨r, hr, hparent⟩ := hp.exists_parent
    have hslot : fs.resolveSlot p = .error .notFound := by
      simp only [resolveSlot, hp.way.fileName?, hr, hparent.resolve_missing hu hm, bind,
        Except.bind]
    simp only [makeDirectory, hnone, hslot, bind, Except.bind]

/-- A directory is created where its parent stands. -/
theorem makeDirectory_ok (hp : OpenWay fs p before dir (t ++ [m]))
    (hdir : fs.node? (dir ++ t) = some .directory)
    (hnone : fs.node? (dir ++ t ++ [m]) = none) : ∃ fs', fs.makeDirectory p = .ok fs' ∧
      (∀ q, fs'.node? q = if q = dir ++ t ++ [m] then some .directory else fs.node? q) ∧
      ∀ place, place <+: dir ++ t ++ [m] → Spares place fs fs' := by
  obtain ⟨r, hr, hparent⟩ := hp.exists_parent
  obtain ⟨name, children, hentry⟩ := exists_directory hdir
  have hmissing : fs.resolve false p = .error .notFound := hp.resolve_missing hdir hnone
  have hslot : fs.resolveSlot p = .ok (dir ++ t, m) := by
    simp only [resolveSlot, hp.way.fileName?, hr, hparent.resolve_node hdir, bind, Except.bind,
      hentry]
  have hfree : (fs.entry? (dir ++ t ++ [m])).isSome = false := by
    rw [node?, Option.map_eq_none_iff] at hnone
    rw [hnone, Option.isSome_none]
  refine ⟨fs.updateDirectory (dir ++ t) (Entry.put · (.directory m [])), ?_, fun q => ?_, ?_⟩
  · simp only [makeDirectory, hmissing, hslot, bind, Except.bind, hfree, Bool.false_eq_true,
      if_false]
  · exact node?_put (e := .directory m []) hdir (by rw [Entry.name, hnone]; simp) fun _ _ => rfl
  · exact fun place hplace => spares_put (e := .directory m []) hplace

end OpenWay

/-- All places of a way are directories in the second file system; nothing else differs. -/
structure MadeDirectories (dir names : List String) (fs fs' : FileSystem) : Prop where
  made : ∀ u, u <+: names → fs'.node? (dir ++ u) = some .directory
  others : ∀ q, (∀ u, u <+: names → q ≠ dir ++ u) → fs'.node? q = fs.node? q
  spares : ∀ place, (∀ u, u <+: names → fs.node? (dir ++ u) = none → place <+: dir ++ u) →
    Spares place fs fs'

theorem directory_of_prefix (h : fs.node? (dir ++ t) = some .directory) (hu : u <+: t) :
    fs.node? (dir ++ u) = some .directory := by
  obtain ⟨v, rfl⟩ := hu
  by_cases hv : v = []
  · rwa [hv, List.append_nil] at h
  · rw [← List.append_assoc] at h
    exact node?_of_append h hv

theorem prefix_concat_ne (hu : u <+: t) : u ≠ t ++ [m] := by
  rintro rfl
  have hle := hu.length_le
  rw [List.length_append, List.length_singleton] at hle
  omega

/-- Where a way is there already, nothing has to be made. -/
theorem madeDirectories_refl (h : fs.node? (dir ++ t) = some .directory) :
    MadeDirectories dir t fs fs :=
  ⟨fun _ hu => directory_of_prefix h hu, fun _ _ => rfl, fun place _ => .refl place fs⟩

theorem MadeDirectories.extends {fs' : FileSystem} (h : MadeDirectories dir t fs fs')
    (hfree : ∀ u, u <+: t → ∀ k, fs.node? (dir ++ u) = some k → k = .directory) :
    fs.Extends fs' := by
  intro q k hk
  by_cases hq : ∃ u, u <+: t ∧ q = dir ++ u
  · obtain ⟨u, hu, rfl⟩ := hq
    obtain rfl := hfree u hu k hk
    exact ⟨.directory, h.made u hu, .refl _⟩
  · have hother : ∀ u, u <+: t → q ≠ dir ++ u := fun u hu heq => hq ⟨u, hu, heq⟩
    exact ⟨k, by rw [h.others q hother, hk], .refl k⟩

/-- What the directories are made for stands as it stood. -/
theorem MadeDirectories.node?_concat {fs' : FileSystem} (h : MadeDirectories dir t fs fs')
    (m : String) : fs'.node? (dir ++ t ++ [m]) = fs.node? (dir ++ t ++ [m]) := by
  refine h.others _ fun u hu heq => ?_
  rw [List.append_assoc, List.append_cancel_left_eq] at heq
  exact prefix_concat_ne hu heq.symm

theorem MadeDirectories.clear {fs' : FileSystem} (h : MadeDirectories dir t fs fs') :
    fs'.Clear dir t := by
  intro u hu target
  rw [h.made u hu]
  simp

theorem MadeDirectories.clear_concat {fs' : FileSystem} (h : MadeDirectories dir t fs fs')
    (hclear : fs.Clear dir (t ++ [m])) : fs'.Clear dir (t ++ [m]) := by
  intro u hu target
  rcases List.prefix_concat_iff.mp hu with rfl | hu
  · rw [← List.append_assoc, h.node?_concat, List.append_assoc]
    exact hclear _ List.prefix_rfl target
  · exact h.clear u hu target

theorem MadeDirectories.concat {fs' fs'' : FileSystem} (h : MadeDirectories dir t fs fs')
    (hnone : fs.node? (dir ++ t ++ [m]) = none)
    (hnode : ∀ q, fs''.node? q = if q = dir ++ t ++ [m] then some .directory else fs'.node? q)
    (hspares : ∀ place, place <+: dir ++ t ++ [m] → Spares place fs' fs'') :
    MadeDirectories dir (t ++ [m]) fs fs'' := by
  refine ⟨?_, ?_, ?_⟩
  · intro u hu
    rw [hnode]
    rcases List.prefix_concat_iff.mp hu with rfl | hu
    · rw [if_pos (by simp)]
    · rw [h.made u hu, ite_self]
  · intro q hq
    rw [hnode, if_neg]
    · exact h.others q fun u hu => hq u (hu.trans (List.prefix_append t [m]))
    · rw [List.append_assoc]
      exact hq _ List.prefix_rfl
  · intro place hplace
    have hlast : place <+: dir ++ t ++ [m] := by
      rw [List.append_assoc] at hnone ⊢
      exact hplace _ List.prefix_rfl hnone
    exact (h.spares place fun u hu => hplace u (hu.trans (List.prefix_append t [m]))).trans
      (hspares place hlast)

namespace OpenWay

theorem mono {fs' : FileSystem} (hp : OpenWay fs p before dir t) (hext : fs.Extends fs')
    (hclear : fs'.Clear dir t) : OpenWay fs' p before dir t :=
  ⟨hp.way, hp.leads.mono hext, hclear⟩

theorem ensureDirectory_standing (hp : OpenWay fs p before dir t)
    (hnode : fs.node? (dir ++ t) = some .directory) : fs.ensureDirectory p = (.ok (), fs) := by
  rw [ensureDirectory, hp.makeDirectory_exists hnode]
  simp only [isDirectory_of_directory (hp.resolve_node hnode) hnode, if_true]

/-- A directory is created at once unless its parent is missing. -/
theorem createDirectoriesWithin_at_once {e : Except OsError FileSystem} (depth : Nat)
    (hp : OpenWay fs p before dir t) (hmake : fs.makeDirectory p = e) (he : e ≠ .error .notFound) :
    createDirectoriesWithin (depth + 1) fs p = fs.ensureDirectory p := by
  rw [createDirectoriesWithin, if_neg (by simpa using hp.way.text_ne_empty), hmake]
  split
  · exact absurd rfl he
  · exact absurd rfl he
  · rfl

/-- A directory that stands has not to be created. -/
theorem createDirectoriesWithin_standing (depth : Nat) (hp : OpenWay fs p before dir t)
    (hnode : fs.node? (dir ++ t) = some .directory) :
    createDirectoriesWithin (depth + 1) fs p = (.ok (), fs) := by
  rw [hp.createDirectoriesWithin_at_once depth (hp.makeDirectory_exists hnode) (by simp),
    hp.ensureDirectory_standing hnode]

/-- The directories that a way lacks are created, the outermost one first. -/
theorem createDirectoriesWithin_ok {depth : Nat} (hp : OpenWay fs p before dir t)
    (hfree : ∀ u, u <+: t → ∀ k, fs.node? (dir ++ u) = some k → k = .directory)
    (hdepth : t.length < depth) : ∃ fs', createDirectoriesWithin depth fs p = (.ok (), fs') ∧
      MadeDirectories dir t fs fs' := by
  induction t using List.reverseRecOn generalizing p depth with
  | nil =>
    have hdir : fs.node? (dir ++ []) = some .directory := by
      rw [List.append_nil]
      exact hp.leads.directory
    obtain ⟨depth, rfl⟩ := Nat.exists_eq_add_one.mpr hdepth
    exact ⟨fs, hp.createDirectoriesWithin_standing depth hdir, madeDirectories_refl hdir⟩
  | append_singleton t m ih =>
    obtain ⟨depth, rfl⟩ := Nat.exists_eq_add_one.mpr (Nat.lt_of_le_of_lt (Nat.zero_le _) hdepth)
    have htext : ¬ (p.text == "") = true := by simpa using hp.way.text_ne_empty
    cases hnode : fs.node? (dir ++ (t ++ [m])) with
    | some k =>
      obtain rfl := hfree _ List.prefix_rfl k hnode
      exact ⟨fs, hp.createDirectoriesWithin_standing depth hnode, madeDirectories_refl hnode⟩
    | none =>
      rw [← List.append_assoc] at hnode
      have hfree' : ∀ u, u <+: t → ∀ k, fs.node? (dir ++ u) = some k → k = .directory :=
        fun u hu => hfree u (hu.trans (List.prefix_append t [m]))
      obtain ⟨r, hr, hparent⟩ := hp.exists_parent
      cases hdir : fs.node? (dir ++ t) with
      | some k =>
        obtain rfl := hfree' t List.prefix_rfl k hdir
        obtain ⟨fs', hmake, hnodes, hspares⟩ := hp.makeDirectory_ok hdir hnode
        refine ⟨fs', ?_, (madeDirectories_refl hdir).concat hnode hnodes hspares⟩
        rw [hp.createDirectoriesWithin_at_once depth hmake (by simp), ensureDirectory, hmake]
      | none =>
        have hmissing : fs.makeDirectory p = .error .notFound := by
          rcases way_cases hp.leads.directory hparent.clear with
            ⟨k, hk⟩ | ⟨u, s, v, rfl, hu, hs⟩ | ⟨u, v, bytes, executable, rfl, -, hfile⟩
          · rw [hdir] at hk
            cases hk
          · rw [List.append_assoc, List.cons_append] at hp
            exact hp.makeDirectory_missing (by simp) hu hs
          · cases hfree' u (List.prefix_append u v) _ hfile
        -- the parent is created first, and then the directory in it
        obtain ⟨fs₁, hmake₁, hmade⟩ := @ih r depth hparent hfree' (by simpa using hdepth)
        have hdir₁ : fs₁.node? (dir ++ t) = some .directory := hmade.made t List.prefix_rfl
        have hnone₁ : fs₁.node? (dir ++ t ++ [m]) = none := (hmade.node?_concat m).trans hnode
        have hway₁ := hp.mono (hmade.extends hfree') (hmade.clear_concat hp.clear)
        obtain ⟨fs₂, hmake₂, hnodes, hspares⟩ := hway₁.makeDirectory_ok hdir₁ hnone₁
        refine ⟨fs₂, ?_, hmade.concat hnode hnodes hspares⟩
        rw [createDirectoriesWithin, if_neg htext, hmissing, hr]
        simp only [hmake₁, ensureDirectory, hmake₂]

/-- The directories of a way are created where nothing but directories stands on it. -/
theorem createDirectories_ok (hp : OpenWay fs p before dir t)
    (hfree : ∀ u, u <+: t → ∀ k, fs.node? (dir ++ u) = some k → k = .directory) :
    ∃ fs', fs.createDirectories p = (.ok (), fs') ∧ MadeDirectories dir t fs fs' := by
  refine hp.createDirectoriesWithin_ok hfree ?_
  have hle : p.steps.length ≤ p.pieces.length := List.length_filter_le ..
  rw [hp.way.steps_eq, List.length_append] at hle
  omega

/-- A file on the way stands in the way of directories, and none is created. -/
theorem createDirectories_error {bytes : ByteArray} {executable : Bool}
    (hp : OpenWay fs p before dir (u ++ v))
    (hu : fs.node? (dir ++ u) = some (.file bytes executable)) :
    fs.createDirectories p = (.error (if v = [] then .alreadyExists else .notDirectory), fs) := by
  rw [createDirectories]
  by_cases hv : v = []
  · subst hv
    rw [List.append_nil] at hp
    have hmake := hp.makeDirectory_exists hu
    rw [hp.createDirectoriesWithin_at_once _ hmake (by simp), ensureDirectory, hmake, if_pos rfl]
    simp only [isDirectory_of_file (hp.resolve_node hu) hu, Bool.false_eq_true, if_false]
  · have hmake := hp.makeDirectory_file hv hu
    rw [hp.createDirectoriesWithin_at_once _ hmake (by simp), ensureDirectory, hmake, if_neg hv]
    simp only [isDirectory_of_error (hp.resolve_file hv hu), Bool.false_eq_true, if_false]

/-! ## Files -/

/-- A file is written at the end of a way, unless a directory stands there. -/
theorem writeFile_ok (bytes : ByteArray) (hp : OpenWay fs p before dir (t ++ [m]))
    (hdir : fs.node? (dir ++ t) = some .directory)
    (hfree : fs.node? (dir ++ t ++ [m]) ≠ some .directory) :
    ∃ fs', fs.writeFile p bytes = .ok fs' ∧ WritesAt (dir ++ t ++ [m]) bytes fs fs' := by
  have hplace := hp.resolvePlace_eq hdir
  have hwrite : ∃ fs', fs.writeFile p bytes = .ok fs' := by
    rw [writeFile, hplace]
    simp only [List.getLast?_concat]
    cases hentry : fs.entry? (dir ++ t ++ [m]) with
    | none => exact ⟨_, rfl⟩
    | some e =>
      have hnode : fs.node? (dir ++ t ++ [m]) = some e.node := by
        rw [node?, hentry, Option.map_some]
      cases e with
      | file name bytes' executable => exact ⟨_, rfl⟩
      | link name target =>
        rw [List.append_assoc] at hnode
        exact absurd hnode (hp.clear _ List.prefix_rfl target)
      | directory name children => exact absurd hnode hfree
  obtain ⟨fs', hfs'⟩ := hwrite
  obtain ⟨names, hnames, hwrites⟩ := writeFile_effect hfs'
  rw [hplace] at hnames
  cases hnames
  exact ⟨fs', hfs', hwrites⟩

theorem writeFile_error (bytes : ByteArray) (hp : OpenWay fs p before dir (t ++ [m]))
    (hnode : fs.node? (dir ++ t ++ [m]) = some .directory) :
    fs.writeFile p bytes = .error .isDirectory := by
  obtain ⟨name, children, hentry⟩ := exists_directory hnode
  rw [writeFile, hp.resolvePlace_eq (node?_parent hnode)]
  simp only [hentry]

end OpenWay

/-- A path goes on by names from a directory that its first steps lead to, past no link, and from
there up again. -/
structure Returns (fs : FileSystem) (p : Path) (before dir names : List String) : Prop where
  exists_pieces : ∃ zs, p.pieces = zs ++ [".."] ∧ dropIdle zs = before ++ names
  isName : ∀ s ∈ names, IsName s
  leads : Leads fs dir maxLinks [] before
  clear : fs.Clear dir names

namespace Returns

theorem mono {fs' : FileSystem} (hp : Returns fs p before dir t) (hext : fs.Extends fs')
    (hclear : fs'.Clear dir t) : Returns fs' p before dir t :=
  ⟨hp.exists_pieces, hp.isName, hp.leads.mono hext, hclear⟩

theorem resolvePlace_eq (hp : Returns fs p before dir t)
    (hdir : fs.node? (dir ++ t) = some .directory) :
    fs.resolvePlace p = .ok (dir ++ t).dropLast := by
  obtain ⟨zs, hzs, hsteps⟩ := hp.exists_pieces
  obtain ⟨n, hn⟩ := hp.leads.walk_append
  have htext := text_ne_empty_of_pieces hzs (by decide)
  rw [resolvePlace, if_neg (by simpa using htext), hzs, walk_dropIdle, hsteps, List.append_assoc,
    hn true true _ (by simp), walk_append_of_node true true n [".."] hp.isName hp.clear hdir,
    walk_up hdir, walk_nil]

/-- No file is written where a path goes up again. -/
theorem writeFile_error (bytes : ByteArray) (hp : Returns fs p before dir t)
    (hdir : fs.node? (dir ++ t) = some .directory) :
    fs.writeFile p bytes = .error .isDirectory := by
  have habove : fs.node? (dir ++ t).dropLast = some .directory := by
    cases hnames : dir ++ t using List.reverseRecOn with
    | nil => rfl
    | append_singleton names m =>
      rw [hnames] at hdir
      rw [List.dropLast_concat]
      exact node?_parent hdir
  obtain ⟨name, children, hentry⟩ := exists_directory habove
  rw [writeFile, hp.resolvePlace_eq hdir]
  simp only [hentry]

end Returns

end ImportContext.FileSystem
