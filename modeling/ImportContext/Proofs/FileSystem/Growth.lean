import ImportContext.Proofs.FileSystem.Creating

/-!
# File systems that grow by outputs

Outputs are written below one directory, each at the end of some names, with the directories that
lead there. As long as no output is to stand below another one, what stood at first decides at any
later time where a file or a directory blocks an output.

Results:
* `Grown.file_iff`: files that block the directories of an output stood there at first.
* `Grown.directory_iff`: directories that block an output stood there at first.
* `Grown.made`, `Grown.wrote`: what an output adds.
-/

namespace ImportContext

theorem Node.Like.eq_directory {k : Node} (h : k.Like .directory) : k = .directory := by
  cases k with
  | directory => rfl
  | file bytes executable => cases h
  | link target => cases h

theorem Node.Like.exists_file {k : Node} {bytes : ByteArray} {executable : Bool}
    (h : k.Like (.file bytes executable)) :
    ∃ bytes' executable', k = .file bytes' executable' := by
  cases k with
  | directory => cases h
  | file bytes' executable' => exact ⟨bytes', executable', rfl⟩
  | link target => cases h

theorem Node.Like.eq_link {k : Node} {target : Path} (h : k.Like (.link target)) :
    k = .link target := by
  cases k with
  | directory => cases h
  | file bytes executable => cases h
  | link target' => exact congrArg Node.link h

namespace FileSystem

variable {fs fs' fs'' : FileSystem} {dir t u : List String} {m : String}
  {outputs : List (List String)} {bytes : ByteArray}

/-- Nothing was added to a file system but outputs below a directory and directories for them. -/
structure Grown (dir : List String) (outputs : List (List String)) (fs fs' : FileSystem) :
    Prop where
  kept : fs.Extends fs'
  added : ∀ q k, fs'.node? q = some k → (fs.node? q).isSome = true ∨
    (k = .directory ∧ ∃ t ∈ outputs, ∃ u, u <+: t ∧ u ≠ t ∧ q = dir ++ u) ∨
    ((∃ bytes executable, k = .file bytes executable) ∧ ∃ t ∈ outputs, q = dir ++ t)

/-- No output is to stand below another one. -/
def Apart (outputs : List (List String)) : Prop :=
  ∀ t ∈ outputs, ∀ t' ∈ outputs, t <+: t' → t = t'

instance (outputs : List (List String)) : Decidable (Apart outputs) :=
  inferInstanceAs (Decidable (∀ t ∈ outputs, ∀ t' ∈ outputs, t <+: t' → t = t'))

theorem Apart.map_append (h : Apart outputs) (new : List String) :
    Apart (outputs.map (new ++ ·)) := by
  intro t ht t' ht' hprefix
  obtain ⟨a, ha, rfl⟩ := List.mem_map.mp ht
  obtain ⟨a', ha', rfl⟩ := List.mem_map.mp ht'
  rw [h a ha a' ha' ((List.prefix_append_right_inj new).mp hprefix)]

theorem Grown.refl (dir : List String) (outputs : List (List String)) (fs : FileSystem) :
    Grown dir outputs fs fs :=
  ⟨.refl fs, fun q k hk => .inl (by rw [hk]; rfl)⟩

/-- What stood at a place at first is of the kind that stands there later. -/
theorem Grown.exists_like (h : Grown dir outputs fs fs') {q : List String} {k : Node}
    (hsome : (fs.node? q).isSome = true) (hk : fs'.node? q = some k) :
    ∃ k', fs.node? q = some k' ∧ k'.Like k := by
  obtain ⟨k', hk'⟩ := Option.isSome_iff_exists.mp hsome
  obtain ⟨k'', hk'', hlike⟩ := h.kept q k' hk'
  rw [hk] at hk''
  cases hk''
  exact ⟨k', hk', hlike⟩

/-! ## What an output adds -/

theorem Grown.made (h : Grown dir outputs fs fs') (hmade : MadeDirectories dir t fs' fs'')
    (hkept : fs'.Extends fs'') (ht : t ++ [m] ∈ outputs) : Grown dir outputs fs fs'' := by
  refine ⟨h.kept.trans hkept, fun q k hk => ?_⟩
  by_cases hq : ∃ u, u <+: t ∧ q = dir ++ u
  · obtain ⟨u, hu, rfl⟩ := hq
    rw [hmade.made u hu] at hk
    cases hk
    exact .inr (.inl ⟨rfl, t ++ [m], ht, u, hu.trans (List.prefix_append t [m]),
      prefix_concat_ne hu, rfl⟩)
  · rw [hmade.others q fun u hu heq => hq ⟨u, hu, heq⟩] at hk
    exact h.added q k hk

theorem Grown.wrote (h : Grown dir outputs fs fs') (hwrites : WritesAt (dir ++ t) bytes fs' fs'')
    (ht : t ∈ outputs) : Grown dir outputs fs fs'' := by
  refine ⟨h.kept.trans hwrites.extends, fun q k hk => ?_⟩
  by_cases hq : q = dir ++ t
  · subst hq
    obtain ⟨executable, hheld⟩ := hwrites.held
    rw [hheld] at hk
    cases hk
    exact .inr (.inr ⟨⟨bytes, executable, rfl⟩, t, ht, rfl⟩)
  · rw [hwrites.others q hq] at hk
    exact h.added q k hk

/-! ## What blocks an output -/

/-- Files that block the directories of an output stood there at first. -/
theorem Grown.file_iff (h : Grown dir outputs fs fs') (hapart : Apart outputs) (ht : t ∈ outputs)
    (hu : u <+: t) (hne : u ≠ t) :
    (∃ bytes executable, fs'.node? (dir ++ u) = some (.file bytes executable)) ↔
      ∃ bytes executable, fs.node? (dir ++ u) = some (.file bytes executable) := by
  constructor
  · rintro ⟨bytes, executable, hfile⟩
    rcases h.added _ _ hfile with hsome | ⟨hk, -⟩ | ⟨-, t', ht', heq⟩
    · obtain ⟨k', hk', hlike⟩ := h.exists_like hsome hfile
      obtain ⟨bytes', executable', rfl⟩ := hlike.exists_file
      exact ⟨bytes', executable', hk'⟩
    · cases hk
    · rw [List.append_cancel_left_eq] at heq
      subst heq
      exact absurd (hapart u ht' t ht hu) hne
  · rintro ⟨bytes, executable, hfile⟩
    exact h.kept.file hfile

/-- Directories that are free for an output at first stay so. -/
theorem Grown.free (h : Grown dir outputs fs fs') (hapart : Apart outputs)
    (ht : t ++ [m] ∈ outputs) (hclear : fs'.Clear dir t)
    (hfree : ∀ u, u <+: t → ∀ k, fs.node? (dir ++ u) = some k → k = .directory) :
    ∀ u, u <+: t → ∀ k, fs'.node? (dir ++ u) = some k → k = .directory := by
  refine (file_or_free hclear).resolve_left ?_
  rintro ⟨u, hu, hblock⟩
  obtain ⟨bytes, executable, hfile⟩ := (h.file_iff hapart ht
    (hu.trans (List.prefix_append t [m])) (prefix_concat_ne hu)).mp hblock
  cases hfree u hu _ hfile

/-- A directory that blocks an output stood there at first. -/
theorem Grown.directory_iff (h : Grown dir outputs fs fs') (hapart : Apart outputs)
    (ht : t ∈ outputs) :
    fs'.node? (dir ++ t) = some .directory ↔ fs.node? (dir ++ t) = some .directory := by
  constructor
  · intro hdir
    rcases h.added _ _ hdir with hsome | ⟨-, t', ht', u, hu, hne, heq⟩ | ⟨⟨_, _, hk⟩, -⟩
    · obtain ⟨k', hk', hlike⟩ := h.exists_like hsome hdir
      rw [hk', hlike.eq_directory]
    · rw [List.append_cancel_left_eq] at heq
      subst heq
      exact absurd (hapart t ht t' ht' hu) hne
    · cases hk
  · exact h.kept.directory

/-- No link is added. -/
theorem Grown.clear (h : Grown dir outputs fs fs') (hclear : fs.Clear dir t) :
    fs'.Clear dir t := by
  intro u hu target hlink
  rcases h.added _ _ hlink with hsome | ⟨hk, -⟩ | ⟨⟨_, _, hk⟩, -⟩
  · obtain ⟨k', hk', hlike⟩ := h.exists_like hsome hlink
    rw [hlike.eq_link] at hk'
    exact hclear u hu target hk'
  · cases hk
  · cases hk

/-- A way that is open at first is open later. -/
theorem OpenWay.grown {p : Path} {before : List String} (hp : OpenWay fs p before dir t)
    (h : Grown dir outputs fs fs') : OpenWay fs' p before dir t :=
  hp.mono h.kept (h.clear hp.clear)

theorem Returns.grown {p : Path} {before : List String} (hp : Returns fs p before dir t)
    (h : Grown dir outputs fs fs') : Returns fs' p before dir t :=
  hp.mono h.kept (h.clear hp.clear)

end FileSystem

end ImportContext
