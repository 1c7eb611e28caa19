import ImportContext.Proofs.Locate.Runs

/-!
# Absent locations

To be absent is how a search says that a branch leads to nothing: a pair was entered before, no
more pairs may be entered, or the module is missing. Outside a search it means the last of these.

Results:
* `SearchRun.fileOnPath`: what is not absent has the file of a module on the search path.
* `SearchRun.isAbsent_iff`: which searches for a member are absent.
* `locateStatic_missing`, `locateStatic_found`: an import target with and without its module.
* `locateStatic_isAbsent_iff`: an import target is absent exactly if its module is missing.
-/

namespace ImportContext

variable {layout : PackageLayout} {host : Host} {roots : SearchPath} {m : ModuleIdentity}
  {n : String} {v e : Visited} {t : SearchTask} {l : SymbolLocation}
  {a : Except LocateError SymbolLocation}

/-! ## Files on the search path -/

/-- The file of the location is that of a module on the search path. -/
def FileOnPath (layout : PackageLayout) (host : Host) (roots : SearchPath) (l : SymbolLocation) :
    Prop :=
  ∃ i found, layout.findModule host roots i = some found ∧ l.file = some found.path

theorem FileOnPath.isAbsent (h : FileOnPath layout host roots l) : l.isAbsent = false := by
  obtain ⟨_, _, -, hfile⟩ := h
  exact isAbsent_of_file hfile

theorem FileOnPath.of_module {found : ModuleFile}
    (hfound : layout.findModule host roots m = some found)
    (h : moduleLocation host m found = .ok l) : FileOnPath layout host roots l :=
  ⟨m, found, hfound, moduleLocation_file h⟩

theorem FileOnPath.of_member {found : ModuleFile}
    (hfound : layout.findModule host roots m = some found) :
    FileOnPath layout host roots (memberFile m n found) :=
  ⟨m, found, hfound, rfl⟩

theorem FileOnPath.of_definition (r : ReadModule layout host roots m)
    (h : r.source.definition? m n = some l) : FileOnPath layout host roots l := by
  obtain ⟨_, _, _, -, hshows⟩ := (r.describesDefinition h).shows
  exact ⟨m, r.file, r.found, by rw [hshows.file_eq, ModuleFile.path_of_code? r.code]⟩

/-- A whole module is absent if it is missing. -/
theorem locateModule_missing (h : layout.findModule host roots m = none) :
    locateModule layout host roots m = .ok .absent := by
  rw [locateModule, h]

theorem locateModule_found {found : ModuleFile}
    (hfound : layout.findModule host roots m = some found)
    (h : locateModule layout host roots m = .ok l) : FileOnPath layout host roots l := by
  rw [locateModule, hfound] at h
  exact .of_module hfound h

/-! ## Moves -/

/-- What the move answers, or knows before it follows leads, has a file on the search path. -/
def SearchMove.Grounded (layout : PackageLayout) (host : Host) (roots : SearchPath) :
    SearchMove → Prop
  | .answer a => ∀ l, a = .ok l → FileOnPath layout host roots l
  | .follow _ known => FileOnPath layout host roots known

theorem SearchMove.of_missing (h : layout.findModule host roots m = none) :
    SearchMove.of layout host roots m n = .answer (.ok .absent) := by
  rw [SearchMove.of, h]

theorem SearchMove.of_found {found : ModuleFile}
    (hfound : layout.findModule host roots m = some found) :
    (SearchMove.of layout host roots m n).Grounded layout host roots := by
  cases Presence.all layout host roots m with
  | missing hmissing => rw [hmissing] at hfound; cases hfound
  | directory found hfound hcode =>
    rw [SearchMove.of, hfound]
    simp only [hcode]
    cases hsub : layout.findModule host roots (m.join n) with
    | some sub => exact fun l h => .of_module hsub h
    | none =>
      rintro l ⟨⟩
      exact .of_member hfound
  | unreadable found path err hfound hcode hload =>
    rw [SearchMove.of, hfound]
    simp only [hcode, hload]
    rintro l ⟨⟩
  | read r =>
    rw [SearchMove.of, r.found]
    simp only [r.code, r.load_eq]
    cases hdefinition : r.source.definition? m n with
    | some l =>
      rintro l ⟨⟩
      exact .of_definition r hdefinition
    | none =>
      cases hsub : layout.findModule host roots (m.join n) with
      | some sub => exact fun l h => .of_module hsub h
      | none =>
        cases r.source.imports with
        | error err => rintro l ⟨⟩
        | ok ds => exact .of_member r.found

theorem SearchMove.fileOnPath (h : SearchMove.of layout host roots m n = .answer (.ok l)) :
    layout.findModule host roots m = none ∧ l.isAbsent = true ∨
      FileOnPath layout host roots l := by
  cases hfound : layout.findModule host roots m with
  | none =>
    cases (of_missing hfound).symm.trans h
    exact .inl ⟨rfl, rfl⟩
  | some found =>
    have hgrounded := of_found (n := n) hfound
    rw [h] at hgrounded
    exact .inr (hgrounded l rfl)

theorem SearchMove.known_fileOnPath {leads : List Lead} {known : SymbolLocation}
    (h : SearchMove.of layout host roots m n = .follow leads known) :
    FileOnPath layout host roots known := by
  cases hfound : layout.findModule host roots m with
  | none => cases (of_missing hfound).symm.trans h
  | some found =>
    have hgrounded := of_found (n := n) hfound
    rw [h] at hgrounded
    exact hgrounded

/-! ## Runs -/

/-- What a run answers is absent or has a file on the search path. -/
theorem SearchRun.fileOnPath (h : SearchRun layout host roots v t e a) :
    ∀ {l : SymbolLocation}, a = .ok l → l.isAbsent = true ∨ FileOnPath layout host roots l := by
  induction h with
  | closed => rintro l ⟨⟩; exact .inl rfl
  | ends _ hmove =>
    rintro l rfl
    exact (SearchMove.fileOnPath hmove).imp_left And.right
  | follows _ hmove _ ih =>
    intro l hl
    obtain ⟨l', rfl, rfl⟩ := map_eq_ok_iff.mp hl
    split
    · exact .inr (SearchMove.known_fileOnPath hmove)
    · exact ih rfl
  | nothing => rintro l ⟨⟩; exact .inl rfl
  | @module v i rest _ =>
    intro l hl
    cases hfound : layout.findModule host roots i with
    | none =>
      cases (locateModule_missing hfound).symm.trans hl
      exact .inl rfl
    | some found => exact .inr (locateModule_found hfound hl)
  | pastModule _ _ _ ih => exact ih
  | member _ _ ih => exact ih
  | pastMember _ _ _ _ ih => exact ih

theorem SearchRun.missing (h : SearchRun layout host roots v (.member m n) e a)
    (hmissing : layout.findModule host roots m = none) : a = .ok .absent := by
  cases h with
  | closed => rfl
  | ends _ hmove => cases (SearchMove.of_missing hmissing).symm.trans hmove; rfl
  | follows _ hmove => cases (SearchMove.of_missing hmissing).symm.trans hmove

/-- The search for a member is absent only if its pair may not be entered or its module is missing:
no branch that leads to nothing makes it so. -/
theorem SearchRun.isAbsent_iff (h : SearchRun layout host roots v (.member m n) e a)
    (hl : a = .ok l) :
    l.isAbsent = true ↔ isClosed v m n = true ∨ layout.findModule host roots m = none := by
  constructor
  · intro habsent
    cases h with
    | closed hclosed => exact .inl hclosed
    | ends _ hmove =>
      subst hl
      obtain ⟨hmissing, -⟩ | hfile := SearchMove.fileOnPath hmove
      · exact .inr hmissing
      · simp [hfile.isAbsent] at habsent
    | follows _ hmove =>
      obtain ⟨l', -, rfl⟩ := map_eq_ok_iff.mp hl
      split at habsent
      · simp [(SearchMove.known_fileOnPath hmove).isAbsent] at habsent
      · contradiction
  · rintro (hclosed | hmissing)
    · cases h with
      | closed => cases hl; rfl
      | ends hopen => simp [hclosed] at hopen
      | follows hopen => simp [hclosed] at hopen
    · cases (h.missing hmissing).symm.trans hl
      rfl

/-! ## Import targets -/

variable {r : ResolvedImport}

/-- A target whose module is missing is absent. -/
theorem locateStatic_missing (h : layout.findModule host roots r.module = none) :
    locateStatic layout host roots r = .ok .absent := by
  obtain ⟨m, symbol⟩ := r
  cases symbol with
  | none => exact locateModule_missing h
  | some n =>
    by_cases hn : n = "*"
    · rw [hn, locateStatic_wildcard]
      simp only [h]
    · obtain ⟨e, hruns⟩ := exists_runs_locateStatic hn
      exact hruns.missing h

/-- A target whose module exists is located nowhere but in a file on the search path. -/
theorem locateStatic_found {found : ModuleFile}
    (hfound : layout.findModule host roots r.module = some found)
    (h : locateStatic layout host roots r = .ok l) : FileOnPath layout host roots l := by
  obtain ⟨m, symbol⟩ := r
  cases symbol with
  | none => exact locateModule_found hfound h
  | some n =>
    by_cases hn : n = "*"
    · rw [hn, locateStatic_wildcard] at h
      simp only [hfound] at h
      cases h
      exact ⟨m, found, hfound, rfl⟩
    · obtain ⟨e, hruns⟩ := exists_runs_locateStatic hn
      refine (hruns.fileOnPath h).resolve_left fun habsent => ?_
      -- nothing was entered before the target itself, so its pair is not what makes it absent
      obtain hclosed | hmissing := (hruns.isAbsent_iff h).mp habsent
      · simp [isClosed, maxEntries] at hclosed
      · simp [hfound] at hmissing

/-- An import target is absent exactly if the search path has nothing for its module. If it has,
the target fails or has a file on the search path, and nothing else fails. -/
theorem locateStatic_isAbsent_iff (r : ResolvedImport) :
    ((∃ l, locateStatic layout host roots r = .ok l ∧ l.isAbsent = true) ↔
      layout.findModule host roots r.module = none) ∧
    (∀ found, layout.findModule host roots r.module = some found →
      (∃ err, locateStatic layout host roots r = .error err) ∨
        ∃ l, locateStatic layout host roots r = .ok l ∧ FileOnPath layout host roots l) ∧
    (∀ err, locateStatic layout host roots r = .error err →
      ∃ found, layout.findModule host roots r.module = some found) := by
  cases hfound : layout.findModule host roots r.module with
  | none =>
    rw [locateStatic_missing hfound]
    refine ⟨⟨fun _ => rfl, fun _ => ⟨_, rfl, rfl⟩⟩, ?_, ?_⟩
    · rintro _ ⟨⟩
    · rintro _ ⟨⟩
  | some found =>
    refine ⟨⟨?_, ?_⟩, fun _ _ => ?_, fun _ _ => ⟨found, rfl⟩⟩
    · rintro ⟨l, hl, habsent⟩
      simp [(locateStatic_found hfound hl).isAbsent] at habsent
    · rintro ⟨⟩
    · cases hl : locateStatic layout host roots r with
      | error err => exact .inl ⟨err, rfl⟩
      | ok l => exact .inr ⟨l, rfl, locateStatic_found hfound hl⟩

/-- Modules that name each other in a ring are no less there for it. -/
theorem locateStatic_isAbsent_iff_ring :
    (∃ l, locateStatic {} ringHost [⟨"/"⟩] ⟨⟨["gone"]⟩, some "x"⟩ = .ok l ∧ l.isAbsent = true) ∧
    (∃ l, locateStatic {} ringHost [⟨"/"⟩] ⟨⟨["ring"]⟩, some "x"⟩ = .ok l ∧
      FileOnPath {} ringHost [⟨"/"⟩] l) ∧
    (∃ err, locateStatic {} ringHost [⟨"/"⟩] ⟨⟨["broken"]⟩, some "oops"⟩ = .error err) ∧
    ∃ found, PackageLayout.findModule {} ringHost [⟨"/"⟩] ⟨["broken"]⟩ = some found := by
  have hring : (locateStatic {} ringHost [⟨"/"⟩] ⟨⟨["ring"]⟩, some "x"⟩).toOption.isSome := by
    decide +kernel
  have hfound : PackageLayout.findModule {} ringHost [⟨"/"⟩] ⟨["ring"]⟩ =
      some (.source ⟨"/ring.py"⟩) := by
    decide +kernel
  obtain ⟨err, hbroken⟩ :
      ∃ err, locateStatic {} ringHost [⟨"/"⟩] ⟨⟨["broken"]⟩, some "oops"⟩ = .error err :=
    exists_error_of_toOption (by decide +kernel)
  refine ⟨(locateStatic_isAbsent_iff _).1.mpr (by decide +kernel), ?_, ⟨err, hbroken⟩,
    (locateStatic_isAbsent_iff _).2.2 err hbroken⟩
  refine ((locateStatic_isAbsent_iff ⟨⟨["ring"]⟩, some "x"⟩).2.1 _ hfound).resolve_left ?_
  rintro ⟨err, herr⟩
  rw [herr] at hring
  cases hring

end ImportContext
