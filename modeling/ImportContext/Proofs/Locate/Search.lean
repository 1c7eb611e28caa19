import ImportContext.Proofs.Locate.Excerpt

/-!
# The search for a member

A search that enters a pair of module and name looks at the module's file, at a submodule of the
name, and at what the module's imports lead to. Of the leads it takes the first that is live: one
whose module exists and whose pair may still be entered. What it finds there is final; no other
lead is tried.

Results:
* `searchMember_closed`, `searchMember_missing`, `searchMember_directory`,
  `searchMember_unreadable`, `searchMember_read`: what a search does with a pair, case by case.
* `followLeads_eq_firstLive`: following leads means taking the first live one.
* `locateStatic_hasSource_iff`: the locations with source, as a relation.
-/

namespace ImportContext

open Source (Statement)

variable {layout : PackageLayout} {host : Host} {roots : SearchPath} {m : ModuleIdentity}
  {n : String}

/-! ## Where imports lead -/

/-- The module as its relative imports see it. -/
def ReadModule.importer (r : ReadModule layout host roots m) : ModuleLocation :=
  { sourceFile := r.path, root := ⟨""⟩, identity := m, isPackage := r.file.isPackage }

/-- The declaration is one of the module's imports outside functions and classes. -/
def ReadModule.Imports (r : ReadModule layout host roots m) (d : ImportDeclaration) : Prop :=
  ∃ ds, moduleLevelImports r.body = .ok ds ∧ d ∈ ds

/-- One step along a re-export: from a name of a module to the name that an import of the module
takes it from. -/
inductive Reexports (layout : PackageLayout) (host : Host) (roots : SearchPath) :
    ModuleIdentity × String → ModuleIdentity × String → Prop
  | named {m : ModuleIdentity} {n : String} (r : ReadModule layout host roots m) (d : FromImport)
      (i : ResolvedImport) : r.Imports (.member d) → d.isWildcard = false → d.boundName = n →
      PackageLayout.resolve r.importer (.member d) = .ok i →
      Reexports layout host roots (m, n) (i.module, d.symbol)
  | wildcard {m : ModuleIdentity} {n : String} (r : ReadModule layout host roots m)
      (d : FromImport) (i : ResolvedImport) : r.Imports (.member d) → d.isWildcard = true →
      PackageLayout.resolve r.importer (.member d) = .ok i →
      Reexports layout host roots (m, n) (i.module, n)

/-- A plain import of the module binds a module to the name: the whole path to an alias, else the
first segment of the path to itself. -/
def BindsModule (layout : PackageLayout) (host : Host) (roots : SearchPath) (m : ModuleIdentity)
    (n : String) (i : ModuleIdentity) : Prop :=
  ∃ (r : ReadModule layout host roots m) (d : PlainImport), r.Imports (.plain d) ∧
    d.boundName = n ∧ i = if d.asName.isSome then .parse d.modulePath else .parse n

theorem Reexports.of_lead {r : ReadModule layout host roots m} {d : ImportDeclaration}
    (hd : r.Imports d) {i : ModuleIdentity} {n' : String}
    (h : Lead.of? r.importer n d = some (.member i n')) :
    Reexports layout host roots (m, n) (i, n') := by
  unfold Lead.of? at h
  split at h
  · cases h
  · next resolved hresolved =>
    split at h
    · split at h <;> cases h
    · next d' =>
      split at h
      · next hw =>
        cases h
        exact .wildcard r d' resolved hd hw hresolved
      · next hw =>
        split at h
        · next hn =>
          cases h
          exact .named r d' resolved hd (by simpa using hw) (by simpa using hn) hresolved
        · cases h

theorem BindsModule.of_lead {r : ReadModule layout host roots m} {d : ImportDeclaration}
    (hd : r.Imports d) {i : ModuleIdentity} (h : Lead.of? r.importer n d = some (.module i)) :
    BindsModule layout host roots m n i := by
  unfold Lead.of? at h
  split at h
  · cases h
  · next resolved hresolved =>
    split at h
    · next p =>
      split at h
      · next hn =>
        cases h
        cases hresolved
        exact ⟨r, p, hd, by simpa using hn, rfl⟩
      · cases h
    · split at h
      · cases h
      · split at h <;> cases h

/-- The leads of a module for a name, in the order of its imports. -/
def ReadModule.leads (r : ReadModule layout host roots m) (n : String)
    (ds : List ImportDeclaration) : List Lead :=
  ds.filterMap (Lead.of? r.importer n)

theorem Reexports.of_mem_leads (r : ReadModule layout host roots m) {ds : List ImportDeclaration}
    (hds : moduleLevelImports r.body = .ok ds) {i : ModuleIdentity} {n' : String}
    (h : .member i n' ∈ r.leads n ds) : Reexports layout host roots (m, n) (i, n') := by
  obtain ⟨d, hd, hlead⟩ := List.mem_filterMap.mp h
  exact .of_lead ⟨ds, hds, hd⟩ hlead

theorem BindsModule.of_mem_leads (r : ReadModule layout host roots m)
    {ds : List ImportDeclaration} (hds : moduleLevelImports r.body = .ok ds) {i : ModuleIdentity}
    (h : .module i ∈ r.leads n ds) : BindsModule layout host roots m n i := by
  obtain ⟨d, hd, hlead⟩ := List.mem_filterMap.mp h
  exact .of_lead ⟨ds, hds, hd⟩ hlead

/-! ## The first live lead -/

/-- The pair may not be entered: it was entered before, or too many pairs were. -/
def isClosed (v : Visited) (m : ModuleIdentity) (n : String) : Bool :=
  maxEntries ≤ v.length || v.contains (m, n)

/-- A pair that may be entered leaves room for one more. -/
theorem length_lt_of_isClosed {v : Visited} (h : isClosed v m n = false) :
    v.length < maxEntries := by
  simp [isClosed] at h
  exact h.1

/-- A search that may enter a pair, with fuel for all entries, has some fuel left. -/
theorem exists_fuel {f : Nat} {v : Visited} (hopen : isClosed v m n = false)
    (hfuel : maxEntries < f + v.length) : ∃ g, f = g + 1 := by
  have hroom := length_lt_of_isClosed hopen
  exact ⟨f - 1, by omega⟩

/-- The first lead whose module exists and whose pair may still be entered, with the pairs that
were entered on the way to it. -/
def firstLive (layout : PackageLayout) (host : Host) (roots : SearchPath) :
    Visited → List Lead → Option Lead × Visited
  | v, [] => (none, v)
  | v, .module i :: rest =>
    if (layout.findModule host roots i).isSome then (some (.module i), v)
    else firstLive layout host roots v rest
  | v, .member i n :: rest =>
    if isClosed v i n then firstLive layout host roots v rest
    else if (layout.findModule host roots i).isSome then (some (.member i n), v)
    else firstLive layout host roots (v ++ [(i, n)]) rest

theorem firstLive_mem {lead : Lead} : ∀ {leads : List Lead} {v v' : Visited},
    firstLive layout host roots v leads = (some lead, v') → lead ∈ leads := by
  intro leads
  induction leads with
  | nil => intro v v' h; cases h
  | cons first rest ih =>
    intro v v' h
    cases first with
    | module i =>
      rw [firstLive] at h
      split at h
      · cases h; simp
      · exact List.mem_cons_of_mem _ (ih h)
    | member i n =>
      rw [firstLive] at h
      split at h
      · exact List.mem_cons_of_mem _ (ih h)
      · split at h
        · cases h; simp
        · exact List.mem_cons_of_mem _ (ih h)

/-- On the way to a live lead pairs are only added. -/
theorem firstLive_length_le {o : Option Lead} : ∀ {leads : List Lead} {v v' : Visited},
    firstLive layout host roots v leads = (o, v') → v.length ≤ v'.length := by
  intro leads
  induction leads with
  | nil => intro v v' h; cases h; exact Nat.le_refl _
  | cons first rest ih =>
    intro v v' h
    cases first with
    | module i =>
      rw [firstLive] at h
      split at h
      · cases h; exact Nat.le_refl _
      · exact ih h
    | member i n =>
      rw [firstLive] at h
      split at h
      · exact ih h
      · split at h
        · cases h; exact Nat.le_refl _
        · have := ih h
          simp at this
          omega

/-! ## One search -/

/-- What a search path has for a module. -/
inductive Presence (layout : PackageLayout) (host : Host) (roots : SearchPath)
    (m : ModuleIdentity) : Prop
  | missing : layout.findModule host roots m = none → Presence layout host roots m
  | directory (found : ModuleFile) : layout.findModule host roots m = some found →
      found.code? = none → Presence layout host roots m
  | unreadable (found : ModuleFile) (path : Path) (e : LocateError) :
      layout.findModule host roots m = some found → found.code? = some path →
      StaticModule.load host m path = .error e → Presence layout host roots m
  | read (r : ReadModule layout host roots m) : Presence layout host roots m

theorem Presence.all (layout : PackageLayout) (host : Host) (roots : SearchPath)
    (m : ModuleIdentity) : Presence layout host roots m := by
  cases hfound : layout.findModule host roots m with
  | none => exact .missing hfound
  | some found =>
    cases hcode : found.code? with
    | none => exact .directory found hfound hcode
    | some path =>
      cases hload : StaticModule.load host m path with
      | error e => exact .unreadable found path e hfound hcode hload
      | ok s =>
        obtain ⟨text, body, hread, hparsed, -⟩ := StaticModule.load_eq_ok_iff.mp hload
        exact .read ⟨found, path, text, body, hfound, hcode, hread, hparsed⟩

section SearchMember

variable {f : Nat} {v : Visited}

/-- A pair that may not be entered is absent. -/
theorem searchMember_closed (h : isClosed v m n = true) :
    searchMember layout host roots f v m n = .ok (.absent, v) := by
  cases f with
  | zero => rfl
  | succ f => exact if_pos h

/-- A member of a module that does not exist is absent, and its pair counts as entered. -/
theorem searchMember_missing (hopen : isClosed v m n = false)
    (hfound : layout.findModule host roots m = none) :
    searchMember layout host roots (f + 1) v m n = .ok (.absent, v ++ [(m, n)]) := by
  rw [searchMember, if_neg (by simpa [isClosed] using hopen), hfound]

/-- What is known of a name that a module does not lead to: the file of the module. -/
def memberFile (m : ModuleIdentity) (n : String) (found : ModuleFile) : SymbolLocation :=
  { SymbolLocation.fileOnly found.path with qualifiedName := some (m.join n).text }

/-- A member of a directory is a submodule or nothing but the directory. -/
theorem searchMember_directory (hopen : isClosed v m n = false) {found : ModuleFile}
    (hfound : layout.findModule host roots m = some found) (hcode : found.code? = none) :
    searchMember layout host roots (f + 1) v m n =
      match layout.findModule host roots (m.join n) with
      | some sub => (moduleLocation host (m.join n) sub).map fun l => (l, v ++ [(m, n)])
      | none => .ok (memberFile m n found, v ++ [(m, n)]) := by
  rw [searchMember, if_neg (by simpa [isClosed] using hopen), hfound]
  simp only [hcode]
  rfl

/-- A module that cannot be loaded ends the search. -/
theorem searchMember_unreadable (hopen : isClosed v m n = false) {found : ModuleFile}
    (hfound : layout.findModule host roots m = some found) {path : Path}
    (hcode : found.code? = some path) {e : LocateError}
    (hload : StaticModule.load host m path = .error e) :
    searchMember layout host roots (f + 1) v m n = .error e := by
  rw [searchMember, if_neg (by simpa [isClosed] using hopen), hfound]
  simp only [hcode, hload]
  rfl

/-- A member of a module with code is its last definition, else a submodule, else what its imports
lead to, else nothing but the file. -/
theorem searchMember_read (hopen : isClosed v m n = false) (r : ReadModule layout host roots m) :
    searchMember layout host roots (f + 1) v m n =
      match r.source.definition? m n with
      | some l => .ok (l, v ++ [(m, n)])
      | none =>
        match layout.findModule host roots (m.join n) with
        | some sub => (moduleLocation host (m.join n) sub).map fun l => (l, v ++ [(m, n)])
        | none =>
          r.source.imports >>= fun ds =>
            (followLeads layout host roots (searchMember layout host roots f) (v ++ [(m, n)])
              (r.leads n ds)).map fun p => (p.1.getD (memberFile m n r.file), p.2) := by
  rw [searchMember, if_neg (by simpa [isClosed] using hopen), r.found]
  simp only [r.code, r.load_eq]
  rfl

end SearchMember

/-! ## Following leads -/

/-- A location that leads are followed to is one. -/
theorem followLeads_isAbsent
    {search : Visited → ModuleIdentity → String → Except LocateError (SymbolLocation × Visited)}
    {l : SymbolLocation} : ∀ {leads : List Lead} {v v' : Visited},
    followLeads layout host roots search v leads = .ok (some l, v') → l.isAbsent = false := by
  intro leads
  induction leads with
  | nil => intro v v' h; cases h
  | cons lead rest ih =>
    intro v v' h
    have hanswer : ∃ l' v₁, (if l'.isAbsent then followLeads layout host roots search v₁ rest
        else .ok (some l', v₁)) = .ok (some l, v') := by
      cases lead with
      | module i =>
        obtain ⟨p, -, h⟩ := bind_eq_ok_iff.mp h
        exact ⟨p.1, p.2, h⟩
      | member i n =>
        obtain ⟨p, -, h⟩ := bind_eq_ok_iff.mp h
        exact ⟨p.1, p.2, h⟩
    obtain ⟨l', v₁, h⟩ := hanswer
    split at h
    · exact ih h
    · next habsent => cases h; simpa using habsent

theorem isAbsent_of_file {l : SymbolLocation} {file : Path} (h : l.file = some file) :
    l.isAbsent = false := by
  simp [SymbolLocation.isAbsent, h]

/-- A search that enters a module that exists finds something, if only the file. -/
theorem searchMember_isAbsent {f : Nat} {v v' : Visited} (hopen : isClosed v m n = false)
    {found : ModuleFile} (hfound : layout.findModule host roots m = some found)
    {l : SymbolLocation} (h : searchMember layout host roots (f + 1) v m n = .ok (l, v')) :
    l.isAbsent = false := by
  cases Presence.all layout host roots m with
  | missing hmissing => rw [hmissing] at hfound; cases hfound
  | directory found hfound hcode =>
    rw [searchMember_directory hopen hfound hcode] at h
    split at h
    · obtain ⟨l', hl, h⟩ := map_eq_ok_iff.mp h
      cases h
      exact isAbsent_of_file (moduleLocation_file hl)
    · cases h; rfl
  | unreadable found path e hfound hcode hload =>
    rw [searchMember_unreadable hopen hfound hcode hload] at h; cases h
  | read r =>
    rw [searchMember_read hopen r] at h
    split at h
    · next hdefinition =>
      cases h
      obtain ⟨_, _, _, -, hshows⟩ := (r.describesDefinition hdefinition).shows
      exact isAbsent_of_file hshows.file_eq
    · split at h
      · obtain ⟨l', hl, h⟩ := map_eq_ok_iff.mp h
        cases h
        exact isAbsent_of_file (moduleLocation_file hl)
      · obtain ⟨ds, -, h⟩ := bind_eq_ok_iff.mp h
        obtain ⟨⟨o, v₁⟩, hleads, h⟩ := map_eq_ok_iff.mp h
        cases h
        cases o with
        | none => rfl
        | some l => exact followLeads_isAbsent hleads

/-- Following leads means taking the first live one, and what it gives is final. -/
theorem followLeads_eq_firstLive {f : Nat} : ∀ (leads : List Lead) (v : Visited),
    maxEntries < f + v.length →
    followLeads layout host roots (searchMember layout host roots f) v leads =
      match firstLive layout host roots v leads with
      | (none, v') => .ok (none, v')
      | (some (.module i), v') => (locateModule layout host roots i).map fun l => (some l, v')
      | (some (.member i n), v') =>
        (searchMember layout host roots f v' i n).map fun p => (some p.1, p.2) := by
  intro leads
  induction leads with
  | nil => intro v _; rfl
  | cons first rest ih =>
    intro v hfuel
    cases first with
    | module i =>
      rw [followLeads, firstLive]
      cases hfound : layout.findModule host roots i with
      | none =>
        simp only [locateModule, hfound]
        exact ih v hfuel
      | some found =>
        simp only [locateModule, hfound, Option.isSome_some, if_true]
        cases hl : moduleLocation host i found with
        | error e => rfl
        | ok l =>
          have habsent := isAbsent_of_file (moduleLocation_file hl)
          simp [Except.map, bind, Except.bind, habsent]
    | member i n =>
      rw [followLeads, firstLive]
      by_cases hopen : isClosed v i n = true
      · simp only [searchMember_closed hopen, hopen, if_true]
        exact ih v hfuel
      · rw [Bool.not_eq_true] at hopen
        obtain ⟨g, rfl⟩ := exists_fuel hopen hfuel
        cases hfound : layout.findModule host roots i with
        | none =>
          simp only [searchMember_missing hopen hfound, hopen, Option.isSome_none]
          exact ih _ (by simp; omega)
        | some found =>
          simp only [hopen, Option.isSome_some, if_true]
          cases hl : searchMember layout host roots (g + 1) v i n with
          | error e => simp [hl, Except.map, bind, Except.bind]
          | ok p =>
            have habsent := searchMember_isAbsent hopen hfound hl
            simp [hl, Except.map, bind, Except.bind, habsent]

/-! ## Locations with source -/

/-- The module exists and does not define the name itself: it is a directory, or its code binds
other names. -/
def LacksDefinition (layout : PackageLayout) (host : Host) (roots : SearchPath)
    (m : ModuleIdentity) (n : String) : Prop :=
  (∃ found, layout.findModule host roots m = some found ∧ found.code? = none) ∨
    ∃ r : ReadModule layout host roots m, ¬ r.Defines n

/-- The module exists and its whole text is shown. -/
def ShownWhole (layout : PackageLayout) (host : Host) (roots : SearchPath) (i : ModuleIdentity)
    (l : SymbolLocation) : Prop :=
  locateModule layout host roots i = .ok l ∧ l.hasSource = true

theorem ShownWhole.moduleLocation_eq {i : ModuleIdentity} {l : SymbolLocation}
    (h : ShownWhole layout host roots i l) : ∃ found,
    layout.findModule host roots i = some found ∧ moduleLocation host i found = .ok l := by
  obtain ⟨hl, hs⟩ := h
  unfold locateModule at hl
  split at hl
  · next found hfound => exact ⟨found, hfound, hl⟩
  · cases hl; cases hs

/-- A search that has entered the pairs `v` gets from a name of a module to a location with
source. At every module it commits itself to one way: the definition, else the submodule, else
the first live lead. -/
inductive Committed (layout : PackageLayout) (host : Host) (roots : SearchPath) :
    Visited → ModuleIdentity → String → SymbolLocation → Prop
  | definition {v : Visited} {m : ModuleIdentity} {n : String} {l : SymbolLocation}
      (r : ReadModule layout host roots m) : isClosed v m n = false →
      r.source.definition? m n = some l → Committed layout host roots v m n l
  | submodule {v : Visited} {m : ModuleIdentity} {n : String} {l : SymbolLocation} :
      isClosed v m n = false → LacksDefinition layout host roots m n →
      ShownWhole layout host roots (m.join n) l → Committed layout host roots v m n l
  | bound {v v' : Visited} {m i : ModuleIdentity} {n : String} {l : SymbolLocation}
      {ds : List ImportDeclaration} (r : ReadModule layout host roots m) :
      isClosed v m n = false → ¬ r.Defines n → layout.findModule host roots (m.join n) = none →
      moduleLevelImports r.body = .ok ds →
      firstLive layout host roots (v ++ [(m, n)]) (r.leads n ds) = (some (.module i), v') →
      ShownWhole layout host roots i l → Committed layout host roots v m n l
  | reexport {v v' : Visited} {m i : ModuleIdentity} {n n' : String} {l : SymbolLocation}
      {ds : List ImportDeclaration} (r : ReadModule layout host roots m) :
      isClosed v m n = false → ¬ r.Defines n → layout.findModule host roots (m.join n) = none →
      moduleLevelImports r.body = .ok ds →
      firstLive layout host roots (v ++ [(m, n)]) (r.leads n ds) = (some (.member i n'), v') →
      Committed layout host roots v' i n' l → Committed layout host roots v m n l

theorem ReadModule.imports_eq_ok_iff (r : ReadModule layout host roots m)
    {ds : List ImportDeclaration} :
    r.source.imports = .ok ds ↔ moduleLevelImports r.body = .ok ds := by
  unfold StaticModule.imports
  simp only [ReadModule.source]
  split <;> simp [*]

theorem ReadModule.definition?_eq_none_iff (r : ReadModule layout host roots m) :
    r.source.definition? m n = none ↔ ¬ r.Defines n := by
  rw [← r.definition?_isSome_iff]
  cases r.source.definition? m n <;> simp

/-- A search with enough fuel gives a location with source only by committing itself to it. -/
theorem searchMember_commits {l : SymbolLocation} (hs : l.hasSource = true) :
    ∀ {f : Nat} {v v' : Visited} {m : ModuleIdentity} {n : String}, maxEntries < f + v.length →
    searchMember layout host roots f v m n = .ok (l, v') →
    Committed layout host roots v m n l := by
  intro f
  induction f with
  | zero => intro v v' m n _ h; cases h; cases hs
  | succ f ih =>
    intro v v' m n hfuel h
    by_cases hopen : isClosed v m n = true
    · rw [searchMember_closed hopen] at h; cases h; cases hs
    rw [Bool.not_eq_true] at hopen
    cases Presence.all layout host roots m with
    | missing hfound => rw [searchMember_missing hopen hfound] at h; cases h; cases hs
    | directory found hfound hcode =>
      rw [searchMember_directory hopen hfound hcode] at h
      split at h
      · next sub hsub =>
        obtain ⟨l', hl, h⟩ := map_eq_ok_iff.mp h
        cases h
        exact .submodule hopen (.inl ⟨found, hfound, hcode⟩)
          ⟨by simpa [locateModule, hsub] using hl, hs⟩
      · cases h; cases hs
    | unreadable found path e hfound hcode hload =>
      rw [searchMember_unreadable hopen hfound hcode hload] at h; cases h
    | read r =>
      rw [searchMember_read hopen r] at h
      split at h
      · next hdefinition => cases h; exact .definition r hopen hdefinition
      next hdefinition =>
      have hundefined := r.definition?_eq_none_iff.mp hdefinition
      split at h
      · next sub hsub =>
        obtain ⟨l', hl, h⟩ := map_eq_ok_iff.mp h
        cases h
        exact .submodule hopen (.inr ⟨r, hundefined⟩)
          ⟨by simpa [locateModule, hsub] using hl, hs⟩
      next hsub =>
      obtain ⟨ds, hds, h⟩ := bind_eq_ok_iff.mp h
      obtain ⟨⟨o, u⟩, hleads, h⟩ := map_eq_ok_iff.mp h
      have himports := r.imports_eq_ok_iff.mp hds
      rw [followLeads_eq_firstLive _ _ (by simp; omega)] at hleads
      split at hleads
      · cases hleads; cases h; cases hs
      · next i v₁ hlive =>
        obtain ⟨l', hl, hleads⟩ := map_eq_ok_iff.mp hleads
        cases hleads
        cases h
        exact .bound r hopen hundefined hsub himports hlive ⟨hl, hs⟩
      · next i n' v₁ hlive =>
        obtain ⟨⟨l', v₂⟩, hl, hleads⟩ := map_eq_ok_iff.mp hleads
        cases hleads
        cases h
        have hle := firstLive_length_le hlive
        simp at hle
        exact .reexport r hopen hundefined hsub himports hlive (ih (by omega) hl)

/-- A search with enough fuel gives every location that it can commit itself to. -/
theorem Committed.searchMember_eq {v : Visited} {l : SymbolLocation}
    (h : Committed layout host roots v m n l) : ∀ {f : Nat}, maxEntries < f + v.length →
    l.hasSource = true ∧ ∃ v', searchMember layout host roots f v m n = .ok (l, v') := by
  induction h with
  | definition r hopen hdefinition =>
    intro f hfuel
    obtain ⟨f, rfl⟩ := exists_fuel hopen hfuel
    obtain ⟨_, _, _, -, hshows⟩ := (r.describesDefinition hdefinition).shows
    rw [searchMember_read hopen r, hdefinition]
    exact ⟨hshows.hasSource, _, rfl⟩
  | submodule hopen hlacks hwhole =>
    intro f hfuel
    obtain ⟨f, rfl⟩ := exists_fuel hopen hfuel
    obtain ⟨sub, hsub, hl⟩ := hwhole.moduleLocation_eq
    refine ⟨hwhole.2, ?_⟩
    rcases hlacks with ⟨found, hfound, hcode⟩ | ⟨r, hundefined⟩
    · rw [searchMember_directory hopen hfound hcode, hsub]
      simp only [hl]
      exact ⟨_, rfl⟩
    · rw [searchMember_read hopen r, r.definition?_eq_none_iff.mpr hundefined, hsub]
      simp only [hl]
      exact ⟨_, rfl⟩
  | @bound v v' _ _ _ _ _ r hopen hundefined hsub himports hlive hwhole =>
    intro f hfuel
    obtain ⟨f, rfl⟩ := exists_fuel hopen hfuel
    refine ⟨hwhole.2, v', ?_⟩
    rw [searchMember_read hopen r, r.definition?_eq_none_iff.mpr hundefined, hsub,
      r.imports_eq_ok_iff.mpr himports]
    refine bind_eq_ok_iff.mpr ⟨_, rfl, ?_⟩
    rw [followLeads_eq_firstLive _ _ (by simp; omega), hlive]
    simp only [hwhole.1]
    rfl
  | reexport r hopen hundefined hsub himports hlive _ ih =>
    intro f hfuel
    obtain ⟨f, rfl⟩ := exists_fuel hopen hfuel
    have hle := firstLive_length_le hlive
    simp at hle
    obtain ⟨hs, v', hl⟩ := ih (f := f) (by omega)
    refine ⟨hs, v', ?_⟩
    rw [searchMember_read hopen r, r.definition?_eq_none_iff.mpr hundefined, hsub,
      r.imports_eq_ok_iff.mpr himports]
    refine bind_eq_ok_iff.mpr ⟨_, rfl, ?_⟩
    rw [followLeads_eq_firstLive _ _ (by simp; omega), hlive]
    simp only [hl]
    rfl

/-- A wildcard is located by the file of the module alone. -/
theorem locateStatic_wildcard : locateStatic layout host roots ⟨m, some "*"⟩ =
    match layout.findModule host roots m with
    | some found => .ok { SymbolLocation.fileOnly found.path with qualifiedName := some m.text }
    | none => .ok .absent := rfl

/-- A member is located by a search that has entered no pairs yet. -/
theorem locateStatic_member (hn : n ≠ "*") : locateStatic layout host roots ⟨m, some n⟩ =
    (searchMember layout host roots (maxEntries + 1) [] m n).map (·.1) := by
  unfold locateStatic
  exact if_neg (by simpa using hn)

/-- The locations with source of a member are those that the search from it commits itself to. -/
theorem locateStatic_hasSource_iff {l : SymbolLocation} (hn : n ≠ "*") :
    (locateStatic layout host roots ⟨m, some n⟩ = .ok l ∧ l.hasSource = true) ↔
      Committed layout host roots [] m n l := by
  rw [locateStatic_member hn, map_eq_ok_iff]
  constructor
  · rintro ⟨⟨p, h, rfl⟩, hs⟩
    exact searchMember_commits hs (by simp) h
  · intro h
    obtain ⟨hs, v', hl⟩ := h.searchMember_eq (f := maxEntries + 1) (by simp)
    exact ⟨⟨(l, v'), hl, rfl⟩, hs⟩

end ImportContext
