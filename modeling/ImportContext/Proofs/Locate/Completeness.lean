import ImportContext.Proofs.Locate.Search

/-!
# Which re-exports are found

A name that can be reached along re-exports ought to be found. The search does not try all of
them: it takes the first import for the name whose module exists, and an existing module is an
answer even if it knows nothing of the name. Imports of missing modules use up entries as well.
So a name is found when those imports that come first are of missing modules, and they and the
chain behind them fit in the entries of one search.

Results:
* `Definable`: names that can be reached along re-exports.
* `locateStatic_complete`: when exactly a name has a location with source.
* `definable_not_located`: a name that can be reached and is not found.
-/

namespace ImportContext

variable {layout : PackageLayout} {host : Host} {roots : SearchPath} {m : ModuleIdentity}
  {n : String}

/-- The name is defined at the end of a chain of `k` pairs, where some import of each module leads
to the next. -/
inductive Definable (layout : PackageLayout) (host : Host) (roots : SearchPath) :
    Nat → ModuleIdentity → String → Prop
  | here {m : ModuleIdentity} {n : String} (r : ReadModule layout host roots m) :
      r.Defines n → Definable layout host roots 1 m n
  | through {k : Nat} {m i : ModuleIdentity} {n n' : String} (r : ReadModule layout host roots m) :
      ¬ r.Defines n → layout.findModule host roots (m.join n) = none →
      Reexports layout host roots (m, n) (i, n') → Definable layout host roots k i n' →
      Definable layout host roots (k + 1) m n

/-- The module of the lead does not exist. -/
def Lead.isDead (layout : PackageLayout) (host : Host) (roots : SearchPath) : Lead → Bool
  | .module i => (layout.findModule host roots i).isNone
  | .member i _ => (layout.findModule host roots i).isNone

/-- As `Definable`, where each import that is followed is the first for its name whose module
exists. The imports before it count as pairs of the chain. -/
inductive DefinableFirst (layout : PackageLayout) (host : Host) (roots : SearchPath) :
    Nat → ModuleIdentity → String → Prop
  | here {m : ModuleIdentity} {n : String} (r : ReadModule layout host roots m) :
      r.Defines n → DefinableFirst layout host roots 1 m n
  | through {k : Nat} {m i : ModuleIdentity} {n n' : String} {ds : List ImportDeclaration}
      {rest : List Lead} (r : ReadModule layout host roots m) :
      ¬ r.Defines n → layout.findModule host roots (m.join n) = none →
      moduleLevelImports r.body = .ok ds →
      (r.leads n ds).dropWhile (Lead.isDead layout host roots) = .member i n' :: rest →
      DefinableFirst layout host roots k i n' →
      DefinableFirst layout host roots
        (((r.leads n ds).takeWhile (Lead.isDead layout host roots)).length + k + 1) m n

namespace DefinableFirst

theorem pos {k : Nat} (h : DefinableFirst layout host roots k m n) : 0 < k := by
  cases h with
  | here => exact Nat.one_pos
  | through => exact Nat.succ_pos _

theorem found {k : Nat} (h : DefinableFirst layout host roots k m n) :
    ∃ file, layout.findModule host roots m = some file := by
  cases h with
  | here r => exact ⟨_, r.found⟩
  | through r => exact ⟨_, r.found⟩

/-- First imports are imports. -/
theorem definable {k : Nat} (h : DefinableFirst layout host roots k m n) :
    ∃ j, j ≤ k ∧ Definable layout host roots j m n := by
  induction h with
  | here r hdefines => exact ⟨1, Nat.le_refl 1, .here r hdefines⟩
  | @through k m i n n' ds rest r hundefined hsub himports hlead _ ih =>
    obtain ⟨j, hle, hj⟩ := ih
    have hmem : .member i n' ∈ r.leads n ds := by
      apply (List.dropWhile_sublist (Lead.isDead layout host roots)).subset
      rw [hlead]
      exact List.mem_cons_self
    have hstep := Reexports.of_mem_leads r himports hmem
    exact ⟨j + 1, by omega, .through r hundefined hsub hstep hj⟩

/-- The way along first imports is determined, and so is its length. -/
theorem length_unique {j k : Nat} (hj : DefinableFirst layout host roots j m n)
    (hk : DefinableFirst layout host roots k m n) : j = k := by
  induction hj generalizing k with
  | here r hdefines =>
    cases hk with
    | here => rfl
    | through r' hundefined => rw [r.unique r'] at hdefines; exact absurd hdefines hundefined
  | through r hundefined hsub himports hlead _ ih =>
    cases hk with
    | here r' hdefines => rw [r'.unique r] at hdefines; exact absurd hdefines hundefined
    | through r' _ _ himports' hlead' htail =>
      rw [r'.unique r] at himports' hlead' ⊢
      cases Except.ok.inj (himports.symm.trans himports')
      cases hlead.symm.trans hlead'
      rw [ih htail]

/-- The pairs that were entered on the way to a name with `k` pairs to go: each is of a module
that does not exist, or has more pairs to go. -/
def Passed (layout : PackageLayout) (host : Host) (roots : SearchPath) (k : Nat) (v : Visited) :
    Prop :=
  ∀ p ∈ v, layout.findModule host roots p.1 = none ∨
    ∃ j, k < j ∧ DefinableFirst layout host roots j p.1 p.2

/-- The next pair on the way can be entered. -/
theorem isClosed_eq {k : Nat} (h : DefinableFirst layout host roots k m n) {v : Visited}
    (hroom : v.length + k ≤ maxEntries) (hpassed : Passed layout host roots k v) :
    isClosed v m n = false := by
  have hpos := h.pos
  have hnew : (m, n) ∉ v := by
    intro hmem
    rcases hpassed (m, n) hmem with hmissing | ⟨j, hlt, hj⟩
    · obtain ⟨file, hfile⟩ := h.found
      rw [hmissing] at hfile
      cases hfile
    · have heq := hj.length_unique h
      omega
  simp only [isClosed, Bool.or_eq_false_iff, decide_eq_false_iff_not, Nat.not_le]
  refine ⟨by omega, ?_⟩
  rw [Bool.eq_false_iff, ne_eq, List.contains_iff_mem]
  exact hnew

end DefinableFirst

/-- Leads to missing modules are passed over. At most their pairs are entered. -/
theorem firstLive_dropWhile : ∀ (leads : List Lead) (v : Visited), ∃ u : Visited,
    u.length ≤ (leads.takeWhile (Lead.isDead layout host roots)).length ∧
      (∀ p ∈ u, layout.findModule host roots p.1 = none) ∧
      firstLive layout host roots v leads =
        firstLive layout host roots (v ++ u) (leads.dropWhile (Lead.isDead layout host roots)) := by
  intro leads
  induction leads with
  | nil => intro v; exact ⟨[], by simp⟩
  | cons first rest ih =>
    intro v
    by_cases hdead : first.isDead layout host roots = true
    · rw [List.takeWhile_cons_of_pos hdead, List.dropWhile_cons_of_pos hdead, List.length_cons]
      cases first with
      | module i =>
        obtain ⟨u, hlength, hmissing, heq⟩ := ih v
        refine ⟨u, by omega, hmissing, ?_⟩
        rw [firstLive, if_neg (by simpa [Lead.isDead] using hdead), heq]
      | member i n =>
        have hnone : layout.findModule host roots i = none := by simpa [Lead.isDead] using hdead
        rw [firstLive]
        by_cases hopen : isClosed v i n = true
        · obtain ⟨u, hlength, hmissing, heq⟩ := ih v
          rw [if_pos hopen]
          exact ⟨u, by omega, hmissing, heq⟩
        · obtain ⟨u, hlength, hmissing, heq⟩ := ih (v ++ [(i, n)])
          refine ⟨(i, n) :: u, by simpa using hlength, ?_, ?_⟩
          · intro p hp
            rcases List.mem_cons.mp hp with rfl | hp
            · exact hnone
            · exact hmissing p hp
          · rw [if_neg hopen, hnone, if_neg (by simp), heq, List.append_assoc]
            rfl
    · exact ⟨[], by simp, by simp, by rw [List.dropWhile_cons_of_neg hdead, List.append_nil]⟩

/-- Along first imports the search gets to the definition. -/
theorem DefinableFirst.committed {k : Nat} (h : DefinableFirst layout host roots k m n) :
    ∀ {v : Visited}, v.length + k ≤ maxEntries → Passed layout host roots k v →
    ∃ l, Committed layout host roots v m n l := by
  induction h with
  | here r hdefines =>
    intro v hroom hpassed
    have hopen := (DefinableFirst.here r hdefines).isClosed_eq hroom hpassed
    obtain ⟨l, hl⟩ := r.definition?_isSome_iff.mpr hdefines
    exact ⟨l, .definition r hopen hl⟩
  | @through k m i n n' ds rest r hundefined hsub himports hlead htail ih =>
    intro v hroom hpassed
    have hthrough := DefinableFirst.through r hundefined hsub himports hlead htail
    have hopen := hthrough.isClosed_eq hroom hpassed
    -- The list with the pair itself and those of missing modules behind it.
    obtain ⟨u, hlength, hmissing, hlive⟩ := firstLive_dropWhile (r.leads n ds) (v ++ [(m, n)])
    rw [hlead] at hlive
    have hroom' : (v ++ [(m, n)] ++ u).length + k ≤ maxEntries := by
      simp only [List.length_append, List.length_singleton]
      omega
    have hpassed' : Passed layout host roots k (v ++ [(m, n)] ++ u) := by
      intro p hp
      rcases List.mem_append.mp hp with hp | hp
      · rcases List.mem_append.mp hp with hp | hp
        · rcases hpassed p hp with hnone | ⟨j, hlt, hj⟩
          · exact .inl hnone
          · exact .inr ⟨j, by omega, hj⟩
        · rw [List.mem_singleton] at hp
          subst hp
          exact .inr ⟨_, by omega, hthrough⟩
      · exact .inl (hmissing p hp)
    have hopen' := htail.isClosed_eq hroom' hpassed'
    obtain ⟨file, hfile⟩ := htail.found
    rw [firstLive, hopen', if_neg Bool.false_ne_true, hfile, if_pos (by simp)] at hlive
    obtain ⟨l, hl⟩ := ih hroom' hpassed'
    exact ⟨l, .reexport r hopen hundefined hsub himports hlive hl⟩

/-! ## Modules of a given host -/

/-- A module whose file loads was read. -/
theorem exists_readModule {found : ModuleFile} {path : Path} {P : StaticModule → Bool}
    (hfound : layout.findModule host roots m = some found) (hcode : found.code? = some path)
    (hload : (StaticModule.load host m path).toOption.any P = true) :
    ∃ r : ReadModule layout host roots m, r.file = found ∧ r.path = path ∧ P r.source = true := by
  obtain ⟨s, hs, hP⟩ := exists_ok_of_any hload
  obtain ⟨text, body, hread, hparsed, rfl⟩ := StaticModule.load_eq_ok_iff.mp hs
  exact ⟨⟨found, path, text, body, hfound, hcode, hread, hparsed⟩, rfl, rfl, hP⟩

theorem exists_defines (found : ModuleFile) {path : Path}
    (hfound : layout.findModule host roots m = some found) (hcode : found.code? = some path)
    (hload : (StaticModule.load host m path).toOption.any
      (fun s => (s.definition? m n).isSome) = true) :
    ∃ r : ReadModule layout host roots m, r.Defines n := by
  obtain ⟨r, -, -, hdefinition⟩ := exists_readModule hfound hcode hload
  exact ⟨r, r.definition?_isSome_iff.mp (Option.isSome_iff_exists.mp hdefinition)⟩

theorem exists_leads (found : ModuleFile) {path : Path} (leads : List Lead)
    (hfound : layout.findModule host roots m = some found) (hcode : found.code? = some path)
    (hload : (StaticModule.load host m path).toOption.any (fun s => (s.definition? m n).isNone &&
      decide (s.imports.toOption.map (·.filterMap (Lead.of?
        ⟨path, ⟨""⟩, m, found.isPackage⟩ n)) = some leads)) = true) :
    ∃ (r : ReadModule layout host roots m) (ds : List ImportDeclaration), ¬ r.Defines n ∧
      moduleLevelImports r.body = .ok ds ∧ r.leads n ds = leads := by
  obtain ⟨r, rfl, rfl, hr⟩ := exists_readModule hfound hcode hload
  rw [Bool.and_eq_true, Option.isNone_iff_eq_none, decide_eq_true_eq] at hr
  obtain ⟨ds, hds, hleads⟩ := Option.map_eq_some_iff.mp hr.2
  exact ⟨r, ds, r.definition?_eq_none_iff.mp hr.1,
    r.imports_eq_ok_iff.mp (eq_ok_of_toOption hds), hleads⟩

/-! ## Which names are found -/

/-- A name of a module has a location with source exactly if the search, which takes the
definition, else the submodule, else the first live lead, gets to one. It does so for every name
that is defined at the end of a chain of first imports, missing modules counted, of at most 16
pairs; such names are among those that can be reached. -/
theorem locateStatic_complete (hn : n ≠ "*") :
    ((∃ l, locateStatic layout host roots ⟨m, some n⟩ = .ok l ∧ l.hasSource = true) ↔
      ∃ l, Committed layout host roots [] m n l) ∧
    ∀ k, k ≤ 16 → DefinableFirst layout host roots k m n →
      (∃ j, j ≤ k ∧ Definable layout host roots j m n) ∧
      ∃ l, locateStatic layout host roots ⟨m, some n⟩ = .ok l ∧ l.hasSource = true := by
  refine ⟨exists_congr fun l => locateStatic_hasSource_iff hn, ?_⟩
  intro k hk hfirst
  have hpassed : DefinableFirst.Passed layout host roots k [] := by
    intro p hp
    cases hp
  obtain ⟨l, hl⟩ := hfirst.committed (by simpa [maxEntries] using hk) hpassed
  exact ⟨hfirst.definable, l, (locateStatic_hasSource_iff hn).mpr hl⟩

/-- Four modules. Both `shadowed` and `open` take all names of `empty` and of `defining`, in this
and in the other order, and `open` also those of a module that does not exist. -/
def reexportHost : Host :=
  { files := ⟨[
      .file "shadowed.py" "from empty import *\nfrom defining import *\n".toUTF8 false,
      .file "open.py"
        "from gone import *\nfrom defining import *\nfrom empty import *\n".toUTF8 false,
      .file "empty.py" "".toUTF8 false,
      .file "defining.py" "x = 1\n".toUTF8 false]⟩ }

theorem reexportHost_defines :
    ∃ r : ReadModule {} reexportHost [⟨"/"⟩] ⟨["defining"]⟩, r.Defines "x" :=
  exists_defines (.source ⟨"/defining.py"⟩) (by decide +kernel) rfl (by decide +kernel)

theorem reexportHost_leads_open :
    ∃ (r : ReadModule {} reexportHost [⟨"/"⟩] ⟨["open"]⟩) (ds : List ImportDeclaration),
      ¬ r.Defines "x" ∧ moduleLevelImports r.body = .ok ds ∧ r.leads "x" ds =
        [.member ⟨["gone"]⟩ "x", .member ⟨["defining"]⟩ "x", .member ⟨["empty"]⟩ "x"] :=
  exists_leads (.source ⟨"/open.py"⟩) _ (by decide +kernel) rfl (by decide +kernel)

theorem reexportHost_leads_shadowed :
    ∃ (r : ReadModule {} reexportHost [⟨"/"⟩] ⟨["shadowed"]⟩) (ds : List ImportDeclaration),
      ¬ r.Defines "x" ∧ moduleLevelImports r.body = .ok ds ∧ r.leads "x" ds =
        [.member ⟨["empty"]⟩ "x", .member ⟨["defining"]⟩ "x"] :=
  exists_leads (.source ⟨"/shadowed.py"⟩) _ (by decide +kernel) rfl (by decide +kernel)

theorem definableFirst_open : DefinableFirst {} reexportHost [⟨"/"⟩] 3 ⟨["open"]⟩ "x" := by
  obtain ⟨r', hdefines⟩ := reexportHost_defines
  obtain ⟨r, ds, hundefined, himports, hleads⟩ := reexportHost_leads_open
  have hlead : (r.leads "x" ds).dropWhile (Lead.isDead {} reexportHost [⟨"/"⟩]) =
      [.member ⟨["defining"]⟩ "x", .member ⟨["empty"]⟩ "x"] := by
    rw [hleads]
    decide +kernel
  have hcount : ((r.leads "x" ds).takeWhile (Lead.isDead {} reexportHost [⟨"/"⟩])).length = 1 := by
    rw [hleads]
    decide +kernel
  have hfirst := DefinableFirst.through r hundefined (by decide +kernel) himports hlead
    (.here r' hdefines)
  rw [hcount] at hfirst
  exact hfirst

theorem locateStatic_complete_open :
    DefinableFirst {} reexportHost [⟨"/"⟩] 3 ⟨["open"]⟩ "x" ∧
      ∃ l, locateStatic {} reexportHost [⟨"/"⟩] ⟨⟨["open"]⟩, some "x"⟩ = .ok l ∧
        l.hasSource = true :=
  ⟨definableFirst_open,
    ((locateStatic_complete (by decide)).2 3 (by decide) definableFirst_open).2⟩

/-- What is said of the name of `shadowed`: a file without source. -/
def shadowedLocation : SymbolLocation :=
  { file := some ⟨"/empty.py"⟩, qualifiedName := some "empty.x" }

/-- A name that is defined two pairs away is not found behind a module that does not know it. -/
theorem definable_not_located :
    Definable {} reexportHost [⟨"/"⟩] 2 ⟨["shadowed"]⟩ "x" ∧
      locateStatic {} reexportHost [⟨"/"⟩] ⟨⟨["shadowed"]⟩, some "x"⟩ = .ok shadowedLocation ∧
      shadowedLocation.hasSource = false := by
  obtain ⟨r', hdefines⟩ := reexportHost_defines
  obtain ⟨r, ds, hundefined, himports, hleads⟩ := reexportHost_leads_shadowed
  have hstep : Reexports {} reexportHost [⟨"/"⟩] (⟨["shadowed"]⟩, "x") (⟨["defining"]⟩, "x") := by
    apply Reexports.of_mem_leads r himports
    rw [hleads]
    exact List.mem_cons_of_mem _ List.mem_cons_self
  refine ⟨?_, eq_ok_of_toOption (by decide +kernel), rfl⟩
  exact .through r hundefined (by decide +kernel) hstep (.here r' hdefines)

end ImportContext
