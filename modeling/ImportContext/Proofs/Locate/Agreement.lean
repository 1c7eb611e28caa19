import ImportContext.Proofs.Import.Written
import ImportContext.Proofs.Locate.Search
import ImportContext.Proofs.Module.Agreement
import ImportContext.Proofs.Module.Relative

/-!
# Searches on hosts that agree

A search asks for modules by identities whose segments come from the directories of the source file
and from words of import statements, so it stays below its search roots. Hosts that agree there
give the same location, or the same error.

Results:
* `resolve_isPlain`: targets of imports can be looked for by names of files.
* `searchMember_congr`: a search depends on what is below its search roots.
* `locateStatic_congr`: so does the location of an import target.
-/

namespace ImportContext

variable {h s : Host} {layout : PackageLayout} {roots : SearchPath} {m : ModuleIdentity}
  {n : String}

/-! ## Targets -/

theorem resolveRelative_isPlain {current : ModuleLocation} {depth : Nat} {path : String}
    (hcurrent : ∀ n ∈ current.packageSegments, Path.IsName n) (hpath : '/' ∉ path.toList)
    (hm : PackageLayout.resolveRelative current depth path = .ok m) : m.IsPlain := by
  by_cases hdepth : depth = 0
  · rw [PackageLayout.resolveRelative, if_pos hdepth] at hm
    cases hm
    exact ModuleIdentity.isPlain_parse hpath
  · obtain ⟨-, rfl⟩ := PackageLayout.resolveRelative_eq_ok (by omega) hm
    refine ModuleIdentity.IsPlain.join (fun n hn => ?_) hpath
    exact hcurrent n (List.mem_of_mem_take hn)

/-- Targets of imports can be looked for by names of files. -/
theorem resolve_isPlain {current : ModuleLocation} {d : ImportDeclaration} {r : ResolvedImport}
    (hcurrent : ∀ n ∈ current.packageSegments, Path.IsName n) (hd : d.Written)
    (hr : PackageLayout.resolve current d = .ok r) :
    r.module.IsPlain ∧ ∀ symbol ∈ r.symbol, '/' ∉ symbol.toList := by
  have hpath := hd.slash_not_mem_modulePath
  cases d with
  | plain d =>
    cases hr
    exact ⟨ModuleIdentity.isPlain_parse hpath, by simp⟩
  | member d =>
    have hsymbol := hd.slash_not_mem_symbol
    rw [PackageLayout.resolve] at hr
    split at hr
    · obtain ⟨module, hmodule, hr⟩ := bind_eq_ok_iff.mp hr
      cases hr
      exact ⟨resolveRelative_isPlain hcurrent hpath hmodule, by simpa using hsymbol⟩
    · cases hr
      exact ⟨ModuleIdentity.isPlain_parse hpath, by simpa using hsymbol⟩

/-- A lead to something that can be looked for by names of files. -/
def Lead.IsPlain : Lead → Prop
  | .module i => i.IsPlain
  | .member i n => i.IsPlain ∧ '/' ∉ n.toList

theorem Lead.isPlain {current : ModuleLocation} {d : ImportDeclaration} {lead : Lead}
    (hcurrent : ∀ n ∈ current.packageSegments, Path.IsName n) (hd : d.Written)
    (hn : '/' ∉ n.toList) (hlead : Lead.of? current n d = some lead) : lead.IsPlain := by
  rw [Lead.of?] at hlead
  cases hr : PackageLayout.resolve current d with
  | error e =>
    simp only [hr] at hlead
    cases hlead
  | ok r =>
    simp only [hr] at hlead
    obtain ⟨hmodule, -⟩ := resolve_isPlain hcurrent hd hr
    cases d with
    | plain d =>
      dsimp only at hlead
      split at hlead
      · cases hlead
        split
        · exact hmodule
        · exact ModuleIdentity.isPlain_parse hn
      · cases hlead
    | member d =>
      dsimp only at hlead
      split at hlead
      · cases hlead
        exact ⟨hmodule, hn⟩
      · split at hlead
        · cases hlead
          exact ⟨hmodule, hd.slash_not_mem_symbol⟩
        · cases hlead

/-- Leads of a module that was read can be looked for by names of files. -/
theorem ReadModule.leads_isPlain (r : ReadModule layout h roots m) (hm : m.IsPlain)
    (hn : '/' ∉ n.toList) {ds : List ImportDeclaration} (hds : r.source.imports = .ok ds) :
    ∀ lead ∈ r.leads n ds, lead.IsPlain := by
  intro lead hlead
  obtain ⟨d, hd, hlead⟩ := List.mem_filterMap.mp hlead
  have hread : Source.readSource? r.text = some r.body := by
    have hparsed := r.parsed
    rw [parseSource] at hparsed
    split at hparsed
    · next body hbody =>
      cases hparsed
      exact hbody
    · cases hparsed
  have hcurrent : ∀ segment ∈ r.importer.packageSegments, Path.IsName segment := by
    intro segment hsegment
    rw [ModuleLocation.packageSegments] at hsegment
    split at hsegment
    · exact hm segment hsegment
    · exact hm segment (List.dropLast_subset _ hsegment)
  exact Lead.isPlain hcurrent (written_of_declarationsOf hread (r.imports_eq_ok_iff.mp hds) hd) hn
    hlead

/-! ## Modules -/

section Module

variable (hlayout : layout.IsPlain) (ha : Host.Agree roots h s) (hm : m.IsPlain)
include hlayout ha hm

theorem readText_congr {found : ModuleFile} {path : Path}
    (hfound : layout.findModule h roots m = some found) (hcode : found.code? = some path) :
    s.readText path = h.readText path := by
  obtain ⟨root, hroot, names, hnames, hpath⟩ := layout.exists_of_findModule hlayout hm hfound
  obtain rfl := ModuleFile.path_of_code? hcode
  rw [hpath, ha.readText hroot hnames]

theorem StaticModule.load_congr {found : ModuleFile} {path : Path}
    (hfound : layout.findModule h roots m = some found) (hcode : found.code? = some path) :
    StaticModule.load s m path = StaticModule.load h m path := by
  rw [StaticModule.load, StaticModule.load, readText_congr hlayout ha hm hfound hcode]

theorem moduleLocation_congr {found : ModuleFile}
    (hfound : layout.findModule h roots m = some found) :
    moduleLocation s m found = moduleLocation h m found := by
  rw [moduleLocation, moduleLocation]
  cases hcode : found.code? with
  | none => rfl
  | some path => simp only [StaticModule.load_congr hlayout ha hm hfound hcode]

theorem locateModule_congr : locateModule layout s roots m = locateModule layout h roots m := by
  rw [locateModule, locateModule, layout.findModule_congr hlayout ha hm]
  cases hfound : layout.findModule h roots m with
  | none => rfl
  | some found => exact moduleLocation_congr hlayout ha hm hfound

end Module

/-! ## Searches -/

section Search

variable (hlayout : layout.IsPlain) (ha : Host.Agree roots h s)
include hlayout ha

theorem followLeads_congr
    {search search' : Visited → ModuleIdentity → String →
      Except LocateError (SymbolLocation × Visited)}
    (hsearch : ∀ v i n, i.IsPlain → '/' ∉ n.toList → search v i n = search' v i n)
    {leads : List Lead} (hleads : ∀ lead ∈ leads, lead.IsPlain) (v : Visited) :
    followLeads layout s roots search v leads = followLeads layout h roots search' v leads := by
  induction leads generalizing v with
  | nil => rfl
  | cons lead rest ih =>
    obtain ⟨hlead, hrest⟩ := List.forall_mem_cons.mp hleads
    cases lead with
    | module i => simp only [followLeads, locateModule_congr hlayout ha hlead, ih hrest]
    | member i n => simp only [followLeads, hsearch v i n hlead.1 hlead.2, ih hrest]

/-- A module that was read is read on a host that agrees. -/
def ReadModule.transfer (hm : m.IsPlain) (r : ReadModule layout h roots m) :
    ReadModule layout s roots m :=
  { r with
    found := (layout.findModule_congr hlayout ha hm).trans r.found
    read := (readText_congr hlayout ha hm r.found r.code).trans r.read }

/-- What a search says of a submodule. -/
theorem submodule_congr (hm : m.IsPlain)
    {rest rest' : Except LocateError (SymbolLocation × Visited)} (hrest : rest = rest')
    (v : Visited) :
    (match layout.findModule s roots m with
      | some sub => (moduleLocation s m sub).map fun l => (l, v)
      | none => rest) =
      match layout.findModule h roots m with
      | some sub => (moduleLocation h m sub).map fun l => (l, v)
      | none => rest' := by
  rw [layout.findModule_congr hlayout ha hm, hrest]
  cases hsub : layout.findModule h roots m with
  | none => rfl
  | some sub => simp only [moduleLocation_congr hlayout ha hm hsub]

/-- A search depends on what is below its search roots. -/
theorem searchMember_congr (f : Nat) (v : Visited) (hm : m.IsPlain) (hn : '/' ∉ n.toList) :
    searchMember layout s roots f v m n = searchMember layout h roots f v m n := by
  induction f generalizing v m n with
  | zero => rfl
  | succ f ih =>
    have hfind := layout.findModule_congr hlayout ha hm
    have hjoin := hm.join hn
    cases hopen : isClosed v m n with
    | true => rw [searchMember_closed hopen, searchMember_closed hopen]
    | false =>
      cases Presence.all layout h roots m with
      | missing hmissing =>
        rw [searchMember_missing hopen hmissing, searchMember_missing hopen (hfind.trans hmissing)]
      | directory found hfound hcode =>
        rw [searchMember_directory hopen hfound hcode,
          searchMember_directory hopen (hfind.trans hfound) hcode]
        exact submodule_congr hlayout ha hjoin rfl _
      | unreadable found path e hfound hcode hload =>
        have hload' := (StaticModule.load_congr hlayout ha hm hfound hcode).trans hload
        rw [searchMember_unreadable hopen hfound hcode hload,
          searchMember_unreadable hopen (hfind.trans hfound) hcode hload']
      | read r =>
        rw [searchMember_read hopen r, searchMember_read hopen (r.transfer hlayout ha hm)]
        have hsource : (r.transfer hlayout ha hm).source = r.source := rfl
        rw [hsource]
        cases r.source.definition? m n with
        | some l => rfl
        | none =>
          refine submodule_congr hlayout ha hjoin ?_ _
          cases hds : r.source.imports with
          | error e => rfl
          | ok ds =>
            have hleads := followLeads_congr hlayout ha
              (fun v i n hi hn => ih (v := v) (m := i) (n := n) hi hn)
              (r.leads_isPlain hm hn hds) (v ++ [(m, n)])
            exact congrArg (Except.map fun p => (p.1.getD (memberFile m n r.file), p.2)) hleads

/-- The location of an import target depends on what is below the search roots. -/
theorem locateStatic_congr {r : ResolvedImport} (hr : r.module.IsPlain)
    (hsymbol : ∀ symbol ∈ r.symbol, '/' ∉ symbol.toList) :
    locateStatic layout s roots r = locateStatic layout h roots r := by
  rw [locateStatic, locateStatic]
  cases hr' : r.symbol with
  | none => exact locateModule_congr hlayout ha hr
  | some symbol =>
    simp only [layout.findModule_congr hlayout ha hr,
      searchMember_congr hlayout ha (maxEntries + 1) [] hr (hsymbol symbol hr')]

end Search

end ImportContext
