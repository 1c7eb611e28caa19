import ImportContext.Bundle.Build
import ImportContext.Proofs.Fallible

/-!
# The sections of a bundle

A bundle has one section for every import that the filter keeps, in the order of the source file.
Each section is that of its import taken by itself: what comes of the other imports, and which of
them are left out, does not matter. All this is so whatever locates the imports and whatever leaves
some of them out.

Results:
* `collect_of_goesOn`, `collect_of_stops`: what the walk over the imports gathers, and when it ends
  early.
* `ImportInquiry.sections_of_collect`, `ImportInquiry.filter_sections_of_collect`: the sections that
  are gathered, and those of a walk that leaves out others.
* `Bundler.bundle_eq_ok_iff`: the steps to a bundle.
* `bundle_sections`: what the sections and diagnostics of a bundle are.
-/

namespace ImportContext

variable {q : ImportInquiry} {d : ImportDeclaration}

/-! ## One import -/

/-- The diagnostic that a section reports. -/
def ImportSection.reported? (s : ImportSection) : Option Diagnostic :=
  s.diagnostic.map fun message => ⟨s.declaration.text, s.declaration.pos.line, message⟩

/-- A section tells of a failure or of a target: with a diagnostic it has no target and an absent
location, without one it has a target. -/
def ImportSection.Settled (s : ImportSection) : Prop :=
  (s.diagnostic.isSome → s.target = none ∧ s.location = .absent) ∧
    (s.diagnostic = none → s.target.isSome)

namespace ImportInquiry

/-- Why an import fails, if it does. -/
def failure? (q : ImportInquiry) (d : ImportDeclaration) : Option BundleError :=
  match q.sectionFor d with
  | .ok _ => none
  | .error e => some e

/-- The section of an import taken by itself. -/
def sectionAlone (q : ImportInquiry) (d : ImportDeclaration) : ImportSection :=
  match q.sectionFor d with
  | .ok s => s
  | .error e => .failed d (.of d e)

/-- An import that is found has a section with a target and no diagnostic. -/
theorem sectionFor_eq_ok {s : ImportSection} (h : q.sectionFor d = .ok s) :
    s.declaration = d ∧ s.target.isSome ∧ s.diagnostic = none := by
  obtain ⟨resolved, -, h⟩ := bind_eq_ok_iff.mp h
  split at h
  · cases h
  · obtain ⟨found, -, h⟩ := bind_eq_ok_iff.mp h
    cases h
    exact ⟨rfl, rfl, rfl⟩

/-- An import fails because it leads nowhere, or because the locator does. -/
theorem sectionFor_eq_error {e : BundleError} (h : q.sectionFor d = .error e) :
    (∃ cause, e = .resolution d.text cause) ∨ ∃ cause, e = .locate d.text cause := by
  rcases bind_eq_error_iff.mp h with h | ⟨resolved, -, h⟩
  · obtain ⟨cause, -, he⟩ := mapError_eq_error_iff.mp h
    exact .inl ⟨cause, he.symm⟩
  · split at h
    · exact .inl ⟨_, (Except.error.inj h).symm⟩
    · rcases bind_eq_error_iff.mp h with h | ⟨found, -, h⟩
      · obtain ⟨cause, -, he⟩ := mapError_eq_error_iff.mp h
        exact .inr ⟨cause, he.symm⟩
      · cases h

/-- Whatever goes wrong with a single import can be recovered from. -/
theorem sectionFor_isRecoverable {e : BundleError} (h : q.sectionFor d = .error e) :
    e.isRecoverable = true := by
  rcases sectionFor_eq_error h with ⟨cause, rfl⟩ | ⟨cause, rfl⟩
  · rfl
  · rfl

theorem failure?_isRecoverable {e : BundleError} (h : q.failure? d = some e) :
    e.isRecoverable = true := by
  unfold failure? at h
  split at h
  · cases h
  · next hsection => cases h; exact sectionFor_isRecoverable hsection

theorem sectionAlone_declaration : (q.sectionAlone d).declaration = d := by
  unfold sectionAlone
  split
  · next hsection => exact (sectionFor_eq_ok hsection).1
  · rfl

theorem sectionAlone_settled : (q.sectionAlone d).Settled := by
  unfold sectionAlone
  split
  · next s hsection =>
    obtain ⟨-, htarget, hdiagnostic⟩ := sectionFor_eq_ok hsection
    refine ⟨?_, fun _ => htarget⟩
    intro hsome
    rw [hdiagnostic] at hsome
    cases hsome
  · exact ⟨fun _ => ⟨rfl, rfl⟩, fun hnone => by cases hnone⟩

/-- The section of an import reports why the import fails. -/
theorem sectionAlone_reported? :
    (q.sectionAlone d).reported? = (q.failure? d).map (Diagnostic.of d) := by
  unfold sectionAlone failure?
  cases hsection : q.sectionFor d with
  | ok s =>
    obtain ⟨-, -, hdiagnostic⟩ := sectionFor_eq_ok hsection
    simp [ImportSection.reported?, hdiagnostic]
  | error e => rfl

end ImportInquiry

/-! ## The walk over the imports -/

/-- What was gathered before, then something more. -/
def Gathered.append (g g' : Gathered) : Gathered :=
  ⟨g.sections ++ g'.sections, g.diagnostics ++ g'.diagnostics⟩

theorem Gathered.append_assoc (g g' g'' : Gathered) :
    (g.append g').append g'' = g.append (g'.append g'') := by
  simp [Gathered.append]

namespace ImportInquiry

variable {ds : List ImportDeclaration} {g : Gathered}

/-- The imports that are kept. -/
def retained (q : ImportInquiry) (ds : List ImportDeclaration) : List ImportDeclaration :=
  ds.filter fun d => !q.elides d

theorem retained_cons_of_elides (h : q.elides d = true) :
    q.retained (d :: ds) = q.retained ds := by
  simp [retained, h]

theorem retained_cons_of_keeps (h : q.elides d = false) :
    q.retained (d :: ds) = d :: q.retained ds := by
  simp [retained, h]

theorem elides_of_mem_retained (h : d ∈ q.retained ds) : q.elides d = false := by
  simpa using (List.mem_filter.mp h).2

theorem retained_comm {q' : ImportInquiry} :
    q.retained (q'.retained ds) = q'.retained (q.retained ds) := by
  unfold retained
  rw [List.filter_filter, List.filter_filter]
  congr 1
  funext d
  exact Bool.and_comm _ _

/-- What is gathered for imports that are each taken by itself. -/
def gatheredAlone (q : ImportInquiry) (ds : List ImportDeclaration) : Gathered where
  sections := ds.map q.sectionAlone
  diagnostics := ds.filterMap fun d => (q.failure? d).map (Diagnostic.of d)

theorem gatheredAlone_cons :
    q.gatheredAlone (d :: ds) = (q.gatheredAlone [d]).append (q.gatheredAlone ds) := by
  cases hfailure : q.failure? d with
  | none => simp [gatheredAlone, Gathered.append, hfailure]
  | some e => simp [gatheredAlone, Gathered.append, hfailure]

theorem append_gatheredAlone_nil (g : Gathered) : g.append (q.gatheredAlone []) = g := by
  simp [gatheredAlone, Gathered.append]

theorem collect_cons_of_elides (h : q.elides d = true) :
    q.collect g (d :: ds) = q.collect g ds := by
  rw [collect, if_pos h]

/-- The walk goes on behind an import that is found. -/
theorem collect_cons_of_found (hkeep : q.elides d = false) (hfound : q.failure? d = none) :
    q.collect g (d :: ds) = q.collect (g.append (q.gatheredAlone [d])) ds := by
  rw [collect, if_neg (by simp [hkeep])]
  cases hsection : q.sectionFor d with
  | error e => simp [failure?, hsection] at hfound
  | ok s =>
    simp [gatheredAlone, Gathered.append, Gathered.addSection, sectionAlone, failure?, hsection]

/-- The walk goes on behind an import that fails if it is told to. -/
theorem collect_cons_of_goesOn (hgoesOn : q.goesOn = true) (hkeep : q.elides d = false)
    {e : BundleError} (hfailure : q.failure? d = some e) :
    q.collect g (d :: ds) = q.collect (g.append (q.gatheredAlone [d])) ds := by
  rw [collect, if_neg (by simp [hkeep])]
  cases hsection : q.sectionFor d with
  | ok s => simp [failure?, hsection] at hfailure
  | error e =>
    have hrecoverable := sectionFor_isRecoverable hsection
    simp [gatheredAlone, Gathered.append, Gathered.addFailure, sectionAlone, failure?, hsection,
      hgoesOn, hrecoverable]

/-- The walk ends at an import that fails if it is not told otherwise. -/
theorem collect_cons_of_stops (hstop : q.goesOn = false) (hkeep : q.elides d = false)
    {e : BundleError} (hfailure : q.failure? d = some e) :
    q.collect g (d :: ds) = .error e := by
  rw [collect, if_neg (by simp [hkeep])]
  cases hsection : q.sectionFor d with
  | ok s => simp [failure?, hsection] at hfailure
  | error e' => simpa [failure?, hsection, hstop] using hfailure

/-- A walk that goes on behind failures gathers what the kept imports give by themselves. -/
theorem collect_of_goesOn (hgoesOn : q.goesOn = true) :
    ∀ (ds : List ImportDeclaration) (g : Gathered),
      q.collect g ds = .ok (g.append (q.gatheredAlone (q.retained ds))) := by
  intro ds
  induction ds with
  | nil => intro g; exact congrArg Except.ok (append_gatheredAlone_nil g).symm
  | cons d ds ih =>
    intro g
    cases hkeep : q.elides d with
    | true => rw [collect_cons_of_elides hkeep, retained_cons_of_elides hkeep, ih]
    | false =>
      rw [retained_cons_of_keeps hkeep, gatheredAlone_cons, ← Gathered.append_assoc, ← ih]
      cases hfailure : q.failure? d with
      | none => exact collect_cons_of_found hkeep hfailure
      | some e => exact collect_cons_of_goesOn hgoesOn hkeep hfailure

/-- The error that the first of the kept imports to fail gives. -/
def firstFailure? (q : ImportInquiry) (ds : List ImportDeclaration) : Option BundleError :=
  (q.retained ds).findSome? q.failure?

/-- A walk that ends at failures ends at the first of them; without any it gathers the same. -/
theorem collect_of_stops (hstop : q.goesOn = false) :
    ∀ (ds : List ImportDeclaration) (g : Gathered), q.collect g ds =
      match q.firstFailure? ds with
      | some e => .error e
      | none => .ok (g.append (q.gatheredAlone (q.retained ds))) := by
  intro ds
  induction ds with
  | nil => intro g; exact congrArg Except.ok (append_gatheredAlone_nil g).symm
  | cons d ds ih =>
    intro g
    unfold firstFailure? at ih ⊢
    cases hkeep : q.elides d with
    | true => rw [collect_cons_of_elides hkeep, retained_cons_of_elides hkeep, ih]
    | false =>
      rw [retained_cons_of_keeps hkeep, List.findSome?_cons]
      cases hfailure : q.failure? d with
      | none =>
        rw [gatheredAlone_cons, ← Gathered.append_assoc, ← ih]
        exact collect_cons_of_found hkeep hfailure
      | some e => exact collect_cons_of_stops hstop hkeep hfailure

/-- Whether or not it goes on behind failures, a walk that comes to its end has gathered what the
kept imports give by themselves. -/
theorem collect_eq_ok {g' : Gathered} (h : q.collect g ds = .ok g') :
    g' = g.append (q.gatheredAlone (q.retained ds)) := by
  cases hgoesOn : q.goesOn with
  | true =>
    rw [collect_of_goesOn hgoesOn] at h
    exact (Except.ok.inj h).symm
  | false =>
    rw [collect_of_stops hgoesOn] at h
    split at h
    · cases h
    · exact (Except.ok.inj h).symm

/-- A walk over a single import of one that comes to its end gives the section of that import. -/
theorem collect_singleton {g' : Gathered} (h : q.collect g ds = .ok g') (hd : d ∈ q.retained ds) :
    ∃ g₁, q.collect {} [d] = .ok g₁ ∧ g₁.sections = [q.sectionAlone d] := by
  have hkeep := elides_of_mem_retained hd
  have hretained : q.retained [d] = [d] := retained_cons_of_keeps hkeep
  have hsections : (Gathered.append {} (q.gatheredAlone [d])).sections = [q.sectionAlone d] := rfl
  cases hgoesOn : q.goesOn with
  | true =>
    rw [collect_of_goesOn hgoesOn, hretained]
    exact ⟨_, rfl, hsections⟩
  | false =>
    rw [collect_of_stops hgoesOn] at h
    have hnone : q.failure? d = none := by
      split at h
      · cases h
      · next hfirst => exact List.findSome?_eq_none_iff.mp hfirst d hd
    rw [collect_cons_of_found hkeep hnone]
    exact ⟨_, rfl, hsections⟩

/-! ## What is gathered -/

theorem map_declaration_sectionAlone : (ds.map q.sectionAlone).map (·.declaration) = ds := by
  rw [List.map_map]
  refine (List.map_congr_left ?_).trans (List.map_id ds)
  intro d _
  exact sectionAlone_declaration

/-- Sections of imports by themselves are equal if they are of the same import. -/
theorem eq_of_declaration_eq {ds' : List ImportDeclaration} {s s' : ImportSection}
    (hs : s ∈ ds.map q.sectionAlone) (hs' : s' ∈ ds'.map q.sectionAlone)
    (h : s.declaration = s'.declaration) : s = s' := by
  obtain ⟨d, -, rfl⟩ := List.mem_map.mp hs
  obtain ⟨d', -, rfl⟩ := List.mem_map.mp hs'
  rw [sectionAlone_declaration, sectionAlone_declaration] at h
  rw [h]

/-- Leaving out sections afterwards leaves those of the imports that are kept. -/
theorem filter_map_sectionAlone (q' : ImportInquiry) :
    (ds.map q.sectionAlone).filter (fun s => !q'.elides s.declaration) =
      (q'.retained ds).map q.sectionAlone := by
  rw [List.filter_map]
  congr 2
  funext d
  rw [Function.comp_apply, sectionAlone_declaration]

theorem sections_eq_of_collect (h : q.collect {} ds = .ok g) :
    g.sections = (q.retained ds).map q.sectionAlone := by
  rw [collect_eq_ok h]
  rfl

/-- A walk gathers the sections of the kept imports, in order, each as it comes out for its import
alone, and its diagnostics are what these report. -/
theorem sections_of_collect (h : q.collect {} ds = .ok g) :
    g.sections.map (·.declaration) = q.retained ds ∧
      g.diagnostics = g.sections.filterMap ImportSection.reported? ∧
      ∀ s ∈ g.sections, s.Settled ∧
        ∃ g₁, q.collect {} [s.declaration] = .ok g₁ ∧ g₁.sections = [s] := by
  have hsections := sections_eq_of_collect h
  refine ⟨?_, ?_, ?_⟩
  · rw [hsections]
    exact map_declaration_sectionAlone
  · have hreported : ∀ d, (ImportSection.reported? ∘ q.sectionAlone) d =
        (q.failure? d).map (Diagnostic.of d) := fun d => sectionAlone_reported?
    rw [hsections, List.filterMap_map, funext hreported, collect_eq_ok h]
    rfl
  · intro s hs
    rw [hsections] at hs
    obtain ⟨d, hd, rfl⟩ := List.mem_map.mp hs
    rw [sectionAlone_declaration]
    exact ⟨sectionAlone_settled, collect_singleton h hd⟩

/-- Leaving out other imports changes no section that is gathered both times: each walk only lacks
sections of the other. -/
theorem filter_sections_of_collect {elides : ImportDeclaration → Bool} {g' : Gathered}
    (h : q.collect {} ds = .ok g) (h' : { q with elides }.collect {} ds = .ok g') :
    (∀ s ∈ g.sections, ∀ s' ∈ g'.sections, s.declaration = s'.declaration → s = s') ∧
      g.sections.filter (fun s => !elides s.declaration) =
        g'.sections.filter (fun s => !q.elides s.declaration) := by
  -- The section of an import by itself does not depend on what is left out.
  have hsections' : g'.sections =
      (ImportInquiry.retained { q with elides } ds).map q.sectionAlone := sections_eq_of_collect h'
  rw [sections_eq_of_collect h, hsections']
  refine ⟨fun s hs s' hs' => eq_of_declaration_eq hs hs', ?_⟩
  rw [filter_map_sectionAlone q, retained_comm]
  exact filter_map_sectionAlone { q with elides }

end ImportInquiry

/-! ## The bundle -/

/-- A filter that is off keeps everything. -/
theorem DependencyFilter.elides_of_not_enabled {f : DependencyFilter} {host : Host}
    {roots : SearchPath} (h : f.enabled = false) : f.elides host roots d = false := by
  simp [elides, h]

namespace Bundler

variable {b : Bundler} {host : Host} {location : ModuleLocation} {g : Gathered} {file : Path}
  {out : Bundle}

/-- The steps to a bundle. -/
theorem bundle_eq_ok_iff : b.bundle host file = .ok out ↔ ∃ unit location g,
    loadUnit host file = .ok unit ∧ b.layout.locate host unit.path = .ok location ∧
    b.collect host location (.forModule location b.searchPaths) {} unit.declarations = .ok g ∧
    b.assemble host unit location g = .ok out := by
  constructor
  · intro h
    obtain ⟨unit, hunit, h⟩ := bind_eq_ok_iff.mp h
    obtain ⟨location, hlocation, h⟩ := bind_eq_ok_iff.mp h
    obtain ⟨g, hg, h⟩ := bind_eq_ok_iff.mp h
    exact ⟨unit, location, g, hunit, mapError_eq_ok_iff.mp hlocation, hg, h⟩
  · rintro ⟨unit, location, g, hunit, hlocation, hg, h⟩
    refine bind_eq_ok_iff.mpr ⟨unit, hunit, ?_⟩
    refine bind_eq_ok_iff.mpr ⟨location, mapError_eq_ok_iff.mpr hlocation, ?_⟩
    exact bind_eq_ok_iff.mpr ⟨g, hg, h⟩

/-- A bundle has the sections and diagnostics that were gathered. -/
theorem assemble_eq_ok {unit : SourceUnit} (h : b.assemble host unit location g = .ok out) :
    out.sections = g.sections ∧ out.diagnostics = g.diagnostics := by
  obtain ⟨tree, -, h⟩ := bind_eq_ok_iff.mp h
  obtain ⟨text, -, h⟩ := bind_eq_ok_iff.mp h
  cases h
  exact ⟨rfl, rfl⟩

end Bundler

open Bundler ImportInquiry in
/-- The sections of a bundle are those of the imports that the filter keeps, in order, each as it
comes out for its import alone. The diagnostics are what the sections report, in order, and a
section that reports something has neither a target nor a location. Another filter changes no
section that both keep: each only removes sections, and those that a filter which is off leaves
are all there are to remove from. -/
theorem bundle_sections {b : Bundler} {host : Host} {file : Path} {out : Bundle}
    (h : b.bundle host file = .ok out) :
    ∃ unit location roots, loadUnit host file = .ok unit ∧
      b.layout.locate host unit.path = .ok location ∧
      roots = SearchPath.forModule location b.searchPaths ∧
      out.sections.map (·.declaration) =
        unit.declarations.filter (fun d => !b.filter.elides host roots d) ∧
      out.diagnostics = out.sections.filterMap ImportSection.reported? ∧
      (∀ s ∈ out.sections, s.Settled ∧ ∃ g,
        b.collect host location roots {} [s.declaration] = .ok g ∧ g.sections = [s]) ∧
      ∀ f out', { b with filter := f }.bundle host file = .ok out' →
        (∀ s ∈ out.sections, ∀ s' ∈ out'.sections, s.declaration = s'.declaration → s = s') ∧
        out.sections.filter (fun s => !f.elides host roots s.declaration) =
          out'.sections.filter (fun s => !b.filter.elides host roots s.declaration) ∧
        (f.enabled = false → out.sections =
          out'.sections.filter (fun s => !b.filter.elides host roots s.declaration)) := by
  obtain ⟨unit, location, g, hunit, hlocation, hg, hassemble⟩ := bundle_eq_ok_iff.mp h
  obtain ⟨hdeclarations, hdiagnostics, hsections⟩ := sections_of_collect hg
  obtain ⟨hout, hreported⟩ := assemble_eq_ok hassemble
  rw [hout, hreported]
  refine ⟨unit, location, _, hunit, hlocation, rfl, hdeclarations, hdiagnostics, hsections, ?_⟩
  intro f out' h'
  obtain ⟨unit', location', g', hunit', hlocation', hg', hassemble'⟩ := bundle_eq_ok_iff.mp h'
  cases Except.ok.inj (hunit.symm.trans hunit')
  cases Except.ok.inj (hlocation.symm.trans hlocation')
  obtain ⟨hsame, hfilter⟩ := filter_sections_of_collect hg hg'
  rw [(assemble_eq_ok hassemble').1]
  refine ⟨hsame, hfilter, ?_⟩
  intro hoff
  refine Eq.trans (List.filter_eq_self.mpr ?_).symm hfilter
  intro s _
  exact congrArg not (DependencyFilter.elides_of_not_enabled hoff)

/-- Two source files that import from a third. One of them also imports a standard module, and a
module that does not exist. -/
def mixedHost : Host :=
  { files := ⟨[
      .file "main.py" "import os\nfrom .gone import x\nfrom lib import f\n".toUTF8 false,
      .file "user.py" "from lib import f\n".toUTF8 false,
      .file "lib.py" "def f():\n    return 1\n".toUTF8 false]⟩ }

/-- A bundler that leaves out standard modules and goes on behind failures. -/
def mixedBundler : Bundler :=
  { filter := { threshold := 0 }, options := { format := .plain } }

theorem mixedBundler_bundle : ∃ out, mixedBundler.bundle mixedHost ⟨"/main.py"⟩ = .ok out ∧
    (out.sections.length == 2 && out.diagnostics.length == 1) = true :=
  exists_ok_of_any (by decide +kernel)

theorem mixedBundler_bundle_disabled : ∃ out,
    { mixedBundler with filter := .disabled }.bundle mixedHost ⟨"/main.py"⟩ = .ok out ∧
    (out.sections.length == 3) = true :=
  exists_ok_of_any (by decide +kernel)

theorem bundle_sections_mixed : ∃ out out' roots,
    mixedBundler.bundle mixedHost ⟨"/main.py"⟩ = .ok out ∧
    { mixedBundler with filter := .disabled }.bundle mixedHost ⟨"/main.py"⟩ = .ok out' ∧
    (out.sections.length == 2 && out.diagnostics.length == 1) = true ∧
    (out'.sections.length == 3) = true ∧
    out.diagnostics = out.sections.filterMap ImportSection.reported? ∧
    out.sections = out'.sections.filter
      (fun s => !mixedBundler.filter.elides mixedHost roots s.declaration) := by
  obtain ⟨out, h, hcount⟩ := mixedBundler_bundle
  obtain ⟨out', h', hcount'⟩ := mixedBundler_bundle_disabled
  obtain ⟨_, _, roots, -, -, -, -, hdiagnostics, -, hother⟩ := bundle_sections h
  exact ⟨out, out', roots, h, h', hcount, hcount', hdiagnostics, (hother .disabled out' h').2.2 rfl⟩

end ImportContext
