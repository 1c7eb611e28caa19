import ImportContext.Proofs.Bundle.Sections

/-!
# Going on behind failures

Whether a bundler goes on behind imports that fail matters only if one fails. Without a failure
both ways give the same bundle. With one, the bundler that goes on reports it first, and the other
ends with it.

Results:
* `collect_strict_eq_ok_iff`, `head?_diagnostics`: the walks over the imports, one beside the other.
* `Bundler.bundle_lenient_eq_error`: no single import keeps the bundler that goes on from a bundle.
* `strict_lenient_agree`: both ways of bundling compared.
-/

namespace ImportContext

/-- The bundler, ending at the first import that fails. -/
def Bundler.strict (b : Bundler) : Bundler :=
  { b with options := { b.options with skipWhenError := false } }

/-- The bundler, going on behind imports that fail. -/
def Bundler.lenient (b : Bundler) : Bundler :=
  { b with options := { b.options with skipWhenError := true } }

/-- The walk, ending at the first import that fails. -/
def ImportInquiry.strict (q : ImportInquiry) : ImportInquiry :=
  { q with goesOn := false }

/-- The walk, going on behind imports that fail. -/
def ImportInquiry.lenient (q : ImportInquiry) : ImportInquiry :=
  { q with goesOn := true }

/-- Why there is no bundle of a file, when no import is to blame: the file cannot be read or
parsed or has no identity, or the tree or the text of the bundle cannot be made. -/
inductive ConcernsFile (b : Bundler) (host : Host) (file : Path) : BundleError → Prop
  | unreadable {path : Path} {cause : OsError} :
      loadUnit host file = .error (.unreadable path cause) →
      ConcernsFile b host file (.unreadable path cause)
  | malformed {path : Path} {cause : SyntaxError} :
      loadUnit host file = .error (.malformed path cause) →
      ConcernsFile b host file (.malformed path cause)
  | unplaced {unit : SourceUnit} {cause : ResolutionError} :
      loadUnit host file = .ok unit → b.layout.locate host unit.path = .error cause →
      ConcernsFile b host file (.resolution unit.path.text cause)
  | tree (cause : TreeError) : ConcernsFile b host file (.tree cause)
  | ignore (cause : IgnoreError) : ConcernsFile b host file (.ignore cause)
  | render (cause : RenderError) : ConcernsFile b host file (.render cause)

variable {b : Bundler} {host : Host} {location : ModuleLocation} {roots : SearchPath}
  {ds : List ImportDeclaration} {file : Path} {out : Bundle} {e : BundleError}

/-! ## Both walks -/

namespace ImportInquiry

variable {q : ImportInquiry} {g : Gathered}

/-- Without a failure the walk that ends at the first one gathers what the other does. -/
theorem collect_strict_eq_ok_iff :
    q.strict.collect {} ds = .ok g ↔
      q.lenient.collect {} ds = .ok g ∧ q.firstFailure? ds = none := by
  rw [collect_of_stops rfl, collect_of_goesOn rfl]
  have hfirst : q.strict.firstFailure? ds = q.firstFailure? ds := rfl
  rw [hfirst]
  cases q.firstFailure? ds with
  | none => exact ⟨fun h => ⟨h, rfl⟩, fun h => h.1⟩
  | some e =>
    constructor
    · intro h
      cases h
    · rintro ⟨-, h⟩
      cases h

/-- A failure ends the walk that ends at the first one. -/
theorem collect_strict_eq_error (hfirst : q.firstFailure? ds = some e) :
    q.strict.collect {} ds = .error e := by
  rw [collect_of_stops rfl]
  have hstrict : q.strict.firstFailure? ds = some e := hfirst
  rw [hstrict]

/-- The walk that goes on reports the failure at which the other ends first. -/
theorem head?_diagnostics (h : q.lenient.collect {} ds = .ok g) :
    g.diagnostics.head?.map (·.message) = (q.firstFailure? ds).map BundleError.message := by
  have hg := collect_eq_ok h
  have hdiagnostics : g.diagnostics = (q.retained ds).filterMap fun d =>
      (q.failure? d).map (Diagnostic.of d) := by
    rw [hg]
    rfl
  rw [hdiagnostics, List.head?_filterMap, firstFailure?]
  induction q.retained ds with
  | nil => rfl
  | cons d rest ih =>
    rw [List.findSome?_cons, List.findSome?_cons]
    cases q.failure? d with
    | none => exact ih
    | some e => rfl

/-- Without diagnostics there was no failure. -/
theorem firstFailure?_eq_none_iff (h : q.lenient.collect {} ds = .ok g) :
    q.firstFailure? ds = none ↔ g.diagnostics = [] := by
  have hhead := head?_diagnostics h
  constructor
  · intro hnone
    rw [hnone, Option.map_none, Option.map_eq_none_iff] at hhead
    exact List.head?_eq_none_iff.mp hhead
  · intro hnil
    rw [hnil] at hhead
    exact Option.map_eq_none_iff.mp hhead.symm

theorem firstFailure?_isRecoverable (h : q.firstFailure? ds = some e) :
    e.isRecoverable = true := by
  obtain ⟨d, -, hd⟩ := List.exists_of_findSome?_eq_some h
  exact failure?_isRecoverable hd

end ImportInquiry

/-! ## Failures of the file -/

theorem loadUnit_eq_error (h : loadUnit host file = .error e) :
    (∃ path cause, e = .unreadable path cause) ∨ ∃ path cause, e = .malformed path cause := by
  unfold loadUnit at h
  split at h
  · cases h; exact .inl ⟨_, _, rfl⟩
  · dsimp only at h
    split at h
    · cases h; exact .inl ⟨_, _, rfl⟩
    · split at h
      · cases h; exact .inr ⟨_, _, rfl⟩
      · cases h

namespace Bundler

theorem projectTree_eq_error (h : b.projectTree host location = .error e) :
    (∃ cause, e = .tree cause) ∨ ∃ cause, e = .ignore cause := by
  rcases bind_eq_error_iff.mp h with h | ⟨rules, -, h⟩
  · obtain ⟨cause, -, rfl⟩ := mapError_eq_error_iff.mp h
    exact .inr ⟨cause, rfl⟩
  · rcases bind_eq_error_iff.mp h with h | ⟨tree, -, h⟩
    · obtain ⟨cause, -, rfl⟩ := mapError_eq_error_iff.mp h
      exact .inl ⟨cause, rfl⟩
    · cases h

theorem shownTree_eq_error (h : b.shownTree host location = .error e) :
    b.projectTree host location = .error e := by
  unfold shownTree at h
  split at h
  · cases htree : b.projectTree host location with
    | error e' => rw [htree] at h; cases h; rfl
    | ok text => rw [htree] at h; cases h
  · cases h

/-- Once the imports are done, only the tree and the text can fail. -/
theorem assemble_eq_error {unit : SourceUnit} {g : Gathered}
    (h : b.assemble host unit location g = .error e) : ConcernsFile b host file e := by
  rcases bind_eq_error_iff.mp h with h | ⟨tree, -, h⟩
  · rcases projectTree_eq_error (shownTree_eq_error h) with ⟨cause, rfl⟩ | ⟨cause, rfl⟩
    · exact .tree cause
    · exact .ignore cause
  · rcases bind_eq_error_iff.mp h with h | ⟨text, -, h⟩
    · obtain ⟨cause, -, rfl⟩ := mapError_eq_error_iff.mp h
      exact .render cause
    · cases h

/-- No single import keeps the bundler that goes on from a bundle. -/
theorem bundle_lenient_eq_error (h : b.lenient.bundle host file = .error e) :
    ConcernsFile b host file e := by
  rcases bind_eq_error_iff.mp h with h | ⟨unit, hunit, h⟩
  · rcases loadUnit_eq_error h with ⟨path, cause, rfl⟩ | ⟨path, cause, rfl⟩
    · exact .unreadable h
    · exact .malformed h
  rcases bind_eq_error_iff.mp h with h | ⟨location, -, h⟩
  · obtain ⟨cause, hcause, rfl⟩ := mapError_eq_error_iff.mp h
    exact .unplaced hunit hcause
  rcases bind_eq_error_iff.mp h with h | ⟨g, -, h⟩
  · exact absurd (h.symm.trans (ImportInquiry.collect_of_goesOn rfl _ _)) (by simp)
  · exact assemble_eq_error (b := b) h

/-- A failure of an import ends the run of the bundler that ends at the first one. -/
theorem bundle_strict_eq_error {unit : SourceUnit} (hunit : loadUnit host file = .ok unit)
    (hlocation : b.layout.locate host unit.path = .ok location)
    (hfirst : (b.inquiry host location (.forModule location b.searchPaths)).firstFailure?
      unit.declarations = some e) : b.strict.bundle host file = .error e := by
  refine bind_eq_error_iff.mpr (.inr ⟨unit, hunit, ?_⟩)
  refine bind_eq_error_iff.mpr (.inr ⟨location, mapError_eq_ok_iff.mpr hlocation, ?_⟩)
  exact bind_eq_error_iff.mpr (.inl (ImportInquiry.collect_strict_eq_error hfirst))

end Bundler

/-! ## Both bundles -/

/-- The steps to a bundle that ends at the first import that fails. -/
theorem Bundler.bundle_strict_eq_ok_iff : b.strict.bundle host file = .ok out ↔
    ∃ unit location g, loadUnit host file = .ok unit ∧
      b.layout.locate host unit.path = .ok location ∧
      (b.inquiry host location (.forModule location b.searchPaths)).strict.collect {}
        unit.declarations = .ok g ∧ b.assemble host unit location g = .ok out :=
  bundle_eq_ok_iff

/-- The steps to a bundle that goes on behind imports that fail. -/
theorem Bundler.bundle_lenient_eq_ok_iff : b.lenient.bundle host file = .ok out ↔
    ∃ unit location g, loadUnit host file = .ok unit ∧
      b.layout.locate host unit.path = .ok location ∧
      (b.inquiry host location (.forModule location b.searchPaths)).lenient.collect {}
        unit.declarations = .ok g ∧ b.assemble host unit location g = .ok out :=
  bundle_eq_ok_iff

open Bundler ImportInquiry in
/-- A bundler that ends at the first import that fails and one that goes on agree. What the first
gives the second gives as well, and it then has no diagnostics; without diagnostics it is the same
the other way round. With diagnostics the first ends with an error of a single import, and it is
the one that the second reports first. The second fails only where the file as a whole does. -/
theorem strict_lenient_agree (b : Bundler) (host : Host) (file : Path) :
    (∀ out, b.strict.bundle host file = .ok out →
      b.lenient.bundle host file = .ok out ∧ out.diagnostics = []) ∧
    (∀ out, b.lenient.bundle host file = .ok out → out.diagnostics = [] →
      b.strict.bundle host file = .ok out) ∧
    (∀ out first rest, b.lenient.bundle host file = .ok out → out.diagnostics = first :: rest →
      ∃ e, b.strict.bundle host file = .error e ∧ e.isRecoverable = true ∧
        e.message = first.message) ∧
    ∀ e, b.lenient.bundle host file = .error e → ConcernsFile b host file e := by
  refine ⟨?_, ?_, ?_, fun e => bundle_lenient_eq_error⟩
  · intro out h
    obtain ⟨unit, location, g, hunit, hlocation, hg, hassemble⟩ := bundle_strict_eq_ok_iff.mp h
    obtain ⟨hlenient, hnone⟩ := collect_strict_eq_ok_iff.mp hg
    constructor
    · exact bundle_lenient_eq_ok_iff.mpr ⟨unit, location, g, hunit, hlocation, hlenient, hassemble⟩
    · rw [(assemble_eq_ok hassemble).2]
      exact (firstFailure?_eq_none_iff hlenient).mp hnone
  · intro out h hnil
    obtain ⟨unit, location, g, hunit, hlocation, hg, hassemble⟩ := bundle_lenient_eq_ok_iff.mp h
    rw [(assemble_eq_ok hassemble).2] at hnil
    have hstrict := collect_strict_eq_ok_iff.mpr ⟨hg, (firstFailure?_eq_none_iff hg).mpr hnil⟩
    exact bundle_strict_eq_ok_iff.mpr ⟨unit, location, g, hunit, hlocation, hstrict, hassemble⟩
  · intro out first rest h hdiagnostics
    obtain ⟨unit, location, g, hunit, hlocation, hg, hassemble⟩ := bundle_lenient_eq_ok_iff.mp h
    rw [(assemble_eq_ok hassemble).2] at hdiagnostics
    have hhead := head?_diagnostics hg
    rw [hdiagnostics, List.head?_cons, Option.map_some] at hhead
    obtain ⟨e, hfirst, hmessage⟩ := Option.map_eq_some_iff.mp hhead.symm
    refine ⟨e, ?_, firstFailure?_isRecoverable hfirst, hmessage⟩
    exact bundle_strict_eq_error hunit hlocation hfirst

theorem mixedBundler_strict : ∃ out, mixedBundler.strict.bundle mixedHost ⟨"/user.py"⟩ = .ok out ∧
    (out.sections.length == 1) = true :=
  exists_ok_of_any (by decide +kernel)

theorem mixedBundler_missing : ∃ e,
    mixedBundler.lenient.bundle mixedHost ⟨"/missing.py"⟩ = .error e :=
  exists_error_of_toOption (by decide +kernel)

theorem strict_lenient_agree_mixed :
    (∃ out, mixedBundler.strict.bundle mixedHost ⟨"/user.py"⟩ = .ok out ∧
      mixedBundler.lenient.bundle mixedHost ⟨"/user.py"⟩ = .ok out ∧ out.diagnostics = [] ∧
      (out.sections.length == 1) = true) ∧
    (∃ out e, mixedBundler.lenient.bundle mixedHost ⟨"/main.py"⟩ = .ok out ∧
      mixedBundler.strict.bundle mixedHost ⟨"/main.py"⟩ = .error e ∧ e.isRecoverable = true ∧
      out.diagnostics.map (·.message) = [e.message]) ∧
    ∃ e, mixedBundler.lenient.bundle mixedHost ⟨"/missing.py"⟩ = .error e ∧
      ConcernsFile mixedBundler mixedHost ⟨"/missing.py"⟩ e := by
  refine ⟨?_, ?_, ?_⟩
  · obtain ⟨out, h, hcount⟩ := mixedBundler_strict
    obtain ⟨hlenient, hnil⟩ := (strict_lenient_agree mixedBundler mixedHost ⟨"/user.py"⟩).1 out h
    exact ⟨out, h, hlenient, hnil, hcount⟩
  · obtain ⟨out, h, hcount⟩ := mixedBundler_bundle
    rw [Bool.and_eq_true, beq_iff_eq, beq_iff_eq] at hcount
    obtain ⟨first, hfirst⟩ := List.length_eq_one_iff.mp hcount.2
    obtain ⟨e, he, hrecoverable, hmessage⟩ :=
      (strict_lenient_agree mixedBundler mixedHost ⟨"/main.py"⟩).2.2.1 out first [] h hfirst
    exact ⟨out, e, h, he, hrecoverable, by rw [hfirst, hmessage]; rfl⟩
  · obtain ⟨e, he⟩ := mixedBundler_missing
    exact ⟨e, he, (strict_lenient_agree mixedBundler mixedHost ⟨"/missing.py"⟩).2.2.2 e he⟩

end ImportContext
