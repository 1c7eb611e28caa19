import ImportContext.Locate.Static
import ImportContext.Proofs.FileSystem.Spelling

/-!
# Search roots

A module is looked for in two passes over the roots: first for a package or a source file, in the
order of the roots, and only if no root has one for a bare directory, again in their order. Further
roots therefore take nothing away: code that was found stays, and a bare directory gives way only
to code. A root that names the same directory as an earlier one has nothing to add.

Results:
* `ofPaths_concat`: a search path keeps the first of all roots that name one directory.
* `findModule_eq_or`: a lookup is two passes over the roots.
* `findModule_ofPaths`: repeated roots can be left out.
* `findModule_by_roots`: more roots, other roots and repeated roots.
-/

namespace ImportContext

/-! ## Search paths -/

namespace SearchPath

variable {p : Path} {paths : List Path}

theorem ofPaths_concat_eq (paths : List Path) (p : Path) : ofPaths (paths ++ [p]) =
    if (ofPaths paths).any (·.same p) then ofPaths paths else ofPaths paths ++ [p] := by
  unfold ofPaths
  rw [List.foldl_append, List.foldl_cons, List.foldl_nil]

/-- No place is lost: every path has the same components as one that is kept. -/
theorem any_same_ofPaths (paths : List Path) (p : Path) :
    (ofPaths paths).any (·.same p) = paths.any (·.same p) := by
  induction paths using List.reverseRecOn with
  | nil => rfl
  | append_singleton paths last ih =>
    rw [ofPaths_concat_eq]
    split
    · next hknown =>
      rw [List.any_append, ih]
      have hlast : last.same p = true → paths.any (·.same p) = true := by
        intro hsame
        obtain ⟨known, hmem, hknown⟩ := List.any_eq_true.mp hknown
        rw [← ih]
        exact List.any_eq_true.mpr ⟨known, hmem, Path.same_trans hknown hsame⟩
      cases hcase : last.same p with
      | true => simp [hlast hcase]
      | false => simp [hcase]
    · rw [List.any_append, List.any_append, ih]

/-- A search path keeps the first of all paths that name one place. -/
theorem ofPaths_concat (paths : List Path) (p : Path) : ofPaths (paths ++ [p]) =
    if paths.any (·.same p) then ofPaths paths else ofPaths paths ++ [p] := by
  rw [ofPaths_concat_eq, any_same_ofPaths]

/-- Paths that name the same place as an earlier one do not count for a search that gives the same
answer for both. -/
theorem findSome?_ofPaths {α : Type} {f : Path → Option α}
    (hf : ∀ p q : Path, p.same q = true → (f p).isSome = (f q).isSome) (paths : List Path) :
    (ofPaths paths).findSome? f = paths.findSome? f := by
  induction paths using List.reverseRecOn with
  | nil => rfl
  | append_singleton paths last ih =>
    rw [ofPaths_concat]
    split
    · next hknown =>
      obtain ⟨known, hmem, hsame⟩ := List.any_eq_true.mp hknown
      rw [ih, List.findSome?_append]
      cases hfound : paths.findSome? f with
      | some found => rfl
      | none =>
        -- nothing is found at the path that is kept, so nothing at this one
        have hnone : f known = none := List.findSome?_eq_none_iff.mp hfound known hmem
        have hlast : f last = none := by
          have hsome := hf known last hsame
          rw [hnone] at hsome
          exact Option.isNone_iff_eq_none.mp (by simpa using hsome)
        simp [hlast]
    · rw [List.findSome?_append, List.findSome?_append, ih]

end SearchPath

namespace PackageLayout

variable {layout : PackageLayout} {h : Host} {i : ModuleIdentity} {roots : List Path}
  {found : ModuleFile}

/-! ## The two passes -/

/-- The package or source file of a module under one root. -/
def regularUnder (layout : PackageLayout) (h : Host) (i : ModuleIdentity) (root : Path) :
    Option ModuleFile :=
  i.segments.getLast?.bind fun last =>
    layout.findRegular h last (parentDir root i.segments.dropLast)

/-- The bare directory of a module under one root. -/
def namespaceUnder (h : Host) (i : ModuleIdentity) (root : Path) : Option ModuleFile :=
  i.segments.getLast?.bind fun last => findNamespace h last (parentDir root i.segments.dropLast)

/-- A lookup is two passes over the roots. -/
theorem findModule_eq_or (layout : PackageLayout) (h : Host) (roots : List Path)
    (i : ModuleIdentity) : layout.findModule h roots i =
      (roots.findSome? (layout.regularUnder h i)).or (roots.findSome? (namespaceUnder h i)) := by
  unfold findModule regularUnder namespaceUnder
  cases i.segments.getLast? with
  | none =>
    have hnone : roots.findSome? (fun _ => (none : Option ModuleFile)) = none :=
      List.findSome?_eq_none_iff.mpr fun _ _ => rfl
    simp only [Option.bind_none, hnone, Option.or_none]
  | some last =>
    simp only [Option.bind_some, List.findSome?_map, Function.comp_def]
    cases roots.findSome? fun root =>
        layout.findRegular h last (parentDir root i.segments.dropLast) with
    | none => rfl
    | some found => rfl

theorem hasCode_of_regularUnder {root : Path} (hfound : layout.regularUnder h i root = some found) :
    found.code?.isSome = true := by
  obtain ⟨last, -, hregular⟩ := Option.bind_eq_some_iff.mp hfound
  unfold findRegular at hregular
  simp only at hregular
  split at hregular
  · cases hregular
    rfl
  · split at hregular
    · cases hregular
      rfl
    · cases hregular

theorem hasCode_of_namespaceUnder {root : Path} (hfound : namespaceUnder h i root = some found) :
    found.code?.isSome = false := by
  obtain ⟨last, -, hnamespace⟩ := Option.bind_eq_some_iff.mp hfound
  unfold findNamespace at hnamespace
  split at hnamespace
  · cases hnamespace
    rfl
  · cases hnamespace

/-- What is found has code if it was found in the first pass. -/
theorem findModule_eq_code_iff (hcode : found.code?.isSome = true) :
    layout.findModule h roots i = some found ↔
      roots.findSome? (layout.regularUnder h i) = some found := by
  rw [findModule_eq_or, Option.or_eq_some_iff]
  refine or_iff_left ?_
  rintro ⟨-, hsecond⟩
  obtain ⟨root, -, hfound⟩ := List.exists_of_findSome?_eq_some hsecond
  have hnone := hasCode_of_namespaceUnder hfound
  rw [hcode] at hnone
  cases hnone

/-- A bare directory is found in the second pass, when the first one found nothing. -/
theorem findModule_eq_namespace_iff (hcode : found.code?.isSome = false) :
    layout.findModule h roots i = some found ↔
      roots.findSome? (layout.regularUnder h i) = none ∧
        roots.findSome? (namespaceUnder h i) = some found := by
  rw [findModule_eq_or, Option.or_eq_some_iff]
  refine or_iff_right ?_
  intro hfirst
  obtain ⟨root, -, hfound⟩ := List.exists_of_findSome?_eq_some hfirst
  have hsome := hasCode_of_regularUnder hfound
  rw [hcode] at hsome
  cases hsome

/-- A module is found if one of the roots has something for one of the passes. -/
theorem findModule_isSome_iff : (layout.findModule h roots i).isSome = true ↔
    ∃ root ∈ roots, (layout.regularUnder h i root).isSome = true ∨
      (namespaceUnder h i root).isSome = true := by
  rw [findModule_eq_or, Option.isSome_or, Bool.or_eq_true, List.isSome_findSome?,
    List.isSome_findSome?, List.any_eq_true, List.any_eq_true]
  constructor
  · rintro (⟨root, hroot, hfound⟩ | ⟨root, hroot, hfound⟩)
    · exact ⟨root, hroot, .inl hfound⟩
    · exact ⟨root, hroot, .inr hfound⟩
  · rintro ⟨root, hroot, hfound | hfound⟩
    · exact .inl ⟨root, hroot, hfound⟩
    · exact .inr ⟨root, hroot, hfound⟩

/-! ## Spellings of roots -/

theorem regularUnder_isSome_of_same {p q : Path} (hsame : p.same q = true) :
    (layout.regularUnder h i p).isSome = (layout.regularUnder h i q).isSome := by
  have hdir : (parentDir p i.segments.dropLast).same (parentDir q i.segments.dropLast) = true :=
    Path.same_foldl_child hsame _
  unfold regularUnder
  cases i.segments.getLast? with
  | none => rfl
  | some last =>
    have hmarker := Host.isFile_child_of_same (h := h) (Path.same_child hdir last) layout.marker
    have hsource := Host.isFile_child_of_same (h := h) hdir (last ++ "." ++ layout.extension)
    simp only [Option.bind_some, findRegular, hmarker, hsource]
    split
    · rfl
    · split <;> rfl

theorem namespaceUnder_isSome_of_same {p q : Path} (hsame : p.same q = true) :
    (namespaceUnder h i p).isSome = (namespaceUnder h i q).isSome := by
  have hdir : (parentDir p i.segments.dropLast).same (parentDir q i.segments.dropLast) = true :=
    Path.same_foldl_child hsame _
  unfold namespaceUnder
  cases i.segments.getLast? with
  | none => rfl
  | some last =>
    have hdirectory := Host.isDirectory_child_of_same (h := h) hdir last
    simp only [Option.bind_some, findNamespace, hdirectory]
    split <;> rfl

/-- Repeated roots can be left out. -/
theorem findModule_ofPaths (layout : PackageLayout) (h : Host) (roots : List Path)
    (i : ModuleIdentity) :
    layout.findModule h (SearchPath.ofPaths roots) i = layout.findModule h roots i := by
  rw [findModule_eq_or, findModule_eq_or,
    SearchPath.findSome?_ofPaths fun p q => regularUnder_isSome_of_same,
    SearchPath.findSome?_ofPaths fun p q => namespaceUnder_isSome_of_same]

/-- Code that was found is found again when further roots are searched after the others. A bare
directory that was found is found again too, unless the further roots have code for the module,
which then wins. Other roots find the module if each of the roots is among them, however it is
spelled. A search path is the roots without those that name the same directory as an earlier one,
and finds what the roots find. -/
theorem findModule_by_roots (layout : PackageLayout) (h : Host) (i : ModuleIdentity)
    (roots : List Path) :
    (∀ found more, found.code?.isSome = true → layout.findModule h roots i = some found →
      layout.findModule h (roots ++ more) i = some found) ∧
    (∀ dir more, layout.findModule h roots i = some (.namespace dir) →
      layout.findModule h (roots ++ more) i = some (.namespace dir) ∨
      ∃ found, found.code?.isSome = true ∧ layout.findModule h more i = some found ∧
        layout.findModule h (roots ++ more) i = some found) ∧
    (∀ others : List Path, (∀ root ∈ roots, ∃ other ∈ others, root.same other = true) →
      (layout.findModule h roots i).isSome = true →
      (layout.findModule h others i).isSome = true) ∧
    (∀ root, SearchPath.ofPaths (roots ++ [root]) =
      if roots.any (·.same root) then SearchPath.ofPaths roots
      else SearchPath.ofPaths roots ++ [root]) ∧
    layout.findModule h (SearchPath.ofPaths roots) i = layout.findModule h roots i := by
  refine ⟨?_, ?_, ?_, SearchPath.ofPaths_concat roots, findModule_ofPaths layout h roots i⟩
  · intro found more hcode hfound
    rw [findModule_eq_code_iff hcode] at hfound ⊢
    rw [List.findSome?_append, hfound, Option.some_or]
  · intro dir more hfound
    obtain ⟨hfirst, hsecond⟩ := (findModule_eq_namespace_iff rfl).mp hfound
    cases hmore : more.findSome? (layout.regularUnder h i) with
    | none =>
      refine .inl ((findModule_eq_namespace_iff rfl).mpr ⟨?_, ?_⟩)
      · rw [List.findSome?_append, hfirst, hmore, Option.none_or]
      · rw [List.findSome?_append, hsecond, Option.some_or]
    | some found =>
      obtain ⟨root, -, hroot⟩ := List.exists_of_findSome?_eq_some hmore
      have hcode : found.code?.isSome = true := hasCode_of_regularUnder hroot
      refine .inr ⟨found, hcode, (findModule_eq_code_iff hcode).mpr hmore, ?_⟩
      rw [findModule_eq_code_iff hcode, List.findSome?_append, hfirst, hmore, Option.none_or]
  · intro others hothers hfound
    obtain ⟨root, hroot, hpass⟩ := findModule_isSome_iff.mp hfound
    obtain ⟨other, hother, hsame⟩ := hothers root hroot
    refine findModule_isSome_iff.mpr ⟨other, hother, ?_⟩
    rwa [← regularUnder_isSome_of_same hsame, ← namespaceUnder_isSome_of_same hsame]

/-- A bare directory under one root and a package of its name under another one. -/
def rootsHost : Host :=
  { files := ⟨[.directory "bare" [.directory "pkg" []],
      .directory "full" [.directory "pkg" [.file "__init__.py" ⟨#[]⟩ false]]]⟩ }

theorem findModule_by_roots_bare :
    let layout : PackageLayout := {}
    layout.findModule rootsHost [⟨"/bare"⟩] ⟨["pkg"]⟩ = some (.namespace ⟨"/bare/pkg"⟩) ∧
    (∃ found, found.code?.isSome = true ∧
      layout.findModule rootsHost [⟨"/bare"⟩, ⟨"/full"⟩] ⟨["pkg"]⟩ = some found) ∧
    (layout.findModule rootsHost [⟨"/other"⟩, ⟨"/bare/./"⟩] ⟨["pkg"]⟩).isSome = true ∧
    layout.findModule rootsHost (SearchPath.ofPaths [⟨"/bare/./"⟩, ⟨"/bare"⟩]) ⟨["pkg"]⟩ =
      some (.namespace ⟨"/bare/./pkg"⟩) := by
  intro layout
  have hbare : layout.findModule rootsHost [⟨"/bare"⟩] ⟨["pkg"]⟩ =
      some (.namespace ⟨"/bare/pkg"⟩) := by decide +kernel
  obtain ⟨-, hmore, hothers, -, -⟩ := findModule_by_roots layout rootsHost ⟨["pkg"]⟩ [⟨"/bare"⟩]
  obtain ⟨-, -, -, -, hrepeated⟩ :=
    findModule_by_roots layout rootsHost ⟨["pkg"]⟩ [⟨"/bare/./"⟩, ⟨"/bare"⟩]
  refine ⟨hbare, ?_, ?_, ?_⟩
  · rcases hmore ⟨"/bare/pkg"⟩ [⟨"/full"⟩] hbare with hsame | ⟨found, hcode, -, hfound⟩
    · exact absurd hsame (by decide +kernel)
    · exact ⟨found, hcode, hfound⟩
  · exact hothers [⟨"/other"⟩, ⟨"/bare/./"⟩] (by decide +kernel) (by rw [hbare]; rfl)
  · rw [hrepeated]
    decide +kernel

end PackageLayout

end ImportContext
