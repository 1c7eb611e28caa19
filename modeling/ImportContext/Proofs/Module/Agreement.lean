import ImportContext.Proofs.FileSystem.Views
import ImportContext.Proofs.Module.Lookup

/-!
# Lookups of modules on hosts that agree

The identity of a file is found by asking for markers below its root, and the file of a module by
asking for names below search roots. Hosts that agree there give the same answers.

Results:
* `isName_of_mem_parts`: the segments of a dotted text without slashes can be names of files.
* `locate_congr`: the identity of a file depends on what is below its root.
* `findModule_congr`, `exists_of_findModule`: lookups of modules stay below the search roots.
-/

namespace ImportContext

variable {h s : Host}

/-! ## Segments -/

namespace ModuleIdentity

variable {i : ModuleIdentity} {text : String}

/-- Every segment can be the name of a file. -/
def IsPlain (i : ModuleIdentity) : Prop :=
  ∀ segment ∈ i.segments, Path.IsName segment

theorem isName_of_mem_parts {segment : String} (htext : '/' ∉ text.toList)
    (h : segment ∈ parts text) : Path.IsName segment := by
  obtain ⟨hsplit, hne⟩ := List.mem_filter.mp h
  obtain ⟨piece, hpiece, rfl⟩ := List.mem_map.mp hsplit
  obtain ⟨hdot, hsub⟩ := Path.of_mem_splitOn hpiece
  refine ⟨by simpa using hne, ?_, ?_, ?_⟩
  · intro heq
    have hchars := congrArg String.toList heq
    rw [String.toList_ofList] at hchars
    exact hdot (by rw [hchars]; decide)
  · intro heq
    have hchars := congrArg String.toList heq
    rw [String.toList_ofList] at hchars
    exact hdot (by rw [hchars]; decide)
  · rw [String.toList_ofList]
    exact fun hslash => htext (hsub hslash)

theorem IsPlain.dropLast_getLast {last : String} (hi : i.IsPlain)
    (hlast : i.segments.getLast? = some last) :
    (∀ n ∈ i.segments.dropLast, Path.IsName n) ∧ Path.IsName last :=
  ⟨fun n hn => hi n (List.dropLast_subset _ hn), hi last (List.mem_of_getLast? hlast)⟩

theorem isPlain_parse (htext : '/' ∉ text.toList) : (parse text).IsPlain :=
  fun _ => isName_of_mem_parts htext

theorem IsPlain.join (hi : i.IsPlain) (htext : '/' ∉ text.toList) : (i.join text).IsPlain := by
  intro segment hsegment
  rcases List.mem_append.mp hsegment with hsegment | hsegment
  · exact hi segment hsegment
  · exact isName_of_mem_parts htext hsegment

end ModuleIdentity

namespace PackageLayout

variable {layout : PackageLayout}

/-- What a layout asks for can be names of files. -/
structure IsPlain (layout : PackageLayout) : Prop where
  marker : Path.IsName layout.marker
  extension : '/' ∉ layout.extension.toList

theorem IsPlain.isName_source (hlayout : layout.IsPlain) {last : String}
    (hlast : Path.IsName last) : Path.IsName (last ++ "." ++ layout.extension) := by
  obtain ⟨hempty, hdot, -, hslash⟩ := hlast
  obtain ⟨c, cs, hcs⟩ := List.exists_cons_of_ne_nil (l := last.toList) (by simpa using hempty)
  have htext : (last ++ "." ++ layout.extension).toList =
      c :: (cs ++ '.' :: layout.extension.toList) := by
    simp [hcs]
  refine ⟨?_, ?_, ?_, by simp [hslash, hlayout.extension]⟩
  · intro heq
    rw [heq] at htext
    cases htext
  · intro heq
    rw [heq] at htext
    obtain ⟨-, hrest⟩ := List.cons.inj (show ['.'] = c :: _ from htext)
    simp at hrest
  · intro heq
    rw [heq] at htext
    obtain ⟨rfl, hrest⟩ := List.cons.inj (show ['.', '.'] = c :: _ from htext)
    cases cs with
    | nil => exact hdot (String.toList_inj.mp hcs)
    | cons c' cs => simp at hrest

/-! ## From a file to its identity -/

/-- The directory that the identity of a file is counted from. -/
def rootOf (layout : PackageLayout) (h : Host) (file : Path) : Path :=
  .ofNames (layout.climb h (h.normalize file).names.reverse.tail).reverse

theorem climb_congr (hlayout : layout.IsPlain) {above : List String}
    (habove : ∀ n ∈ above, Path.IsName n)
    (ha : Host.Agree [.ofNames (layout.climb h above).reverse] h s) :
    layout.climb s above = layout.climb h above := by
  induction above with
  | nil => rfl
  | cons name above ih =>
    obtain ⟨packages, hpackages⟩ := climb_suffix layout h (name :: above)
    have hall : (name :: above).reverse =
        (layout.climb h (name :: above)).reverse ++ packages.reverse := by
      rw [← List.reverse_append, hpackages]
    have hnames : ∀ n ∈ (layout.climb h (name :: above)).reverse ++ packages.reverse,
        Path.IsName n := by
      intro n hn
      rw [← hall, List.mem_reverse] at hn
      exact habove n hn
    obtain ⟨hroot, hrest⟩ := List.forall_mem_append.mp hnames
    have hplain : ∀ n ∈ packages.reverse ++ [layout.marker], Path.IsName n :=
      List.forall_mem_append.mpr ⟨hrest, by simpa using hlayout.marker⟩
    have hmarker := ha.isFile List.mem_cons_self hplain
    rw [foldl_child_concat, Path.foldl_child_ofNames hroot hrest, ← hall] at hmarker
    rw [climb, hmarker]
    rw [climb] at ha ⊢
    split
    · next hfile =>
      rw [if_pos hfile] at ha
      exact ih (fun n hn => habove n (List.mem_cons_of_mem _ hn)) ha
    · rfl

/-- The identity of a file depends on what is below its root. -/
theorem locate_congr (hlayout : layout.IsPlain) {file : Path}
    (ha : Host.Agree [layout.rootOf h file] h s) : layout.locate s file = layout.locate h file := by
  rw [locate, locate, ha.normalize]
  rw [rootOf] at ha
  cases hnames : (h.normalize file).names.reverse with
  | nil => rfl
  | cons fileName above =>
    rw [hnames, List.tail_cons] at ha
    have habove : ∀ n ∈ above, Path.IsName n := by
      intro n hn
      refine Path.isName_of_mem_names (p := h.normalize file) ?_
      rw [← List.mem_reverse, hnames]
      exact List.mem_cons_of_mem _ hn
    simp only [climb_congr hlayout habove ha]

theorem root_of_locate {file : Path} {location : ModuleLocation}
    (hlocate : layout.locate h file = .ok location) : location.root = layout.rootOf h file := by
  rw [locate] at hlocate
  rw [rootOf]
  cases hnames : (h.normalize file).names.reverse with
  | nil =>
    simp only [hnames] at hlocate
    cases hlocate
  | cons fileName above =>
    simp only [hnames] at hlocate
    rw [List.tail_cons]
    split at hlocate
    · split at hlocate
      · cases hlocate
      · cases hlocate
        rfl
    · split at hlocate
      · cases hlocate
      · cases hlocate
        rfl

/-- A file stands behind some names below its root. -/
theorem exists_below_rootOf (layout : PackageLayout) (h : Host) {ns : List String}
    (hns : ∀ n ∈ ns, Path.IsName n) : ∃ names : List String, (∀ n ∈ names, Path.IsName n) ∧
      Path.ofNames ns = names.foldl Path.child (layout.rootOf h (Path.ofNames ns)) := by
  have hnames : (h.normalize (Path.ofNames ns)).names = ns := by
    rw [Host.normalize, Path.normalize_ofNames hns, Path.names_ofNames hns]
  rw [rootOf, hnames]
  cases ns using List.reverseRecOn with
  | nil => exact ⟨[], by simp, rfl⟩
  | append_singleton above fileName =>
    rw [List.reverse_concat, List.tail_cons]
    obtain ⟨packages, hpackages⟩ := climb_suffix layout h above.reverse
    have hall : above ++ [fileName] =
        (layout.climb h above.reverse).reverse ++ (packages.reverse ++ [fileName]) := by
      rw [← List.append_assoc, ← List.reverse_append, hpackages, List.reverse_reverse]
    rw [hall] at hns
    obtain ⟨hroot, hrest⟩ := List.forall_mem_append.mp hns
    refine ⟨packages.reverse ++ [fileName], hrest, ?_⟩
    rw [Path.foldl_child_ofNames hroot hrest, hall]

/-! ## From an identity to its file -/

section Find

variable {roots roots' : List Path} {root : Path} {names : List String} {last : String}
  {i : ModuleIdentity} {found : ModuleFile}

theorem findRegular_congr (hlayout : layout.IsPlain) (ha : Host.Agree roots h s)
    (hroot : root ∈ roots) (hnames : ∀ n ∈ names, Path.IsName n) (hlast : Path.IsName last) :
    layout.findRegular s last (names.foldl Path.child root) =
      layout.findRegular h last (names.foldl Path.child root) := by
  have hpackage : ∀ n ∈ names ++ [last, layout.marker], Path.IsName n :=
    List.forall_mem_append.mpr ⟨hnames, by simpa using ⟨hlast, hlayout.marker⟩⟩
  have hplain : ∀ n ∈ names ++ [last ++ "." ++ layout.extension], Path.IsName n :=
    List.forall_mem_append.mpr ⟨hnames, by simpa using hlayout.isName_source hlast⟩
  have hmarker := ha.isFile hroot hpackage
  have hsource := ha.isFile hroot hplain
  simp only [List.foldl_append, List.foldl_cons, List.foldl_nil] at hmarker hsource
  rw [findRegular, findRegular]
  simp only [hmarker, hsource]

theorem findNamespace_congr (ha : Host.Agree roots h s) (hroot : root ∈ roots)
    (hnames : ∀ n ∈ names, Path.IsName n) (hlast : Path.IsName last) :
    findNamespace s last (names.foldl Path.child root) =
      findNamespace h last (names.foldl Path.child root) := by
  have hplain : ∀ n ∈ names ++ [last], Path.IsName n :=
    List.forall_mem_append.mpr ⟨hnames, by simpa using hlast⟩
  have hdirectory := ha.isDirectory hroot hplain
  rw [foldl_child_concat] at hdirectory
  rw [findNamespace, findNamespace, hdirectory]

theorem findSome?_congr {f g : Path → Option ModuleFile} {dirs : List Path}
    (hsame : ∀ dir ∈ dirs, f dir = g dir) : dirs.findSome? f = dirs.findSome? g := by
  induction dirs with
  | nil => rfl
  | cons dir dirs ih =>
    obtain ⟨hdir, hdirs⟩ := List.forall_mem_cons.mp hsame
    rw [List.findSome?_cons, List.findSome?_cons, hdir, ih hdirs]

/-- Lookups of modules depend on what is below the search roots. -/
theorem findModule_congr (hlayout : layout.IsPlain) (ha : Host.Agree roots h s)
    (hi : i.IsPlain) : layout.findModule s roots i = layout.findModule h roots i := by
  rw [findModule, findModule]
  cases hlast : i.segments.getLast? with
  | none => rfl
  | some last =>
    obtain ⟨hparents, hname⟩ := hi.dropLast_getLast hlast
    have hregular : ∀ dir ∈ roots.map fun root => parentDir root i.segments.dropLast,
        layout.findRegular s last dir = layout.findRegular h last dir := by
      intro dir hdir
      obtain ⟨root, hroot, rfl⟩ := List.mem_map.mp hdir
      exact findRegular_congr hlayout ha hroot hparents hname
    have hnamespace : ∀ dir ∈ roots.map fun root => parentDir root i.segments.dropLast,
        findNamespace s last dir = findNamespace h last dir := by
      intro dir hdir
      obtain ⟨root, hroot, rfl⟩ := List.mem_map.mp hdir
      exact findNamespace_congr ha hroot hparents hname
    simp only [findSome?_congr hregular, findSome?_congr hnamespace]

/-- What a lookup finds stands behind some names below a search root. -/
theorem exists_of_findModule (hlayout : layout.IsPlain) (hi : i.IsPlain)
    (hfound : layout.findModule h roots i = some found) :
    ∃ root ∈ roots, ∃ names : List String, (∀ n ∈ names, Path.IsName n) ∧
      found.path = names.foldl Path.child root := by
  rw [findModule] at hfound
  cases hlast : i.segments.getLast? with
  | none =>
    simp only [hlast] at hfound
    cases hfound
  | some last =>
    obtain ⟨hparents, hname⟩ := hi.dropLast_getLast hlast
    have hbelow : ∀ more : List String, (∀ n ∈ more, Path.IsName n) →
        ∀ n ∈ i.segments.dropLast ++ more, Path.IsName n := fun more hmore =>
      List.forall_mem_append.mpr ⟨hparents, hmore⟩
    simp only [hlast] at hfound
    split at hfound
    · next regular hregular =>
      cases hfound
      obtain ⟨dir, hdir, hdirfound⟩ := List.exists_of_findSome?_eq_some hregular
      obtain ⟨root, hroot, rfl⟩ := List.mem_map.mp hdir
      rw [findRegular] at hdirfound
      split at hdirfound
      · cases hdirfound
        refine ⟨root, hroot, _, hbelow [last, layout.marker] ?_, ?_⟩
        · simpa using ⟨hname, hlayout.marker⟩
        · simp [ModuleFile.path, parentDir]
      · split at hdirfound
        · cases hdirfound
          refine ⟨root, hroot, _, hbelow [last ++ "." ++ layout.extension] ?_, ?_⟩
          · simpa using hlayout.isName_source hname
          · simp [ModuleFile.path, parentDir]
        · cases hdirfound
    · obtain ⟨dir, hdir, hdirfound⟩ := List.exists_of_findSome?_eq_some hfound
      obtain ⟨root, hroot, rfl⟩ := List.mem_map.mp hdir
      rw [findNamespace] at hdirfound
      split at hdirfound
      · cases hdirfound
        refine ⟨root, hroot, _, hbelow [last] (by simpa using hname), ?_⟩
        simp [ModuleFile.path, parentDir]
      · cases hdirfound

end Find

end PackageLayout

end ImportContext
