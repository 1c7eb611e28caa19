import ImportContext.Module.Layout

/-!
# Relative addresses

A relative import is written as a number of dots and a dotted path. The dots name one of the
packages around the importing module, counted from the innermost, and the path goes on from there.
Every module that shares a package with the importing one has such an address, and no address
leads out of the outermost package.

Results:
* `parts_intercalate`: the segments of an identity come back from its text.
* `resolveRelative_within`, `resolveRelative_outside`, `resolveRelative_beyond`: what a number of
  dots leads to.
* `resolveRelative_exact`: which modules have a relative address, and what each address leads to.
-/

namespace ImportContext

namespace ModuleIdentity

/-- Whether a segment can be written between dots. -/
def IsSegment (s : String) : Prop :=
  s ≠ "" ∧ '.' ∉ s.toList

instance (s : String) : Decidable (IsSegment s) :=
  inferInstanceAs (Decidable (s ≠ "" ∧ '.' ∉ s.toList))

theorem parts_empty : parts "" = [] := by
  decide

/-- Segments come back from the dotted text that they make. -/
theorem parts_intercalate {segments : List String} (h : ∀ s ∈ segments, IsSegment s) :
    parts (String.intercalate "." segments) = segments := by
  by_cases hne : segments = []
  · subst hne
    exact parts_empty
  · have hsplit : Text.splitOnChar '.' (String.intercalate "." segments) = segments :=
      Text.splitOnChar_intercalate rfl hne fun s hs => (h s hs).2
    rw [parts, hsplit, List.filter_eq_self]
    intro s hs
    exact bne_iff_ne.mpr (h s hs).1

end ModuleIdentity

namespace PackageLayout

open ModuleIdentity

variable {current : ModuleLocation} {depth : Nat} {path : String}

/-! ## What the dots lead to -/

/-- As many dots as there are packages, or fewer, lead to one of the packages. -/
theorem resolveRelative_within (hpos : 1 ≤ depth)
    (hdepth : depth ≤ current.packageSegments.length) :
    resolveRelative current depth path =
      .ok ⟨current.packageSegments.take (current.packageSegments.length - depth + 1) ++
        parts path⟩ := by
  have hne : ¬ current.packageSegments.isEmpty = true := by
    intro hempty
    rw [List.isEmpty_iff] at hempty
    rw [hempty, List.length_nil] at hdepth
    omega
  have hkept : current.packageSegments.length - (depth - 1) =
      current.packageSegments.length - depth + 1 := by omega
  rw [resolveRelative, if_neg (by omega)]
  simp only
  rw [if_neg hne, if_neg (by omega), hkept, join]

/-- Outside any package dots lead nowhere. -/
theorem resolveRelative_outside (hpos : 1 ≤ depth) (hpackage : current.packageSegments = []) :
    resolveRelative current depth path = .error (.noParentPackage current.identity.text) := by
  rw [resolveRelative, if_neg (by omega)]
  simp only
  rw [hpackage, if_pos List.isEmpty_nil]

/-- More dots than there are packages lead nowhere. -/
theorem resolveRelative_beyond (hpackage : current.packageSegments ≠ [])
    (hdepth : current.packageSegments.length < depth) :
    resolveRelative current depth path =
      .error (.beyondTopLevel current.identity.text depth) := by
  rw [resolveRelative, if_neg (by omega)]
  simp only
  rw [if_neg (by simpa using hpackage), if_pos hdepth]

theorem exists_resolveRelative_iff (hpos : 1 ≤ depth) :
    (∃ i, resolveRelative current depth path = .ok i) ↔
      depth ≤ current.packageSegments.length := by
  constructor
  · rintro ⟨i, hi⟩
    refine Nat.le_of_not_lt fun hdepth => ?_
    by_cases hpackage : current.packageSegments = []
    · rw [resolveRelative_outside hpos hpackage] at hi
      cases hi
    · rw [resolveRelative_beyond hpackage hdepth] at hi
      cases hi
  · intro hdepth
    exact ⟨_, resolveRelative_within hpos hdepth⟩

theorem resolveRelative_eq_ok (hpos : 1 ≤ depth) {i : ModuleIdentity}
    (hi : resolveRelative current depth path = .ok i) :
    depth ≤ current.packageSegments.length ∧
      i = ⟨current.packageSegments.take (current.packageSegments.length - depth + 1) ++
        parts path⟩ := by
  have hdepth := (exists_resolveRelative_iff hpos).mp ⟨i, hi⟩
  rw [resolveRelative_within hpos hdepth] at hi
  exact ⟨hdepth, (Except.ok.inj hi).symm⟩

theorem resolveRelative_eq_error (hpos : 1 ≤ depth) {e : ResolutionError}
    (he : resolveRelative current depth path = .error e) :
    e = if current.packageSegments = [] then .noParentPackage current.identity.text
      else .beyondTopLevel current.identity.text depth := by
  split
  · next hpackage =>
    rw [resolveRelative_outside hpos hpackage] at he
    exact (Except.error.inj he).symm
  · next hpackage =>
    by_cases hdepth : depth ≤ current.packageSegments.length
    · rw [resolveRelative_within hpos hdepth] at he
      cases he
    · rw [resolveRelative_beyond hpackage (by omega)] at he
      exact (Except.error.inj he).symm

/-! ## Addresses -/

/-- The first packages of a module and the dotted rest of another one make the other one's
address. -/
theorem resolveRelative_address {target : List String} {shared : Nat}
    (htarget : ∀ s ∈ target, IsSegment s) (hpos : 1 ≤ shared)
    (hshared : shared ≤ current.packageSegments.length)
    (hsame : target.take shared = current.packageSegments.take shared) :
    resolveRelative current (current.packageSegments.length - shared + 1)
      (String.intercalate "." (target.drop shared)) = .ok ⟨target⟩ := by
  have hkept : current.packageSegments.length - (current.packageSegments.length - shared + 1) + 1 =
      shared := by omega
  have hrest : ∀ s ∈ target.drop shared, IsSegment s :=
    fun s hs => htarget s (List.mem_of_mem_drop hs)
  rw [resolveRelative_within (by omega) (by omega), hkept, ← hsame, parts_intercalate hrest,
    List.take_append_drop]

/-- A module that shares packages with the importing one is reached through the innermost of them.
Conversely the dots of an address climb within the packages, the non-empty parts of its path go on
from there and never leave the outermost package; more dots than packages fail, and so does every
address of a module that is in no package. -/
theorem resolveRelative_exact {package : List String}
    (hpackage : package = if current.isPackage then current.identity.segments
      else current.identity.segments.dropLast) :
    (∀ (target : ModuleIdentity) (shared : Nat), (∀ s ∈ target.segments, IsSegment s) →
      1 ≤ shared → shared ≤ package.length → shared ≤ target.segments.length →
      target.segments.take shared = package.take shared →
      resolveRelative current (package.length - shared + 1)
        (String.intercalate "." (target.segments.drop shared)) = .ok target) ∧
    ∀ (depth : Nat) (path : String), 1 ≤ depth →
      ((∃ i, resolveRelative current depth path = .ok i) ↔ depth ≤ package.length) ∧
      (∀ i, resolveRelative current depth path = .ok i →
        i.segments = package.take (package.length - depth + 1) ++
          (Text.splitOnChar '.' path).filter (· != "") ∧
        ∃ first, package.head? = some first ∧ i.segments.head? = some first) ∧
      ∀ e, resolveRelative current depth path = .error e →
        e = if package = [] then .noParentPackage current.identity.text
          else .beyondTopLevel current.identity.text depth := by
  obtain rfl : package = current.packageSegments := hpackage
  refine ⟨?_, ?_⟩
  · intro target shared htarget hpos hshared _ hsame
    exact resolveRelative_address htarget hpos hshared hsame
  · intro depth path hpos
    refine ⟨exists_resolveRelative_iff hpos, ?_, fun e => resolveRelative_eq_error hpos⟩
    intro i hi
    obtain ⟨hdepth, rfl⟩ := resolveRelative_eq_ok hpos hi
    obtain ⟨first, hfirst⟩ : ∃ first, current.packageSegments.head? = some first := by
      refine Option.isSome_iff_exists.mp (List.isSome_head?.mpr ?_)
      intro hnil
      rw [hnil, List.length_nil] at hdepth
      omega
    refine ⟨rfl, first, hfirst, ?_⟩
    rw [List.head?_append, List.head?_take, if_neg (by omega), hfirst, Option.some_or]

/-- From a module two packages deep: a module of the outer package, one of its own, and an address
with one dot too many. -/
theorem resolveRelative_exact_nested :
    let current : ModuleLocation := ⟨⟨"/src/a/b/c.py"⟩, ⟨"/src"⟩, ⟨["a", "b", "c"]⟩, false⟩
    resolveRelative current 2 "d.e" = .ok ⟨["a", "d", "e"]⟩ ∧
      resolveRelative current 1 "" = .ok ⟨["a", "b"]⟩ ∧
      ∀ e, resolveRelative current 3 "d" = .error e → e = .beyondTopLevel "a.b.c" 3 := by
  intro current
  obtain ⟨haddress, hlead⟩ := @resolveRelative_exact current ["a", "b"] rfl
  refine ⟨?_, ?_, ?_⟩
  · exact haddress ⟨["a", "d", "e"]⟩ 1 (by decide) (by decide) (by decide) (by decide) rfl
  · exact haddress ⟨["a", "b"]⟩ 2 (by decide) (by decide) (by decide) (by decide) rfl
  · exact (hlead 3 "d" (by decide)).2.2

end PackageLayout

end ImportContext
