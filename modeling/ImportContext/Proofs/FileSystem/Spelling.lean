import ImportContext.FileSystem.Host
import ImportContext.Proofs.FileSystem.Ways
import ImportContext.Proofs.Path.Normal

/-!
# Spellings of a directory

One directory can be written with idle pieces or a slash at the end. Whatever is asked for behind
it, by a name or any other path, all spellings give the same answer. The path that is asked about
must go on behind the directory: by itself a spelling with a slash at the end does tell a file from
a directory.

Results:
* `steps_of_same`, `same_join`: spellings of a path have the same steps, and so have longer paths.
* `lookup_join_of_same`: behind spellings of a directory the same entry is found.
-/

namespace ImportContext

namespace Path

variable {p q r x : Path} {ps : List String}

theorem same_iff : p.same q = true ↔ p.components = q.components := by
  unfold same
  exact beq_iff_eq

theorem same_trans (hpq : p.same q = true) (hqr : q.same r = true) : p.same r = true :=
  same_iff.mpr ((same_iff.mp hpq).trans (same_iff.mp hqr))

/-- The piece that a component was written as, unless it is idle. -/
def Component.step? : Component → Option String
  | .root => none
  | .here => none
  | .up => some ".."
  | .name s => some s

theorem filterMap_step? (ps : List String) :
    (ps.filterMap component?).filterMap Component.step? = dropIdle ps := by
  induction ps with
  | nil => rfl
  | cons piece ps ih =>
    cases hidle : isIdle piece with
    | true =>
      have hnone : component? piece = none := by
        unfold component?
        simp [hidle]
      rw [List.filterMap_cons_none hnone, ih, dropIdle_cons_idle hidle]
    | false =>
      obtain ⟨c, hc, hstep⟩ : ∃ c, component? piece = some c ∧ c.step? = some piece := by
        unfold component?
        by_cases hup : piece = ".."
        · exact ⟨.up, by simp [hup, isIdle], by simp [Component.step?, hup]⟩
        · exact ⟨.name piece, by simp [hidle, hup], rfl⟩
      rw [List.filterMap_cons_some hc, List.filterMap_cons_some hstep, ih,
        dropIdle_cons_step hidle]

/-- The steps of a path are those of its components. -/
theorem steps_eq_filterMap (p : Path) : p.steps = p.components.filterMap Component.step? := by
  rw [components_eq_append, List.filterMap_append, filterMap_step?]
  unfold steps
  split
  · rfl
  · split <;> rfl

theorem steps_of_same (h : p.same q = true) : p.steps = q.steps := by
  rw [steps_eq_filterMap, steps_eq_filterMap, same_iff.mp h]

/-- The empty path is its only spelling. -/
theorem same_cases (h : p.same q = true) : p = q ∨ (p.text ≠ "" ∧ q.text ≠ "") := by
  have hempty : p.text = "" ↔ q.text = "" := by
    rw [← components_eq_nil_iff, ← components_eq_nil_iff, same_iff.mp h]
  by_cases hp : p.text = ""
  · exact .inl (congrArg Path.mk (hp.trans (hempty.mp hp).symm))
  · exact .inr ⟨hp, fun hq => hp (hempty.mpr hq)⟩

theorem isAbsolute_iff_head? : p.isAbsolute = true ↔ p.components.head? = some .root := by
  cases habsolute : p.isAbsolute with
  | true => simp [components, habsolute]
  | false =>
    have hroot := root_not_mem_components habsolute
    refine iff_of_false (by simp) ?_
    intro hhead
    exact hroot (List.mem_of_head? hhead)

theorem isAbsolute_of_same (h : p.same q = true) : p.isAbsolute = q.isAbsolute := by
  rw [Bool.eq_iff_iff, isAbsolute_iff_head?, isAbsolute_iff_head?, same_iff.mp h]

theorem components_join (hp : p.text ≠ "") (hx : x.isAbsolute = false) :
    (p.join x).components = p.components ++ x.pieces.filterMap component? := by
  obtain ⟨first, rest, hfront, hcomponents⟩ := exists_front hp
  have hpieces : (p.join x).pieces = first :: (rest ++ x.pieces) := by
    rw [pieces_join hx, hfront, List.cons_append]
  rw [components_cons (text_join_ne_empty hp) hpieces, hcomponents, List.filterMap_append,
    List.cons_append]

/-- What is written behind spellings of a path are spellings again. -/
theorem same_join (h : p.same q = true) (x : Path) : (p.join x).same (q.join x) = true := by
  rw [same_iff]
  cases hx : x.isAbsolute with
  | true => rw [join_of_isAbsolute hx, join_of_isAbsolute hx]
  | false =>
    rcases same_cases h with rfl | ⟨hp, hq⟩
    · rfl
    · rw [components_join hp hx, components_join hq hx, same_iff.mp h]

theorem same_child (h : p.same q = true) (piece : String) :
    (p.child piece).same (q.child piece) = true :=
  same_join h ⟨piece⟩

theorem same_foldl_child (h : p.same q = true) (pieces : List String) :
    (pieces.foldl child p).same (pieces.foldl child q) = true := by
  induction pieces generalizing p q with
  | nil => exact h
  | cons piece pieces ih => exact ih (same_child h piece)

end Path

namespace Host

open FileSystem ImportContext.Path

variable {h : Host} {p q x : Path}

theorem text_path_ne_empty (hp : p.text ≠ "") : (h.path p).text ≠ "" := by
  unfold path absolute
  simp only [beq_iff_eq, hp, if_false]
  by_cases hcwd : h.cwd.text = ""
  · rwa [join_of_text_eq_empty hcwd]
  · exact text_join_ne_empty hcwd

/-- Only the steps of a directory count for what stands behind it. -/
theorem resolve_path_join (hp : p.text ≠ "") (hx : x.isAbsolute = false) {ys : List String}
    {m : String} (hpieces : x.pieces = ys ++ [m]) :
    h.files.resolve true (h.path (p.join x)) = h.files.walk true false maxLinks []
      (dropIdle (if p.isAbsolute then [] else h.cwd.front) ++ p.steps ++ dropIdle ys ++ [m]) := by
  have hjoin : (p.join x).text ≠ "" := text_join_ne_empty hp
  unfold resolve
  simp only [beq_iff_eq, text_path_ne_empty hjoin, if_false]
  rw [pieces_path h hjoin, pieces_join hx, isAbsolute_join_of_relative hp hx, hpieces,
    ← List.append_assoc, ← List.append_assoc, walk_dropIdle, dropIdle_append, dropIdle_append,
    dropIdle_front]

/-- Behind spellings of a directory the same entry is found. -/
theorem lookup_join_of_same (hsame : p.same q = true) (x : Path) :
    h.files.lookup (h.path (p.join x)) = h.files.lookup (h.path (q.join x)) := by
  cases hx : x.isAbsolute with
  | true => rw [join_of_isAbsolute hx, join_of_isAbsolute hx]
  | false =>
    rcases same_cases hsame with rfl | ⟨hp, hq⟩
    · rfl
    · have hpieces : x.pieces = x.pieces.dropLast ++ [x.pieces.getLast (pieces_ne_nil x)] :=
        (List.dropLast_concat_getLast (pieces_ne_nil x)).symm
      unfold lookup
      rw [resolve_path_join hp hx hpieces, resolve_path_join hq hx hpieces,
        isAbsolute_of_same hsame, steps_of_same hsame]

theorem isFile_child_of_same (hsame : p.same q = true) (name : String) :
    h.isFile (p.child name) = h.isFile (q.child name) := by
  have hlookup := lookup_join_of_same (h := h) hsame ⟨name⟩
  unfold isFile FileSystem.isFile child
  rw [hlookup]

theorem isDirectory_child_of_same (hsame : p.same q = true) (name : String) :
    h.isDirectory (p.child name) = h.isDirectory (q.child name) := by
  have hlookup := lookup_join_of_same (h := h) hsame ⟨name⟩
  unfold isDirectory FileSystem.isDirectory child
  rw [hlookup]

end Host

end ImportContext
