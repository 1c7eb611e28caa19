import ImportContext.Tree.Focus
import Mathlib.Data.List.Sort

/-!
# The paths of labels

Each label of some focus items has one path, and the items are told by these paths. An item that is
put in gets its label to point at its path, and changes nothing else.

Results:
* `path?_insert`, `path?_extend`: the item that was put in last wins.
* `mem_items_iff`: an item stands for the path of its label.
* `ext_path?`, `insert_insert`: items whose labels point at the same paths are the same.
-/

namespace ImportContext

namespace FocusItems

/-- The path that a label points at. -/
def path? (f : FocusItems) (label : String) : Option Path :=
  f.items.lookup label

variable {f g : FocusItems} {item : String × Path} {items : List (String × Path)}
  {label l : String} {path : Path}

theorem lookup_cons_eq_ite :
    (item :: items).lookup l = if l = item.1 then some item.2 else items.lookup l := by
  obtain ⟨l', path⟩ := item
  rw [List.lookup_cons]
  split
  · next h => rw [if_pos (beq_iff_eq.mp h)]
  · next h => rw [if_neg (beq_eq_false_iff_ne.mp h)]

theorem lookup_insertSorted :
    (insertSorted label path items).lookup l = if l = label then some path else items.lookup l := by
  induction items with
  | nil => rw [insertSorted, lookup_cons_eq_ite]
  | cons first rest ih =>
    rw [insertSorted]
    split
    · next heq =>
      rw [lookup_cons_eq_ite, lookup_cons_eq_ite, heq]
      split <;> rfl
    · next hne =>
      split
      · rw [lookup_cons_eq_ite]
      · rw [lookup_cons_eq_ite, ih, lookup_cons_eq_ite]
        split
        · next h => rw [if_neg fun hl => hne (hl.symm.trans h)]
        · rfl

theorem path?_insert : (f.insert label path).path? l = if l = label then some path else f.path? l :=
  lookup_insertSorted

theorem lookup_eq_none_of_pairwise (h : (item :: items).Pairwise (·.1 < ·.1)) :
    items.lookup item.1 = none := by
  refine List.lookup_eq_none_iff.mpr fun other hother => ?_
  have hlt := (List.pairwise_cons.mp h).1 other hother
  simpa using String.ne_of_lt hlt

/-- An item that is added later wins. -/
theorem path?_extend (f : FocusItems) (hitems : items.Pairwise (·.1 < ·.1)) :
    (f.extend items).path? l = (items.lookup l <|> f.path? l) := by
  induction items generalizing f with
  | nil => rfl
  | cons item rest ih =>
    have hrest := ih (f.insert item.1 item.2) (List.pairwise_cons.mp hitems).2
    rw [extend] at hrest
    rw [extend, List.foldl_cons, hrest, path?_insert, lookup_cons_eq_ite]
    by_cases h : l = item.1
    · rw [if_pos h, if_pos h, h, lookup_eq_none_of_pairwise hitems]
      rfl
    · rw [if_neg h, if_neg h]

theorem mem_of_lookup (h : items.lookup l = some path) : (l, path) ∈ items := by
  induction items with
  | nil => cases h
  | cons item rest ih =>
    rw [lookup_cons_eq_ite] at h
    split at h
    · next heq =>
      rw [heq, ← Option.some.inj h]
      exact List.mem_cons_self
    · exact List.mem_cons_of_mem _ (ih h)

theorem lookup_of_mem (hitems : items.Pairwise (·.1 < ·.1)) (h : (l, path) ∈ items) :
    items.lookup l = some path := by
  induction items with
  | nil => cases h
  | cons item rest ih =>
    obtain ⟨hfirst, hrest⟩ := List.pairwise_cons.mp hitems
    rw [lookup_cons_eq_ite]
    rcases List.mem_cons.mp h with rfl | h
    · rw [if_pos rfl]
    · rw [if_neg (String.ne_of_lt (hfirst _ h)).symm, ih hrest h]

theorem mem_items_iff : (l, path) ∈ f.items ↔ f.path? l = some path :=
  ⟨lookup_of_mem f.ordered, mem_of_lookup⟩

theorem mem_items_insert {path' : Path} : (l, path') ∈ (f.insert label path).items ↔
    (l = label ∧ path' = path) ∨ (l ≠ label ∧ (l, path') ∈ f.items) := by
  rw [mem_items_iff, mem_items_iff, path?_insert]
  split
  · next h => simp [h, eq_comm]
  · next h => simp [h]

/-- Focus items are told by the paths of their labels. -/
theorem ext_path? (h : ∀ l, f.path? l = g.path? l) : f = g := by
  have hitems : f.items = g.items := by
    refine List.Pairwise.eq_of_mem_iff f.ordered g.ordered fun (l, path) => ?_
    rw [mem_items_iff, mem_items_iff, h]
  cases f
  cases g
  cases hitems
  rfl

/-- An item is replaced by another one of its label. -/
theorem insert_insert {path' : Path} :
    (f.insert label path').insert label path = f.insert label path := by
  refine ext_path? fun l => ?_
  rw [path?_insert, path?_insert, path?_insert]
  split <;> rfl

end FocusItems

end ImportContext
