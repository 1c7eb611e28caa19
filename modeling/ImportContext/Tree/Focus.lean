import ImportContext.FileSystem.Host

/-!
# Focus items

Places of a project tree that are pointed out by a label. Items are kept in the order of their
labels, each label once.
-/

namespace ImportContext

/-- Labelled paths, in increasing order of their labels. -/
structure FocusItems where
  items : List (String × Path)
  ordered : items.Pairwise (·.1 < ·.1)
deriving DecidableEq, Repr

namespace FocusItems

instance : EmptyCollection FocusItems := ⟨⟨[], List.Pairwise.nil⟩⟩

instance : Inhabited FocusItems := ⟨∅⟩

/-- A label put in its place in a sorted list; an item of the same label is replaced. -/
def insertSorted (label : String) (path : Path) : List (String × Path) → List (String × Path)
  | [] => [(label, path)]
  | (l, p) :: rest =>
    if label = l then (label, path) :: rest
    else if label < l then (label, path) :: (l, p) :: rest
    else (l, p) :: insertSorted label path rest

theorem mem_insertSorted {label : String} {path : Path} {items : List (String × Path)}
    {item : String × Path} (h : item ∈ insertSorted label path items) :
    item = (label, path) ∨ item ∈ items := by
  induction items with
  | nil => exact .inl (List.mem_singleton.mp h)
  | cons first rest ih =>
    rw [insertSorted] at h
    split at h
    · rcases List.mem_cons.mp h with rfl | h
      · exact .inl rfl
      · exact .inr (List.mem_cons_of_mem _ h)
    · split at h
      · exact List.mem_cons.mp h
      · rcases List.mem_cons.mp h with rfl | h
        · exact .inr List.mem_cons_self
        · exact (ih h).imp_right (List.mem_cons_of_mem _)

theorem pairwise_insertSorted {label : String} {path : Path} {items : List (String × Path)}
    (h : items.Pairwise (·.1 < ·.1)) : (insertSorted label path items).Pairwise (·.1 < ·.1) := by
  induction items with
  | nil => exact List.pairwise_singleton _ _
  | cons first rest ih =>
    obtain ⟨hfirst, hrest⟩ := List.pairwise_cons.mp h
    rw [insertSorted]
    split
    · next heq =>
      rw [heq]
      exact List.pairwise_cons.mpr ⟨hfirst, hrest⟩
    · next hne =>
      split
      · next hlt =>
        refine List.pairwise_cons.mpr ⟨?_, h⟩
        intro item hitem
        rcases List.mem_cons.mp hitem with rfl | hitem
        · exact hlt
        · exact String.lt_trans hlt (hfirst item hitem)
      · next hge =>
        refine List.pairwise_cons.mpr ⟨?_, ih hrest⟩
        intro item hitem
        rcases mem_insertSorted hitem with rfl | hitem
        · exact String.not_le.mp fun hle => hne (String.le_antisymm hle (String.not_lt.mp hge))
        · exact hfirst item hitem

def insert (f : FocusItems) (label : String) (path : Path) : FocusItems :=
  ⟨insertSorted label path f.items, pairwise_insertSorted f.ordered⟩

/-- All items of a list, later ones winning over earlier ones of the same label. -/
def extend (f : FocusItems) (items : List (String × Path)) : FocusItems :=
  items.foldl (fun f (l, p) => f.insert l p) f

def ofList (items : List (String × Path)) : FocusItems :=
  extend ∅ items

/-- The place that an item points at: its path, taken relative to the root, in normal form. -/
def target (h : Host) (root : Path) (path : Path) : Path :=
  h.normalize (root.join path)

/-- The labels that point at a place, with commas between them. -/
def labelAt (h : Host) (f : FocusItems) (root place : Path) : Option String :=
  let labels := (f.items.filter fun (_, p) => (target h root p).same place).map (·.1)
  if labels.isEmpty then none else some (String.intercalate ", " labels)

/-- The label of the place at a list of names below the root. -/
def labelBelow (h : Host) (f : FocusItems) (root : Path) (names : List String) : Option String :=
  f.labelAt h root (names.foldl Path.child root)

/-- The first item that points outside the root. -/
def outside? (h : Host) (f : FocusItems) (root : Path) : Option (String × Path) :=
  f.items.find? fun (_, p) => !(target h root p).startsWith root

end FocusItems

end ImportContext
