import ImportContext.Proofs.Path.Below
import ImportContext.Proofs.Tree.Focus
import ImportContext.Proofs.Tree.Pruning

/-!
# Labels of a tree

Every node carries the labels of the focus items that point at its place, and nothing else about
the tree depends on the focus items, unless one of them points outside the root.

Results:
* `label_of_mem_finishAll`: a finished node carries the label of its place.
* `unlabelledAll_finishAll`: without labels a finished tree does not depend on them.
* `exists_labelsAt`: the label of a place lists the items that point at it.
* `LabelsAt.mem_insert_iff`: an item that is put in labels one place.
* `outside?_eq_some`: the item that is reported has the smallest label.
* `buildTree_labels`: when a tree is built, which labels are where, and what is left without them.
-/

namespace ImportContext

namespace TreeNode

variable {ts : List TreeNode} {labelOf : List String → Option String} {above : List String}

/-! ## Trees without labels -/

mutual

/-- A tree with no labels in it. -/
def unlabelled : TreeNode → TreeNode
  | .file name _ => .file name none
  | .directory name _ children => .directory name none (unlabelledAll children)

/-- Some nodes with no labels at or below them. -/
def unlabelledAll : List TreeNode → List TreeNode
  | [] => []
  | t :: ts => t.unlabelled :: unlabelledAll ts

end

/-- Which nodes are kept, and in what order, is not a matter of labels. -/
theorem unlabelledAll_finishAll (above above' : List String) (ts : List TreeNode) :
    unlabelledAll (finishAll labelOf above ts) = finishAll (fun _ => none) above' ts := by
  induction ts using forest_induction generalizing above above' with
  | nil => rfl
  | file name label ts ih =>
    simp only [finishAll, finish, List.singleton_append, unlabelledAll, unlabelled, ih above above']
  | directory name label children ts ihChildren ih =>
    have hchildren := ihChildren (above ++ [name]) (above' ++ [name])
    rw [finishAll, finishAll, finish, finish, ← hchildren]
    cases finishAll labelOf (above ++ [name]) children with
    | nil => exact ih above above'
    | cons t ts' =>
      simp only [unlabelledAll, List.singleton_append, unlabelled, ih above above']

/-! ## Labels of finished nodes -/

theorem descend_file {name : String} {label : Option String} {p : List String} {s : TreeNode}
    (h : (file name label).descend p = some s) : p = [] ∧ s = .file name label := by
  cases p with
  | nil => exact ⟨rfl, (Option.some.inj h).symm⟩
  | cons n rest => cases h

/-- What is found below a node is the node itself, or at or below one of its children. -/
theorem descend_directory {name : String} {label : Option String} {children : List TreeNode}
    {p : List String} {s : TreeNode} (h : (directory name label children).descend p = some s) :
    (p = [] ∧ s = .directory name label children) ∨
      ∃ c ∈ children, ∃ rest, p = c.name :: rest ∧ c.descend rest = some s := by
  cases p with
  | nil => exact .inl ⟨rfl, (Option.some.inj h).symm⟩
  | cons n rest =>
    obtain ⟨c, hc, hs⟩ := Option.bind_eq_some_iff.mp h
    have hname : c.name = n := by
      simpa using List.find?_some (p := fun t : TreeNode => t.name == n) hc
    exact .inr ⟨c, List.mem_of_find?_eq_some hc, rest, by rw [hname], hs⟩

/-- A finished node, and each node below it, carries the label of its place. -/
theorem label_of_mem_finishAll {t s : TreeNode} {p : List String}
    (ht : t ∈ finishAll labelOf above ts) (hs : t.descend p = some s) :
    s.label = labelOf (above ++ t.name :: p) := by
  induction ts using forest_induction generalizing above t p with
  | nil => cases ht
  | file name label ts ih =>
    rw [finishAll, finish, List.singleton_append] at ht
    rcases List.mem_cons.mp ht with rfl | ht
    · obtain ⟨rfl, rfl⟩ := descend_file hs
      rfl
    · exact ih ht hs
  | directory name label children ts ihChildren ih =>
    rw [finishAll, finish] at ht
    rcases List.mem_append.mp ht with ht | ht
    · split at ht
      · cases ht
      · next first rest hchildren =>
        obtain rfl := List.mem_singleton.mp ht
        rcases descend_directory hs with ⟨rfl, rfl⟩ | ⟨c, hc, q, rfl, hbelow⟩
        · rfl
        · rw [← hchildren] at hc
          have hlabel := ihChildren hc hbelow
          rwa [List.append_assoc, List.singleton_append] at hlabel
    · exact ih ht hs

end TreeNode

/-! ## Focus items -/

namespace FocusItems

variable {h : Host} {f : FocusItems} {root place dir path : Path} {label : String}

/-- The labels of the items that point at a place, in increasing order. -/
structure LabelsAt (h : Host) (f : FocusItems) (root place : Path) (labels : List String) :
    Prop where
  increasing : labels.Pairwise (· < ·)
  mem : ∀ label, label ∈ labels ↔
    ∃ path, (label, path) ∈ f.items ∧ (target h root path).same place = true

/-- Labels in one text, with commas between them; no text if there are none. -/
def labelText (labels : List String) : Option String :=
  if labels = [] then none else some (String.intercalate ", " labels)

/-- The label of a place lists the items that point at it. -/
theorem exists_labelsAt (h : Host) (f : FocusItems) (root place : Path) :
    ∃ labels, f.LabelsAt h root place labels ∧ f.labelAt h root place = labelText labels := by
  refine ⟨(f.items.filter fun item => (target h root item.2).same place).map (·.1), ⟨?_, ?_⟩, ?_⟩
  · rw [List.pairwise_map]
    exact f.ordered.filter _
  · intro label
    simp [List.mem_map, List.mem_filter]
  · rw [labelAt, labelText]
    simp only [List.isEmpty_iff]

theorem labelBelow_empty (h : Host) (root : Path) :
    (∅ : FocusItems).labelBelow h root = fun _ => none :=
  rfl

/-- A normal form that is given for an item is the place that it points at. -/
theorem target_ofNames {ns : List String} (hns : ∀ n ∈ ns, Path.IsName n) :
    target h root (.ofNames ns) = .ofNames ns := by
  have hjoin : root.join (.ofNames ns) = .ofNames ns :=
    if_pos (by rw [Path.isAbsolute_ofNames, Bool.true_or])
  rw [target, hjoin, Host.normalize, Path.normalize_ofNames hns]

/-- An item that is put in labels the place of its path and no other. -/
theorem LabelsAt.mem_insert_iff {ns ms labels : List String} (hns : ∀ n ∈ ns, Path.IsName n)
    (hms : ∀ m ∈ ms, Path.IsName m)
    (hlabels : (f.insert label (.ofNames ns)).LabelsAt h root (.ofNames ms) labels) :
    label ∈ labels ↔ ms = ns := by
  rw [hlabels.mem]
  constructor
  · rintro ⟨path, hitem, hsame⟩
    obtain rfl : path = .ofNames ns := by simpa using mem_items_insert.mp hitem
    rw [target_ofNames hns, Path.same, Path.components_ofNames hns, Path.components_ofNames hms,
      beq_iff_eq] at hsame
    exact (List.map_injective_iff.mpr (fun _ _ h => Path.Component.name.inj h)
      (List.cons.inj hsame).2).symm
  · rintro rfl
    refine ⟨.ofNames ms, mem_items_insert.mpr (.inl ⟨rfl, rfl⟩), ?_⟩
    rw [target_ofNames hns, Path.same, beq_self_eq_true]

/-! ## Inside and outside -/

/-- An item points at a place that some names lead to from the root. -/
def Inside (h : Host) (root path : Path) : Prop :=
  ∃ names : List String, (∀ n ∈ names, Path.IsName n) ∧
    target h root path = names.foldl Path.child root

/-- Below a normal form everything points at a normal form. -/
theorem exists_target (h : Host) (ns : List String) (path : Path) :
    ∃ ms, (∀ m ∈ ms, Path.IsName m) ∧ target h (.ofNames ns) path = .ofNames ms := by
  have habsolute : ((Path.ofNames ns).join path).isAbsolute = true :=
    Path.isAbsolute_join (Path.isAbsolute_ofNames ns)
  refine Path.exists_normalize ?_
  intro hempty
  rw [Path.isAbsolute, hempty] at habsolute
  cases habsolute

theorem startsWith_iff_inside {ns : List String} (hns : ∀ n ∈ ns, Path.IsName n) :
    (target h (.ofNames ns) path).startsWith (.ofNames ns) = true ↔
      Inside h (.ofNames ns) path := by
  obtain ⟨ms, hms, htarget⟩ := exists_target h ns path
  rw [Inside, htarget, Path.startsWith, Path.components_ofNames hns, Path.components_ofNames hms]
  constructor
  · intro hprefix
    have hnames : ns.map Path.Component.name <+: ms.map Path.Component.name :=
      (List.cons_prefix_cons.mp (List.isPrefixOf_iff_prefix.mp hprefix)).2
    obtain ⟨more, rfl⟩ : ns <+: ms :=
      (List.prefix_map_iff_of_injective fun a b hab => Path.Component.name.inj hab).mp hnames
    have hmore : ∀ n ∈ more, Path.IsName n := fun n hn => hms n (List.mem_append_right _ hn)
    exact ⟨more, hmore, (Path.foldl_child_ofNames hns hmore).symm⟩
  · rintro ⟨more, hmore, heq⟩
    rw [Path.foldl_child_ofNames hns hmore] at heq
    have hsame := congrArg Path.names heq
    rw [Path.names_ofNames hms, Path.names_ofNames
      (List.forall_mem_append.mpr ⟨hns, hmore⟩)] at hsame
    rw [hsame, List.isPrefixOf_iff_prefix, List.map_append]
    exact ⟨_, rfl⟩

/-- The item that is reported points outside, and no other such item has a smaller label. -/
theorem outside?_eq_some {ns : List String} (hns : ∀ n ∈ ns, Path.IsName n)
    (hout : f.outside? h (.ofNames ns) = some (label, path)) :
    (label, path) ∈ f.items ∧ ¬ Inside h (.ofNames ns) path ∧
      ∀ item ∈ f.items, ¬ Inside h (.ofNames ns) item.2 → label ≤ item.1 := by
  rw [outside?, List.find?_eq_some_iff_append] at hout
  obtain ⟨hpath, before, after, hitems, hbefore⟩ := hout
  have hordered := f.ordered
  rw [hitems] at hordered ⊢
  refine ⟨List.mem_append_right _ List.mem_cons_self, ?_, ?_⟩
  · rw [← startsWith_iff_inside hns]
    simpa using hpath
  · intro item hitem hitem'
    rcases List.mem_append.mp hitem with hitem | hitem
    · -- the items before it point inside
      refine absurd ?_ hitem'
      rw [← startsWith_iff_inside hns]
      simpa using hbefore item hitem
    · rcases List.mem_cons.mp hitem with rfl | hitem
      · exact String.le_refl _
      · have hlt := (List.pairwise_cons.mp (List.pairwise_append.mp hordered).2.1).1 item hitem
        exact String.not_lt.mp (String.lt_asymm hlt)

theorem outside?_eq_none_iff {ns : List String} (hns : ∀ n ∈ ns, Path.IsName n) :
    f.outside? h (.ofNames ns) = none ↔ ∀ item ∈ f.items, Inside h (.ofNames ns) item.2 := by
  rw [outside?, List.find?_eq_none]
  refine forall₂_congr fun item _ => ?_
  rw [← startsWith_iff_inside hns]
  simp

end FocusItems

/-! ## The tree -/

section Built

variable {h : Host} {dir : Path} {rules : IgnoreRuleSet} {focus : FocusItems}
  {depth : Option Nat} {e : Entry} {tree : TreeNode}

/-- What is found at a path has a normal form that names lead to. -/
theorem exists_normalize_of_lookup (hroot : h.files.lookup (h.normalize dir) = .ok e) :
    ∃ ns, (∀ n ∈ ns, Path.IsName n) ∧ h.normalize dir = .ofNames ns := by
  refine Path.exists_normalize ?_
  intro hempty
  obtain rfl : dir = ⟨""⟩ := congrArg Path.mk hempty
  obtain ⟨names, hnames, -⟩ := bind_eq_ok_iff.mp hroot
  cases hnames

/-- There is no tree where nothing is found at its root, or where an item points outside. -/
theorem buildTree_eq_error {err : TreeError}
    (herr : buildTree h dir rules focus depth = .error err) :
    (∃ cause, h.files.lookup (h.normalize dir) = .error cause ∧
      err = .unreadable (h.normalize dir) cause) ∨
    ∃ label path, focus.outside? h (h.normalize dir) = some (label, path) ∧
      err = .focusOutside label path (h.normalize dir) := by
  rw [buildTree] at herr
  simp only at herr
  split at herr
  · next cause hroot =>
    cases herr
    exact .inl ⟨cause, hroot, rfl⟩
  · split at herr
    · next label path hout =>
      cases herr
      exact .inr ⟨label, path, hout, rfl⟩
    · split at herr
      · cases herr
      · cases herr

theorem label_of_buildTree (htree : buildTree h dir rules focus depth = .ok tree) {p : List String}
    {t : TreeNode} (ht : tree.descend p = some t) :
    t.label = focus.labelBelow h (h.normalize dir) p := by
  rw [buildTree] at htree
  simp only at htree
  split at htree
  · cases htree
  · split at htree
    · cases htree
    · split at htree
      · cases htree
        rcases TreeNode.descend_directory ht with ⟨rfl, rfl⟩ | ⟨c, hc, q, rfl, hbelow⟩
        · rfl
        · exact TreeNode.label_of_mem_finishAll hc hbelow
      · cases htree
        obtain ⟨rfl, rfl⟩ := TreeNode.descend_file ht
        rfl

theorem buildTree_unlabelled (htree : buildTree h dir rules focus depth = .ok tree) :
    buildTree h dir rules ∅ depth = .ok tree.unlabelled := by
  rw [buildTree] at htree ⊢
  simp only at htree ⊢
  split at htree
  · cases htree
  · next e hroot =>
    split at htree
    · cases htree
    · split at htree
      · cases htree
        simp only [TreeNode.unlabelled, TreeNode.assemble, FocusItems.labelBelow_empty,
          TreeNode.unlabelledAll_finishAll [] []]
        rfl
      · next hfile =>
        cases htree
        cases e with
        | directory name entries => exact absurd rfl (hfile name entries)
        | file name bytes executable => rfl
        | link name target => rfl

/-- The tree of something that exists is built unless an item points outside its root, and then the
item with the smallest label is reported. In the tree every node, the root included, carries the
labels of the items that point at its place. Without its labels it is the tree that is built with
no items. -/
theorem buildTree_labels (hroot : h.files.lookup (h.normalize dir) = .ok e) :
    ((∃ err, buildTree h dir rules focus depth = .error err) ↔
      ∃ item ∈ focus.items, ¬ FocusItems.Inside h (h.normalize dir) item.2) ∧
    (∀ err, buildTree h dir rules focus depth = .error err → ∃ label path,
      err = .focusOutside label path (h.normalize dir) ∧ (label, path) ∈ focus.items ∧
      ¬ FocusItems.Inside h (h.normalize dir) path ∧
      ∀ item ∈ focus.items, ¬ FocusItems.Inside h (h.normalize dir) item.2 → label ≤ item.1) ∧
    ∀ tree, buildTree h dir rules focus depth = .ok tree →
      (∀ p t, tree.descend p = some t → ∃ labels,
        focus.LabelsAt h (h.normalize dir) (p.foldl Path.child (h.normalize dir)) labels ∧
        t.label = FocusItems.labelText labels) ∧
      buildTree h dir rules ∅ depth = .ok tree.unlabelled := by
  obtain ⟨ns, hns, hnormal⟩ := exists_normalize_of_lookup hroot
  have herror : ∀ err, buildTree h dir rules focus depth = .error err → ∃ label path,
      focus.outside? h (h.normalize dir) = some (label, path) ∧
      err = .focusOutside label path (h.normalize dir) := by
    intro err herr
    refine (buildTree_eq_error herr).resolve_left ?_
    rintro ⟨cause, hunreadable, -⟩
    rw [hroot] at hunreadable
    cases hunreadable
  refine ⟨⟨?_, ?_⟩, ?_, ?_⟩
  · rintro ⟨err, herr⟩
    obtain ⟨label, path, hout, -⟩ := herror err herr
    rw [hnormal] at hout ⊢
    obtain ⟨hmem, houtside, -⟩ := FocusItems.outside?_eq_some hns hout
    exact ⟨_, hmem, houtside⟩
  · rintro ⟨item, hitem, houtside⟩
    rw [hnormal] at houtside
    cases hout : focus.outside? h (.ofNames ns) with
    | none => exact absurd ((FocusItems.outside?_eq_none_iff hns).mp hout item hitem) houtside
    | some first =>
      refine ⟨.focusOutside first.1 first.2 (.ofNames ns), ?_⟩
      rw [hnormal] at hroot
      rw [buildTree]
      simp only [hnormal, hroot, hout]
  · intro err herr
    obtain ⟨label, path, hout, rfl⟩ := herror err herr
    refine ⟨label, path, rfl, ?_⟩
    rw [hnormal] at hout ⊢
    exact FocusItems.outside?_eq_some hns hout
  · intro tree htree
    refine ⟨?_, buildTree_unlabelled htree⟩
    intro p t ht
    rw [label_of_buildTree htree ht]
    exact FocusItems.exists_labelsAt h focus _ _

end Built

/-- Two ways to write one directory, and a file. -/
def projectItems : FocusItems where
  items := [("A", ⟨"pkg/deep/.."⟩), ("B", ⟨"/project/pkg"⟩), ("C", ⟨"main.py"⟩)]
  ordered := by decide +kernel

theorem buildTree_labels_project :
    let rules : IgnoreRuleSet := ⟨[], []⟩
    (∃ tree t labels, buildTree projectHost ⟨"/project"⟩ rules projectItems none = .ok tree ∧
      tree.descend ["pkg"] = some t ∧ t.label = FocusItems.labelText labels ∧
      "A" ∈ labels ∧ "B" ∈ labels ∧ "C" ∉ labels) ∧
    ∃ err, buildTree projectHost ⟨"/project"⟩ rules (.ofList [("Out", ⟨"../out.py"⟩)]) none =
      .error err := by
  intro rules
  have hroot : projectHost.files.lookup (projectHost.normalize ⟨"/project"⟩) =
      .ok (.directory "project" projectEntries) := rfl
  refine ⟨?_, ?_⟩
  · obtain ⟨tree, htree, hsome⟩ : ∃ tree, buildTree projectHost ⟨"/project"⟩ rules projectItems
        none = .ok tree ∧ (tree.descend ["pkg"]).isSome = true :=
      exists_ok_of_any (by decide +kernel)
    obtain ⟨t, ht⟩ := Option.isSome_iff_exists.mp hsome
    obtain ⟨labels, hlabels, hlabel⟩ := ((buildTree_labels hroot).2.2 tree htree).1 ["pkg"] t ht
    refine ⟨tree, t, labels, htree, ht, hlabel, ?_, ?_, ?_⟩
    · exact (hlabels.mem "A").mpr ⟨⟨"pkg/deep/.."⟩, by decide +kernel, by decide +kernel⟩
    · exact (hlabels.mem "B").mpr ⟨⟨"/project/pkg"⟩, by decide +kernel, by decide +kernel⟩
    · intro hmem
      obtain ⟨path, hitem, hsame⟩ := (hlabels.mem "C").mp hmem
      obtain rfl : path = ⟨"main.py"⟩ := by simpa [projectItems] using hitem
      exact absurd hsame (by decide +kernel)
  · refine (buildTree_labels hroot).1.mpr ⟨("Out", ⟨"../out.py"⟩), by decide +kernel, ?_⟩
    have hnames : ∀ n ∈ ["project"], Path.IsName n := by decide +kernel
    rw [show projectHost.normalize ⟨"/project"⟩ = .ofNames ["project"] by decide +kernel,
      ← FocusItems.startsWith_iff_inside hnames]
    decide +kernel

end ImportContext
