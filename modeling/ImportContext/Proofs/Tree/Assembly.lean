import ImportContext.Proofs.Tree.Nodes

/-!
# Trees put together from places

When the places are all inserted, directories without a file below are dropped and labels are
set. What stands where in the result is known from the places alone, so their order has no part
in it.

Results:
* `kindIn_finishAll_file`, `kindIn_finishAll_directory`: files stay, directories stay if there is
  a file below.
* `finishAll_congr`: nodes with the same kinds at the same places give the same tree.
* `assemble_congr`: the order of the places has no part in the tree.
* `kindIn_assemble_file`, `kindIn_assemble_directory`: what stands where in the tree.
-/

namespace ImportContext

namespace TreeNode

variable {ts : List TreeNode} {n : String} {labelOf : List String → Option String}
  {above : List String}

/-! ## Dropping empty directories -/

/-- What becomes of a node has its name. -/
theorem finish_cases (labelOf : List String → Option String) (above : List String) (t : TreeNode) :
    t.finish labelOf above = [] ∨ ∃ s, t.finish labelOf above = [s] ∧ s.name = t.name := by
  cases t with
  | file name label => exact .inr ⟨_, rfl, rfl⟩
  | directory name label children =>
    rw [finish]
    split
    · exact .inl rfl
    · exact .inr ⟨_, rfl, rfl⟩

theorem exists_of_mem_finishAll {s : TreeNode} (hs : s ∈ finishAll labelOf above ts) :
    ∃ t ∈ ts, s ∈ t.finish labelOf above ∧ s.name = t.name := by
  induction ts with
  | nil => cases hs
  | cons t ts ih =>
    rw [finishAll] at hs
    rcases List.mem_append.mp hs with hs' | hs
    · rcases finish_cases labelOf above t with h | ⟨s', h, hname⟩
      · rw [h] at hs'
        cases hs'
      · rw [h] at hs'
        obtain rfl := List.mem_singleton.mp hs'
        exact ⟨t, List.mem_cons_self, by rw [h]; exact List.mem_singleton_self _, hname⟩
    · obtain ⟨t', ht', h⟩ := ih hs
      exact ⟨t', List.mem_cons_of_mem _ ht', h⟩

/-- The node of a given name, after what is empty was dropped. -/
theorem find?_finishAll (h : AllOrdered ts) :
    (finishAll labelOf above ts).find? (·.name == n) =
      (ts.find? (·.name == n)).bind fun t => (t.finish labelOf above).head? := by
  induction ts with
  | nil => rfl
  | cons t ts ih =>
    rw [finishAll, List.find?_append]
    by_cases hn : t.name = n
    · -- no later node has this name
      have hrest : (finishAll labelOf above ts).find? (·.name == n) = none := by
        rw [List.find?_eq_none]
        intro s hs
        obtain ⟨t', ht', -, hname⟩ := exists_of_mem_finishAll hs
        have hlt : n < s.name := by
          rw [hname, ← hn]
          exact h.2.1 t' ht'
        simpa using (String.ne_of_lt hlt).symm
      rw [hrest, List.find?_cons_of_pos (by simpa using hn), Option.bind_some]
      rcases finish_cases labelOf above t with hnil | ⟨s, hs, hname⟩
      · simp [hnil]
      · simp [hs, hname, hn]
    · rw [List.find?_cons_of_neg (by simpa using hn), ← ih h.2.2]
      rcases finish_cases labelOf above t with hnil | ⟨s, hs, hname⟩
      · simp [hnil]
      · simp [hs, hname, hn]

/-- Where something is left, there is a file. -/
theorem exists_file_of_finishAll (h : AllOrdered ts) (hne : finishAll labelOf above ts ≠ []) :
    ∃ p, kindIn ts p = some false := by
  induction ts using forest_induction generalizing above with
  | nil => exact absurd rfl hne
  | file name label ts _ => exact ⟨[name], kindIn_cons_file label []⟩
  | directory name label children ts ihChildren ih =>
    by_cases hchildren : finishAll labelOf (above ++ [name]) children = []
    · rw [finishAll, finish, hchildren] at hne
      obtain ⟨p, hp⟩ := ih h.2.2 hne
      refine ⟨p, h.kindIn_cons ?_ hp⟩
      rintro rfl
      cases hp
    · obtain ⟨p, hp⟩ := ihChildren h.1 hchildren
      exact ⟨name :: p, (kindIn_cons_directory label children p).trans hp⟩

theorem finishAll_ne_nil_of_find? {t : TreeNode} (h : AllOrdered ts)
    (hfind : ts.find? (·.name == n) = some t) (hne : t.finish labelOf above ≠ []) :
    finishAll labelOf above ts ≠ [] := by
  intro hnil
  have hfinish : (finishAll labelOf above ts).find? (·.name == n) =
      (t.finish labelOf above).head? := by rw [find?_finishAll h, hfind, Option.bind_some]
  rw [hnil, List.find?_nil, eq_comm, List.head?_eq_none_iff] at hfinish
  exact hne hfinish

/-- Where there is a file, something is left. -/
theorem finishAll_ne_nil {p : List String} (h : AllOrdered ts) (hp : kindIn ts p = some false) :
    finishAll labelOf above ts ≠ [] := by
  induction p generalizing ts above with
  | nil => cases hp
  | cons n p ih =>
    cases hfind : ts.find? (·.name == n) with
    | none => rw [kindIn_of_absent hfind] at hp; cases hp
    | some t =>
      refine finishAll_ne_nil_of_find? h hfind ?_
      cases t with
      | file name label => simp [finish]
      | directory name label children =>
        rw [kindIn_of_directory hfind] at hp
        have hchildren : AllOrdered children :=
          (h.of_mem (List.mem_of_find?_eq_some hfind)).children
        have hne : finishAll labelOf (above ++ [name]) children ≠ [] := ih hchildren hp
        rw [finish]
        split
        · next hnil => exact absurd hnil hne
        · simp

/-- The node that a directory becomes, if it is not dropped. -/
theorem find?_finishAll_directory {name : String} {label : Option String}
    {children : List TreeNode} (h : AllOrdered ts)
    (hfind : ts.find? (·.name == n) = some (.directory name label children)) :
    (finishAll labelOf above ts).find? (·.name == n) =
      if finishAll labelOf (above ++ [name]) children = [] then none
      else some (.directory name (labelOf (above ++ [name]))
        (finishAll labelOf (above ++ [name]) children)) := by
  rw [find?_finishAll h, hfind, Option.bind_some, finish]
  cases finishAll labelOf (above ++ [name]) children with
  | nil => rfl
  | cons t ts => rfl

theorem find?_finishAll_file {name : String} {label : Option String} (h : AllOrdered ts)
    (hfind : ts.find? (·.name == n) = some (.file name label)) :
    (finishAll labelOf above ts).find? (·.name == n) =
      some (.file name (labelOf (above ++ [name]))) := by
  rw [find?_finishAll h, hfind, Option.bind_some, finish]
  rfl

theorem find?_finishAll_absent (h : AllOrdered ts) (hfind : ts.find? (·.name == n) = none) :
    (finishAll labelOf above ts).find? (·.name == n) = none := by
  rw [find?_finishAll h, hfind, Option.bind_none]

/-- Files stay. -/
theorem kindIn_finishAll_file (h : AllOrdered ts) (p : List String) :
    kindIn (finishAll labelOf above ts) p = some false ↔ kindIn ts p = some false := by
  induction p generalizing ts above with
  | nil => simp [kindIn]
  | cons n p ih =>
    cases hfind : ts.find? (·.name == n) with
    | none => rw [kindIn_of_absent hfind, kindIn_of_absent (find?_finishAll_absent h hfind)]
    | some t =>
      cases t with
      | file name label =>
        rw [kindIn_of_file hfind, kindIn_of_file (find?_finishAll_file h hfind)]
      | directory name label children =>
        have hchildren : AllOrdered children :=
          (h.of_mem (List.mem_of_find?_eq_some hfind)).children
        have hfinish : (finishAll labelOf above ts).find? (·.name == n) = _ :=
          find?_finishAll_directory h hfind
        rw [kindIn_of_directory hfind]
        by_cases hnil : finishAll labelOf (above ++ [name]) children = []
        · rw [if_pos hnil] at hfinish
          rw [kindIn_of_absent hfinish]
          refine ⟨by simp, fun hp => absurd hnil (finishAll_ne_nil hchildren hp)⟩
        · rw [if_neg hnil] at hfinish
          rw [kindIn_of_directory hfinish, ih hchildren]

/-- Directories stay if there is a file below. -/
theorem kindIn_finishAll_directory (h : AllOrdered ts) {p : List String} (hp : p ≠ []) :
    kindIn (finishAll labelOf above ts) p = some true ↔
      kindIn ts p = some true ∧ ∃ q, kindIn ts (p ++ q) = some false := by
  induction p generalizing ts above with
  | nil => exact absurd rfl hp
  | cons n p ih =>
    cases hfind : ts.find? (·.name == n) with
    | none =>
      rw [kindIn_of_absent hfind, kindIn_of_absent (find?_finishAll_absent h hfind)]
      simp
    | some t =>
      cases t with
      | file name label =>
        rw [kindIn_of_file hfind, kindIn_of_file (find?_finishAll_file h hfind)]
        cases p with
        | nil => simp
        | cons m p => simp
      | directory name label children =>
        have hchildren : AllOrdered children :=
          (h.of_mem (List.mem_of_find?_eq_some hfind)).children
        have hfinish : (finishAll labelOf above ts).find? (·.name == n) = _ :=
          find?_finishAll_directory h hfind
        rw [kindIn_of_directory hfind]
        simp only [List.cons_append, kindIn_of_directory hfind]
        by_cases hnil : finishAll labelOf (above ++ [name]) children = []
        · rw [if_pos hnil] at hfinish
          rw [kindIn_of_absent hfinish]
          refine ⟨by simp, ?_⟩
          rintro ⟨-, q, hq⟩
          exact absurd hnil (finishAll_ne_nil hchildren hq)
        · rw [if_neg hnil] at hfinish
          rw [kindIn_of_directory hfinish]
          cases p with
          | nil =>
            obtain ⟨q, hq⟩ := exists_file_of_finishAll hchildren hnil
            exact ⟨fun _ => ⟨rfl, q, hq⟩, fun _ => rfl⟩
          | cons m p => exact ih hchildren (by simp)

/-! ## Order -/

theorem AllOrdered.finishAll (h : AllOrdered ts) : AllOrdered (finishAll labelOf above ts) := by
  induction ts using forest_induction generalizing above with
  | nil => trivial
  | file name label ts ih =>
    refine ⟨trivial, ?_, ih h.2.2⟩
    intro s hs
    obtain ⟨t, ht, -, hname⟩ := exists_of_mem_finishAll hs
    rw [hname]
    exact h.2.1 t ht
  | directory name label children ts ihChildren ih =>
    have hchildren : AllOrdered (finishAll labelOf (above ++ [name]) children) := ihChildren h.1
    rw [TreeNode.finishAll, finish]
    split
    · exact ih h.2.2
    · next t ts' heq =>
      rw [heq] at hchildren
      refine ⟨hchildren, ?_, ih h.2.2⟩
      intro s hs
      obtain ⟨t, ht, -, hname⟩ := exists_of_mem_finishAll hs
      rw [hname]
      exact h.2.1 t ht

/-- What stands behind the first node. -/
theorem AllOrdered.kindIn_tail {t : TreeNode} (h : AllOrdered (t :: ts)) (p : List String) :
    kindIn ts p = if p.head? = some t.name then none else kindIn (t :: ts) p := by
  cases p with
  | nil => rfl
  | cons m p =>
    simp only [List.head?_cons, Option.some.injEq]
    split
    · next hm =>
      refine kindIn_of_absent (List.find?_eq_none.mpr ?_) p
      intro s hs
      rw [hm]
      simpa using (String.ne_of_lt (h.2.1 s hs)).symm
    · next hm => rw [kindIn_cons_of_ne (Ne.symm hm)]

theorem kindIn_head {t : TreeNode} : kindIn (t :: ts) [t.name] = some t.isDirectory := by
  cases t with
  | file name label => exact kindIn_cons_file label []
  | directory name label children => exact kindIn_cons_directory label children []

/-- Nodes in order that show the same begin with the same name. -/
theorem AllOrdered.head_name_eq {t t' : TreeNode} {ts' : List TreeNode} (h : AllOrdered (t :: ts))
    (h' : AllOrdered (t' :: ts')) (hkind : ∀ p, kindIn (t :: ts) p = kindIn (t' :: ts') p) :
    t'.name = t.name := by
  obtain ⟨s', hs', hname'⟩ := exists_of_kindIn ((hkind [t.name]).symm.trans kindIn_head)
  obtain ⟨s, hs, hname⟩ := exists_of_kindIn ((hkind [t'.name]).trans kindIn_head)
  rcases List.mem_cons.mp hs with rfl | hs
  · exact hname.symm
  · rcases List.mem_cons.mp hs' with rfl | hs'
    · exact hname'
    · have hlt : t.name < t'.name := hname ▸ h.2.1 s hs
      have hgt : t'.name < t.name := hname' ▸ h'.2.1 s' hs'
      exact absurd hlt (String.lt_asymm hgt)

theorem AllOrdered.kindIn_tail_eq {t t' : TreeNode} {ts' : List TreeNode}
    (h : AllOrdered (t :: ts)) (h' : AllOrdered (t' :: ts'))
    (hkind : ∀ p, kindIn (t :: ts) p = kindIn (t' :: ts') p) (p : List String) :
    kindIn ts p = kindIn ts' p := by
  rw [h.kindIn_tail, h'.kindIn_tail, hkind, h.head_name_eq h' hkind]

/-- Nodes in order that show the same become the same. -/
theorem finishAll_congr {ts' : List TreeNode} (h : AllOrdered ts) (h' : AllOrdered ts')
    (hkind : ∀ p, kindIn ts p = kindIn ts' p) :
    finishAll labelOf above ts = finishAll labelOf above ts' := by
  induction ts using forest_induction generalizing above ts' with
  | nil =>
    cases ts' with
    | nil => rfl
    | cons t' ts' => cases (hkind [t'.name]).trans kindIn_head
  | file name label ts ih =>
    cases ts' with
    | nil => cases (hkind [name]).symm.trans kindIn_head
    | cons t' ts' =>
      have htail : finishAll labelOf above ts = finishAll labelOf above ts' :=
        ih h.2.2 h'.2.2 (h.kindIn_tail_eq h' hkind)
      obtain rfl : t'.name = name := h.head_name_eq h' hkind
      have hhead := (hkind [t'.name]).symm.trans kindIn_head
      cases t' with
      | file name' label' => rw [finishAll, finishAll, finish, finish, htail, TreeNode.name]
      | directory name' label' children' => cases kindIn_head.symm.trans hhead
  | directory name label children ts ihChildren ih =>
    cases ts' with
    | nil => cases (hkind [name]).symm.trans kindIn_head
    | cons t' ts' =>
      have htail : finishAll labelOf above ts = finishAll labelOf above ts' :=
        ih h.2.2 h'.2.2 (h.kindIn_tail_eq h' hkind)
      obtain rfl : t'.name = name := h.head_name_eq h' hkind
      have hhead := (hkind [t'.name]).symm.trans kindIn_head
      cases t' with
      | file name' label' => cases kindIn_head.symm.trans hhead
      | directory name' label' children' =>
        have hchildren : finishAll labelOf (above ++ [name']) children =
            finishAll labelOf (above ++ [name']) children' := by
          refine ihChildren h.1 h'.1 fun p => ?_
          rw [← kindIn_cons_directory label children p, hkind]
          exact kindIn_cons_directory label' children' p
        rw [finishAll, finishAll, finish, finish, htail, TreeNode.name, hchildren]

/-! ## The tree of some places -/

variable {places : List Place}

theorem Holds.congr {places' : List Place} (h : Holds places ts)
    (hmem : ∀ a, a ∈ places ↔ a ∈ places') : Holds places' ts where
  ordered := h.ordered
  file p := by rw [h.file, hmem]
  directory p := by simp only [h.directory, hmem]

/-- The places leave no choice of what stands where. -/
theorem Holds.kindIn_eq {ts' : List TreeNode} (h : Holds places ts) (h' : Holds places ts')
    (p : List String) : kindIn ts p = kindIn ts' p := by
  ext k
  cases k with
  | false => rw [h.file, h'.file]
  | true => rw [h.directory, h'.directory]

theorem Holds.inserted (h : Compatible places) :
    Holds places (places.foldl (fun ts p => TreeNode.insert p.isDirectory p.names ts) []) := by
  have hall : Compatible (places.reverse ++ []) := h.mono fun a ha => by simpa using ha
  exact (Holds.nil.foldl hall).congr fun a => by simp

/-- The order of the places has no part in the tree. -/
theorem assemble_congr {order : List Place} (h : Compatible places)
    (hmem : ∀ a, a ∈ order ↔ a ∈ places) : assemble labelOf order = assemble labelOf places := by
  have horder : Holds places _ := (Holds.inserted (h.mono fun a => (hmem a).mp)).congr hmem
  have hplaces : Holds places _ := Holds.inserted h
  exact finishAll_congr horder.ordered hplaces.ordered (horder.kindIn_eq hplaces)

theorem AllOrdered.assemble (h : Compatible places) : AllOrdered (assemble labelOf places) :=
  (Holds.inserted h).ordered.finishAll

/-- The files of the tree are the places that are no directories. -/
theorem kindIn_assemble_file (h : Compatible places) (p : List String) :
    kindIn (assemble labelOf places) p = some false ↔ ⟨p, false⟩ ∈ places := by
  have hplaces : Holds places _ := Holds.inserted h
  rw [TreeNode.assemble, kindIn_finishAll_file hplaces.ordered, hplaces.file]

/-- The directories of the tree are those on the way to a file. -/
theorem kindIn_assemble_directory (h : Compatible places) {p : List String} (hp : p ≠ []) :
    kindIn (assemble labelOf places) p = some true ↔
      ∃ q, q ≠ [] ∧ ⟨p ++ q, false⟩ ∈ places := by
  have hplaces : Holds places _ := Holds.inserted h
  rw [TreeNode.assemble, kindIn_finishAll_directory hplaces.ordered hp]
  simp only [hplaces.file]
  constructor
  · rintro ⟨hdirectory, q, hq⟩
    refine ⟨q, ?_, hq⟩
    rintro rfl
    rw [List.append_nil, ← hplaces.file, hdirectory] at hq
    cases hq
  · rintro ⟨q, hne, hq⟩
    refine ⟨(hplaces.directory p).mpr (.inr ⟨_, hq, List.prefix_append p q, ?_⟩), q, hq⟩
    intro heq
    exact absurd (List.self_eq_append_right.mp heq) hne


end TreeNode

end ImportContext
