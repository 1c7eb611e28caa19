import ImportContext.Tree.Build

/-!
# Nodes of a tree

What stands at a list of names in a tree, and what inserting a place changes there.

Results:
* `kindIn_insert`: an insertion adds the place and the directories that lead to it, nothing else.
* `Holds.foldl`: places inserted one after the other are what the nodes show.
-/

namespace ImportContext

namespace TreeNode

/-- Induction over nodes and the nodes below them. -/
@[elab_as_elim]
theorem forest_induction {motive : List TreeNode → Prop} (nil : motive [])
    (file : ∀ name label ts, motive ts → motive (.file name label :: ts))
    (directory : ∀ name label children ts, motive children → motive ts →
      motive (.directory name label children :: ts)) : ∀ ts, motive ts
  | [] => nil
  | .file name label :: ts => file name label ts (forest_induction nil file directory ts)
  | .directory name label children :: ts =>
    directory name label children ts (forest_induction nil file directory children)
      (forest_induction nil file directory ts)

variable {ts : List TreeNode} {n : String}

/-- The node at a list of names below a node. -/
def descend (t : TreeNode) : List String → Option TreeNode
  | [] => some t
  | n :: rest => (t.child? n).bind (descend · rest)

/-- What stands at a list of names below some nodes: a directory, a file or nothing. -/
def kindIn (ts : List TreeNode) : List String → Option Bool
  | [] => some true
  | n :: rest =>
    match ts.find? (·.name == n) with
    | some (.directory _ _ children) => kindIn children rest
    | some (.file _ _) => if rest.isEmpty then some false else none
    | none => none

theorem kindIn_of_directory {label : Option String} {name : String} {children : List TreeNode}
    (h : ts.find? (·.name == n) = some (.directory name label children)) (p : List String) :
    kindIn ts (n :: p) = kindIn children p := by
  rw [kindIn, h]

theorem kindIn_of_file {label : Option String} {name : String}
    (h : ts.find? (·.name == n) = some (.file name label)) (p : List String) :
    kindIn ts (n :: p) = if p.isEmpty then some false else none := by
  rw [kindIn, h]

theorem kindIn_of_absent (h : ts.find? (·.name == n) = none) (p : List String) :
    kindIn ts (n :: p) = none := by
  rw [kindIn, h]

theorem kindIn_nil (p : List String) : kindIn [] p = if p = [] then some true else none := by
  cases p with
  | nil => rfl
  | cons n rest => rfl

theorem kindIn_cons_directory (label : Option String) (children : List TreeNode)
    (p : List String) :
    kindIn (.directory n label children :: ts) (n :: p) = kindIn children p := by
  have hfind : (directory n label children :: ts).find? (·.name == n) =
      some (.directory n label children) := by simp [name]
  exact kindIn_of_directory hfind p

theorem kindIn_cons_file (label : Option String) (p : List String) :
    kindIn (.file n label :: ts) (n :: p) = if p.isEmpty then some false else none := by
  have hfind : (file n label :: ts).find? (·.name == n) = some (.file n label) := by simp [name]
  exact kindIn_of_file hfind p

theorem kindIn_cons_of_ne {t : TreeNode} (h : t.name ≠ n) (p : List String) :
    kindIn (t :: ts) (n :: p) = kindIn ts (n :: p) := by
  rw [kindIn, List.find?_cons_of_neg (by simpa using h), ← kindIn]

/-- What stands somewhere below nodes stands below one of them. -/
theorem exists_of_kindIn {p : List String} {k : Bool} (h : kindIn ts (n :: p) = some k) :
    ∃ t ∈ ts, t.name = n := by
  cases hfind : ts.find? (·.name == n) with
  | none => rw [kindIn_of_absent hfind] at h; cases h
  | some t => exact ⟨t, List.mem_of_find?_eq_some hfind, by simpa using List.find?_some hfind⟩

theorem kindIn_children {t : TreeNode} (h : t.isDirectory = true) (p : List String) :
    (t.descend p).map isDirectory = kindIn t.children p := by
  induction p generalizing t with
  | nil => simp [descend, kindIn, h]
  | cons n rest ih =>
    rw [descend, child?, kindIn]
    cases t.children.find? (·.name == n) with
    | none => rfl
    | some c =>
      cases c with
      | directory name label children => exact ih rfl
      | file name label =>
        cases rest with
        | nil => rfl
        | cons m rest => rfl

theorem descend_append (t : TreeNode) (p q : List String) :
    t.descend (p ++ q) = (t.descend p).bind (descend · q) := by
  induction p generalizing t with
  | nil => rfl
  | cons n rest ih =>
    rw [List.cons_append, descend, descend, Option.bind_assoc]
    congr 1
    funext c
    exact ih c

/-! ## Order -/

mutual

/-- The names of siblings increase, at every level below the node. -/
def Ordered : TreeNode → Prop
  | .file _ _ => True
  | .directory _ _ children => AllOrdered children

/-- The names of some nodes increase, and so do those at every level below. -/
def AllOrdered : List TreeNode → Prop
  | [] => True
  | t :: ts => t.Ordered ∧ (∀ s ∈ ts, t.name < s.name) ∧ AllOrdered ts

end

theorem AllOrdered.of_mem {t : TreeNode} (h : AllOrdered ts) (ht : t ∈ ts) : t.Ordered := by
  induction ts with
  | nil => cases ht
  | cons s ts ih =>
    rcases List.mem_cons.mp ht with rfl | ht
    · exact h.1
    · exact ih h.2.2 ht

theorem AllOrdered.pairwise (h : AllOrdered ts) : ts.Pairwise fun a b => a.name < b.name := by
  induction ts with
  | nil => exact .nil
  | cons t ts ih => exact .cons h.2.1 (ih h.2.2)

theorem Ordered.children {t : TreeNode} (h : t.Ordered) : AllOrdered t.children := by
  cases t with
  | file name label => trivial
  | directory name label children => exact h

theorem Ordered.descend {t c : TreeNode} {p : List String} (h : t.Ordered)
    (hc : t.descend p = some c) : c.Ordered := by
  induction p generalizing t with
  | nil => cases hc; exact h
  | cons n rest ih =>
    obtain ⟨s, hs, hc⟩ := Option.bind_eq_some_iff.mp hc
    exact ih (h.children.of_mem (List.mem_of_find?_eq_some hs)) hc

theorem AllOrdered.kindIn_cons {t : TreeNode} {p : List String} {k : Bool}
    (h : AllOrdered (t :: ts)) (hp : p ≠ []) (hk : kindIn ts p = some k) :
    kindIn (t :: ts) p = some k := by
  obtain ⟨m, rest, rfl⟩ := List.exists_cons_of_ne_nil hp
  obtain ⟨s, hs, rfl⟩ := exists_of_kindIn hk
  rw [kindIn_cons_of_ne (String.ne_of_lt (h.2.1 s hs)), hk]

/-! ## Insertion -/

/-- The nodes found by name after one of them was changed. -/
theorem find?_alter (h : AllOrdered ts) {f : Option TreeNode → TreeNode}
    (hf : ∀ t, (∀ s, t = some s → s.name = n) → (f t).name = n) (m : String) :
    (alter n f ts).find? (·.name == m) =
      if m = n then some (f (ts.find? (·.name == n))) else ts.find? (·.name == m) := by
  have hnone : (f none).name = n := hf none (by simp)
  induction ts with
  | nil =>
    by_cases hm : m = n
    · simp [alter, hnone, hm]
    · simp [alter, hnone, hm, Ne.symm hm]
  | cons t ts ih =>
    rw [alter]
    split
    · next hname =>
      have hsome : (f (some t)).name = n := hf _ (by rintro s ⟨⟩; exact hname.symm)
      by_cases hm : m = n
      · simp [hm, hsome, ← hname]
      · simp [hm, hsome, Ne.symm hm, ← hname]
    · next hname =>
      split
      · next hlt =>
        -- the new name stands before all others, so it is not among them
        have habsent : (t :: ts).find? (·.name == n) = none := by
          rw [List.find?_eq_none]
          intro s hs
          have hs' : n < s.name := by
            rcases List.mem_cons.mp hs with rfl | hs
            · exact hlt
            · exact String.lt_trans hlt (h.2.1 s hs)
          simpa using (String.ne_of_lt hs').symm
        by_cases hm : m = n
        · rw [List.find?_cons_of_pos (by simp [hnone, hm]), if_pos hm, habsent]
        · rw [List.find?_cons_of_neg (by simp [hnone, Ne.symm hm]), if_neg hm]
      · have hne : (t.name == n) = false := by simpa using Ne.symm hname
        rw [List.find?_cons, List.find?_cons, List.find?_cons, hne, ih h.2.2]
        by_cases hm : m = n
        · simp [hm, hne]
        · simp [hm]

theorem name_of_mem_alter {f : Option TreeNode → TreeNode} {s : TreeNode}
    (hf : ∀ t, (∀ s, t = some s → s.name = n) → (f t).name = n) (hs : s ∈ alter n f ts) :
    s ∈ ts ∨ s.name = n := by
  induction ts with
  | nil =>
    obtain rfl : s = f none := by simpa [alter] using hs
    exact .inr (hf none (by simp))
  | cons t ts ih =>
    rw [alter] at hs
    split at hs
    · next hname =>
      rcases List.mem_cons.mp hs with rfl | hs
      · exact .inr (hf _ (by rintro s ⟨⟩; exact hname.symm))
      · exact .inl (List.mem_cons_of_mem _ hs)
    · split at hs
      · rcases List.mem_cons.mp hs with rfl | hs
        · exact .inr (hf none (by simp))
        · exact .inl hs
      · rcases List.mem_cons.mp hs with rfl | hs
        · exact .inl List.mem_cons_self
        · exact (ih hs).imp_left (List.mem_cons_of_mem _)

theorem AllOrdered.alter (h : AllOrdered ts) {f : Option TreeNode → TreeNode}
    (hf : ∀ t, (∀ s, t = some s → s.name = n) → (f t).name = n)
    (hord : ∀ t, (∀ s, t = some s → s.Ordered) → (f t).Ordered) : AllOrdered (alter n f ts) := by
  have hnone : (f none).name = n ∧ (f none).Ordered := ⟨hf none (by simp), hord none (by simp)⟩
  induction ts with
  | nil => exact ⟨hnone.2, by simp, trivial⟩
  | cons t ts ih =>
    rw [TreeNode.alter]
    split
    · next hname =>
      have hsome : (f (some t)).name = n := hf _ (by rintro s ⟨⟩; exact hname.symm)
      refine ⟨hord _ (by rintro s ⟨⟩; exact h.1), ?_, h.2.2⟩
      rw [hsome, hname]
      exact h.2.1
    · next hname =>
      split
      · next hlt =>
        refine ⟨hnone.2, ?_, h⟩
        rw [hnone.1]
        intro s hs
        rcases List.mem_cons.mp hs with rfl | hs
        · exact hlt
        · exact String.lt_trans hlt (h.2.1 s hs)
      · next hnlt =>
        have hgt : t.name < n := by
          rw [← String.not_le]
          intro hle
          exact hname (String.le_antisymm hle (String.not_lt.mp hnlt))
        refine ⟨h.1, ?_, ih h.2.2⟩
        intro s hs
        rcases name_of_mem_alter hf hs with hs | hs
        · exact h.2.1 s hs
        · rw [hs]; exact hgt

theorem name_grow {d : Bool} {rest : List String} {below : List TreeNode → List TreeNode}
    {t : Option TreeNode} (ht : ∀ s, t = some s → s.name = n) :
    (grow d n rest below t).name = n := by
  cases t with
  | none =>
    rw [grow]
    split
    · rfl
    · rfl
  | some s =>
    cases s with
    | file name label => exact ht _ rfl
    | directory name label children => exact ht (.directory name label children) rfl

theorem Ordered.grow {d : Bool} {rest : List String} {below : List TreeNode → List TreeNode}
    (hbelow : ∀ ts, AllOrdered ts → AllOrdered (below ts)) {t : Option TreeNode}
    (ht : ∀ s, t = some s → s.Ordered) : (TreeNode.grow d n rest below t).Ordered := by
  cases t with
  | none =>
    rw [TreeNode.grow]
    split
    · trivial
    · exact hbelow [] trivial
  | some s =>
    cases s with
    | file name label => trivial
    | directory name label children => exact hbelow children (ht _ rfl)

theorem AllOrdered.insert (d : Bool) {q : List String} (h : AllOrdered ts) :
    AllOrdered (insert d q ts) := by
  induction q generalizing ts with
  | nil => exact h
  | cons n rest ih =>
    exact h.alter (fun _ => name_grow) fun _ => Ordered.grow fun _ => ih

/-- The node of the first name after an insertion. -/
theorem find?_insert_self {d : Bool} {rest : List String} (h : AllOrdered ts) :
    (insert d (n :: rest) ts).find? (·.name == n) =
      some (grow d n rest (insert d rest) (ts.find? (·.name == n))) := by
  rw [insert, find?_alter h fun _ => name_grow, if_pos rfl]

theorem find?_insert_of_ne {d : Bool} {rest : List String} (h : AllOrdered ts) {m : String}
    (hm : m ≠ n) : (insert d (n :: rest) ts).find? (·.name == m) = ts.find? (·.name == m) := by
  rw [insert, find?_alter h fun _ => name_grow, if_neg hm]

/-- An insertion adds the place and the directories that lead to it, unless they are there. -/
theorem kindIn_insert {d : Bool} {q : List String} (h : AllOrdered ts)
    (hfree : ∀ r, r <+: q → r ≠ q → kindIn ts r ≠ some false) (p : List String) :
    kindIn (insert d q ts) p =
      if p <+: q then (kindIn ts p).or (some (decide (p ≠ q) || d)) else kindIn ts p := by
  induction q generalizing ts p with
  | nil =>
    rw [insert]
    split
    · next hp =>
      rw [List.prefix_nil.mp hp]
      rfl
    · rfl
  | cons n rest ih =>
    cases p with
    | nil => simp [kindIn]
    | cons m p =>
      by_cases hm : m = n
      · subst hm
        have hfind' : (insert d (m :: rest) ts).find? (·.name == m) =
            some (grow d m rest (insert d rest) (ts.find? (·.name == m))) := find?_insert_self h
        simp only [List.cons_prefix_cons, true_and, ne_eq, List.cons.injEq]
        cases hfind : ts.find? (·.name == m) with
        | none =>
          have hnil : AllOrdered [] := trivial
          rw [hfind, grow] at hfind'
          rw [kindIn_of_absent hfind, Option.none_or]
          by_cases hlast : (rest.isEmpty && !d) = true
          · rw [if_pos hlast] at hfind'
            obtain ⟨hrest, hd⟩ : rest = [] ∧ d = false := by simpa using hlast
            rw [kindIn_of_file hfind', hrest, hd]
            cases p with
            | nil => simp
            | cons a p => simp
          · rw [if_neg hlast] at hfind'
            rw [kindIn_of_directory hfind', ih hnil, kindIn_nil]
            · cases p with
              | nil =>
                cases rest with
                | nil => simpa using hlast
                | cons a rest => simp
              | cons a p => simp
            · intro r _ _
              rw [kindIn_nil]
              split
              · simp
              · simp
        | some s =>
          rw [hfind] at hfind'
          cases s with
          | directory name label children =>
            have hchildren : AllOrdered children :=
              (h.of_mem (List.mem_of_find?_eq_some hfind)).children
            rw [kindIn_of_directory hfind', kindIn_of_directory hfind]
            refine ih hchildren ?_ p
            intro r hr hne
            rw [← kindIn_of_directory hfind]
            exact hfree (m :: r) (by simpa using hr) (by simpa using hne)
          | file name label =>
            -- the file is not in the way, so it is the place itself
            have hrest : rest = [] := by
              cases rest with
              | nil => rfl
              | cons a rest =>
                exact absurd (kindIn_of_file hfind []) (hfree [m] (by simp) (by simp))
            rw [kindIn_of_file hfind', kindIn_of_file hfind, hrest]
            cases p with
            | nil => simp
            | cons a p => simp
      · rw [if_neg (by simp [hm]), kindIn, find?_insert_of_ne h hm]
        rfl

/-! ## The nodes of some places -/

/-- Places that can be in one tree: none is the root, and at or below a file is only the file. -/
def Compatible (places : List Place) : Prop :=
  (∀ a ∈ places, a.names ≠ []) ∧
    ∀ a ∈ places, ∀ b ∈ places, a.isDirectory = false → a.names <+: b.names → a = b

theorem Compatible.mono {places places' : List Place} (h : Compatible places')
    (hsub : ∀ a ∈ places, a ∈ places') : Compatible places :=
  ⟨fun a ha => h.1 a (hsub a ha), fun a ha b hb => h.2 a (hsub a ha) b (hsub b hb)⟩

/-- The nodes show just these places and the directories that lead to them, in order. -/
structure Holds (places : List Place) (ts : List TreeNode) : Prop where
  ordered : AllOrdered ts
  file : ∀ p, kindIn ts p = some false ↔ ⟨p, false⟩ ∈ places
  directory : ∀ p, kindIn ts p = some true ↔
    p = [] ∨ ∃ q ∈ places, p <+: q.names ∧ (p = q.names → q.isDirectory = true)

theorem Holds.nil : Holds [] [] where
  ordered := trivial
  file p := by
    rw [kindIn_nil]
    split
    · simp
    · simp
  directory p := by
    rw [kindIn_nil]
    split
    · next hp => simp [hp]
    · next hp => simp [hp]

/-- What an insertion preserves. -/
theorem Holds.insert {places : List Place} {q : Place} (h : Holds places ts)
    (hall : Compatible (q :: places)) :
    Holds (q :: places) (insert q.isDirectory q.names ts) := by
  have hq : q ∈ q :: places := List.mem_cons_self
  have hmem : ∀ {b}, b ∈ places → b ∈ q :: places := List.mem_cons_of_mem q
  have hfree : ∀ r, r <+: q.names → kindIn ts r = some false → (⟨r, false⟩ : Place) = q :=
    fun r hr hfile => hall.2 _ (hmem ((h.file r).mp hfile)) q hq rfl hr
  have hkind := kindIn_insert (d := q.isDirectory) h.ordered
    fun r hr hne hfile => hne (congrArg Place.names (hfree r hr hfile))
  refine ⟨h.ordered.insert _, ?_, ?_⟩
  · intro p
    rw [hkind, List.mem_cons]
    by_cases hp : p <+: q.names
    · rw [if_pos hp, Option.or_eq_some_iff, h.file]
      constructor
      · rintro (hfile | ⟨-, hnew⟩)
        · exact .inr hfile
        · obtain ⟨rfl, hd⟩ : p = q.names ∧ q.isDirectory = false := by simpa using hnew
          exact .inl (by rw [← hd])
      · rintro (rfl | hfile)
        · cases hold : kindIn ts p with
          | none => exact .inr ⟨rfl, by simp⟩
          | some k =>
            cases k with
            | false => exact .inl ((h.file p).mp hold)
            | true =>
              rcases (h.directory p).mp hold with rfl | ⟨b, hb, hprefix, hdir⟩
              · exact absurd rfl (hall.1 _ hq)
              · obtain rfl := hall.2 _ hq b (hmem hb) rfl hprefix
                exact absurd (hdir rfl) (by simp)
        · exact .inl hfile
    · rw [if_neg hp, h.file]
      refine ⟨.inr, ?_⟩
      rintro (rfl | hfile)
      · exact absurd (List.prefix_refl p) hp
      · exact hfile
  · intro p
    rw [hkind]
    by_cases hp : p <+: q.names
    · rw [if_pos hp, Option.or_eq_some_iff, h.directory]
      constructor
      · rintro ((rfl | ⟨b, hb, hdir⟩) | ⟨-, hnew⟩)
        · exact .inl rfl
        · exact .inr ⟨b, hmem hb, hdir⟩
        · refine .inr ⟨q, hq, hp, ?_⟩
          rintro rfl
          simpa using hnew
      · rintro (rfl | ⟨b, hb, hprefix, hdir⟩)
        · exact .inl (.inl rfl)
        · rcases List.mem_cons.mp hb with rfl | hb
          · cases hold : kindIn ts p with
            | none =>
              refine .inr ⟨rfl, ?_⟩
              by_cases heq : p = b.names
              · simp [hdir heq]
              · simp [heq]
            | some k =>
              cases k with
              | true => exact .inl ((h.directory p).mp hold)
              | false =>
                obtain rfl := hfree p hprefix hold
                exact absurd (hdir rfl) (by simp)
          · exact .inl (.inr ⟨b, hb, hprefix, hdir⟩)
    · rw [if_neg hp, h.directory]
      constructor
      · rintro (rfl | ⟨b, hb, hdir⟩)
        · exact .inl rfl
        · exact .inr ⟨b, hmem hb, hdir⟩
      · rintro (rfl | ⟨b, hb, hprefix, hdir⟩)
        · exact .inl rfl
        · rcases List.mem_cons.mp hb with rfl | hb
          · exact absurd hprefix hp
          · exact .inr ⟨b, hb, hprefix, hdir⟩

/-- The nodes of places that were inserted one after the other. -/
theorem Holds.foldl {done : List Place} : ∀ {places : List Place} {ts : List TreeNode},
    Holds done ts → Compatible (places.reverse ++ done) →
      Holds (places.reverse ++ done)
        (places.foldl (fun ts p => TreeNode.insert p.isDirectory p.names ts) ts) := by
  intro places
  induction places generalizing done with
  | nil => intro ts h _; exact h
  | cons q places ih =>
    intro ts h hall
    rw [List.reverse_cons, List.append_assoc, List.singleton_append] at hall ⊢
    refine ih (h.insert (hall.mono ?_)) hall
    intro a ha
    exact List.mem_append_right _ ha

end TreeNode

end ImportContext
