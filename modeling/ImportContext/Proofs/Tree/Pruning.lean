import ImportContext.Proofs.FileSystem.Nodes
import ImportContext.Proofs.Ignore.RuleSets
import ImportContext.Proofs.Path.Names
import ImportContext.Proofs.Text.ByteOrder
import ImportContext.Proofs.Tree.Assembly

/-!
# What is left of a pruned tree

The walk asks the rules about every directory before it enters it, the tree is put together from
the places that the walk comes to, and directories without a file are dropped. The outcome is
told by one question for each file.

Results:
* `Entry.mem_walk`: the walk comes to what a single question on its own path does not ignore.
* `buildTree_exact`: the tree of a directory has the files that are not ignored, the directories
  that lead to them and nothing else, in byte order, whatever the order of the walk.
-/

namespace ImportContext

namespace Entry

/-! ## File systems without ambiguity -/

mutual

/-- Whether names below an entry are ordinary, and distinct in each directory. -/
def isWellFormed (e : Entry) : Bool :=
  match e with
  | .directory _ entries => allWellFormed entries
  | .file _ _ _ => true
  | .link _ _ => true

/-- Whether the entries of one directory have ordinary and distinct names, and those below. -/
def allWellFormed (entries : List Entry) : Bool :=
  match entries with
  | [] => true
  | e :: rest =>
    decide (Path.IsName e.name) && e.isWellFormed && rest.all (·.name != e.name) &&
      allWellFormed rest

end

variable {e x : Entry} {entries : List Entry} {n name : String} {p : List String}

theorem allWellFormed_cons (h : allWellFormed (e :: entries) = true) :
    Path.IsName e.name ∧ e.isWellFormed = true ∧ (∀ x ∈ entries, x.name ≠ e.name) ∧
      allWellFormed entries = true := by
  simpa [allWellFormed, and_assoc] using h

theorem isWellFormed_directory :
    (directory name entries).isWellFormed = true ↔ allWellFormed entries = true := by
  rw [isWellFormed]

theorem isWellFormed_of_mem (h : allWellFormed entries = true) (he : e ∈ entries) :
    Path.IsName e.name ∧ e.isWellFormed = true := by
  induction entries with
  | nil => cases he
  | cons x entries ih =>
    obtain ⟨hname, hx, -, hentries⟩ := allWellFormed_cons h
    rcases List.mem_cons.mp he with rfl | he
    · exact ⟨hname, hx⟩
    · exact ih hentries he

/-- Each entry of a directory is the one of its name. -/
theorem find?_eq_some_iff (h : allWellFormed entries = true) :
    find? entries n = some e ↔ e ∈ entries ∧ e.name = n := by
  induction entries with
  | nil => simp [find?]
  | cons x entries ih =>
    obtain ⟨-, -, hdistinct, hentries⟩ := allWellFormed_cons h
    rw [find?, List.find?_cons, List.mem_cons]
    by_cases hx : x.name = n
    · simp only [hx, beq_self_eq_true, Option.some.injEq]
      constructor
      · rintro rfl
        exact ⟨.inl rfl, hx⟩
      · rintro ⟨rfl | he, hname⟩
        · rfl
        · exact absurd (hname.trans hx.symm) (hdistinct e he)
    · simp only [beq_eq_false_iff_ne.mpr hx]
      rw [← find?, ih hentries]
      refine and_congr_left fun hname => ⟨.inr, ?_⟩
      rintro (rfl | he)
      · exact absurd hname hx
      · exact he

/-- What is below a directory is at or below one of its entries. -/
theorem descend_cons_eq_some_iff (h : allWellFormed entries = true) :
    (directory name entries).descend (n :: p) = some x ↔
      ∃ e ∈ entries, e.name = n ∧ e.descend p = some x := by
  rw [descend]
  cases hfind : find? entries n with
  | none =>
    simp only [reduceCtorEq, false_iff]
    rintro ⟨e, he, hname, -⟩
    rw [(find?_eq_some_iff h).mpr ⟨he, hname⟩] at hfind
    cases hfind
  | some next =>
    obtain ⟨hnext, hname⟩ := (find?_eq_some_iff h).mp hfind
    refine ⟨fun hx => ⟨next, hnext, hname, hx⟩, ?_⟩
    rintro ⟨e, he, hname', hx⟩
    have heq : some next = some e := hfind.symm.trans ((find?_eq_some_iff h).mpr ⟨he, hname'⟩)
    cases heq
    exact hx

/-- Nothing is below what is no directory. -/
theorem descend_of_not_directory (h : e.isDirectory = false) (hx : e.descend p = some x) :
    p = [] := by
  cases p with
  | nil => rfl
  | cons n p =>
    cases e with
    | file name bytes executable => cases hx
    | link name target => cases hx
    | directory name entries => cases h

theorem isWellFormed_descend (h : e.isWellFormed = true) (hx : e.descend p = some x) :
    x.isWellFormed = true ∧ ∀ n ∈ p, Path.IsName n := by
  induction p generalizing e with
  | nil =>
    obtain rfl : e = x := by cases e <;> simpa [descend] using hx
    exact ⟨h, by simp⟩
  | cons n p ih =>
    cases e with
    | file name bytes executable => cases hx
    | link name target => cases hx
    | directory name entries =>
      rw [isWellFormed_directory] at h
      obtain ⟨e, he, rfl, hbelow⟩ := (descend_cons_eq_some_iff h).mp hx
      obtain ⟨hname, hwell⟩ := isWellFormed_of_mem h he
      obtain ⟨hx', hnames⟩ := ih hwell hbelow
      refine ⟨hx', ?_⟩
      intro m hm
      rcases List.mem_cons.mp hm with rfl | hm
      · exact hname
      · exact hnames m hm

/-! ## The walk -/

variable {rules : IgnoreRuleSet} {depth : Option Nat} {above : List String} {place : Place}

theorem placesOfAll_zero : placesOfAll rules (some 0) above entries = [] := by
  cases entries with
  | nil => rw [placesOfAll]
  | cons e rest => rw [placesOfAll]

theorem placesOfAll_cons (hdepth : depth ≠ some 0) :
    placesOfAll rules depth above (e :: entries) =
      e.places rules (depth.map (· - 1)) above ++ placesOfAll rules depth above entries := by
  rw [placesOfAll]
  exact fun h => absurd h hdepth

/-- One level less is left below the first. -/
theorem below_depth_iff (hdepth : depth ≠ some 0) {k : Nat} :
    (∀ d ∈ depth.map (· - 1), k ≤ d) ↔ ∀ d ∈ depth, k + 1 ≤ d := by
  cases depth with
  | none => simp
  | some d =>
    have hpos : d ≠ 0 := by
      rintro rfl
      exact hdepth rfl
    simp only [Option.map_some, Option.mem_def, Option.some.injEq, forall_eq']
    omega

/-- The place at some names is that of an entry, and no rule ignores it. -/
def Kept (rules : IgnoreRuleSet) (names : List String) (x : Entry) (place : Place) : Prop :=
  place = ⟨names, x.isDirectory⟩ ∧ rules.matchesNames names x.isDirectory = false

theorem mem_places_of_not_directory (h : e.isDirectory = false) :
    place ∈ e.places rules depth above ↔ ∃ p x, e.descend p = some x ∧
      (∀ d ∈ depth, p.length ≤ d) ∧ Kept rules (above ++ e.name :: p) x place := by
  have hplaces : e.places rules depth above =
      if rules.matchesNames (above ++ [e.name]) false then []
      else [⟨above ++ [e.name], false⟩] := by
    cases e with
    | file name bytes executable => rw [places]; rfl
    | link name target => rw [places]; rfl
    | directory name entries => cases h
  have hself : e.descend [] = some e := by cases e <;> rfl
  rw [hplaces]
  constructor
  · intro hplace
    refine ⟨[], e, hself, by simp, ?_⟩
    rw [Kept, h]
    split at hplace
    · cases hplace
    · next hkept => exact ⟨List.mem_singleton.mp hplace, by simpa using hkept⟩
  · rintro ⟨p, x, hx, -, hplace, hkept⟩
    obtain rfl := descend_of_not_directory h hx
    cases hself.symm.trans hx
    rw [h] at hplace hkept
    rw [hkept, hplace]
    exact List.mem_singleton_self _

mutual

/-- The walk from an entry comes to what is not ignored at or below it. -/
theorem mem_places (hplain : rules.Plain) (e : Entry) (h : e.isWellFormed = true)
    (depth : Option Nat) (above : List String) :
    place ∈ e.places rules depth above ↔ ∃ p x, e.descend p = some x ∧
      (∀ d ∈ depth, p.length ≤ d) ∧ Kept rules (above ++ e.name :: p) x place := by
  match e with
  | .file name bytes executable => exact mem_places_of_not_directory rfl
  | .link name target => exact mem_places_of_not_directory rfl
  | .directory name entries =>
    rw [isWellFormed_directory] at h
    rw [places, Entry.name]
    split
    · next hignored =>
      -- what is below an ignored directory is ignored as well
      simp only [List.not_mem_nil, false_iff]
      rintro ⟨p, x, hx, -, -, hkept⟩
      cases p with
      | nil =>
        cases hx
        exact absurd (hignored.symm.trans hkept) (by simp)
      | cons n p =>
        have hbelow := IgnoreRuleSet.matchesNames_append hplain (List.cons_ne_nil n p) hignored
          x.isDirectory
        rw [List.append_assoc, List.singleton_append] at hbelow
        exact absurd (hbelow.symm.trans hkept) (by simp)
    · next hkept =>
      rw [List.mem_cons, mem_placesOfAll hplain entries h]
      constructor
      · rintro (rfl | ⟨e, he, p, x, hx, hdepth, hplace⟩)
        · exact ⟨[], .directory name entries, rfl, by simp, rfl, by simpa [isDirectory] using hkept⟩
        · refine ⟨e.name :: p, x, (descend_cons_eq_some_iff h).mpr ⟨e, he, rfl, hx⟩, hdepth, ?_⟩
          simpa using hplace
      · rintro ⟨p, x, hx, hdepth, hplace⟩
        cases p with
        | nil =>
          cases hx
          exact .inl hplace.1
        | cons n p =>
          obtain ⟨e, he, rfl, hbelow⟩ := (descend_cons_eq_some_iff h).mp hx
          exact .inr ⟨e, he, p, x, hbelow, hdepth, by simpa using hplace⟩

theorem mem_placesOfAll (hplain : rules.Plain) (entries : List Entry)
    (h : allWellFormed entries = true) (depth : Option Nat) (above : List String) :
    place ∈ placesOfAll rules depth above entries ↔ ∃ e ∈ entries, ∃ p x, e.descend p = some x ∧
      (∀ d ∈ depth, p.length + 1 ≤ d) ∧ Kept rules (above ++ e.name :: p) x place := by
  match entries with
  | [] => simp [placesOfAll]
  | e :: rest =>
    obtain ⟨-, he, -, hrest⟩ := allWellFormed_cons h
    by_cases hdepth : depth = some 0
    · rw [hdepth, placesOfAll_zero]
      simp
    · rw [placesOfAll_cons hdepth, List.mem_append, mem_places hplain e he,
        mem_placesOfAll hplain rest hrest]
      simp only [below_depth_iff hdepth, List.mem_cons, or_and_right, exists_or, exists_eq_left]

end

/-- The walk of a directory comes to what a single question on its own path does not ignore. -/
theorem mem_walk (hplain : rules.Plain) (h : allWellFormed entries = true) (name : String)
    {isDir : Bool} : ⟨p, isDir⟩ ∈ placesOfAll rules depth [] entries ↔
      p ≠ [] ∧ ∃ x, (directory name entries).descend p = some x ∧ x.isDirectory = isDir ∧
        (∀ d ∈ depth, p.length ≤ d) ∧ rules.matchesNames p isDir = false := by
  rw [mem_placesOfAll hplain entries h]
  constructor
  · rintro ⟨e, he, p, x, hx, hdepth, hplace, hkept⟩
    cases hplace
    exact ⟨List.cons_ne_nil _ _, x, (descend_cons_eq_some_iff h).mpr ⟨e, he, rfl, hx⟩, rfl,
      hdepth, hkept⟩
  · rintro ⟨hne, x, hx, rfl, hdepth, hkept⟩
    obtain ⟨n, p, rfl⟩ := List.exists_cons_of_ne_nil hne
    obtain ⟨e, he, rfl, hbelow⟩ := (descend_cons_eq_some_iff h).mp hx
    exact ⟨e, he, p, x, hbelow, hdepth, rfl, hkept⟩

theorem compatible_walk (hplain : rules.Plain) (h : allWellFormed entries = true) :
    TreeNode.Compatible (placesOfAll rules depth [] entries) := by
  refine ⟨fun a ha => ((mem_walk hplain h "").mp ha).1, ?_⟩
  rintro ⟨p, _⟩ ha ⟨_, isDir⟩ hb rfl ⟨q, rfl⟩
  obtain ⟨-, x, hx, hfile, -⟩ := (mem_walk hplain h "").mp ha
  obtain ⟨-, y, hy, hkind, -⟩ := (mem_walk hplain h "").mp hb
  rw [descend_append, hx, Option.bind_some] at hy
  obtain rfl := descend_of_not_directory hfile hy
  have heq : x = y := by cases x <;> simpa [descend] using hy
  rw [List.append_nil, ← hkind, ← heq, hfile]

end Entry

/-- Whether names are ordinary, and distinct in each directory of the file system. -/
def FileSystem.isWellFormed (fs : FileSystem) : Bool :=
  fs.root.isWellFormed

theorem FileSystem.isWellFormed_lookup {fs : FileSystem} (h : fs.isWellFormed = true)
    {path : Path} {e : Entry} (hlookup : fs.lookup path = .ok e) : e.isWellFormed = true := by
  obtain ⟨names, -, hentry⟩ := bind_eq_ok_iff.mp hlookup
  split at hentry
  · next e hfound =>
    cases hentry
    exact (Entry.isWellFormed_descend h hfound).1
  · cases hentry

/-! ## The tree -/

/-- An entry that the rules keep: it is no directory, not too deep, and not ignored when asked
about by its own path. -/
structure Entry.Visible (rules : IgnoreRuleSet) (depth : Option Nat) (root : Entry)
    (p : List String) : Prop where
  entry : ∃ x, root.descend p = some x ∧ x.isDirectory = false
  within : ∀ d ∈ depth, p.length ≤ d
  kept : rules.matches (Path.ofPieces p) = false

/-- A tree that shows of a directory just what the rules keep, and how its nodes are arranged. -/
structure TreeNode.Prunes (rules : IgnoreRuleSet) (depth : Option Nat) (root : Entry)
    (tree : TreeNode) : Prop where
  /-- Below the root stand the visible entries and the directories on the way to them. -/
  node : ∀ p, p ≠ [] → ((∃ t, tree.descend p = some t) ↔ root.Visible rules depth p ∨
    (∃ x, root.descend p = some x ∧ x.isDirectory = true) ∧
      ∃ q, q ≠ [] ∧ root.Visible rules depth (p ++ q))
  /-- A node is a directory if the entry at its place is one. -/
  kind : ∀ p t, tree.descend p = some t →
    ∃ x, root.descend p = some x ∧ x.isDirectory = t.isDirectory
  /-- Only the root may be empty. -/
  filled : ∀ p t, p ≠ [] → tree.descend p = some t → t.isDirectory = true → t.children ≠ []
  /-- Siblings are in byte order of their names, each name once. -/
  ordered : ∀ p t, tree.descend p = some t →
    (t.children.map fun c => Text.bytes c.name).Pairwise (· < ·)

section Pruned

variable {rules : IgnoreRuleSet} {depth : Option Nat} {entries : List Entry} {name : String}

/-- To be visible is to be walked to, no directory on the way being ignored. -/
theorem visible_iff_mem_walk (hplain : rules.Plain) (h : Entry.allWellFormed entries = true)
    {p : List String} : (Entry.directory name entries).Visible rules depth p ↔
      ⟨p, false⟩ ∈ Entry.placesOfAll rules depth [] entries := by
  have hmatches : ∀ x, (Entry.directory name entries).descend p = some x →
      rules.matches (Path.ofPieces p) = rules.matchesNames p false := by
    intro x hx
    have hnames : ∀ n ∈ p, Path.IsName n :=
      (Entry.isWellFormed_descend (Entry.isWellFormed_directory.mpr h) hx).2
    rw [IgnoreRuleSet.matches, IgnoreRuleSet.matchesEntry, Path.names_ofPieces hnames]
  rw [Entry.mem_walk hplain h name]
  constructor
  · rintro ⟨⟨x, hx, hfile⟩, hdepth, hkept⟩
    refine ⟨?_, x, hx, hfile, hdepth, (hmatches x hx).symm.trans hkept⟩
    rintro rfl
    cases hx
    cases hfile
  · rintro ⟨-, x, hx, hfile, hdepth, hkept⟩
    exact ⟨⟨x, hx, hfile⟩, hdepth, (hmatches x hx).trans hkept⟩

theorem Entry.Visible.directory_above {root : Entry} {p q : List String}
    (h : root.Visible rules depth (p ++ q)) (hq : q ≠ []) :
    ∃ x, root.descend p = some x ∧ x.isDirectory = true := by
  obtain ⟨y, hy, -⟩ := h.entry
  rw [Entry.descend_append] at hy
  obtain ⟨x, hx, hy⟩ := Option.bind_eq_some_iff.mp hy
  refine ⟨x, hx, ?_⟩
  cases hkind : x.isDirectory with
  | true => rfl
  | false => exact absurd (Entry.descend_of_not_directory hkind hy) hq

open TreeNode in
/-- The tree of the places that a walk comes to. -/
theorem prunes_assemble (hplain : rules.Plain) (h : Entry.allWellFormed entries = true)
    (labelOf : List String → Option String) (title : String) (label : Option String) :
    Prunes rules depth (.directory name entries)
      (.directory title label (assemble labelOf (Entry.placesOfAll rules depth [] entries))) := by
  have hplaces : Compatible (Entry.placesOfAll rules depth [] entries) :=
    Entry.compatible_walk hplain h
  generalize hroot : Entry.directory name entries = root
  generalize htree : directory title label (assemble labelOf (Entry.placesOfAll rules depth []
    entries)) = tree
  have hkind : ∀ p, (tree.descend p).map isDirectory =
      kindIn (assemble labelOf (Entry.placesOfAll rules depth [] entries)) p := by
    intro p
    rw [← htree, kindIn_children rfl, children]
  have hfile : ∀ p, (tree.descend p).map isDirectory = some false ↔
      root.Visible rules depth p := by
    intro p
    rw [hkind, kindIn_assemble_file hplaces, ← hroot, visible_iff_mem_walk hplain h]
  have hdirectory : ∀ p, p ≠ [] → ((tree.descend p).map isDirectory = some true ↔
      ∃ q, q ≠ [] ∧ root.Visible rules depth (p ++ q)) := by
    intro p hp
    rw [hkind, kindIn_assemble_directory hplaces hp]
    simp only [← hroot, visible_iff_mem_walk hplain h]
  refine ⟨?_, ?_, ?_, ?_⟩
  · intro p hp
    have hsome : (∃ t, tree.descend p = some t) ↔
        (tree.descend p).map isDirectory = some false ∨
          (tree.descend p).map isDirectory = some true := by
      cases tree.descend p with
      | none => simp
      | some t => simp
    rw [hsome, hfile, hdirectory p hp]
    refine or_congr Iff.rfl ⟨?_, And.right⟩
    rintro ⟨q, hq, hvisible⟩
    exact ⟨hvisible.directory_above hq, q, hq, hvisible⟩
  · intro p t ht
    cases hd : t.isDirectory with
    | false => exact ((hfile p).mp (by rw [ht, Option.map_some, hd])).entry
    | true =>
      by_cases hp : p = []
      · exact ⟨root, by rw [hp, ← hroot, Entry.descend], by rw [← hroot, Entry.isDirectory]⟩
      · obtain ⟨q, hq, hvisible⟩ := (hdirectory p hp).mp (by rw [ht, Option.map_some, hd])
        exact hvisible.directory_above hq
  · intro p t hp ht hd hchildren
    obtain ⟨q, hq, hvisible⟩ := (hdirectory p hp).mp (by rw [ht, Option.map_some, hd])
    obtain ⟨n, q, rfl⟩ := List.exists_cons_of_ne_nil hq
    have hbelow := (hfile _).mpr hvisible
    rw [descend_append, ht, Option.bind_some, descend, child?, hchildren] at hbelow
    cases hbelow
  · intro p t ht
    have hordered : tree.Ordered := by
      rw [← htree]
      exact AllOrdered.assemble hplaces
    rw [List.pairwise_map]
    exact (hordered.descend ht).children.pairwise.imp Text.bytes_lt

end Pruned

/-- One question about a path takes in all directories on the way to it. -/
theorem matches_eq_false_iff {rules : IgnoreRuleSet} (hplain : rules.Plain) {p : List String}
    (hnames : ∀ n ∈ p, Path.IsName n) : rules.matches (Path.ofPieces p) = false ↔
      ∀ q, q ≠ [] → q <+: p → rules.matchesEntry (Path.ofPieces q) (decide (q ≠ p)) = false := by
  rw [IgnoreRuleSet.matches]
  constructor
  · intro hkept q hq hprefix
    by_cases heq : q = p
    · simpa [heq] using hkept
    · obtain ⟨more, rfl⟩ := hprefix
      have hmore : more ≠ [] := by
        rintro rfl
        exact heq (List.append_nil q).symm
      have hq' : ∀ n ∈ q, Path.IsName n := fun n hn => hnames n (List.mem_append_left more hn)
      rw [IgnoreRuleSet.matchesEntry, Path.names_ofPieces hnames] at hkept
      rw [IgnoreRuleSet.matchesEntry, Path.names_ofPieces hq', decide_eq_true heq,
        ← Bool.not_eq_true]
      intro hignored
      have hbelow := IgnoreRuleSet.matchesNames_append hplain hmore hignored false
      rw [hkept] at hbelow
      cases hbelow
  · intro h
    by_cases hp : p = []
    · rw [hp]
      rfl
    · simpa using h p hp (List.prefix_refl p)

theorem buildTree_directory {h : Host} {dir : Path} {rules : IgnoreRuleSet} {focus : FocusItems}
    {depth : Option Nat} {name : String} {entries : List Entry}
    (hroot : h.files.lookup (h.normalize dir) = .ok (.directory name entries))
    (hfocus : focus.outside? h (h.normalize dir) = none) :
    buildTree h dir rules focus depth = .ok (.directory (rootName (h.normalize dir))
      (focus.labelBelow h (h.normalize dir) [])
      (TreeNode.assemble (focus.labelBelow h (h.normalize dir))
        (Entry.placesOfAll rules depth [] entries))) := by
  rw [buildTree]
  simp only [hroot, hfocus]

theorem exists_buildTree {h : Host} {dir : Path} {rules : IgnoreRuleSet} {focus : FocusItems}
    {depth : Option Nat} {name : String} {entries : List Entry} (hplain : rules.Plain)
    (hentries : Entry.allWellFormed entries = true)
    (hroot : h.files.lookup (h.normalize dir) = .ok (.directory name entries))
    (hfocus : focus.outside? h (h.normalize dir) = none) :
    ∃ tree, buildTree h dir rules focus depth = .ok tree ∧
      tree.Prunes rules depth (.directory name entries) :=
  ⟨_, buildTree_directory hroot hfocus, prunes_assemble hplain hentries _ _ _⟩

/-- The tree of a directory is what the rules keep of it. Its nodes are the files that one question
each does not ignore, and the directories that lead to them; to ask about a file is to ask about
every directory on the way. Only the root may be empty, names increase in byte order among
siblings, and the order in which the walk comes to its places has no part in the tree. -/
theorem buildTree_exact {h : Host} {dir : Path} {patterns : List String} {rules : IgnoreRuleSet}
    {focus : FocusItems} {depth : Option Nat} {name : String} {entries : List Entry}
    (hrules : IgnoreRuleSet.ofPatterns patterns = .ok rules)
    (hfiles : h.files.isWellFormed = true)
    (hroot : h.files.lookup (h.normalize dir) = .ok (.directory name entries))
    (hfocus : focus.outside? h (h.normalize dir) = none) :
    ∃ tree, buildTree h dir rules focus depth = .ok tree ∧
      TreeNode.Prunes rules depth (.directory name entries) tree ∧
      (∀ p x, (Entry.directory name entries).descend p = some x →
        (rules.matches (Path.ofPieces p) = false ↔ ∀ q, q ≠ [] → q <+: p →
          rules.matchesEntry (Path.ofPieces q) (decide (q ≠ p)) = false)) ∧
      (∀ p, ⟨p, false⟩ ∈ Entry.placesOfAll rules depth [] entries ↔
        (Entry.directory name entries).Visible rules depth p) ∧
      ∀ order, order.Perm (Entry.placesOfAll rules depth [] entries) →
        tree = .directory (rootName (h.normalize dir)) (focus.labelBelow h (h.normalize dir) [])
          (TreeNode.assemble (focus.labelBelow h (h.normalize dir)) order) := by
  have hplain : rules.Plain := IgnoreRuleSet.ofPatterns_plain hrules
  have hwell : (Entry.directory name entries).isWellFormed = true :=
    FileSystem.isWellFormed_lookup hfiles hroot
  have hentries : Entry.allWellFormed entries = true := Entry.isWellFormed_directory.mp hwell
  refine ⟨_, buildTree_directory hroot hfocus, prunes_assemble hplain hentries _ _ _, ?_, ?_, ?_⟩
  · intro p x hx
    exact matches_eq_false_iff hplain (Entry.isWellFormed_descend hwell hx).2
  · intro p
    exact (visible_iff_mem_walk hplain hentries).symm
  · intro order hperm
    rw [TreeNode.assemble_congr (Entry.compatible_walk hplain hentries) fun a => hperm.mem_iff]

/-- A project with build output and a file far down. -/
def projectEntries : List Entry :=
  [.directory "pkg" [.file "mod.py" ⟨#[]⟩ false, .directory "deep" [.file "far.py" ⟨#[]⟩ false]],
    .directory "build" [.file "mod.py" ⟨#[]⟩ false], .file "main.py" ⟨#[]⟩ false]

def projectHost : Host :=
  { files := ⟨[.directory "project" projectEntries]⟩ }

theorem buildTree_exact_project : ∃ rules tree,
    IgnoreRuleSet.ofPatterns [] = .ok rules ∧
    buildTree projectHost ⟨"/project"⟩ rules {} (some 2) = .ok tree ∧
    (∃ t, tree.descend ["pkg", "mod.py"] = some t) ∧
    (¬ ∃ t, tree.descend ["build", "mod.py"] = some t) ∧
    ¬ ∃ t, tree.descend ["pkg", "deep", "far.py"] = some t := by
  obtain ⟨rules, hrules, hmatches⟩ := IgnoreRuleSet.standardRules
  obtain ⟨hkept, hignored⟩ : rules.matches ⟨"pkg/mod.py"⟩ = false ∧
      rules.matches ⟨"build/mod.py"⟩ = true := by simpa using hmatches
  obtain ⟨tree, htree, hprunes, -⟩ := @buildTree_exact projectHost ⟨"/project"⟩ [] rules {}
    (some 2) "project" projectEntries hrules (by decide +kernel) rfl rfl
  refine ⟨rules, tree, hrules, htree, ?_, ?_, ?_⟩
  · rw [hprunes.node _ (by simp)]
    exact .inl ⟨⟨_, rfl, rfl⟩, by simp, hkept⟩
  · rw [hprunes.node _ (by simp)]
    rintro (hvisible | ⟨⟨x, hx, hdirectory⟩, -⟩)
    · exact absurd (hignored.symm.trans hvisible.kept) (by simp)
    · cases hx
      cases hdirectory
  · rw [hprunes.node _ (by simp)]
    rintro (hvisible | ⟨⟨x, hx, hdirectory⟩, -⟩)
    · exact absurd (hvisible.within 2 rfl) (by decide)
    · cases hx
      cases hdirectory

end ImportContext
