import ImportContext.Proofs.Path.Below

/-!
# Normal forms of paths

A path is followed step by step from the directory it is seen from, with the names read so far as a
stack: an ordinary name is pushed, `..` pops one (and does nothing at the root), and the slash that
starts an absolute path empties the stack. What a joined path leads to is what its second part
leads to from where the first one leads, so a first part can be replaced by its normal form.

Results:
* `foldl_join`: joined paths are followed one after the other.
* `normalize_join_normalize`: the first part of a path may be normalized beforehand.
* `components_normalize_join`: a path that does not climb goes on from the normal form by its
  names.
* `normalize_canonical`: what a normal form looks like, and how it goes with joining.
-/

namespace ImportContext.Path

variable {cwd p q : Path} {cs : List Component} {ns stack : List String}

/-! ## Following joined paths -/

theorem filterMap_front (p : Path) :
    p.front.filterMap component? = p.pieces.filterMap component? := by
  by_cases hp : p.text = ""
  · have hfront : p.front = [] := by
      unfold front
      simp [hp]
    rw [hfront, text_eq_empty_iff.mp hp]
    rfl
  · rcases pieces_eq_front hp with hpieces | hpieces
    · rw [hpieces]
    · rw [hpieces, List.filterMap_append]
      simp [component?, isIdle]

/-- Beside the components of its pieces, a path can have one in front: a slash or a dot there is a
component of its own. -/
theorem components_eq_append (p : Path) : p.components =
    (if p.isAbsolute then [.root] else if p.pieces.head? = some "." then [.here] else []) ++
      p.pieces.filterMap component? := by
  unfold components
  by_cases habsolute : p.isAbsolute = true
  · obtain ⟨rest, hrest⟩ := pieces_of_isAbsolute habsolute
    have hskip : component? "" = none := by decide
    simp only [habsolute, if_true, hrest, List.tail_cons, List.filterMap_cons_none hskip]
    rfl
  · by_cases hdot : p.pieces.head? = some "."
    · obtain ⟨first, rest, hrest⟩ := List.exists_cons_of_ne_nil (pieces_ne_nil p)
      obtain rfl : first = "." := by simpa [hrest] using hdot
      have hskip : component? "." = none := by decide
      simp [habsolute, hrest, List.filterMap_cons_none hskip]
    · simp [habsolute, hdot]

/-- The slash at the front empties the stack; all pieces behind it count alike. -/
theorem foldl_components (p : Path) (stack : List String) :
    p.components.foldl stackStep stack =
      (p.pieces.filterMap component?).foldl stackStep (if p.isAbsolute then [] else stack) := by
  rw [components_eq_append, List.foldl_append]
  split
  · rfl
  · split <;> rfl

theorem components_eq_nil_iff : p.components = [] ↔ p.text = "" := by
  constructor
  · intro hnone
    by_contra htext
    obtain ⟨first, rest, -, hcomponents⟩ := exists_front htext
    rw [hnone] at hcomponents
    cases hcomponents
  · intro hempty
    rw [show p = ⟨""⟩ from congrArg Path.mk hempty]
    decide

theorem join_of_text_eq_empty (hp : p.text = "") (q : Path) : p.join q = q := by
  unfold join
  simp [hp]

theorem join_of_isAbsolute (hq : q.isAbsolute = true) : p.join q = q := by
  unfold join
  simp [hq]

/-- A relative path is written behind a path that is not empty. -/
theorem join_of_relative (hp : p.text ≠ "") (hq : q.isAbsolute = false) :
    p.join q = if p.text.toList.getLast? = some '/' then ⟨p.text ++ q.text⟩
      else ⟨p.text ++ "/" ++ q.text⟩ := by
  unfold join
  simp [hp, hq]

theorem isAbsolute_join_of_relative (hp : p.text ≠ "") (hq : q.isAbsolute = false) :
    (p.join q).isAbsolute = p.isAbsolute := by
  obtain ⟨c, cs, hcs⟩ := List.exists_cons_of_ne_nil (l := p.text.toList) (by simpa using hp)
  rw [join_of_relative hp hq]
  unfold isAbsolute
  split <;> simp [hcs]

theorem text_join_ne_empty (hp : p.text ≠ "") : (p.join q).text ≠ "" := by
  cases hq : q.isAbsolute with
  | true =>
    rw [join_of_isAbsolute hq]
    intro hempty
    simp [isAbsolute, hempty] at hq
  | false =>
    rw [join_of_relative hp hq]
    split <;> simp [hp]

/-- Joined paths are followed one after the other. An absolute second part starts anew. -/
theorem foldl_join (p q : Path) (stack : List String) :
    (p.join q).components.foldl stackStep stack =
      q.components.foldl stackStep (p.components.foldl stackStep stack) := by
  cases hq : q.isAbsolute with
  | true =>
    rw [join_of_isAbsolute hq, foldl_components q, foldl_components q, hq]
    rfl
  | false =>
    by_cases hp : p.text = ""
    · rw [join_of_text_eq_empty hp, components_eq_nil_iff.mpr hp, List.foldl_nil]
    · have hpieces : (p.join q).pieces = p.front ++ q.pieces := pieces_join hq
      have habsolute : (p.join q).isAbsolute = p.isAbsolute := isAbsolute_join_of_relative hp hq
      rw [foldl_components (p.join q), hpieces, habsolute, List.filterMap_append,
        List.foldl_append, filterMap_front, foldl_components q, hq, foldl_components p]
      rfl

/-! ## Normal forms -/

/-- A path is followed from the current directory. -/
theorem normalize_eq_ofNames (hp : p.text ≠ "") : normalize cwd p =
    ofNames (p.components.foldl stackStep (cwd.components.foldl stackStep [])).reverse := by
  unfold normalize absolute followNames
  simp only [beq_iff_eq, hp, if_false]
  rw [foldl_join]

/-- The normal form of a path and the stack that following the path ends with. -/
theorem exists_normalize_stack (cwd : Path) (hp : p.text ≠ "") :
    ∃ ns, (∀ s ∈ ns, IsName s) ∧ normalize cwd p = ofNames ns ∧
      p.components.foldl stackStep (cwd.components.foldl stackStep []) = ns.reverse := by
  have hnames : ∀ s ∈ followNames (cwd.join p).components, IsName s :=
    fun s => isName_of_mem_followNames
  rw [followNames, foldl_join] at hnames
  exact ⟨_, hnames, normalize_eq_ofNames hp, (List.reverse_reverse _).symm⟩

/-- Following an absolute path of names leads to these names from anywhere. -/
theorem foldl_ofNames (h : ∀ s ∈ ns, IsName s) (stack : List String) :
    (ofNames ns).components.foldl stackStep stack = ns.reverse := by
  rw [components_ofNames h, List.foldl_cons, foldl_stackStep_names]
  simp [stackStep]

theorem text_ofNames_ne_empty (ns : List String) : (ofNames ns).text ≠ "" := by
  simp [ofNames]

/-- The first part of a path may be normalized beforehand. -/
theorem normalize_join_normalize (hp : p.text ≠ "") (q : Path) :
    normalize cwd (p.join q) = normalize cwd ((normalize cwd p).join q) := by
  obtain ⟨ns, hns, hnormal, hstack⟩ := exists_normalize_stack cwd hp
  have hjoin : (p.join q).text ≠ "" := text_join_ne_empty hp
  have hjoin' : ((ofNames ns).join q).text ≠ "" := text_join_ne_empty (text_ofNames_ne_empty ns)
  rw [hnormal, normalize_eq_ofNames hjoin, normalize_eq_ofNames hjoin', foldl_join, foldl_join,
    foldl_ofNames hns, hstack]

theorem root_not_mem_components (hp : p.isAbsolute = false) : .root ∉ p.components := by
  have hpieces : .root ∉ p.pieces.filterMap component? := by
    intro hmem
    obtain ⟨piece, -, hpiece⟩ := List.mem_filterMap.mp hmem
    unfold component? at hpiece
    split at hpiece
    · cases hpiece
    · split at hpiece <;> cases hpiece
  rw [components_eq_append, hp, if_neg Bool.false_ne_true]
  split
  · simpa using hpieces
  · simpa using hpieces

/-- Steps that neither start anew nor climb push their names. -/
theorem foldl_stackStep_of_not_mem (hroot : .root ∉ cs) (hup : .up ∉ cs) (stack : List String) :
    cs.foldl stackStep stack = (cs.filterMap fun
      | .name s => some s
      | _ => none).reverse ++ stack := by
  induction cs generalizing stack with
  | nil => rfl
  | cons c cs ih =>
    simp only [List.mem_cons, not_or] at hroot hup
    rw [List.foldl_cons, ih hroot.2 hup.2]
    cases c with
    | root => exact absurd rfl hroot.1
    | up => exact absurd rfl hup.1
    | here => rfl
    | name s => simp [stackStep]

/-- A path that does not climb goes on from the normal form by its names. -/
theorem components_normalize_join (cwd : Path) (hp : p.text ≠ "") (hq : q.isAbsolute = false)
    (hup : .up ∉ q.components) : (normalize cwd (p.join q)).components =
      (normalize cwd p).components ++ q.names.map .name := by
  obtain ⟨ns, hns, hnormal, hstack⟩ := exists_normalize_stack cwd hp
  have hpush : q.components.foldl stackStep ns.reverse = q.names.reverse ++ ns.reverse :=
    foldl_stackStep_of_not_mem (root_not_mem_components hq) hup ns.reverse
  have hboth : normalize cwd (p.join q) = ofNames (ns ++ q.names) := by
    rw [normalize_eq_ofNames (text_join_ne_empty hp), foldl_join, hstack, hpush]
    simp
  have hall : ∀ s ∈ ns ++ q.names, IsName s := by
    intro s hs
    exact (List.mem_append.mp hs).elim (hns s) isName_of_mem_names
  rw [hboth, hnormal, components_ofNames hall, components_ofNames hns, List.map_append,
    List.cons_append]

/-- A normal form is absolute, without dots of either kind, and its own normal form. In a joined
path the first part may be normalized beforehand. A second part that is relative and does not climb
leads below the normal form of the first, by just its ordinary names. -/
theorem normalize_canonical (cwd : Path) {a : Path} (ha : a.text ≠ "") :
    (normalize cwd a).isAbsolute = true ∧
    .here ∉ (normalize cwd a).components ∧ .up ∉ (normalize cwd a).components ∧
    normalize cwd (normalize cwd a) = normalize cwd a ∧
    ∀ b : Path,
      normalize cwd (a.join b) = normalize cwd ((normalize cwd a).join b) ∧
      (b.isAbsolute = false → .up ∉ b.components →
        (normalize cwd (a.join b)).startsWith (normalize cwd a) = true ∧
        (normalize cwd (a.join b)).components =
          (normalize cwd a).components ++ b.names.map .name) := by
  obtain ⟨ns, hns, hnormal⟩ : ∃ ns, (∀ s ∈ ns, IsName s) ∧ normalize cwd a = ofNames ns :=
    exists_normalize ha
  have hcomponents : (normalize cwd a).components = .root :: ns.map .name := by
    rw [hnormal, components_ofNames hns]
  refine ⟨?_, ?_, ?_, ?_, ?_⟩
  · rw [hnormal]
    exact isAbsolute_ofNames ns
  · simp [hcomponents]
  · simp [hcomponents]
  · rw [hnormal, normalize_ofNames hns]
  · intro b
    refine ⟨normalize_join_normalize ha b, ?_⟩
    intro hrelative hup
    have hbelow := components_normalize_join cwd ha hrelative hup
    refine ⟨?_, hbelow⟩
    unfold startsWith
    rw [hbelow]
    simp

/-- A path that climbs, has idle pieces and ends in a slash, with another one behind it, and a path
that climbs beyond the root. -/
theorem normalize_canonical_climbing :
    normalize ⟨"/home/user"⟩ ⟨"../lib/./"⟩ = ⟨"/home/lib"⟩ ∧
      normalize ⟨"/home/user"⟩ ((⟨"../lib/./"⟩ : Path).join ⟨"./a//b/."⟩) = ⟨"/home/lib/a/b"⟩ ∧
      (normalize ⟨"/home/user"⟩ ((⟨"../lib/./"⟩ : Path).join ⟨"./a//b/."⟩)).startsWith
        (normalize ⟨"/home/user"⟩ ⟨"../lib/./"⟩) = true ∧
      normalize ⟨"/home/user"⟩ ((⟨"/../.."⟩ : Path).join ⟨"../a"⟩) = ⟨"/a"⟩ := by
  have hlib : normalize ⟨"/home/user"⟩ ⟨"../lib/./"⟩ = ⟨"/home/lib"⟩ := by decide +kernel
  obtain ⟨-, -, -, -, hbelow⟩ := normalize_canonical ⟨"/home/user"⟩ (a := ⟨"../lib/./"⟩) (by decide)
  obtain ⟨-, -, -, -, hroot⟩ := normalize_canonical ⟨"/home/user"⟩ (a := ⟨"/../.."⟩) (by decide)
  refine ⟨hlib, ?_, ?_, ?_⟩
  · rw [(hbelow ⟨"./a//b/."⟩).1, hlib]
    decide +kernel
  · exact ((hbelow ⟨"./a//b/."⟩).2 (by decide +kernel) (by decide +kernel)).1
  · rw [(hroot ⟨"../a"⟩).1]
    decide +kernel

end ImportContext.Path
