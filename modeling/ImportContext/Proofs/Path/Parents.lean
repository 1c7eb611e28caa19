import ImportContext.Proofs.Path.Below

/-!
# The steps of a path

Empty pieces and dots are no steps. The path of a parent has the steps of the path but for the
last one, however the path is written.

Results:
* `dropIdleEnd_spec`: what is left without idle pieces at the end.
* `exists_parent`: what the parent of a path that ends in a step looks like.
* `Way.exists_parent`: the parent of a path of names leaves the last one out.
-/

namespace ImportContext.Path

variable {p q : Path} {n : String} {ps xs : List String}

/-- The pieces that are neither empty nor a dot. -/
def dropIdle (ps : List String) : List String :=
  ps.filter fun s => !isIdle s

/-- The steps of a path: its pieces, idle ones left out. -/
def steps (p : Path) : List String :=
  dropIdle p.pieces

theorem dropIdle_append (ps qs : List String) :
    dropIdle (ps ++ qs) = dropIdle ps ++ dropIdle qs :=
  List.filter_append ..

theorem dropIdle_of_isName (h : ∀ s ∈ ps, IsName s) : dropIdle ps = ps :=
  List.filter_eq_self.mpr fun s hs => by rw [isIdle_of_isName (h s hs), Bool.not_false]

theorem dropIdle_singleton (hn : isIdle n = false) : dropIdle [n] = [n] := by
  simp [dropIdle, hn]

theorem dropIdle_cons_idle (hn : isIdle n = true) : dropIdle (n :: ps) = dropIdle ps := by
  simp [dropIdle, hn]

theorem dropIdle_cons_step (hn : isIdle n = false) : dropIdle (n :: ps) = n :: dropIdle ps := by
  simp [dropIdle, hn]

theorem dropIdle_of_isIdle (h : ∀ s ∈ ps, isIdle s = true) : dropIdle ps = [] :=
  List.filter_eq_nil_iff.mpr fun s hs => by rw [h s hs]; decide

theorem dropIdle_dropIdle (ps : List String) : dropIdle (dropIdle ps) = dropIdle ps := by
  rw [dropIdle, dropIdle, List.filter_filter]
  simp only [Bool.and_self]

theorem dropIdle_front (p : Path) : dropIdle p.front = p.steps := by
  by_cases hp : p.text = ""
  · rw [front, if_neg (by simp [hp]), if_pos hp, steps, text_eq_empty_iff.mp hp]
    rfl
  · rcases pieces_eq_front hp with hpieces | hpieces
    · rw [steps, hpieces]
    · rw [steps, hpieces, dropIdle_append]
      simp [dropIdle, isIdle]

theorem steps_of_pieces (hp : p.pieces = xs ++ [n]) (hn : isIdle n = false) :
    p.steps = dropIdle xs ++ [n] := by
  rw [steps, hp, dropIdle_append, dropIdle_singleton hn]

/-! ## Idle ends -/

/-- What is left without idle pieces at the end has the same steps, and ends in a step. -/
theorem dropIdleEnd_spec (xs : List String) : dropIdle (dropIdleEnd xs) = dropIdle xs ∧
    (dropIdleEnd xs = [] ∨ ∃ ys m, dropIdleEnd xs = ys ++ [m] ∧ isIdle m = false) := by
  induction xs using List.reverseRecOn with
  | nil => exact ⟨rfl, .inl rfl⟩
  | append_singleton xs x ih =>
    cases hx : isIdle x with
    | false =>
      rw [dropIdleEnd_concat hx]
      exact ⟨rfl, .inr ⟨xs, x, rfl, hx⟩⟩
    | true =>
      have hend : dropIdleEnd (xs ++ [x]) = dropIdleEnd xs := by
        rw [dropIdleEnd, List.reverse_concat, List.dropWhile_cons, if_pos hx, ← dropIdleEnd]
      have hlast : dropIdle [x] = [] := dropIdle_of_isIdle (by simpa using hx)
      rw [hend, dropIdle_append, hlast, List.append_nil]
      exact ih

theorem dropIdleEnd_prefix_self (xs : List String) : dropIdleEnd xs <+: xs := by
  have hsuffix := List.dropWhile_suffix isIdle (l := xs.reverse)
  rwa [← List.reverse_prefix, List.reverse_reverse] at hsuffix

theorem slash_not_mem_dropIdleEnd {lead rest : List String} {s : String}
    (hp : p.pieces = lead ++ xs ++ rest) (h : s ∈ dropIdleEnd xs) : '/' ∉ s.toList := by
  refine slash_not_mem_of_mem_pieces (p := p) ?_
  rw [hp]
  exact List.mem_append_left _ (List.mem_append_right _ ((dropIdleEnd_prefix_self xs).mem h))

/-- A path that is written from idle pieces and others that end in a step. -/
theorem steps_of_dropIdleEnd (lead : List String) (hlead : ∀ s ∈ lead, isIdle s = true)
    (hp : p.pieces = lead ++ dropIdleEnd xs) : p.steps = dropIdle xs ∧
      ∀ ys m, p.steps = ys ++ [m] → ∃ zs, p.pieces = zs ++ [m] := by
  obtain ⟨hsame, hends⟩ := dropIdleEnd_spec xs
  have hsteps : p.steps = dropIdle (dropIdleEnd xs) := by
    rw [steps, hp, dropIdle_append, dropIdle_of_isIdle hlead, List.nil_append]
  refine ⟨hsteps.trans hsame, ?_⟩
  intro ys m hlast
  rw [hsteps] at hlast
  rcases hends with hnil | ⟨zs, last, heq, hidle⟩
  · rw [hnil] at hlast
    exact absurd hlast (by simp [dropIdle])
  · rw [heq, dropIdle_append, dropIdle_singleton hidle] at hlast
    rw [hp, heq, ← List.append_assoc, (List.append_inj' hlast rfl).2]
    exact ⟨_, rfl⟩

/-! ## Parents -/

theorem exists_component? (hn : isIdle n = false) : ∃ c, component? n = some c ∧ c ≠ .root := by
  rw [component?, if_neg (by simp [hn])]
  split
  · exact ⟨.up, rfl, by simp⟩
  · exact ⟨.name n, rfl, by simp⟩

/-- A path that ends in a step has a last component, which is not the root. -/
theorem getLast?_components (hp : p.pieces = xs ++ [n]) (hn : isIdle n = false) :
    ∃ c, p.components.getLast? = some c ∧ c ≠ .root := by
  have htext := text_ne_empty_of_pieces hp hn
  obtain ⟨hempty, hdot⟩ : n ≠ "" ∧ n ≠ "." := by
    simpa [isIdle] using hn
  cases xs with
  | nil =>
    rw [components_cons htext hp, leading, if_neg hempty, if_neg hdot]
    split
    · exact ⟨.up, rfl, by simp⟩
    · exact ⟨.name n, rfl, by simp⟩
  | cons x xs =>
    obtain ⟨c, hc, hroot⟩ := exists_component? hn
    refine ⟨c, ?_, hroot⟩
    rw [List.cons_append] at hp
    rw [components_cons htext hp, List.filterMap_append, List.filterMap_cons_some hc,
      List.filterMap_nil, ← List.cons_append, List.getLast?_concat]

/-- A path that ends in a step has a parent. -/
theorem parent?_of_pieces (hp : p.pieces = xs ++ [n]) (hn : isIdle n = false) :
    p.parent? = some p.withoutLast := by
  obtain ⟨c, hc, hroot⟩ := getLast?_components hp hn
  rw [parent?, hc]
  cases c with
  | root => exact absurd rfl hroot
  | here => rfl
  | up => rfl
  | name s => rfl

/-- What the parent of a path that ends in a step looks like, given the pieces before that step. -/
structure IsParent (p : Path) (xs : List String) (r : Path) : Prop where
  parent?_eq : p.parent? = some r
  steps_eq : r.steps = dropIdle xs
  /-- It ends in the last of its steps. -/
  ends : ∀ ys m, r.steps = ys ++ [m] → ∃ zs, r.pieces = zs ++ [m]
  isAbsolute_eq : r.isAbsolute = p.isAbsolute
  eq_nil : r.text = "" → xs = []

section Parent

variable (hn : isIdle n = false)
include hn

theorem dropLastPiece_concat (xs : List String) : dropLastPiece (xs ++ [n]) = dropIdleEnd xs := by
  rw [dropLastPiece, dropIdleEnd_concat hn, List.dropLast_concat]

theorem exists_parent_of_single (hp : p.pieces = [] ++ [n]) : ∃ r, IsParent p [] r := by
  have htext := text_ne_empty_of_pieces hp hn
  obtain ⟨hempty, hdot⟩ : n ≠ "" ∧ n ≠ "." := by
    simpa [isIdle] using hn
  have habsolute : p.isAbsolute = false := by
    rw [Bool.eq_false_iff]
    exact fun ha => hempty ((isAbsolute_iff htext hp).mp ha)
  have hdot : (p.pieces.head? == some ".") = false := by simpa [hp] using hdot
  have hpieces : pieces ⟨""⟩ = [""] ++ dropIdleEnd [] := rfl
  obtain ⟨hsteps, hends⟩ := steps_of_dropIdleEnd [""] (by decide) hpieces
  refine ⟨⟨""⟩, ?_, hsteps, hends, by rw [habsolute]; rfl, fun _ => rfl⟩
  rw [parent?_of_pieces hp hn, withoutLast]
  simp only [habsolute, hdot, Bool.false_eq_true, if_false]
  rw [hp, dropLastPiece_concat hn]
  rfl

theorem exists_parent_of_root (hp : p.pieces = "" :: xs ++ [n]) :
    ∃ r, IsParent p ("" :: xs) r := by
  have htext := text_ne_empty_of_pieces hp hn
  have habsolute : p.isAbsolute = true := (isAbsolute_iff htext hp).mpr rfl
  have htail : dropLastPiece p.pieces.tail = dropIdleEnd xs := by
    rw [hp, List.cons_append, List.tail_cons, dropLastPiece_concat hn]
  by_cases hnil : dropIdleEnd xs = []
  · have hparent : p.parent? = some ⟨"/"⟩ := by
      rw [parent?_of_pieces hp hn, withoutLast]
      simp only [habsolute, if_true, htail, hnil]
    have hpieces : pieces ⟨"/"⟩ = ["", ""] ++ dropIdleEnd xs := by rw [hnil]; decide
    obtain ⟨hsteps, hends⟩ := steps_of_dropIdleEnd ["", ""] (by decide) hpieces
    exact ⟨⟨"/"⟩, hparent, hsteps, hends, by rw [habsolute]; rfl, fun h => absurd h (by decide)⟩
  · have hparent : p.parent? = some (ofNames (dropIdleEnd xs)) := by
      rw [parent?_of_pieces hp hn, withoutLast]
      simp only [habsolute, if_true, htail]
      rfl
    have hslash : ∀ s ∈ dropIdleEnd xs, '/' ∉ s.toList := fun s hs =>
      slash_not_mem_dropIdleEnd (show p.pieces = [""] ++ xs ++ [n] from hp) hs
    have hpieces : (ofNames (dropIdleEnd xs)).pieces = [""] ++ dropIdleEnd xs := by
      rw [pieces_ofNames, pieces_ofPieces hnil hslash]
      rfl
    obtain ⟨hsteps, hends⟩ := steps_of_dropIdleEnd [""] (by decide) hpieces
    refine ⟨_, hparent, hsteps, hends, ?_, fun h => ?_⟩
    · rw [habsolute]
      exact isAbsolute_ofNames _
    · have hlength := congrArg String.length h
      simp [ofNames] at hlength

theorem exists_parent_of_dot (hp : p.pieces = "." :: xs ++ [n]) :
    ∃ r, IsParent p ("." :: xs) r := by
  have htext := text_ne_empty_of_pieces hp hn
  have habsolute : p.isAbsolute = false := by
    rw [Bool.eq_false_iff]
    exact fun ha => absurd ((isAbsolute_iff htext hp).mp ha) (by decide)
  have hslash : ∀ s ∈ "." :: dropIdleEnd xs, '/' ∉ s.toList :=
    List.forall_mem_cons.mpr ⟨by decide, fun s hs =>
      slash_not_mem_dropIdleEnd (show p.pieces = ["."] ++ xs ++ [n] from hp) hs⟩
  have hpieces : (ofPieces ("." :: dropIdleEnd xs)).pieces = ["."] ++ dropIdleEnd xs :=
    pieces_ofPieces (by simp) hslash
  have hne : (ofPieces ("." :: dropIdleEnd xs)).text ≠ "" := by
    intro hempty
    rw [text_eq_empty_iff.mp hempty] at hpieces
    exact absurd (List.cons.inj hpieces).1 (by decide)
  obtain ⟨hsteps, hends⟩ := steps_of_dropIdleEnd ["."] (by decide) hpieces
  refine ⟨_, ?_, hsteps, hends, ?_, fun h => absurd h hne⟩
  · rw [parent?_of_pieces hp hn, withoutLast]
    simp only [habsolute, Bool.false_eq_true, if_false]
    rw [hp, List.cons_append, List.head?_cons, if_pos (by rfl), List.tail_cons,
      dropLastPiece_concat hn, dropIdleEnd_concat hn]
    split
    · next hnil => exact absurd hnil (by simp)
    · rfl
  · rw [habsolute, Bool.eq_false_iff]
    exact fun ha => absurd ((isAbsolute_iff hne hpieces).mp ha) (by decide)

theorem exists_parent_of_step {x : String} (hx : isIdle x = false)
    (hp : p.pieces = x :: xs ++ [n]) : ∃ r, IsParent p (x :: xs) r := by
  have htext := text_ne_empty_of_pieces hp hn
  obtain ⟨hroot, hdot⟩ : x ≠ "" ∧ x ≠ "." := by
    simpa [isIdle] using hx
  have habsolute : p.isAbsolute = false := by
    rw [Bool.eq_false_iff]
    exact fun ha => hroot ((isAbsolute_iff htext hp).mp ha)
  have hslash : ∀ s ∈ dropIdleEnd (x :: xs), '/' ∉ s.toList := fun s hs =>
    slash_not_mem_dropIdleEnd (show p.pieces = [] ++ (x :: xs) ++ [n] from hp) hs
  -- the first step is kept
  obtain ⟨ys, hys⟩ : ∃ ys, dropIdleEnd (x :: xs) = x :: ys := by
    have hsame := (dropIdleEnd_spec (x :: xs)).1
    rw [dropIdle_cons_step hx] at hsame
    cases hkept : dropIdleEnd (x :: xs) with
    | nil =>
      rw [hkept] at hsame
      cases hsame
    | cons y ys =>
      have hbegin := dropIdleEnd_prefix_self (x :: xs)
      rw [hkept, List.cons_prefix_cons] at hbegin
      exact ⟨ys, by rw [hbegin.1]⟩
  have hpieces : (ofPieces (dropIdleEnd (x :: xs))).pieces = [] ++ dropIdleEnd (x :: xs) :=
    pieces_ofPieces (by rw [hys]; simp) hslash
  obtain ⟨hsteps, hends⟩ := steps_of_dropIdleEnd [] (by simp) hpieces
  have hfirst : (ofPieces (dropIdleEnd (x :: xs))).pieces = x :: ys := hpieces.trans hys
  have hne : (ofPieces (dropIdleEnd (x :: xs))).text ≠ "" := by
    intro hempty
    rw [text_eq_empty_iff.mp hempty] at hfirst
    exact hroot (List.cons.inj hfirst).1.symm
  refine ⟨_, ?_, hsteps, hends, ?_, fun h => absurd h hne⟩
  · rw [parent?_of_pieces hp hn, withoutLast]
    simp only [habsolute, Bool.false_eq_true, if_false]
    rw [hp, dropLastPiece_concat hn, List.cons_append, List.head?_cons,
      if_neg (by simpa using hdot)]
  · rw [habsolute, Bool.eq_false_iff]
    exact fun ha => hroot ((isAbsolute_iff hne hfirst).mp ha)

/-- The parent of a path that ends in a step. -/
theorem exists_parent (hp : p.pieces = xs ++ [n]) : ∃ r, IsParent p xs r := by
  cases xs with
  | nil => exact exists_parent_of_single hn hp
  | cons x xs =>
    by_cases hroot : x = ""
    · subst hroot
      exact exists_parent_of_root hn hp
    · by_cases hdot : x = "."
      · subst hdot
        exact exists_parent_of_dot hn hp
      · exact exists_parent_of_step hn (by simp [isIdle, hroot, hdot]) hp

end Parent

/-! ## Ways -/

/-- An absolute path goes on by some names behind the given steps, and ends in the last name. -/
structure Way (p : Path) (before names : List String) : Prop where
  isAbsolute : p.isAbsolute = true
  steps_eq : p.steps = before ++ names
  isName : ∀ s ∈ names, IsName s
  ends : ∀ ns m, names = ns ++ [m] → ∃ zs, p.pieces = zs ++ [m]

section Way

variable {before names : List String}

theorem Way.text_ne_empty (hp : Way p before names) : p.text ≠ "" := by
  intro hempty
  have habsolute := hp.isAbsolute
  rw [show p = ⟨""⟩ from congrArg Path.mk hempty] at habsolute
  exact absurd habsolute (by decide)

/-- The parent leaves the last name out. -/
theorem Way.exists_parent (hp : Way p before (names ++ [n])) :
    ∃ r, p.parent? = some r ∧ Way r before names := by
  have hn : isIdle n = false := isIdle_of_isName (hp.isName n (by simp))
  obtain ⟨zs, hzs⟩ := hp.ends names n rfl
  obtain ⟨r, hr⟩ := Path.exists_parent hn hzs
  have hsteps : r.steps = before ++ names := by
    have hall := hp.steps_eq
    rw [steps_of_pieces hzs hn, ← List.append_assoc] at hall
    exact hr.steps_eq.trans (List.append_inj' hall rfl).1
  refine ⟨r, hr.parent?_eq, hr.isAbsolute_eq.trans hp.isAbsolute, hsteps,
    fun s hs => hp.isName s (List.mem_append_left _ hs), ?_⟩
  rintro ns m rfl
  exact hr.ends (before ++ ns) m (by rw [hsteps, List.append_assoc])

theorem Way.fileName? (hp : Way p before (names ++ [n])) : p.fileName? = some n := by
  obtain ⟨zs, hzs⟩ := hp.ends names n rfl
  exact fileName?_of_pieces hzs (hp.isName n (by simp))

/-- The pieces of a path that is seen from the current directory. -/
theorem pieces_path (h : Host) (hp : p.text ≠ "") :
    (h.path p).pieces = (if p.isAbsolute then [] else h.cwd.front) ++ p.pieces := by
  rw [Host.path, absolute, if_neg (by simpa using hp)]
  cases habsolute : p.isAbsolute with
  | true => rw [join, if_pos (by rw [habsolute, Bool.true_or]), if_pos rfl, List.nil_append]
  | false => rw [pieces_join habsolute, if_neg (by decide)]

/-- A path that goes on by names behind another one does so when seen from the current
directory. -/
theorem way_path {h : Host} (hcwd : h.cwd.isAbsolute = true) (hp : p.text ≠ "") (hq : q.text ≠ "")
    (hkind : p.isAbsolute = q.isAbsolute) (hsteps : p.steps = q.steps ++ names)
    (hnames : ∀ s ∈ names, IsName s)
    (hends : ∀ ns m, names = ns ++ [m] → ∃ zs, p.pieces = zs ++ [m]) :
    Way (h.path p) (h.path q).steps names := by
  refine ⟨?_, ?_, hnames, ?_⟩
  · rw [Host.path, absolute, if_neg (by simpa using hp)]
    exact isAbsolute_join hcwd
  · rw [steps, steps, pieces_path h hp, pieces_path h hq, hkind, dropIdle_append, dropIdle_append,
      ← steps, ← steps, hsteps, List.append_assoc]
  · rintro ns m rfl
    obtain ⟨zs, hzs⟩ := hends ns m rfl
    exact ⟨_, by rw [pieces_path h hp, hzs, ← List.append_assoc]⟩

theorem way_foldl_child {h : Host} (hcwd : h.cwd.isAbsolute = true) (hp : p.text ≠ "")
    (hnames : ∀ s ∈ names, IsName s) :
    Way (h.path (names.foldl child p)) (h.path p).steps names := by
  cases names using List.reverseRecOn with
  | nil =>
    refine way_path hcwd hp hp rfl (List.append_nil _).symm hnames ?_
    intro ns m heq
    cases ns <;> cases heq
  | append_singleton ns n =>
    have hpieces : ((ns ++ [n]).foldl child p).pieces = p.front ++ ns ++ [n] := by
      rw [pieces_foldl_child (by simp) hnames, List.append_assoc]
    have hn : isIdle n = false := isIdle_of_isName (hnames n (by simp))
    have htext := text_ne_empty_of_pieces hpieces hn
    refine way_path hcwd htext hp ?_ ?_ hnames ?_
    · exact isAbsolute_of_front hp htext (by rw [hpieces, List.append_assoc])
    · rw [steps_of_pieces hpieces hn, dropIdle_append, dropIdle_front,
        dropIdle_of_isName fun s hs => hnames s (List.mem_append_left _ hs), List.append_assoc]
    · intro ys m heq
      rw [hpieces, (List.append_inj' heq rfl).2]
      exact ⟨_, rfl⟩

end Way

end ImportContext.Path
