import ImportContext.FileSystem.Host

/-!
# The names of a path

Which names a path goes through, and what joining, cutting and normalizing do to them. A path that
is written from ordinary names gives these names back, so such a path and its list of names can
stand for each other.

Results:
* `names_join`: the names of a joined path are those of its two parts.
* `components_ofNames`, `names_ofPieces`: paths written from names have these names.
* `exists_normalize`: every normal form is the absolute path of some ordinary names.
* `stripBase?_ofNames`: what remains below a directory is the path of the further names.
-/

namespace ImportContext

namespace Path

/-- What can be the name of a file: a piece of a path that is neither empty nor one of the dots. -/
def IsName (s : String) : Prop :=
  s ≠ "" ∧ s ≠ "." ∧ s ≠ ".." ∧ '/' ∉ s.toList

instance (s : String) : Decidable (IsName s) :=
  inferInstanceAs (Decidable (s ≠ "" ∧ s ≠ "." ∧ s ≠ ".." ∧ '/' ∉ s.toList))

theorem component?_of_isName {s : String} (h : IsName s) : component? s = some (.name s) := by
  obtain ⟨hempty, hdot, hup, -⟩ := h
  simp [component?, isIdle, hempty, hdot, hup]

theorem isIdle_of_isName {s : String} (h : IsName s) : isIdle s = false := by
  simp [isIdle, h.1, h.2.1]

theorem filterMap_component?_of_isName {ns : List String} (h : ∀ s ∈ ns, IsName s) :
    ns.filterMap component? = ns.map .name := by
  induction ns with
  | nil => rfl
  | cons s ns ih =>
    rw [List.filterMap_cons_some (component?_of_isName (h s List.mem_cons_self)),
      ih fun s hs => h s (List.mem_cons_of_mem _ hs), List.map_cons]

theorem dropWhile_isIdle {ns : List String} (h : ∀ s ∈ ns, IsName s) :
    ns.dropWhile isIdle = ns := by
  cases ns with
  | nil => rfl
  | cons s ns => rw [List.dropWhile_cons, isIdle_of_isName (h s List.mem_cons_self)]; rfl

/-! ## Pieces -/

theorem pieces_ne_nil (p : Path) : p.pieces ≠ [] := by
  simp [pieces, Text.splitOnChar]

/-- A slash divides a path into the pieces before it and those behind it. -/
theorem pieces_slash (a b : String) : pieces ⟨a ++ "/" ++ b⟩ = pieces ⟨a⟩ ++ pieces ⟨b⟩ := by
  have hsplit : (a ++ "/" ++ b).toList = a.toList ++ '/' :: b.toList := by simp
  rw [pieces, Text.splitOnChar, hsplit, List.splitOn_append_cons_self, List.map_append]
  rfl

/-- What stands between separators is a part of the text without the separator. -/
theorem of_mem_splitOn {sep : Char} {cs piece : List Char} (h : piece ∈ cs.splitOn sep) :
    sep ∉ piece ∧ piece ⊆ cs := by
  induction cs generalizing piece with
  | nil => simp_all
  | cons c cs ih =>
    rw [List.splitOn_cons_eq_if_modifyHead] at h
    split at h
    · rcases List.mem_cons.mp h with rfl | h
      · simp
      · obtain ⟨hsep, hsub⟩ := ih h
        exact ⟨hsep, List.subset_cons_of_subset c hsub⟩
    · next hc =>
      obtain ⟨first, rest, hsplit⟩ := List.exists_cons_of_ne_nil (List.splitOn_ne_nil sep cs)
      rw [hsplit, List.modifyHead_cons] at h
      rw [hsplit] at ih
      rcases List.mem_cons.mp h with rfl | h
      · obtain ⟨hsep, hsub⟩ := ih List.mem_cons_self
        have hne : sep ≠ c := by
          rintro rfl
          simp at hc
        exact ⟨by simp [hsep, hne], List.cons_subset_cons c hsub⟩
      · obtain ⟨hsep, hsub⟩ := ih (List.mem_cons_of_mem _ h)
        exact ⟨hsep, List.subset_cons_of_subset c hsub⟩

theorem slash_not_mem_of_mem_pieces {p : Path} {s : String} (h : s ∈ p.pieces) :
    '/' ∉ s.toList := by
  obtain ⟨piece, hpiece, rfl⟩ := List.mem_map.mp h
  rw [String.toList_ofList]
  exact (of_mem_splitOn hpiece).1

theorem pieces_of_isAbsolute {p : Path} (h : p.isAbsolute = true) :
    ∃ rest, p.pieces = "" :: rest := by
  cases htext : p.text.toList with
  | nil => simp [isAbsolute, htext] at h
  | cons c cs =>
    have hc : c = '/' := by simpa [isAbsolute, htext] using h
    refine ⟨(cs.splitOn '/').map String.ofList, ?_⟩
    rw [pieces, Text.splitOnChar, htext, hc, List.splitOn_cons_eq_if_modifyHead]
    rfl

/-- A path that ends in a slash has an empty last piece. -/
theorem pieces_of_slash_end {p : Path} (h : p.text.toList.getLast? = some '/') :
    ∃ front, p.text = front ++ "/" ∧ p.pieces = pieces ⟨front⟩ ++ [""] := by
  obtain ⟨cs, hcs⟩ := List.getLast?_eq_some_iff.mp h
  have hfront : p.text = String.ofList cs ++ "/" := String.toList_inj.mp (by simp [hcs])
  refine ⟨String.ofList cs, hfront, ?_⟩
  have hsplit := pieces_slash (String.ofList cs) ""
  rw [String.append_empty, ← hfront] at hsplit
  exact hsplit

/-- Pieces that are names come back from the text they are written to. -/
theorem pieces_ofPieces {ns : List String} (hne : ns ≠ []) (h : ∀ s ∈ ns, '/' ∉ s.toList) :
    (ofPieces ns).pieces = ns :=
  Text.splitOnChar_intercalate rfl hne h

/-! ## Names -/

/-- The name that a piece is, if it is one. -/
def name? (piece : String) : Option String :=
  if isIdle piece || piece == ".." then none else some piece

theorem name?_of_isName {s : String} (h : IsName s) : name? s = some s := by
  simp [name?, isIdle_of_isName h, h.2.2.1]

theorem isName_of_name? {p : Path} {piece s : String} (hp : piece ∈ p.pieces)
    (h : name? piece = some s) : IsName s := by
  unfold name? at h
  split at h
  · cases h
  · next hname =>
    cases h
    simp only [isIdle, Bool.or_eq_true, beq_iff_eq, not_or] at hname
    exact ⟨hname.1.1, hname.1.2, hname.2, slash_not_mem_of_mem_pieces hp⟩

theorem filterMap_component? (ps : List String) :
    ((ps.filterMap component?).filterMap fun
      | .name s => some s
      | _ => none) = ps.filterMap name? := by
  rw [List.filterMap_filterMap]
  congr 1
  funext piece
  cases hidle : isIdle piece with
  | true => simp [component?, name?, hidle]
  | false =>
    by_cases hup : piece = ".."
    · simp [component?, name?, hup, isIdle]
    · simp [component?, name?, hidle, hup]

/-- The names of a path are those of its pieces that are names. -/
theorem names_eq (p : Path) : p.names = p.pieces.filterMap name? := by
  rw [names, components]
  split
  · next habsolute =>
    obtain ⟨rest, hrest⟩ := pieces_of_isAbsolute habsolute
    rw [List.filterMap_cons_none rfl]
    refine (filterMap_component? p.pieces.tail).trans ?_
    rw [hrest]
    rfl
  · split
    · next hdot =>
      obtain ⟨rest, hrest⟩ : ∃ rest, p.pieces = "." :: rest := by
        cases hp : p.pieces with
        | nil => exact absurd hp (pieces_ne_nil p)
        | cons first rest => simp_all
      rw [List.filterMap_cons_none rfl]
      refine (filterMap_component? p.pieces.tail).trans ?_
      rw [hrest]
      rfl
    · exact filterMap_component? p.pieces

theorem isName_of_mem_names {p : Path} {s : String} (h : s ∈ p.names) : IsName s := by
  rw [names_eq] at h
  obtain ⟨piece, hpiece, hs⟩ := List.mem_filterMap.mp h
  exact isName_of_name? hpiece hs

/-- The names of a joined path are those of its two parts. -/
theorem names_join {p q : Path} (hq : q.isAbsolute = false) :
    (p.join q).names = p.names ++ q.names := by
  rw [join]
  split
  · next hempty =>
    have htext : p.text = "" := by simpa [hq] using hempty
    have hnames : p.names = [] := by
      rw [names_eq, show p = ⟨""⟩ from congrArg Path.mk htext]
      rfl
    rw [hnames, List.nil_append]
  · split
    · next hlast =>
      -- the slash at the end of the first part is the one between the parts
      obtain ⟨front, hfront, hp⟩ := pieces_of_slash_end (by simpa using hlast)
      rw [names_eq, names_eq p, names_eq q, hfront, pieces_slash, hp]
      simp [name?, isIdle]
    · rw [names_eq, names_eq p, names_eq q, pieces_slash, List.filterMap_append]

/-- Names come back from the path they are written to. -/
theorem filterMap_name? {ns : List String} (h : ∀ s ∈ ns, IsName s) :
    ns.filterMap name? = ns := by
  induction ns with
  | nil => rfl
  | cons s ns ih =>
    rw [List.filterMap_cons_some (name?_of_isName (h s List.mem_cons_self)),
      ih fun s hs => h s (List.mem_cons_of_mem _ hs)]

theorem names_ofPieces {ns : List String} (h : ∀ s ∈ ns, IsName s) :
    (ofPieces ns).names = ns := by
  rw [names_eq]
  cases ns with
  | nil => rfl
  | cons s ns => rw [pieces_ofPieces (by simp) fun s hs => (h s hs).2.2.2, filterMap_name? h]

/-! ## Absolute paths of names -/

theorem isAbsolute_ofNames (ns : List String) : (ofNames ns).isAbsolute = true := by
  simp [isAbsolute, ofNames]

theorem pieces_ofNames (ns : List String) : (ofNames ns).pieces = "" :: (ofPieces ns).pieces :=
  pieces_slash "" (ofPieces ns).text

theorem isAbsolute_ofPieces {ns : List String} (h : ∀ s ∈ ns, IsName s) :
    (ofPieces ns).isAbsolute = false := by
  cases ns with
  | nil => rfl
  | cons s ns =>
    cases habsolute : (ofPieces (s :: ns)).isAbsolute with
    | false => rfl
    | true =>
      have hpieces : (ofPieces (s :: ns)).pieces = s :: ns :=
        pieces_ofPieces (by simp) fun s hs => (h s hs).2.2.2
      obtain ⟨rest, hrest⟩ := pieces_of_isAbsolute habsolute
      rw [hpieces] at hrest
      exact absurd (List.cons.inj hrest).1 (h s List.mem_cons_self).1

theorem components_ofNames {ns : List String} (h : ∀ s ∈ ns, IsName s) :
    (ofNames ns).components = .root :: ns.map .name := by
  rw [components, if_pos (isAbsolute_ofNames ns), pieces_ofNames, List.tail_cons]
  cases ns with
  | nil => rfl
  | cons s ns =>
    rw [pieces_ofPieces (by simp) fun s hs => (h s hs).2.2.2, filterMap_component?_of_isName h]

theorem names_ofNames {ns : List String} (h : ∀ s ∈ ns, IsName s) : (ofNames ns).names = ns := by
  rw [names_eq, pieces_ofNames, List.filterMap_cons_none rfl, ← names_eq, names_ofPieces h]

theorem fileName?_ofNames {ns : List String} {s : String} (h : ∀ x ∈ ns ++ [s], IsName x) :
    (ofNames (ns ++ [s])).fileName? = some s := by
  rw [fileName?, components_ofNames h, List.map_append, List.map_singleton, ← List.cons_append,
    List.getLast?_concat]

theorem text_ofPieces_append {as bs : List String} (ha : as ≠ []) (hb : bs ≠ []) :
    (ofPieces (as ++ bs)).text = (ofPieces as).text ++ "/" ++ (ofPieces bs).text := by
  induction as with
  | nil => exact absurd rfl ha
  | cons a as ih =>
    apply String.toList_inj.mp
    cases as with
    | nil =>
      obtain ⟨b, bs, rfl⟩ := List.exists_cons_of_ne_nil hb
      simp [ofPieces, String.toList_intercalate]
    | cons a' as =>
      have := congrArg String.toList (ih (by simp))
      simp [ofPieces, String.toList_intercalate] at this ⊢
      exact this

/-- The path of some names does not end in a slash, unless there are none. -/
theorem getLast?_ofNames {ns : List String} (hne : ns ≠ []) (h : ∀ s ∈ ns, IsName s) :
    (ofNames ns).text.toList.getLast? ≠ some '/' := by
  intro hlast
  obtain ⟨front, -, hpieces⟩ := pieces_of_slash_end hlast
  rw [pieces_ofNames, pieces_ofPieces hne fun s hs => (h s hs).2.2.2] at hpieces
  have hend := congrArg List.getLast? hpieces
  rw [List.getLast?_concat, List.getLast?_cons_of_ne_nil hne] at hend
  exact (h "" (List.mem_of_getLast? hend)).1 rfl

/-- Further names behind a path of names. -/
theorem join_ofNames {as bs : List String} (ha : ∀ s ∈ as, IsName s) (hb : ∀ s ∈ bs, IsName s)
    (hne : bs ≠ []) : (ofNames as).join (ofPieces bs) = ofNames (as ++ bs) := by
  have hrelative := isAbsolute_ofPieces hb
  have htext : (ofNames as).text ≠ "" := by
    intro h
    have := congrArg String.toList h
    simp [ofNames] at this
  rw [join, if_neg (by simp [hrelative, htext])]
  cases as with
  | nil => rfl
  | cons a as =>
    have hlast := getLast?_ofNames (by simp) ha
    rw [if_neg (by simpa using hlast)]
    have happend : (ofPieces (a :: as ++ bs)).text =
        (ofPieces (a :: as)).text ++ "/" ++ (ofPieces bs).text :=
      text_ofPieces_append (by simp) hne
    have has : (ofNames (a :: as)).text = "/" ++ (ofPieces (a :: as)).text := rfl
    refine congrArg Path.mk ?_
    calc (ofNames (a :: as)).text ++ "/" ++ (ofPieces bs).text
      _ = "/" ++ ((ofPieces (a :: as)).text ++ "/" ++ (ofPieces bs).text) := by
        rw [has, String.append_assoc, String.append_assoc, String.append_assoc]
      _ = "/" ++ (ofPieces (a :: as ++ bs)).text := by rw [happend]

theorem child_ofNames {ns : List String} {s : String} (h : ∀ s ∈ ns, IsName s) (hs : IsName s) :
    (ofNames ns).child s = ofNames (ns ++ [s]) := by
  rw [← join_ofNames h (by simpa using hs) (by simp)]
  rw [child, ofPieces, String.intercalate_singleton]

theorem foldl_child_ofNames {as bs : List String} (ha : ∀ s ∈ as, IsName s)
    (hb : ∀ s ∈ bs, IsName s) : bs.foldl child (ofNames as) = ofNames (as ++ bs) := by
  induction bs generalizing as with
  | nil => simp
  | cons b bs ih =>
    have hname : IsName b := hb b List.mem_cons_self
    rw [List.foldl_cons, child_ofNames ha hname, ih _ fun s hs => hb s (List.mem_cons_of_mem _ hs)]
    · simp
    · simpa [or_imp, forall_and] using ⟨ha, hname⟩

theorem dropIdleEnd_of_isName {ns : List String} (h : ∀ s ∈ ns, IsName s) :
    dropIdleEnd ns = ns := by
  rw [dropIdleEnd, dropWhile_isIdle (by simpa using h), List.reverse_reverse]

/-- Names remain behind as many components as are dropped. -/
theorem dropComponents_append {n : Nat} {as bs : List String}
    (ha : (as.filterMap component?).length = n) (hb : ∀ s ∈ bs, IsName s) :
    dropComponents n (as ++ bs) = bs := by
  induction as generalizing n with
  | nil =>
    subst ha
    rw [List.filterMap_nil, List.length_nil, List.nil_append, dropComponents]
    exact dropWhile_isIdle hb
  | cons a as ih =>
    cases hidle : isIdle a with
    | true =>
      rw [List.filterMap_cons_none (by rw [component?, if_pos hidle])] at ha
      cases n with
      | zero =>
        rw [dropComponents, List.cons_append, List.dropWhile_cons, if_pos hidle, ← dropComponents]
        exact ih ha
      | succ n =>
        rw [List.cons_append, dropComponents, if_pos hidle]
        exact ih ha
    | false =>
      obtain ⟨c, hc⟩ : ∃ c, component? a = some c := by
        rw [component?, if_neg (by simp [hidle])]
        split
        · exact ⟨_, rfl⟩
        · exact ⟨_, rfl⟩
      rw [List.filterMap_cons_some hc, List.length_cons] at ha
      subst ha
      rw [List.cons_append, dropComponents, if_neg (by simp [hidle])]
      exact ih rfl

/-- Below the path of some names remain the further names. -/
theorem stripBase?_ofNames {as bs : List String} (ha : ∀ s ∈ as, IsName s)
    (hb : ∀ s ∈ bs, IsName s) :
    (ofNames (as ++ bs)).stripBase? (ofNames as) = some (ofPieces bs) := by
  have hall : ∀ s ∈ as ++ bs, IsName s := by
    simpa [or_imp, forall_and] using ⟨ha, hb⟩
  have hstarts : (ofNames (as ++ bs)).startsWith (ofNames as) = true := by
    rw [startsWith, components_ofNames hall, components_ofNames ha]
    simp
  rw [stripBase?, if_pos hstarts, components_ofNames ha, pieces_ofNames]
  simp only [List.length_map, List.tail_cons, Option.some.injEq]
  cases hboth : as ++ bs with
  | nil =>
    obtain ⟨rfl, rfl⟩ := List.append_eq_nil_iff.mp hboth
    rfl
  | cons s ns =>
    rw [pieces_ofPieces (by simp) fun s hs => (hall s (hboth ▸ hs)).2.2.2, ← hboth,
      dropComponents_append (by rw [filterMap_component?_of_isName ha, List.length_map]) hb,
      dropIdleEnd_of_isName hb]

/-! ## Normal forms -/

theorem isName_of_mem_followNames {p : Path} {s : String} (h : s ∈ followNames p.components) :
    IsName s := by
  have hnames : ∀ c ∈ p.components, ∀ s, c = .name s → IsName s := by
    intro c hc s hs
    refine isName_of_mem_names (p := p) (List.mem_filterMap.mpr ⟨c, hc, ?_⟩)
    rw [hs]
  have hstack : ∀ (cs : List Component) (stack : List String),
      (∀ c ∈ cs, ∀ s, c = .name s → IsName s) → (∀ s ∈ stack, IsName s) →
      ∀ s ∈ cs.foldl stackStep stack, IsName s := by
    intro cs
    induction cs with
    | nil => intro stack _ hstack; exact hstack
    | cons c cs ih =>
      intro stack hcs hstack
      refine ih _ (fun c hc => hcs c (List.mem_cons_of_mem _ hc)) ?_
      cases c with
      | root => simp [stackStep]
      | here => exact hstack
      | up => exact fun s hs => hstack s (List.mem_of_mem_tail hs)
      | name s => simpa [stackStep] using ⟨hcs _ List.mem_cons_self s rfl, hstack⟩
  exact hstack _ _ hnames (by simp) s (List.mem_reverse.mp h)

/-- The normal form of a path that is not empty is the absolute path of some names. -/
theorem exists_normalize {cwd p : Path} (h : p.text ≠ "") :
    ∃ ns, (∀ s ∈ ns, IsName s) ∧ normalize cwd p = ofNames ns := by
  refine ⟨followNames (absolute cwd p).components, fun s => isName_of_mem_followNames, ?_⟩
  rw [normalize, if_neg (by simpa using h)]

theorem foldl_stackStep_names (ns stack : List String) :
    (ns.map Component.name).foldl stackStep stack = ns.reverse ++ stack := by
  induction ns generalizing stack with
  | nil => rfl
  | cons n ns ih => simp [stackStep, ih]

theorem absolute_ofNames (cwd : Path) (ns : List String) :
    absolute cwd (ofNames ns) = ofNames ns := by
  rw [absolute, if_neg (by simp [ofNames]), join, isAbsolute_ofNames, Bool.true_or, if_pos rfl]

/-- The absolute path of some names is in normal form. -/
theorem normalize_ofNames {cwd : Path} {ns : List String} (h : ∀ s ∈ ns, IsName s) :
    normalize cwd (ofNames ns) = ofNames ns := by
  rw [normalize, if_neg (by simp [ofNames]), absolute_ofNames, components_ofNames h, followNames,
    List.foldl_cons]
  simp only [stackStep, foldl_stackStep_names, List.append_nil, List.reverse_reverse]

end Path

end ImportContext
