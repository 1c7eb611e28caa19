import ImportContext.Proofs.Path.Names
import Mathlib.Data.List.Induction

/-!
# Paths below a path

What is written behind a path of any form: a relative one, one that ends in a slash, one with idle
pieces. Its pieces are those of the path, a last empty one left out, and then the further names.
The names are found again when the path is taken as a base.

Results:
* `pieces_join`, `pieces_foldl_child`: the pieces of what is written behind a path.
* `components_foldl_child`, `stripBase?_foldl_child`: below the path remain the names.
* `withExtension_of_pieces`: a replaced extension changes the last piece.
-/

namespace ImportContext.Path

variable {p q : Path} {n x : String} {ns ps xs : List String}

/-! ## Pieces -/

theorem ofPieces_pieces (p : Path) : ofPieces p.pieces = p := by
  have htext : (ofPieces p.pieces).text.toList = p.text.toList := by
    rw [ofPieces, pieces, Text.splitOnChar, String.toList_intercalate, List.map_map]
    have hid : String.toList ∘ String.ofList = id := funext fun _ => String.toList_ofList
    rw [hid, List.map_id]
    exact List.intercalate_splitOn '/'
  exact congrArg Path.mk (String.toList_inj.mp htext)

/-- A path is told by its pieces. -/
theorem eq_of_pieces (h : p.pieces = q.pieces) : p = q := by
  rw [← ofPieces_pieces p, h, ofPieces_pieces]

theorem text_eq_empty_iff : p.text = "" ↔ p.pieces = [""] := by
  constructor
  · intro h
    rw [show p = ⟨""⟩ from congrArg Path.mk h]
    rfl
  · intro h
    rw [eq_of_pieces (p := p) (q := ⟨""⟩) h]

theorem text_ne_empty_of_pieces (h : p.pieces = xs ++ [n]) (hn : isIdle n = false) :
    p.text ≠ "" := by
  intro htext
  have hlast := congrArg List.getLast? h
  rw [text_eq_empty_iff.mp htext, List.getLast?_concat] at hlast
  rw [← Option.some.inj hlast] at hn
  cases hn

/-- The pieces that further names are written behind. -/
def front (p : Path) : List String :=
  if p.text.toList.getLast? = some '/' then p.pieces.dropLast
  else if p.text = "" then []
  else p.pieces

theorem pieces_eq_front (hp : p.text ≠ "") : p.pieces = p.front ∨ p.pieces = p.front ++ [""] := by
  rw [front, if_neg hp]
  split
  · next hlast =>
    obtain ⟨text, -, hpieces⟩ := pieces_of_slash_end hlast
    rw [hpieces, List.dropLast_concat]
    exact .inr rfl
  · exact .inl rfl

theorem front_ne_nil (hp : p.text ≠ "") : p.front ≠ [] := by
  intro hfront
  rcases pieces_eq_front hp with hpieces | hpieces
  · exact pieces_ne_nil p (hpieces.trans hfront)
  · rw [hfront] at hpieces
    exact hp (text_eq_empty_iff.mpr hpieces)

theorem slash_not_mem_front {s : String} (h : s ∈ p.front) : '/' ∉ s.toList := by
  by_cases hp : p.text = ""
  · rw [front, if_neg (by simp [hp]), if_pos hp] at h
    cases h
  · rcases pieces_eq_front hp with hpieces | hpieces
    · exact slash_not_mem_of_mem_pieces (hpieces ▸ h)
    · exact slash_not_mem_of_mem_pieces (p := p) (by rw [hpieces]; exact List.mem_append_left _ h)

theorem pieces_join (hq : q.isAbsolute = false) : (p.join q).pieces = p.front ++ q.pieces := by
  rw [join, front]
  by_cases hp : p.text = ""
  · rw [if_pos (by simp [hp]), if_neg (by simp [hp]), if_pos hp, List.nil_append]
  · rw [if_neg (by simp [hp, hq])]
    by_cases hlast : p.text.toList.getLast? = some '/'
    · obtain ⟨text, htext, hpieces⟩ := pieces_of_slash_end hlast
      rw [if_pos (by simpa using hlast), if_pos hlast, hpieces, List.dropLast_concat, htext,
        pieces_slash]
    · rw [if_neg (by simpa using hlast), if_neg hlast, if_neg hp, pieces_slash]

theorem ofPieces_singleton (n : String) : ofPieces [n] = ⟨n⟩ := by
  rw [ofPieces, String.intercalate_singleton]

theorem pieces_child (h : IsName n) : (p.child n).pieces = p.front ++ [n] := by
  have hnames : ∀ s ∈ [n], IsName s := by simpa using h
  rw [child, ← ofPieces_singleton, pieces_join (isAbsolute_ofPieces hnames),
    pieces_ofPieces (by simp) (by simpa using h.2.2.2)]

/-- A path that ends in a name has no slash at its end. -/
theorem front_of_pieces (hp : p.pieces = xs ++ [n]) (h : IsName n) : p.front = xs ++ [n] := by
  have htext := text_ne_empty_of_pieces hp (isIdle_of_isName h)
  rcases pieces_eq_front htext with hpieces | hpieces
  · exact hpieces.symm.trans hp
  · have hlast := congrArg List.getLast? (hp.symm.trans hpieces)
    rw [List.getLast?_concat, List.getLast?_concat] at hlast
    exact absurd (Option.some.inj hlast) h.1

/-- The pieces of the path of some names below a path. -/
theorem pieces_foldl_child (hne : ns ≠ []) (h : ∀ s ∈ ns, IsName s) :
    (ns.foldl child p).pieces = p.front ++ ns := by
  induction ns using List.reverseRecOn with
  | nil => exact absurd rfl hne
  | append_singleton ns n ih =>
    have hn : IsName n := h n (by simp)
    rw [List.foldl_append, List.foldl_cons, List.foldl_nil, pieces_child hn,
      ← List.append_assoc, List.append_cancel_right_eq]
    cases ns using List.reverseRecOn with
    | nil => rw [List.foldl_nil, List.append_nil]
    | append_singleton ms m =>
      have hpieces := ih (by simp) fun s hs => h s (List.mem_append_left _ hs)
      rw [← List.append_assoc] at hpieces ⊢
      exact front_of_pieces hpieces (h m (by simp))

/-! ## Components -/

/-- The component that the first piece of a path stands for. -/
def leading (piece : String) : Component :=
  if piece = "" then .root
  else if piece = "." then .here
  else if piece = ".." then .up
  else .name piece

theorem isAbsolute_iff (hp : p.text ≠ "") (h : p.pieces = x :: ps) :
    p.isAbsolute = true ↔ x = "" := by
  constructor
  · intro habsolute
    obtain ⟨rest, hrest⟩ := pieces_of_isAbsolute habsolute
    rw [h] at hrest
    exact (List.cons.inj hrest).1
  · rintro rfl
    have hps : ps ≠ [] := by
      rintro rfl
      exact hp (text_eq_empty_iff.mpr h)
    have htext : p.text = "/" ++ (ofPieces ps).text := by
      rw [← ofPieces_pieces p, h, ← List.singleton_append,
        text_ofPieces_append (by simp) hps, ofPieces_singleton, String.empty_append]
    simp [isAbsolute, htext]

theorem isAbsolute_of_front (hp : p.text ≠ "") (hq : q.text ≠ "")
    (h : q.pieces = p.front ++ xs) : q.isAbsolute = p.isAbsolute := by
  obtain ⟨x, ps, hfront⟩ := List.exists_cons_of_ne_nil (front_ne_nil hp)
  obtain ⟨ps', hpieces⟩ : ∃ ps', p.pieces = x :: ps' := by
    rcases pieces_eq_front hp with hpieces | hpieces
    · exact ⟨ps, hpieces.trans hfront⟩
    · exact ⟨ps ++ [""], by rw [hpieces, hfront, List.cons_append]⟩
  rw [hfront, List.cons_append] at h
  rw [Bool.eq_iff_iff, isAbsolute_iff hq h, isAbsolute_iff hp hpieces]

theorem isAbsolute_join (hp : p.isAbsolute = true) : (p.join q).isAbsolute = true := by
  have htext : p.text ≠ "" := by
    intro hempty
    rw [show p = ⟨""⟩ from congrArg Path.mk hempty] at hp
    exact absurd hp (by decide)
  cases hq : q.isAbsolute with
  | true => rwa [join, if_pos (by rw [hq, Bool.true_or])]
  | false =>
    have hpieces := pieces_join (p := p) hq
    have hjoin : (p.join q).text ≠ "" := by
      intro hempty
      rw [text_eq_empty_iff.mp hempty] at hpieces
      have hlength := congrArg List.length hpieces
      have hfront := List.length_pos_iff.mpr (front_ne_nil htext)
      have hrest := List.length_pos_iff.mpr (pieces_ne_nil q)
      rw [List.length_append, List.length_singleton] at hlength
      omega
    rw [isAbsolute_of_front htext hjoin hpieces, hp]

/-- The first piece of a path stands for a component of its own; empty pieces and dots behind it
do not. -/
theorem components_cons (hp : p.text ≠ "") (h : p.pieces = x :: ps) :
    p.components = leading x :: ps.filterMap component? := by
  have habsolute := isAbsolute_iff hp h
  rw [components, h, List.tail_cons, leading]
  by_cases hx : x = ""
  · rw [if_pos (habsolute.mpr hx), if_pos hx]
  · rw [if_neg fun ha => hx (habsolute.mp ha), if_neg hx]
    by_cases hdot : x = "."
    · rw [if_pos (by simp [hdot]), if_pos hdot]
    · have hidle : isIdle x = false := by simp [isIdle, hx, hdot]
      rw [if_neg (by simpa using hdot), if_neg hdot]
      refine List.filterMap_cons_some ?_
      by_cases hup : x = ".."
      · rw [component?, if_neg (by simp [hidle]), if_pos (by simpa using hup), if_pos hup]
      · rw [component?, if_neg (by simp [hidle]), if_neg (by simpa using hup), if_neg hup]

theorem exists_front (hp : p.text ≠ "") : ∃ x ps, p.front = x :: ps ∧
    p.components = leading x :: ps.filterMap component? := by
  obtain ⟨x, ps, hfront⟩ := List.exists_cons_of_ne_nil (front_ne_nil hp)
  refine ⟨x, ps, hfront, ?_⟩
  rcases pieces_eq_front hp with hpieces | hpieces
  · exact components_cons hp (hpieces.trans hfront)
  · rw [hfront, List.cons_append] at hpieces
    rw [components_cons hp hpieces, List.filterMap_append]
    simp [component?, isIdle]

/-- Names written behind a path are its further components. -/
theorem components_foldl_child (hp : p.text ≠ "") (h : ∀ s ∈ ns, IsName s) :
    (ns.foldl child p).components = p.components ++ ns.map .name := by
  by_cases hne : ns = []
  · rw [hne, List.foldl_nil, List.map_nil, List.append_nil]
  · obtain ⟨x, ps, hfront, hcomponents⟩ := exists_front hp
    have hpieces : (ns.foldl child p).pieces = x :: (ps ++ ns) := by
      rw [pieces_foldl_child hne h, hfront, List.cons_append]
    have htext : (ns.foldl child p).text ≠ "" := by
      intro hempty
      rw [text_eq_empty_iff.mp hempty] at hpieces
      exact hne (List.append_eq_nil_iff.mp (List.cons.inj hpieces).2.symm).2
    rw [components_cons htext hpieces, hcomponents, List.filterMap_append,
      filterMap_component?_of_isName h, List.cons_append]

/-- Below a path remain the names that were written behind it. -/
theorem stripBase?_foldl_child (hp : p.text ≠ "") (hne : ns ≠ []) (h : ∀ s ∈ ns, IsName s) :
    (ns.foldl child p).stripBase? p = some (ofPieces ns) := by
  obtain ⟨x, ps, hfront, hcomponents⟩ := exists_front hp
  have hpieces : (ns.foldl child p).pieces = x :: (ps ++ ns) := by
    rw [pieces_foldl_child hne h, hfront, List.cons_append]
  have hstarts : (ns.foldl child p).startsWith p = true := by
    rw [startsWith, components_foldl_child hp h]
    simp
  have htail : dropIdleEnd (dropComponents (ps.filterMap component?).length (ps ++ ns)) = ns := by
    rw [dropComponents_append rfl h, dropIdleEnd_of_isName h]
  rw [stripBase?, if_pos hstarts, hcomponents, hpieces]
  simp only [List.tail_cons]
  split
  · rw [htail]
  · rw [htail]
  · next hroot hhere =>
    -- the first piece is itself one of the components that are dropped
    have hidle : isIdle x = false := by
      rw [isIdle, Bool.or_eq_false_iff, beq_eq_false_iff_ne, beq_eq_false_iff_ne]
      refine ⟨fun hx => hroot (by rw [leading, if_pos hx]), fun hx => hhere ?_⟩
      rw [leading, hx]
      rfl
    rw [dropComponents, if_neg (by simp [hidle]), htail]

/-! ## The last name -/

theorem fileName?_of_pieces (hp : p.pieces = xs ++ [n]) (hn : IsName n) :
    p.fileName? = some n := by
  have htext := text_ne_empty_of_pieces hp (isIdle_of_isName hn)
  rw [fileName?]
  cases xs with
  | nil =>
    rw [components_cons htext hp, leading, if_neg hn.1, if_neg hn.2.1, if_neg hn.2.2.1]
    rfl
  | cons x xs =>
    rw [List.cons_append] at hp
    rw [components_cons htext hp, List.filterMap_append,
      List.filterMap_cons_some (component?_of_isName hn), List.filterMap_nil, ← List.cons_append,
      List.getLast?_concat]

theorem dropIdleEnd_concat (hn : isIdle n = false) : dropIdleEnd (xs ++ [n]) = xs ++ [n] := by
  rw [dropIdleEnd, List.reverse_concat, List.dropWhile_cons, if_neg (by simp [hn]),
    ← List.reverse_concat, List.reverse_reverse]

/-- A replaced extension changes the last piece. -/
theorem withExtension_of_pieces (hp : p.pieces = xs ++ [n]) (hn : IsName n) (ext : String) :
    p.withExtension ext = ofPieces (xs ++ [replaceExtension n ext]) := by
  rw [withExtension, fileName?_of_pieces hp hn]
  simp only
  rw [hp, dropIdleEnd_concat (isIdle_of_isName hn), List.dropLast_concat, List.getLast?_concat,
    if_pos (beq_self_eq_true _)]

example : (⟨"out/..py"⟩ : Path).withExtension "md" = ⟨"out/.."⟩ := by decide +kernel

end ImportContext.Path
