import ImportContext.Text.Lines

/-!
# Counting lines

How many lines a text has, and why that number does not depend on how line ends are written. A
place in a text with something behind it stands on one of its lines.

Results:
* `length_lineChars_unifyNewlines`: unifying line ends keeps the number of lines.
* `count_newline_take_lt`: fewer line ends precede a character than there are lines.
* `length_splitLines_le`: a text has no more lines than bytes.
-/

namespace ImportContext.Text

/-- A character that ends no line joins the line behind it. -/
theorem length_lineChars_cons {c : Char} (hr : c ≠ '\r') (hn : c ≠ '\n') (rest : List Char) :
    (lineChars (c :: rest)).length = max 1 (lineChars rest).length := by
  rw [lineChars]
  · cases lineChars rest <;> simp
  · exact fun _ h => absurd h hr
  · exact hr
  · exact hn

theorem length_lineChars_return {rest : List Char} (h : rest.head? ≠ some '\n') :
    (lineChars ('\r' :: rest)).length = (lineChars rest).length + 1 := by
  cases rest with
  | nil => rfl
  | cons c rest =>
    have hc : c ≠ '\n' := by simpa using h
    rw [lineChars]
    · rfl
    · exact fun r hr => hc (List.cons.inj hr).1

theorem length_lineChars_newline (rest : List Char) :
    (lineChars ('\n' :: rest)).length = (lineChars rest).length + 1 := by
  rw [lineChars]; rfl

/-- Unifying line ends keeps the number of lines. -/
theorem length_lineChars_unifyNewlines (cs : List Char) :
    (lineChars (unifyNewlines cs)).length = (lineChars cs).length := by
  induction cs using unifyNewlines.induct with
  | case1 => rfl
  | case2 rest ih =>
    rw [unifyNewlines, length_lineChars_newline, ih]; rfl
  | case3 rest hrest ih =>
    have hhead : rest.head? ≠ some '\n' := by
      cases rest with
      | nil => simp
      | cons c rest => simpa using fun h => hrest rest (by rw [h])
    rw [unifyNewlines, length_lineChars_newline, ih, length_lineChars_return hhead]
    exact hrest
  | case4 c rest _ hc ih =>
    have hr : c ≠ '\r' := hc
    rw [unifyNewlines]
    · by_cases hn : c = '\n'
      · subst hn
        rw [length_lineChars_newline, length_lineChars_newline, ih]
      · rw [length_lineChars_cons hr hn, length_lineChars_cons hr hn, ih]
    · exact fun _ h => absurd h hr
    · exact hr

/-- A text without carriage returns has its line ends unified. -/
theorem unifyNewlines_of_not_mem {cs : List Char} (h : '\r' ∉ cs) : unifyNewlines cs = cs := by
  induction cs with
  | nil => rfl
  | cons c cs ih =>
    obtain ⟨hc, hcs⟩ : c ≠ '\r' ∧ '\r' ∉ cs := by simpa [eq_comm] using h
    rw [unifyNewlines]
    · rw [ih hcs]
    · exact fun _ h => absurd h hc
    · exact hc

/-- The step of `count_newline_take_lt` over a character that ends no line. -/
theorem count_newline_take_cons_lt {c : Char} (hr : c ≠ '\r') (hn : c ≠ '\n') {rest : List Char}
    (ih : ∀ n < rest.length, (rest.take n).count '\n' < (lineChars rest).length) :
    ∀ n < (c :: rest).length,
      ((c :: rest).take n).count '\n' < (lineChars (c :: rest)).length := by
  intro n hlt
  rw [length_lineChars_cons hr hn]
  match n with
  | 0 =>
    rw [List.take_zero, List.count_nil]
    omega
  | n + 1 =>
    have := ih n (by simpa using hlt)
    rw [List.take_succ_cons, List.count_cons_of_ne hn]
    omega

/-- Fewer line ends precede a character of a text than the text has lines. -/
theorem count_newline_take_lt (cs : List Char) :
    ∀ n < cs.length, (cs.take n).count '\n' < (lineChars cs).length := by
  induction cs using lineChars.induct with
  | case1 => intro n hn; simp at hn
  | case2 rest ih =>
    intro n hn
    rw [lineChars]
    match n with
    | 0 => simp
    | 1 => simp
    | n + 2 =>
      have := ih n (by simpa using hn)
      simpa using this
  | case3 rest hrest ih =>
    intro n hn
    rw [lineChars]
    · match n with
      | 0 => simp
      | n + 1 =>
        have := ih n (by simpa using hn)
        simp; omega
    · exact hrest
  | case4 rest ih =>
    intro n hn
    rw [lineChars]
    match n with
    | 0 => simp
    | n + 1 =>
      have := ih n (by simpa using hn)
      simpa using this
  | case5 c rest _ hr hn _ ih => exact count_newline_take_cons_lt hr hn ih
  | case6 c rest _ hr hn _ _ _ ih => exact count_newline_take_cons_lt hr hn ih

theorem lineChars_eq_nil_iff {cs : List Char} : lineChars cs = [] ↔ cs = [] := by
  constructor
  · intro hnil
    cases cs with
    | nil => rfl
    | cons c rest =>
      have hlt := count_newline_take_lt (c :: rest) 0 (by simp)
      rw [hnil] at hlt
      simp at hlt
  · rintro rfl; rfl

/-- A text has no more lines than characters. -/
theorem length_lineChars_le (cs : List Char) : (lineChars cs).length ≤ cs.length := by
  induction cs using lineChars.induct with
  | case1 => simp [lineChars]
  | case2 rest ih => simp [lineChars]; omega
  | case3 rest hrest ih =>
    rw [lineChars]
    · simpa using ih
    · exact hrest
  | case4 rest ih => simpa [lineChars] using ih
  | case5 c rest _ hr hn _ ih => rw [length_lineChars_cons hr hn]; simp; omega
  | case6 c rest _ hr hn _ _ _ ih => rw [length_lineChars_cons hr hn]; simp; omega

theorem length_splitLines (s : String) :
    (splitLines s).length = (lineChars s.toList).length := by
  simp [splitLines]

/-- Only the empty text has no lines. -/
theorem splitLines_eq_nil_iff {s : String} : splitLines s = [] ↔ s = "" := by
  simp [splitLines, lineChars_eq_nil_iff]

/-- Every character takes at least one byte. -/
theorem length_le_utf8ByteSize (cs : List Char) :
    cs.length ≤ (String.ofList cs).utf8ByteSize := by
  induction cs with
  | nil => simp
  | cons c rest ih =>
    rw [String.ofList_cons, String.utf8ByteSize_append, String.utf8ByteSize_singleton]
    have := c.utf8Size_pos
    simp; omega

/-- A text has no more lines than bytes. -/
theorem length_splitLines_le (s : String) : (splitLines s).length ≤ s.utf8ByteSize := by
  have hchars := length_lineChars_le s.toList
  have hbytes := length_le_utf8ByteSize s.toList
  rw [String.ofList_toList] at hbytes
  rw [length_splitLines]
  omega

end ImportContext.Text
