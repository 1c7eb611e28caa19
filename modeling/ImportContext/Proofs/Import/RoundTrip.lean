import ImportContext.Proofs.Import.Written

/-!
# Declarations read back from their own texts

The text of a declaration is a statement of its own on one line, with single blanks between words
and none around dots. The readers take it apart again, so extracting the declarations of that line
gives the declaration back, at the beginning of the text.

Results:
* `readItems_text`, `readSource_text`: the parts of such a line.
* `extractImports_of_written`: a declaration made of names is read back from its text.
* `extractImports_text`: so is every declaration of a text.
-/

namespace ImportContext

open Source ImportToken ImportDeclaration

namespace Source

variable {e : Expected} {fuel : Nat} {k k' : Cursor} {w : String} {ws : List String} {c : Char}
  {cs : List Char}

/-! ## Single tokens -/

/-- No character that a word may start with separates tokens. -/
theorem solid_of_isWordStart (h : isWordStart c = true) : Solid c := by
  rw [isWordStart] at h
  split at h
  · exact solid_of_letter h
  · next hlt =>
    have hmarks : ∀ n ∈ [0x200B, 0x2060, 0xFEFF], inRanges startRanges n = false := by
      decide +kernel
    refine ⟨?_, ?_, ?_⟩
    · have hne : ∀ n ∈ [0x200B, 0x2060, 0xFEFF], c.toNat ≠ n := by
        intro n hn heq
        rw [heq, hmarks n hn] at h
        cases h
      simp at hne
      simp [isSpace, hne]
      omega
    · rintro rfl
      exact hlt (by decide)
    · rintro rfl
      exact hlt (by decide)

theorem IsWord.exists_solid (hw : IsWord w) :
    ∃ c cs, w.toList = c :: cs ∧ isWordStart c = true ∧ Solid c := by
  obtain ⟨c, cs, hcs, hstart, -⟩ := hw
  exact ⟨c, cs, hcs, hstart, solid_of_isWordStart hstart⟩

theorem ahead_solid (hk : k.rest = c :: cs) (hc : Solid c) : k.ahead e 0 = (none, k) := by
  rw [Cursor.ahead, hk, lead_solid hc]
  rfl

theorem ahead_blank (hk : k.rest = ' ' :: c :: cs) (hc : Solid c) :
    k.ahead e 0 = (none, k.advance 1) := by
  rw [Cursor.ahead, hk, lead_blank hc]

theorem token_solid (hk : k.rest = c :: cs) (hc : Solid c) : k.token e 0 = some k := by
  rw [Cursor.token, ahead_solid hk hc]

theorem token_blank (hk : k.rest = ' ' :: c :: cs) (hc : Solid c) :
    ∃ k', k.token e 0 = some k' ∧ k'.rest = c :: cs := by
  refine ⟨k.advance 1, ?_, ?_⟩
  · rw [Cursor.token, ahead_blank hk hc]
  · rw [Cursor.advance, hk]
    rfl

/-- Behind the blank before a word, its end or a dot that word is taken. -/
theorem takeWord_text (hw : IsWord w) (hk : k.rest = w.toList ++ cs)
    (hcs : cs.takeWhile isWordPart = []) :
    k.takeWord = some (w, k.advance w.length) ∧ (k.advance w.length).rest = cs := by
  refine ⟨?_, ?_⟩
  · rw [Cursor.takeWord, hk, word?_append hw hcs]
  · rw [Cursor.advance, hk, ← String.length_toList, List.drop_left]

/-! ## Names -/

/-- What stands behind a name: the end of the line, or a blank before the next word. -/
def NameEnd (cs : List Char) : Prop :=
  cs = ['\n'] ∨ ∃ c cs', cs = ' ' :: c :: cs' ∧ isWordStart c = true

theorem NameEnd.takeWhile (h : NameEnd cs) : cs.takeWhile isWordPart = [] := by
  rcases h with rfl | ⟨c, cs', rfl, -⟩
  · rfl
  · rfl

theorem expectChar_of_isWordStart (hk : k.rest = c :: cs) (hc : isWordStart c = true) {m : Char}
    (hm : isWordStart m = false) : k.expectChar m = none := by
  have hne : k.rest.head? ≠ some m := by
    rw [hk, List.head?_cons, Ne, Option.some.injEq]
    rintro rfl
    rw [hc] at hm
    cases hm
  rw [Cursor.expectChar, if_neg hne]

theorem dottedTail_end (hend : NameEnd k.rest) : dottedTail e 0 fuel k = some ([], k) := by
  cases fuel with
  | zero => rfl
  | succ fuel =>
    rw [dottedTail]
    rcases hend with hk | ⟨c, cs', hk, hc⟩
    · have hahead : k.ahead e 0 =
          if e.newline then (some .newline, k) else (none, k.advance 1) := by
        rw [Cursor.ahead, hk, lead_newline]
        cases e.newline with
        | true => rfl
        | false => rfl
      rw [hahead]
      cases e.newline with
      | true => rfl
      | false =>
        have hdot : (k.advance 1).expectChar '.' = none := by
          rw [Cursor.expectChar, Cursor.advance, hk]
          rfl
        simp [hdot]
    · have hrest : (k.advance 1).rest = c :: cs' := by
        rw [Cursor.advance, hk]
        rfl
      rw [ahead_blank hk (solid_of_isWordStart hc)]
      simp only [expectChar_of_isWordStart hrest hc (m := '.') rfl]

/-- Further parts of a dotted name, each with its dot. -/
def moreParts (ws : List String) : List Char :=
  ws.flatMap fun w => '.' :: w.toList

theorem moreParts_cons (w : String) (ws : List String) :
    moreParts (w :: ws) = '.' :: (w.toList ++ moreParts ws) := by
  rw [moreParts, List.flatMap_cons, List.cons_append]
  rfl

theorem length_le_moreParts (ws : List String) : ws.length ≤ (moreParts ws).length := by
  induction ws with
  | nil => exact Nat.zero_le _
  | cons w ws ih =>
    rw [moreParts_cons, List.length_cons, List.length_cons, List.length_append]
    omega

/-- A word ends at a dot as it does behind the last part of a name. -/
theorem NameEnd.takeWhile_moreParts (h : NameEnd cs) (ws : List String) :
    (moreParts ws ++ cs).takeWhile isWordPart = [] := by
  cases ws with
  | nil => exact h.takeWhile
  | cons w ws => rfl

theorem dottedTail_text (hws : ∀ w ∈ ws, IsWord w) (hend : NameEnd cs)
    (hk : k.rest = moreParts ws ++ cs) (hfuel : ws.length ≤ fuel) :
    ∃ k', dottedTail e 0 fuel k = some (ws, k') ∧ k'.rest = cs := by
  induction ws generalizing k fuel with
  | nil =>
    have hrest : k.rest = cs := hk
    exact ⟨k, dottedTail_end (hrest ▸ hend), hrest⟩
  | cons w ws ih =>
    rw [List.length_cons] at hfuel
    obtain ⟨fuel, rfl⟩ : ∃ f, fuel = f + 1 := ⟨fuel - 1, by omega⟩
    obtain ⟨hw, hws⟩ := List.forall_mem_cons.mp hws
    obtain ⟨c, w', hw', -, hsolid⟩ := hw.exists_solid
    rw [moreParts_cons, List.cons_append, List.append_assoc] at hk
    have hexpect : k.expectChar '.' = some (k.advance 1) := by
      rw [Cursor.expectChar, hk]
      rfl
    have hnext : (k.advance 1).rest = w.toList ++ (moreParts ws ++ cs) := by
      rw [Cursor.advance, hk]
      rfl
    have htoken : (k.advance 1).token {} 0 = some (k.advance 1) := by
      rw [hw', List.cons_append] at hnext
      exact token_solid hnext hsolid
    obtain ⟨hword, hrest⟩ := takeWord_text hw hnext (hend.takeWhile_moreParts ws)
    obtain ⟨k', htail, hk'⟩ := ih hws hrest (Nat.le_of_succ_le_succ hfuel)
    refine ⟨k', ?_, hk'⟩
    rw [dottedTail, ahead_solid hk (solid_mark .dot)]
    simp [hexpect, htoken, hword, htail]

theorem toList_dotted (w : String) (ws : List String) :
    (dotted (w :: ws)).toList = w.toList ++ moreParts ws := by
  induction ws generalizing w with
  | nil => simp [dotted, moreParts]
  | cons w' ws ih =>
    rw [dotted_cons_cons, String.toList_append, String.toList_append, ih, moreParts_cons,
      List.append_assoc]
    rfl

theorem readDotted_text (hws : ∀ w' ∈ w :: ws, IsWord w') (hend : NameEnd cs)
    (hk : k.rest = (dotted (w :: ws)).toList ++ cs) :
    ∃ k', readDotted e 0 k = some (⟨w :: ws, k.pos⟩, k') ∧ k'.rest = cs := by
  obtain ⟨hw, hws⟩ := List.forall_mem_cons.mp hws
  rw [toList_dotted, List.append_assoc] at hk
  obtain ⟨hword, hrest⟩ := takeWord_text hw hk (hend.takeWhile_moreParts ws)
  have hfuel : ws.length ≤ (k.advance w.length).rest.length := by
    have hparts := length_le_moreParts ws
    rw [hrest, List.length_append]
    omega
  obtain ⟨k', htail, hk'⟩ := dottedTail_text (e := e) hws hend hrest hfuel
  refine ⟨k', ?_, hk'⟩
  simp [readDotted, hword, htail]

/-! ## Items -/

theorem readItem_text {asName : Option String} (hws : ∀ w' ∈ w :: ws, IsWord w')
    (hasName : ∀ a ∈ asName, IsWord a)
    (hk : k.rest = (dotted (w :: ws)).toList ++ ((aliasText asName).toList ++ ['\n'])) :
    ∃ item k', readItem inLine 0 k = some (item, k') ∧ item.words = ⟨w :: ws, asName⟩ ∧
      k'.rest = ['\n'] := by
  cases asName with
  | none =>
    obtain ⟨k', hname, hk'⟩ := readDotted_text (e := inLine) hws (.inl rfl) hk
    have hahead : k'.ahead inLine 0 = (some .newline, k') := by
      rw [Cursor.ahead, hk', lead_newline]
      rfl
    refine ⟨⟨⟨w :: ws, k.pos⟩, none⟩, k', ?_, rfl, hk'⟩
    simp [readItem, hname, hahead]
  | some a =>
    have ha : IsWord a := hasName a rfl
    obtain ⟨c, a', ha', hstart, hsolid⟩ := ha.exists_solid
    have halias : (aliasText (some a)).toList ++ ['\n'] =
        ' ' :: 'a' :: 's' :: ' ' :: (a.toList ++ ['\n']) := by
      rw [aliasText, String.toList_append]
      rfl
    rw [halias] at hk
    obtain ⟨k₁, hname, hk₁⟩ := readDotted_text (e := inLine) hws (.inr ⟨_, _, rfl, rfl⟩) hk
    have hahead : k₁.ahead inLine 0 = (none, k₁.advance 1) := ahead_blank hk₁ (solid_of_letter rfl)
    have hat : (k₁.advance 1).rest = "as".toList ++ (' ' :: (a.toList ++ ['\n'])) := by
      rw [Cursor.advance, hk₁]
      rfl
    have has : (k₁.advance 1).expectWord "as" = some ((k₁.advance 1).advance 2) := by
      rw [Cursor.expectWord, hat, word?_append (isWord_of_all rfl rfl rfl) rfl]
      rfl
    have hbehind : ((k₁.advance 1).advance 2).rest = ' ' :: (a.toList ++ ['\n']) := by
      rw [Cursor.advance, hat]
      rfl
    rw [ha', List.cons_append] at hbehind
    obtain ⟨k₂, htoken, hk₂⟩ := token_blank (e := {}) hbehind hsolid
    rw [← List.cons_append, ← ha'] at hk₂
    obtain ⟨hword, hrest⟩ := takeWord_text ha hk₂ rfl
    refine ⟨⟨⟨w :: ws, k.pos⟩, some (a, k₂.pos)⟩, k₂.advance a.length, ?_, rfl, hrest⟩
    simp [readItem, hname, hahead, has, htoken, hword]

theorem readItems_text {asName : Option String} (hws : ∀ w' ∈ w :: ws, IsWord w')
    (hasName : ∀ a ∈ asName, IsWord a)
    (hk : k.rest = (dotted (w :: ws)).toList ++ ((aliasText asName).toList ++ ['\n'])) :
    ∃ item k', readItems inLine 0 k.rest.length k = some ([item], none, k') ∧
      item.words = ⟨w :: ws, asName⟩ ∧ k'.rest = ['\n'] := by
  obtain ⟨fuel, hfuel⟩ : ∃ f, k.rest.length = f + 1 := by
    refine ⟨k.rest.length - 1, ?_⟩
    rw [hk]
    simp
    omega
  obtain ⟨item, k', hitem, hwords, hk'⟩ := readItem_text hws hasName hk
  have hahead : k'.ahead inLine 0 = (some .newline, k') := by
    rw [Cursor.ahead, hk', lead_newline]
    rfl
  refine ⟨item, k', ?_, hwords, hk'⟩
  rw [hfuel, readItems]
  simp [hitem, hahead]

theorem readModules_text {asName : Option String} (pos : Position)
    (hws : ∀ w' ∈ w :: ws, IsWord w') (hasName : ∀ a ∈ asName, IsWord a)
    (hk : k.rest = ' ' :: ((dotted (w :: ws)).toList ++ ((aliasText asName).toList ++ ['\n']))) :
    ∃ item k', readModules 0 pos k = some (⟨pos, .modules [item], none⟩, k') ∧
      item.words = ⟨w :: ws, asName⟩ ∧ k'.rest = ['\n'] := by
  obtain ⟨c, w', hw', -, hsolid⟩ := (hws w List.mem_cons_self).exists_solid
  obtain ⟨k₁, htoken, hk₁⟩ : ∃ k₁, k.token {} 0 = some k₁ ∧
      k₁.rest = (dotted (w :: ws)).toList ++ ((aliasText asName).toList ++ ['\n']) := by
    rw [toList_dotted, hw', List.cons_append, List.cons_append] at hk ⊢
    exact token_blank hk hsolid
  obtain ⟨item, k', hitems, hwords, hk'⟩ := readItems_text hws hasName hk₁
  refine ⟨item, k', ?_, hwords, hk'⟩
  simp [readModules, htoken, hitems]

/-! ## Where a statement imports from -/

theorem dotsBetween_self (k : Cursor) : dotsBetween k k = 0 := by
  simp [dotsBetween]

/-- Dots without blanks between them, before the next word or the blank ahead of it. -/
theorem readDots_text {n : Nat} (gap : List Char) (hgap : gap = [] ∨ gap = [' '])
    (hc : isWordStart c = true) (hk : k.rest = List.replicate (n + 1) '.' ++ (gap ++ c :: cs))
    (hfuel : n < fuel) : ∃ k', readDots 0 fuel k = some (n + 1, k') ∧ k'.rest = c :: cs := by
  have hsolid := solid_of_isWordStart hc
  induction n generalizing k fuel with
  | zero =>
    obtain ⟨fuel, rfl⟩ : ∃ f, fuel = f + 1 := ⟨fuel - 1, by omega⟩
    have hexpect : k.expectChar '.' = some (k.advance 1) := by
      rw [Cursor.expectChar, hk]
      rfl
    obtain ⟨k', htoken, hk'⟩ : ∃ k', (k.advance 1).token {} 0 = some k' ∧ k'.rest = c :: cs := by
      have hnext : (k.advance 1).rest = gap ++ c :: cs := by
        rw [Cursor.advance, hk]
        rfl
      rcases hgap with rfl | rfl
      · exact ⟨k.advance 1, token_solid hnext hsolid, hnext⟩
      · exact token_blank hnext hsolid
    have hlast : readDots 0 fuel k' = some (0, k') := by
      cases fuel with
      | zero => rfl
      | succ fuel => rw [readDots, expectChar_of_isWordStart hk' hc rfl]
    refine ⟨k', ?_, hk'⟩
    rw [readDots, hexpect]
    simp [htoken, hlast]
  | succ n ih =>
    obtain ⟨fuel, rfl⟩ : ∃ f, fuel = f + 1 := ⟨fuel - 1, by omega⟩
    have hexpect : k.expectChar '.' = some (k.advance 1) := by
      rw [Cursor.expectChar, hk]
      rfl
    have hnext : (k.advance 1).rest = List.replicate (n + 1) '.' ++ (gap ++ c :: cs) := by
      rw [Cursor.advance, hk, List.replicate_succ]
      rfl
    have htoken : (k.advance 1).token {} 0 = some (k.advance 1) :=
      token_solid hnext (solid_mark .dot)
    obtain ⟨k', hdots, hk'⟩ := ih hnext (Nat.lt_of_succ_lt_succ hfuel)
    refine ⟨k', ?_, hk'⟩
    rw [readDots, hexpect]
    simp [htoken, hdots, dotsBetween_self]
    omega

theorem nameEnd_import (cs : List Char) : NameEnd (" import ".toList ++ cs) :=
  .inr ⟨'i', "mport ".toList ++ cs, rfl, rfl⟩

/-- A path without dots before it. -/
theorem readSource_absolute (hws : ∀ w' ∈ w :: ws, IsWord w') (horigin : IsOrigin 0 (w :: ws))
    (hk : k.rest = (dotted (w :: ws)).toList ++ (" import ".toList ++ cs)) :
    ∃ source k', readSource 0 k = some (source, k') ∧ source.words = (0, w :: ws) ∧
      k'.rest = "import ".toList ++ cs := by
  have hw : IsWord w := hws w List.mem_cons_self
  obtain ⟨c, w', hw', hstart, -⟩ := hw.exists_solid
  have hparts : k.rest = w.toList ++ (moreParts ws ++ (" import ".toList ++ cs)) := by
    rw [hk, toList_dotted, List.append_assoc]
  have hdot : ¬ k.rest.head? = some '.' := by
    rw [hparts, hw', List.cons_append, List.head?_cons, Option.some.injEq]
    rintro rfl
    cases hstart
  have hword : word? k.rest = some w := by
    rw [hparts, word?_append hw ((nameEnd_import cs).takeWhile_moreParts ws)]
  rw [readSource, if_neg hdot, hword]
  by_cases hfuture : w = "__future__"
  · subst hfuture
    obtain rfl : ws = [] := (List.cons.inj (horigin.future rfl rfl)).2
    have hnext : (k.advance 10).rest = " import ".toList ++ cs := by
      rw [Cursor.advance, hparts]
      rfl
    obtain ⟨k', htoken, hk'⟩ := token_blank (e := {}) hnext (solid_of_letter rfl)
    refine ⟨.future, k', ?_, rfl, hk'⟩
    simp [htoken]
  · obtain ⟨k₁, hname, hk₁⟩ := readDotted_text (e := {}) hws (nameEnd_import cs) hk
    obtain ⟨k', htoken, hk'⟩ := token_blank (e := {}) hk₁ (solid_of_letter rfl)
    refine ⟨.absolute ⟨w :: ws, k.pos⟩, k', ?_, rfl, hk'⟩
    simp [hfuture, hname, htoken]

/-- Dots with or without a path behind them. -/
theorem readSource_relative {n : Nat} (hws : ∀ w ∈ ws, IsWord w) (hnames : ∀ w ∈ ws, w ∉ keywords)
    (hk : k.rest =
      List.replicate (n + 1) '.' ++ ((dotted ws).toList ++ (" import ".toList ++ cs))) :
    ∃ source k', readSource 0 k = some (source, k') ∧ source.words = (n + 1, ws) ∧
      k'.rest = "import ".toList ++ cs := by
  have hdot : k.rest.head? = some '.' := by
    rw [hk]
    rfl
  have hfuel : n < k.rest.length := by
    rw [hk, List.length_append, List.length_replicate]
    omega
  rw [readSource, if_pos hdot]
  cases ws with
  | nil =>
    obtain ⟨k', hdots, hk'⟩ := readDots_text [' '] (.inr rfl) rfl hk hfuel
    have hword : word? k'.rest = some "import" := by
      rw [hk']
      exact word?_append (w := "import") (isWord_of_beginsImport (.inl rfl)) rfl
    refine ⟨.relative (n + 1) [] k.pos, k', ?_, rfl, hk'⟩
    simp [hdots, hword]
  | cons w ws =>
    have hw : IsWord w := hws w List.mem_cons_self
    obtain ⟨c, w', hw', hstart, -⟩ := hw.exists_solid
    obtain ⟨k₁, hdots, hk₁⟩ : ∃ k₁, readDots 0 k.rest.length k = some (n + 1, k₁) ∧
        k₁.rest = (dotted (w :: ws)).toList ++ (" import ".toList ++ cs) := by
      rw [toList_dotted, hw', List.cons_append, List.cons_append] at hk ⊢
      exact readDots_text [] (.inl rfl) hstart hk hfuel
    have hword : word? k₁.rest = some w := by
      rw [hk₁, toList_dotted, List.append_assoc,
        word?_append hw ((nameEnd_import cs).takeWhile_moreParts ws)]
    have himport : w ≠ "import" := by
      rintro rfl
      exact hnames "import" List.mem_cons_self (by decide)
    obtain ⟨k₂, hname, hk₂⟩ := readDotted_text (e := {}) hws (nameEnd_import cs) hk₁
    obtain ⟨k', htoken, hk'⟩ := token_blank (e := {}) hk₂ (solid_of_letter rfl)
    refine ⟨.relative (n + 1) (w :: ws) k.pos, k', ?_, rfl, hk'⟩
    simp [hdots, hword, himport, hname, htoken]

theorem readSource_text {depth : Nat} {path : List String} (horigin : IsOrigin depth path)
    (hnames : ∀ w ∈ path, w ∉ keywords)
    (hk : k.rest =
      List.replicate depth '.' ++ ((dotted path).toList ++ (" import ".toList ++ cs))) :
    ∃ source k', readSource 0 k = some (source, k') ∧ source.words = (depth, path) ∧
      k'.rest = "import ".toList ++ cs := by
  cases depth with
  | zero =>
    obtain ⟨w, ws, rfl⟩ : ∃ w ws, path = w :: ws :=
      List.exists_cons_of_ne_nil (horigin.some.resolve_left (Nat.lt_irrefl 0))
    exact readSource_absolute horigin.words horigin hk
  | succ n => exact readSource_relative horigin.words hnames hk

/-! ## What a statement imports -/

/-- The statement up to what it lists. -/
theorem readMembers_text {depth : Nat} {path : List String} (pos : Position)
    (horigin : IsOrigin depth path) (hnames : ∀ w ∈ path, w ∉ keywords) (hc : Solid c)
    (hk : k.rest = ' ' :: (List.replicate depth '.' ++
      ((dotted path).toList ++ (" import ".toList ++ c :: cs)))) :
    ∃ source next, readMembers 0 pos k = readListing 0 pos source next ∧
      source.words = (depth, path) ∧ next.rest = c :: cs := by
  obtain ⟨k₁, htoken, hk₁⟩ : ∃ k₁, k.token {} 0 = some k₁ ∧ k₁.rest = List.replicate depth '.' ++
      ((dotted path).toList ++ (" import ".toList ++ c :: cs)) := by
    cases depth with
    | zero =>
      obtain ⟨w, ws, rfl⟩ : ∃ w ws, path = w :: ws :=
        List.exists_cons_of_ne_nil (horigin.some.resolve_left (Nat.lt_irrefl 0))
      obtain ⟨a, w', hw', -, hsolid⟩ := (horigin.words w List.mem_cons_self).exists_solid
      rw [toList_dotted, hw'] at hk ⊢
      exact token_blank hk hsolid
    | succ n => exact token_blank hk (solid_mark .dot)
  obtain ⟨source, k₂, hsource, hwords, hk₂⟩ := readSource_text horigin hnames hk₁
  have hexpect : k₂.expectWord "import" = some (k₂.advance 6) := by
    have hword : word? k₂.rest = some "import" := by
      rw [hk₂]
      exact word?_append (w := "import") (isWord_of_beginsImport (.inl rfl)) rfl
    rw [Cursor.expectWord, if_pos hword]
    rfl
  have hbehind : (k₂.advance 6).rest = ' ' :: c :: cs := by
    rw [Cursor.advance, hk₂]
    rfl
  obtain ⟨next, hnext, hrest⟩ := token_blank (e := {}) hbehind hc
  refine ⟨source, next, ?_, hwords, hrest⟩
  simp [readMembers, htoken, hsource, hexpect, hnext]

theorem readListing_all {pos : Position} {source : ImportSource}
    (hsource : source.words ≠ (0, ["__future__"])) (hk : k.rest = ['*', '\n']) :
    ∃ k', readListing 0 pos source k = some (⟨pos, .wildcard source, none⟩, k') ∧
      k'.rest = ['\n'] := by
  have hexpect : k.expectChar '*' = some (k.advance 1) := by
    rw [Cursor.expectChar, hk]
    rfl
  have hfuture : source ≠ .future := by
    rintro rfl
    exact hsource rfl
  refine ⟨k.advance 1, ?_, ?_⟩
  · rw [readListing, hexpect]
    simp [hfuture]
  · rw [Cursor.advance, hk]
    rfl

theorem readListing_name {pos : Position} {source : ImportSource} {asName : Option String}
    (hw : IsWord w) (hasName : ∀ a ∈ asName, IsWord a)
    (hk : k.rest = w.toList ++ ((aliasText asName).toList ++ ['\n'])) :
    ∃ item k', readListing 0 pos source k = some (⟨pos, .members source [item], none⟩, k') ∧
      item.words = ⟨[w], asName⟩ ∧ k'.rest = ['\n'] := by
  obtain ⟨c, w', hw', hstart, -⟩ := hw.exists_solid
  have hhead : k.rest = c :: (w' ++ ((aliasText asName).toList ++ ['\n'])) := by
    rw [hk, hw']
    rfl
  rw [← dotted_singleton w] at hk
  obtain ⟨item, k', hitems, hwords, hk'⟩ := readItems_text (by simpa using hw) hasName hk
  refine ⟨item, k', ?_, hwords, hk'⟩
  rw [readListing, expectChar_of_isWordStart hhead hstart rfl,
    expectChar_of_isWordStart hhead hstart rfl]
  simp [hitems]

end Source

/-! ## Declarations -/

/-- The declaration at another position. -/
def ImportDeclaration.moveTo (p : Position) : ImportDeclaration → ImportDeclaration
  | plain d => .plain { d with pos := p }
  | member d => .member { d with pos := p }

/-- A line with one statement and nothing else has the declarations of that statement. -/
theorem extractImports_of_readImport {source w : String} {cs : List Char} {s : ImportStatement}
    {k' : Cursor} (hw : BeginsImport w) (hsource : source.toList = w.toList ++ ' ' :: cs)
    (hreturn : '\r' ∉ cs)
    (h : readImport w (Cursor.ofText (w.toList ++ ' ' :: cs)) = some (s, k'))
    (hk' : k'.rest = ['\n']) : extractImports source = s.declarations := by
  have hunify : Text.unifyNewlines source.toList = w.toList ++ ' ' :: cs := by
    rw [hsource]
    refine Text.unifyNewlines_of_not_mem ?_
    rw [List.mem_append, List.mem_cons, not_or, not_or]
    exact ⟨(isWord_of_beginsImport hw).not_mem rfl, by decide, hreturn⟩
  have hread : readSource? source = some [.importing s] := by
    rw [readSource?, hunify]
    exact run_of_readImport hw rfl rfl h hk'
  rw [extractImports, parseSource, hread]
  exact declarationsOf_importing s

theorem return_not_mem_alias {asName : Option String} (h : ∀ a ∈ asName, IsWord a) :
    '\r' ∉ (aliasText asName).toList := by
  cases asName with
  | none => simp [aliasText]
  | some a =>
    rw [aliasText, String.toList_append, List.mem_append, not_or]
    exact ⟨by decide, (h a rfl).not_mem rfl⟩

theorem extractImports_plain {w : String} {ws : List String} {asName : Option String}
    {pos : Position} (hparts : ∀ w' ∈ w :: ws, IsImportName w')
    (hasName : ∀ a ∈ asName, IsImportName a) :
    extractImports ((ImportDeclaration.plain ⟨dotted (w :: ws), asName, pos⟩).text ++ "\n") =
      .ok [.plain ⟨dotted (w :: ws), asName, ⟨1, 0⟩⟩] := by
  have hwords : ∀ w' ∈ w :: ws, IsWord w' := fun w' hw' => (hparts w' hw').1
  have halias : ∀ a ∈ asName, IsWord a := fun a ha => (hasName a ha).1
  have htext : ((ImportDeclaration.plain ⟨dotted (w :: ws), asName, pos⟩).text ++ "\n").toList =
      "import".toList ++
        ' ' :: ((dotted (w :: ws)).toList ++ ((aliasText asName).toList ++ ['\n'])) := by
    simp [text]
  have hreturn : '\r' ∉ (dotted (w :: ws)).toList ++ ((aliasText asName).toList ++ ['\n']) := by
    have hdotted : '\r' ∉ (dotted (w :: ws)).toList := not_mem_dotted rfl (by decide) hwords
    have haliased := return_not_mem_alias halias
    simp [hdotted, haliased]
  have hbehind (cs : List Char) :
      ((Cursor.ofText ("import".toList ++ ' ' :: cs)).advance 6).rest = ' ' :: cs := rfl
  obtain ⟨item, k', hread, hitem, hk'⟩ := readModules_text ⟨1, 0⟩ hwords halias (hbehind _)
  rw [extractImports_of_readImport (.inl rfl) htext hreturn hread hk',
    declarations_modules_eq_ok_iff, List.map_singleton, hitem]
  refine ⟨rfl, ?_, rfl⟩
  intro i hi
  obtain rfl := List.mem_singleton.mp hi
  exact ⟨fun w' hw' => (hparts w' hw').2, fun a ha => (hasName a ha).2⟩

section Members

variable {path : List String} {depth : Nat} {pos : Position}

/-- What stands behind the first blank of a `from` statement, up to the end of the line. -/
def memberText (depth : Nat) (path : List String) (listed : List Char) : List Char :=
  List.replicate depth '.' ++ ((dotted path).toList ++ (" import ".toList ++ listed))

theorem return_not_mem_memberText {cs : List Char} (horigin : IsOrigin depth path)
    (hcs : '\r' ∉ cs) : '\r' ∉ memberText depth path cs := by
  have hdots : '\r' ∉ List.replicate depth '.' := by
    intro h
    exact absurd (List.eq_of_mem_replicate h) (by decide)
  have hpath : '\r' ∉ (dotted path).toList := not_mem_dotted rfl (by decide) horigin.words
  rw [memberText]
  simp [hdots, hpath, hcs]

/-- A `from` statement on one line declares what the reader makes of its listing. -/
theorem extractImports_listing {source : String} {c : Char} {cs : List Char}
    (horigin : IsOrigin depth path) (hpath : ∀ w ∈ path, w ∉ keywords) (hc : Solid c)
    (hreturn : '\r' ∉ c :: cs)
    (hsource : source.toList = "from".toList ++ ' ' :: memberText depth path (c :: cs)) :
    ∃ origin k, origin.words = (depth, path) ∧ k.rest = c :: cs ∧
      ∀ {s k'}, readListing 0 ⟨1, 0⟩ origin k = some (s, k') → k'.rest = ['\n'] →
        extractImports source = s.declarations := by
  have hbehind (cs : List Char) :
      ((Cursor.ofText ("from".toList ++ ' ' :: cs)).advance 4).rest = ' ' :: cs := rfl
  obtain ⟨origin, k, hread, hwords, hk⟩ := readMembers_text ⟨1, 0⟩ horigin hpath hc (hbehind _)
  refine ⟨origin, k, hwords, hk, ?_⟩
  intro s k' hlisting hk'
  exact extractImports_of_readImport (.inr rfl) hsource
    (return_not_mem_memberText horigin hreturn) (hread.trans hlisting) hk'

theorem extractImports_member {symbol : String} {asName : Option String}
    (horigin : IsOrigin depth path) (hpath : ∀ w ∈ path, w ∉ keywords)
    (hsymbol : IsImportName symbol) (hasName : ∀ a ∈ asName, IsImportName a) :
    extractImports
        ((ImportDeclaration.member ⟨dotted path, symbol, asName, depth, pos⟩).text ++ "\n") =
      .ok [.member ⟨dotted path, symbol, asName, depth, ⟨1, 0⟩⟩] := by
  have halias : ∀ a ∈ asName, IsWord a := fun a ha => (hasName a ha).1
  obtain ⟨c, cs, hcs, -, hsolid⟩ := hsymbol.1.exists_solid
  have hnamed : (symbol == "*") = false := by
    refine beq_false_of_ne ?_
    rintro rfl
    exact hsymbol.1.not_mem (c := '*') rfl (by decide)
  have htext : ((ImportDeclaration.member ⟨dotted path, symbol, asName, depth, pos⟩).text ++
      "\n").toList = "from".toList ++
        ' ' :: memberText depth path (symbol.toList ++ ((aliasText asName).toList ++ ['\n'])) := by
    simp [text, FromImport.isWildcard, hnamed, memberText]
  have hreturn : '\r' ∉ symbol.toList ++ ((aliasText asName).toList ++ ['\n']) := by
    have hword := hsymbol.1.not_mem (c := '\r') rfl
    have haliased := return_not_mem_alias halias
    simp [hword, haliased]
  rw [hcs, List.cons_append] at htext hreturn
  obtain ⟨origin, k, hwords, hk, hextract⟩ :=
    extractImports_listing horigin hpath hsolid hreturn htext
  rw [← List.cons_append, ← hcs] at hk
  obtain ⟨item, k', hlisting, hitem, hk'⟩ := readListing_name hsymbol.1 halias hk
  rw [hextract hlisting hk', declarations_members_eq_ok_iff, List.map_singleton, hitem, hwords]
  refine ⟨hpath, ?_, ?_⟩
  · intro i hi
    obtain rfl := List.mem_singleton.mp hi
    exact ⟨rfl, by simpa using hsymbol.2, fun a ha => (hasName a ha).2⟩
  · rw [List.map_singleton, ItemWords.memberDeclaration, dotted_singleton]

theorem extractImports_wildcard (horigin : IsOrigin depth path)
    (hpath : ∀ w ∈ path, w ∉ keywords) (hfuture : (depth, path) ≠ (0, ["__future__"])) :
    extractImports ((ImportDeclaration.member ⟨dotted path, "*", none, depth, pos⟩).text ++ "\n") =
      .ok [.member ⟨dotted path, "*", none, depth, ⟨1, 0⟩⟩] := by
  have htext : ((ImportDeclaration.member ⟨dotted path, "*", none, depth, pos⟩).text ++
      "\n").toList = "from".toList ++ ' ' :: memberText depth path ['*', '\n'] := by
    simp [text, FromImport.isWildcard, memberText]
  obtain ⟨origin, k, hwords, hk, hextract⟩ :=
    extractImports_listing horigin hpath (solid_mark .star) (by decide) htext
  obtain ⟨k', hlisting, hk'⟩ := readListing_all (hwords ▸ hfuture) hk
  rw [hextract hlisting hk', declarations_wildcard_eq_ok_iff, hwords]
  exact ⟨hpath, rfl⟩

end Members

/-- A declaration made of names is read back from its text. -/
theorem extractImports_of_written {d : ImportDeclaration} (hd : d.Written) :
    extractImports (d.text ++ "\n") = .ok [d.moveTo ⟨1, 0⟩] := by
  cases hd with
  | @plain parts asName pos hne hparts hasName =>
    obtain ⟨w, ws, rfl⟩ := List.exists_cons_of_ne_nil hne
    exact extractImports_plain hparts hasName
  | member horigin hpath hsymbol hasName =>
    exact extractImports_member horigin hpath hsymbol hasName
  | wildcard horigin hpath hfuture => exact extractImports_wildcard horigin hpath hfuture

/-- Extracting the text of a declaration gives the declaration back. -/
theorem extractImports_text {source : String} {ds : List ImportDeclaration}
    (h : extractImports source = .ok ds) {d : ImportDeclaration} (hd : d ∈ ds) :
    extractImports (d.text ++ "\n") = .ok [d.moveTo ⟨1, 0⟩] :=
  extractImports_of_written (extractImports_written h hd)

theorem extractImports_text_spread :
    let source := "if x:\n from . \\\n .a import (\n é as b,)\nfrom __future__ import division"
    let ds : List ImportDeclaration :=
      [.member ⟨"a", "é", some "b", 2, ⟨2, 1⟩⟩,
        .member ⟨"__future__", "division", none, 0, ⟨5, 0⟩⟩]
    extractImports source = .ok ds ∧ ∀ d ∈ ds,
      extractImports (d.text ++ "\n") = .ok [d.moveTo ⟨1, 0⟩] := by
  intro source ds
  have hds : extractImports source = .ok ds := eq_ok_of_toOption (by decide +kernel)
  exact ⟨hds, fun d hd => extractImports_text hds hd⟩

end ImportContext
