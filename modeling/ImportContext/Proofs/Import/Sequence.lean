import ImportContext.Import.Extract
import ImportContext.Proofs.Source.Steps

/-!
# Import statements in the order of the text

The reader keeps statements in lists for each open block, for the earlier blocks of a statement
and for a statement that may go on. Read from the outside in, these lists hold the import
statements met so far in the order of the text, and each step adds behind them.

Results:
* `Reader.step_imports`: one step adds the import statements between its cursors.
* `Reader.run_imports`: so does reading to the end.
* `readSource?_imports`: the import statements of a text stand in it one behind the other.
-/

namespace ImportContext.Source

open Cursor

/-! ## Statements one behind the other -/

/-- Import statements that stand one behind the other between two cursors. -/
inductive ImportsBetween : Cursor → List ImportStatement → Cursor → Prop where
  | nil {k k' : Cursor} : k.Reaches k' → ImportsBetween k [] k'
  | cons {k start stop k' : Cursor} {s : ImportStatement} {ss : List ImportStatement} :
      k.Reaches start → s.ReadAt start stop → ImportsBetween stop ss k' →
      ImportsBetween k (s :: ss) k'

namespace ImportsBetween

variable {k k₁ k' : Cursor} {ss ss' : List ImportStatement}

theorem reached (hk : k.Reaches k₁) (h : ImportsBetween k₁ ss k') : ImportsBetween k ss k' := by
  cases h with
  | nil hreach => exact .nil (hk.trans hreach)
  | cons hreach hat hrest => exact .cons (hk.trans hreach) hat hrest

theorem append (h : ImportsBetween k ss k₁) (h' : ImportsBetween k₁ ss' k') :
    ImportsBetween k (ss ++ ss') k' := by
  induction h with
  | nil hreach => exact h'.reached hreach
  | cons hreach hat _ ih => exact .cons hreach hat (ih h')

/-- The first statements of a text may be left out. -/
theorem of_append (h : ImportsBetween k (ss ++ ss') k') : ImportsBetween k ss' k' := by
  induction ss generalizing k with
  | nil => exact h
  | cons s ss ih =>
    cases h with
    | cons hreach hat hrest => exact (ih hrest).reached (hreach.trans hat.reaches)

end ImportsBetween

theorem importsIn_append (nested : Bool) (body body' : List Statement) :
    importsIn nested (body ++ body') = importsIn nested body ++ importsIn nested body' := by
  induction body with
  | nil => rfl
  | cons s body ih => rw [List.cons_append, importsIn, importsIn, ih, List.append_assoc]

theorem importsIn_singleton (nested : Bool) (s : Statement) :
    importsIn nested [s] = s.imports nested := by
  rw [importsIn, importsIn, List.append_nil]

/-! ## Simple statements -/

theorem SimpleAt.imports {current : Nat} {k k' : Cursor} {stmt : Statement}
    (hreach : k.Reaches k') (h : SimpleAt current k k' stmt) :
    ImportsBetween k (stmt.imports true) k' := by
  cases h with
  | importing hat => exact .cons (.refl k) hat (.nil (.refl k'))
  | other => exact .nil hreach
  | expression h =>
    simp only [readExpressionStatement, Option.bind_eq_bind, Option.bind_eq_some_iff] at h
    obtain ⟨⟨names, next⟩, -, h⟩ := h
    split at h
    · cases h
      exact .nil hreach
    · cases h
      exact .nil hreach

theorem SimplesAt.imports {current : Nat} {k k' : Cursor} {body : List Statement}
    (h : SimplesAt current k body k') : ImportsBetween k (importsIn true body) k' := by
  induction h with
  | last hreach hstmt hend =>
    rw [importsIn]
    exact (hstmt.imports hreach).append (.nil hend)
  | more hreach hstmt hnext _ ih =>
    rw [importsIn]
    exact (hstmt.imports hreach).append (ih.reached hnext)

/-! ## Blocks -/

namespace Reader

/-- The import statements that a block holds. -/
def Block.imports (b : Block) : List ImportStatement :=
  importsIn true (b.before ++ b.inside.reverse)

/-- The import statements of a statement that may go on. -/
def Tail.imports : Option Tail → List ImportStatement
  | none => []
  | some t => importsIn true t.body

/-- The import statements read so far, from the outermost block to the innermost one. -/
def State.imports (s : State) : List ImportStatement :=
  s.outer.reverse.flatMap Block.imports ++ s.block.imports ++ Tail.imports s.tail

variable {s s₁ s' : State} {k k' : Cursor} {opening : Opening} {before body : List Statement}

theorem State.imports_add (htail : s.tail = none) (stmt : Statement) :
    (s.add stmt).imports = s.imports ++ stmt.imports true := by
  have hblock : (s.add stmt).block.imports = s.block.imports ++ stmt.imports true := by
    rw [Block.imports, Block.imports, State.add]
    simp only [List.reverse_cons]
    rw [← List.append_assoc, importsIn_append, importsIn_singleton]
  have htail' : (s.add stmt).tail = none := htail
  rw [State.imports, State.imports, hblock, htail', htail]
  simp only [Tail.imports, List.append_nil]
  rw [← List.append_assoc]
  rfl

theorem State.imports_addAll (htail : s.tail = none) (body : List Statement) :
    (body.foldl State.add s).imports = s.imports ++ importsIn true body := by
  induction body generalizing s with
  | nil => rw [List.foldl_nil, importsIn, List.append_nil]
  | cons stmt body ih =>
    have htail' : (s.add stmt).tail = none := htail
    rw [List.foldl_cons, ih htail', State.imports_add htail, importsIn, List.append_assoc]

theorem State.cursor_addAll (body : List Statement) :
    (body.foldl State.add s).cursor = s.cursor := by
  induction body generalizing s with
  | nil => rfl
  | cons stmt body ih => rw [List.foldl_cons, ih]; rfl

/-- A block that ends leaves its statements to the one around it. -/
theorem State.imports_endBlock (htail : s.tail = none) (opening : Opening) (body : List Statement)
    (pos : Position) :
    (s.endBlock opening body pos).imports = s.imports ++ importsIn true body := by
  unfold State.endBlock
  split
  · rw [State.imports_add htail, Statement.imports, if_pos rfl]
  · split
    · rw [State.imports_add htail, Statement.imports]
    · rw [State.imports, State.imports, htail]
      simp only [Tail.imports, List.append_nil]
  · rw [State.imports_add htail, Statement.imports]

theorem State.cursor_endBlock (opening : Opening) (body : List Statement) (pos : Position) :
    (s.endBlock opening body pos).cursor = s.cursor := by
  unfold State.endBlock
  split
  · rfl
  · split
    · rfl
    · rfl
  · rfl

/-- Ending the statement that might have gone on moves its statements into the block. -/
theorem State.imports_flush (h : s.flush = some s₁) :
    s₁.imports = s.imports ∧ s₁.tail = none ∧ s₁.outer = s.outer := by
  rw [State.flush] at h
  split at h
  · next htail =>
    cases h
    exact ⟨rfl, htail, rfl⟩
  · next t htail =>
    split at h
    · cases h
    · cases h
      refine ⟨?_, rfl, rfl⟩
      rw [State.imports_add rfl, Statement.imports, State.imports, State.imports, htail]
      simp only [Tail.imports, List.append_nil]

/-- Leaving a block changes nothing of what was read. -/
theorem State.imports_leave {parent : Block} {outer : List Block} (htail : s.tail = none)
    (houter : s.outer = parent :: outer) (k : Cursor) :
    (s.leave parent outer k).imports = s.imports ∧ (s.leave parent outer k).cursor = k := by
  refine ⟨?_, State.cursor_endBlock _ _ _⟩
  have hend := State.imports_endBlock (s := { s with cursor := k, block := parent, outer := outer })
    htail s.block.opening (s.block.before ++ s.block.inside.reverse) k.pos
  rw [State.leave, hend, State.imports, State.imports, htail, houter]
  simp only [Tail.imports, List.append_nil, List.reverse_cons, List.flatMap_append,
    List.flatMap_singleton]
  rfl

/-! ## Steps -/

/-- A state has read further from a cursor: behind the given statements it holds those that stand
between the cursor and its own. -/
def State.Continues (s' : State) (k : Cursor) (ss : List ImportStatement) : Prop :=
  ∃ new, s'.imports = ss ++ new ∧ ImportsBetween k new s'.cursor

theorem State.Continues.reached {k₁ : Cursor} {ss : List ImportStatement} (hk : k.Reaches k₁)
    (h : s'.Continues k₁ ss) : s'.Continues k ss := by
  obtain ⟨new, himports, hnew⟩ := h
  exact ⟨new, himports, hnew.reached hk⟩

theorem openBlock_continues (htail : s.tail = none)
    (h : s.openBlock opening before k = some s') :
    s'.Continues k (s.imports ++ importsIn true before) := by
  rw [State.openBlock] at h
  split at h
  · next width next hahead =>
    cases h
    refine ⟨[], ?_, .nil (ahead_reaches hahead)⟩
    rw [State.imports, State.imports, htail]
    simp only [Tail.imports, List.append_nil, List.reverse_cons, List.flatMap_append,
      List.flatMap_singleton, Block.imports, List.reverse_nil]
  · next next hahead =>
    cases h
    have hend := State.imports_endBlock (s := { s with cursor := next }) htail opening before
      next.pos
    refine ⟨[], hend.trans (List.append_nil _).symm, ?_⟩
    rw [State.cursor_endBlock]
    exact .nil (ahead_reaches hahead)
  · cases h
  · next next hahead =>
    obtain ⟨⟨body, k₁⟩, hbody, h⟩ := Option.bind_eq_some_iff.mp h
    cases h
    have hend := State.imports_endBlock (s := { s with cursor := k₁ }) htail opening
      (before ++ body) k₁.pos
    rw [importsIn_append, ← List.append_assoc] at hend
    refine ⟨importsIn true body, hend, ?_⟩
    rw [State.cursor_endBlock]
    exact (readSimples_cases hbody).imports.reached (ahead_reaches hahead)

theorem State.Opens.continues (htail : s.tail = none) (h : s.Opens opening before k s') :
    s'.Continues k (s.imports ++ importsIn true before) := by
  obtain ⟨k', hreach, h⟩ := h
  exact (openBlock_continues htail h).reached hreach

theorem simples_continues (htail : s.tail = none) (h : s.simples k = some s') :
    s'.Continues k s.imports := by
  obtain ⟨⟨body, k₁⟩, hbody, h⟩ := Option.bind_eq_some_iff.mp h
  cases h
  have hadd := State.imports_addAll (s := { s with cursor := k₁ }) htail body
  refine ⟨importsIn true body, hadd, ?_⟩
  rw [State.cursor_addAll]
  exact (readSimples_cases hbody).imports

theorem State.Begins.continues (htail : s.tail = none) (h : s.Begins k s') :
    s'.Continues k s.imports := by
  have hnone : s.imports ++ importsIn true [] = s.imports := List.append_nil _
  cases h with
  | definition kind name h =>
    have hopen := State.Opens.continues (s := { s with decorated := none }) htail h
    rw [importsIn, List.append_nil] at hopen
    exact hopen
  | clause c h => exact hnone ▸ h.continues htail
  | cases h => exact hnone ▸ h.continues htail
  | line h => exact simples_continues htail h
  | decorator k' hreach h =>
    subst h
    exact ⟨[], (List.append_nil _).symm, .nil hreach⟩

theorem atToken_continues (h : s.atToken k = some s') : s'.Continues k s.imports := by
  rcases State.atToken_cases h with ⟨t, c, htail, h⟩ | ⟨s₁, hflush, h⟩
  · have hopen := h.continues rfl
    rwa [show State.imports { s with tail := none } ++ importsIn true t.body = s.imports by
      rw [State.imports, State.imports, htail]
      simp only [Tail.imports, List.append_nil]] at hopen
  · obtain ⟨himports, htail, -⟩ := State.imports_flush hflush
    exact himports ▸ h.continues htail

/-- One step adds the import statements that stand between its cursors. -/
theorem step_imports (h : step s = .next s') : s'.Continues s.cursor s.imports := by
  obtain ⟨k, hreach, h⟩ := step_cases h
  rcases h with ⟨s₁, parent, outer, hflush, houter, rfl⟩ | ⟨-, h⟩
  · obtain ⟨himports, htail, houter'⟩ := State.imports_flush hflush
    obtain ⟨hleave, hcursor⟩ := State.imports_leave htail (houter'.trans houter) k
    refine ⟨[], ?_, ?_⟩
    · rw [hleave, himports, List.append_nil]
    · rw [hcursor]
      exact .nil hreach
  · exact (atToken_continues h).reached hreach

/-- Reading to the end adds the import statements of the rest of the text. -/
theorem run_imports (h : run s = some body) :
    ∃ new k', ImportsBetween s.cursor new k' ∧ importsIn true body <:+ s.imports ++ new := by
  induction s using run.induct with
  | case1 s body' hstep =>
    rw [run, hstep] at h
    cases h
    obtain ⟨s₁, hflush, houter, rfl⟩ := step_done hstep
    obtain ⟨himports, htail, -⟩ := State.imports_flush hflush
    refine ⟨[], s.cursor, .nil (.refl _), importsIn true s₁.block.before, ?_⟩
    rw [List.append_nil, ← himports, State.imports, houter, htail]
    simp only [List.reverse_nil, List.flatMap_nil, List.nil_append, Tail.imports, List.append_nil,
      Block.imports, importsIn_append]
  | case2 s hstep => rw [run, hstep] at h; cases h
  | case3 s s' hstep hsize ih =>
    rw [run, hstep] at h
    obtain ⟨new, himports, hnew⟩ := step_imports hstep
    obtain ⟨rest, k', hrest, hsuffix⟩ := ih (by simpa [hsize] using h)
    refine ⟨new ++ rest, k', hnew.append hrest, ?_⟩
    rwa [himports, List.append_assoc] at hsuffix
  | case4 s s' hstep hsize => rw [run, hstep] at h; simp [hsize] at h

end Reader

/-- The import statements of a text stand in it one behind the other. -/
theorem readSource?_imports {source : String} {body : List Statement}
    (h : readSource? source = some body) :
    ∃ k', ImportsBetween (ofText (Text.unifyNewlines source.toList)) (importsIn true body) k' := by
  obtain ⟨new, k', hnew, front, hfront⟩ := Reader.run_imports h
  have hempty : Reader.State.imports
      { cursor := ofText (Text.unifyNewlines source.toList) } = [] := rfl
  rw [hempty, List.nil_append] at hfront
  exact ⟨k', (hfront ▸ hnew).of_append⟩

end ImportContext.Source
