import ImportContext.Proofs.Source.Steps
import ImportContext.Proofs.Text.Lines

/-!
# Statements stand on lines of their text

The reader notes for each definition and assignment on which line it begins. That line is one of
the text's lines: it is the line of a token, and a token has a character of the text behind it.

Results:
* `Cursor.On.lineOf`: a cursor with something behind it stands on a line of the text.
* `Reader.step_placed`: one step of the reader keeps every noted line on the text.
* `readSource?_placed`: so do all statements of a text that was read.
-/

namespace ImportContext.Source

/-- A line number of a text. -/
def LineOf (cs : List Char) (line : Nat) : Prop :=
  1 ≤ line ∧ line ≤ (Text.lineChars cs).length

namespace Cursor

/-- The cursor stands in a text. -/
def On (cs : List Char) (k : Cursor) : Prop :=
  (ofText cs).Reaches k

theorem on_ofText (cs : List Char) : (ofText cs).On cs :=
  .refl _

theorem On.reaches {cs : List Char} {k k' : Cursor} (h : k.On cs) (hk : k.Reaches k') :
    k'.On cs :=
  h.trans hk

theorem line_after (p : Position) (cs : List Char) :
    (p.after cs).line = p.line + cs.count '\n' := by
  induction cs generalizing p with
  | nil => simp [Position.after]
  | cons c rest ih =>
    have hstep : p.after (c :: rest) = (p.next c).after rest := rfl
    rw [hstep, ih]
    by_cases hc : c = '\n'
    · simp [Position.next, hc]; omega
    · simp [Position.next, hc]

/-- A cursor with something behind it stands on a line of the text. -/
theorem On.lineOf {cs : List Char} {k : Cursor} (h : k.On cs) (hrest : k.rest ≠ []) :
    LineOf cs k.pos.line := by
  obtain ⟨n, rfl⟩ := h
  have hlt : n < cs.length := by
    simpa [advance, ofText] using hrest
  have hcount := Text.count_newline_take_lt cs n hlt
  have hline : ((ofText cs).advance n).pos.line = 1 + (cs.take n).count '\n' := by
    simp [advance, ofText, line_after, Position.start]
  rw [hline]
  exact ⟨by omega, by omega⟩

end Cursor

/-- The statement itself begins on a line of the text. -/
def Statement.Placed (cs : List Char) : Statement → Prop
  | .assigning _ lines => LineOf cs lines.first
  | .defining _ _ lines _ => LineOf cs lines.first
  | _ => True

open Cursor

/-! ## Simple statements -/

theorem readExpressionStatement_placed {cs : List Char} {current : Nat} {k k' : Cursor}
    {s : Statement} (hk : k.On cs) (h : readExpressionStatement current k = some (s, k')) :
    s.Placed cs := by
  simp only [readExpressionStatement, Option.bind_eq_bind, Option.bind_eq_some_iff] at h
  obtain ⟨⟨names, next⟩, hparts, h⟩ := h
  have hrest : k.rest ≠ [] := by
    intro hnil
    simp [hnil, readParts] at hparts
  split at h
  · cases h; trivial
  · cases h; exact hk.lineOf hrest

theorem SimpleAt.placed {cs : List Char} {current : Nat} {k k' : Cursor} {s : Statement}
    (hk : k.On cs) (h : SimpleAt current k k' s) : s.Placed cs := by
  cases h with
  | importing _ => trivial
  | expression h => exact readExpressionStatement_placed hk h
  | other => trivial

/-- A line of simple statements begins each of them on a line of the text. -/
theorem SimplesAt.placed {cs : List Char} {current : Nat} {k k' : Cursor} {body : List Statement}
    (hk : k.On cs) (h : SimplesAt current k body k') : ∀ s ∈ body, s.Placed cs := by
  induction h with
  | last _ hstmt _ => simpa using hstmt.placed hk
  | more hreach hstmt hnext _ ih =>
    exact List.forall_mem_cons.mpr ⟨hstmt.placed hk, ih (hk.reaches (hreach.trans hnext))⟩

/-! ## Blocks -/

namespace Reader

/-- The definition that a block belongs to begins on a line of the text. -/
def Opening.Placed (cs : List Char) : Opening → Prop
  | .definition _ _ first => LineOf cs first
  | _ => True

theorem Opening.Placed.clause (cs : List Char) (c : Clause) : (Opening.clause c).Placed cs :=
  trivial

theorem Opening.Placed.definition {cs : List Char} {first : Nat} (h : LineOf cs first)
    (kind : DefinitionKind) (name : String) : (Opening.definition kind name first).Placed cs :=
  h

/-- Everything that a block notes begins on a line of the text. -/
structure Block.Placed (cs : List Char) (b : Block) : Prop where
  opening : b.opening.Placed cs
  inside : ∀ s ∈ b.inside, s.Placed cs

/-- Everything that a state of the reader notes begins on a line of the text. -/
structure State.Placed (cs : List Char) (s : State) : Prop where
  cursor : s.cursor.On cs
  block : s.block.Placed cs
  outer : ∀ b ∈ s.outer, b.Placed cs
  decorated : ∀ line, s.decorated = some line → LineOf cs line

variable {cs : List Char} {s s' : State} {k k' : Cursor}

theorem State.Placed.moved (hs : s.Placed cs) (hk : k.On cs) :
    State.Placed cs { s with cursor := k } :=
  ⟨hk, hs.block, hs.outer, hs.decorated⟩

theorem State.Placed.withTail (hs : s.Placed cs) (t : Option Tail) :
    State.Placed cs { s with tail := t } :=
  ⟨hs.cursor, hs.block, hs.outer, hs.decorated⟩

theorem State.Placed.undecorated (hs : s.Placed cs) :
    State.Placed cs { s with decorated := none } :=
  ⟨hs.cursor, hs.block, hs.outer, by simp⟩

theorem State.Placed.add (hs : s.Placed cs) {stmt : Statement} (h : stmt.Placed cs) :
    (s.add stmt).Placed cs := by
  refine ⟨hs.cursor, ⟨hs.block.opening, ?_⟩, hs.outer, hs.decorated⟩
  intro x hx
  rcases List.mem_cons.mp hx with rfl | hx
  · exact h
  · exact hs.block.inside x hx

theorem State.Placed.addAll (hs : s.Placed cs) {body : List Statement}
    (h : ∀ x ∈ body, x.Placed cs) : (body.foldl State.add s).Placed cs := by
  induction body generalizing s with
  | nil => exact hs
  | cons x body ih =>
    exact ih (hs.add (h x (by simp))) fun y hy => h y (by simp [hy])

theorem State.Placed.endBlock (hs : s.Placed cs) {opening : Opening} (ho : opening.Placed cs)
    (body : List Statement) (pos : Position) : (s.endBlock opening body pos).Placed cs := by
  unfold State.endBlock
  split
  · exact hs.add ho
  · split
    · exact hs.add trivial
    · exact hs.withTail _
  · exact hs.add trivial

theorem State.Placed.flush (hs : s.Placed cs) (h : s.flush = some s') : s'.Placed cs := by
  unfold State.flush at h
  split at h
  · cases h; exact hs
  · split at h
    · cases h
    · cases h; exact (hs.withTail none).add trivial

theorem State.Placed.openBlock (hs : s.Placed cs) {opening : Opening} (ho : opening.Placed cs)
    {before : List Statement} (hk : k.On cs) (h : s.openBlock opening before k = some s') :
    s'.Placed cs := by
  unfold State.openBlock at h
  split at h
  · next width next hahead =>
    cases h
    refine ⟨hk.reaches (ahead_reaches hahead), ⟨ho, by simp⟩, ?_, hs.decorated⟩
    intro b hb
    rcases List.mem_cons.mp hb with rfl | hb
    · exact hs.block
    · exact hs.outer b hb
  · next next hahead =>
    cases h
    exact (hs.moved (hk.reaches (ahead_reaches hahead))).endBlock ho _ _
  · cases h
  · next next hahead =>
    obtain ⟨⟨body, k₁⟩, hbody, h⟩ := Option.bind_eq_some_iff.mp h
    cases h
    have hnext : next.On cs := hk.reaches (ahead_reaches hahead)
    have hsimples := readSimples_cases hbody
    exact (hs.moved (hnext.reaches hsimples.reaches)).endBlock ho _ _

theorem State.Placed.opens (hs : s.Placed cs) {opening : Opening} (ho : opening.Placed cs)
    {before : List Statement} (hk : k.On cs) (h : s.Opens opening before k s') :
    s'.Placed cs := by
  obtain ⟨k', hreach, h⟩ := h
  exact hs.openBlock ho (hk.reaches hreach) h

/-! ## Steps -/

theorem State.Placed.simples (hs : s.Placed cs) (hk : k.On cs) (h : s.simples k = some s') :
    s'.Placed cs := by
  obtain ⟨⟨body, k₁⟩, hbody, h⟩ := Option.bind_eq_some_iff.mp h
  cases h
  have hsimples := readSimples_cases hbody
  exact (hs.moved (hk.reaches hsimples.reaches)).addAll (hsimples.placed hk)

/-- The first line of a definition is that of its first decorator, or its own. -/
theorem State.Placed.firstLine (hs : s.Placed cs) {line : Nat} (h : LineOf cs line) :
    LineOf cs (s.decorated.getD line) := by
  cases hd : s.decorated with
  | none => exact h
  | some first => exact hs.decorated first hd

theorem State.Placed.begins (hs : s.Placed cs) (hk : k.On cs) (hline : LineOf cs k.pos.line)
    (h : s.Begins k s') : s'.Placed cs := by
  have hfirst : LineOf cs (s.decorated.getD k.pos.line) := hs.firstLine hline
  cases h with
  | definition kind name h => exact hs.undecorated.opens (.definition hfirst kind name) hk h
  | clause c h => exact hs.opens (.clause cs c) hk h
  | cases h =>
    have hcases : Opening.cases.Placed cs := trivial
    exact hs.opens hcases hk h
  | line h => exact hs.simples hk h
  | decorator k' hreach h =>
    subst h
    refine ⟨hk.reaches hreach, hs.block, hs.outer, ?_⟩
    intro line hsome
    rw [← Option.some.inj hsome]
    exact hfirst

theorem State.Placed.atToken (hs : s.Placed cs) (hk : k.On cs) (hline : LineOf cs k.pos.line)
    (h : s.atToken k = some s') : s'.Placed cs := by
  rcases State.atToken_cases h with ⟨t, c, -, h⟩ | ⟨s₁, hflush, h⟩
  · exact (hs.withTail none).opens (.clause cs c) hk h
  · exact (hs.flush hflush).begins hk hline h

/-- One step of the reader keeps every noted line on the text. -/
theorem step_placed (hs : s.Placed cs) (h : step s = .next s') : s'.Placed cs := by
  obtain ⟨k, hreach, h⟩ := step_cases h
  have hk : k.On cs := hs.cursor.reaches hreach
  rcases h with ⟨s₁, parent, outer, hflush, houter, rfl⟩ | ⟨hrest, h⟩
  · have hs₁ : s₁.Placed cs := hs.flush hflush
    have hparent : parent.Placed cs := hs.outer parent (by simp [houter])
    have houter' : ∀ b ∈ outer, b.Placed cs := fun b hb => hs.outer b (by simp [houter, hb])
    have hclosed : State.Placed cs { s₁ with cursor := k, block := parent, outer := outer } :=
      ⟨hk, hparent, houter', hs₁.decorated⟩
    exact hclosed.endBlock hs₁.block.opening _ _
  · exact hs.atToken hk (hk.lineOf hrest) h

/-- The statements that the last step gives are those of the outermost block. -/
theorem step_done_placed {body : List Statement} (hs : s.Placed cs) (h : step s = .done body) :
    ∀ stmt ∈ body, stmt.Placed cs := by
  obtain ⟨s₁, hflush, -, rfl⟩ := step_done h
  intro stmt hstmt
  exact (hs.flush hflush).block.inside stmt (List.mem_reverse.mp hstmt)

/-- Reading to the end keeps every noted line on the text. -/
theorem run_placed {body : List Statement} (hs : s.Placed cs) (h : run s = some body) :
    ∀ stmt ∈ body, stmt.Placed cs := by
  induction s using run.induct with
  | case1 s body' hstep =>
    rw [run, hstep] at h
    cases h
    exact step_done_placed hs hstep
  | case2 s hstep => rw [run, hstep] at h; cases h
  | case3 s s' hstep hsize ih =>
    rw [run, hstep] at h
    exact ih (step_placed hs hstep) (by simpa [hsize] using h)
  | case4 s s' hstep hsize => rw [run, hstep] at h; simp [hsize] at h

theorem placed_start (cs : List Char) : State.Placed cs { cursor := Cursor.ofText cs } :=
  ⟨on_ofText cs, ⟨trivial, by simp⟩, by simp, by simp⟩

end Reader

/-- The statements of a text begin on lines of the text as it was given. -/
theorem readSource?_placed {source : String} {body : List Statement}
    (h : readSource? source = some body) : ∀ stmt ∈ body, stmt.Placed source.toList := by
  have hunified : ∀ stmt ∈ body, stmt.Placed (Text.unifyNewlines source.toList) :=
    Reader.run_placed (Reader.placed_start _) h
  intro stmt hstmt
  have hplaced := hunified stmt hstmt
  cases stmt with
  | assigning names lines =>
    simpa [Statement.Placed, LineOf, Text.length_lineChars_unifyNewlines] using hplaced
  | defining kind name lines inner =>
    simpa [Statement.Placed, LineOf, Text.length_lineChars_unifyNewlines] using hplaced
  | importing s => trivial
  | compound inner => trivial
  | other => trivial

end ImportContext.Source
