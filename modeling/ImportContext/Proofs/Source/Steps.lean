import ImportContext.Proofs.Source.Cursor
import Mathlib.Logic.Basic

/-!
# What one step of the reader can do

A header is read for its cursor only: whatever statement it begins, the reader ends up opening a
block further on. So a step of the reader does one of few things, whichever word stands at the
cursor, and a statement without blocks is an import statement, an expression statement or one that
leaves nothing behind.

Results:
* `readSimple_cases`: what a simple statement can be.
* `State.atToken_cases`: a statement goes on with a block, opens one, is a line of simple statements
  or a decorator.
* `step_cases`, `step_done`: a step closes a block or reads a statement; the last one ends.
-/

namespace ImportContext.Source

open Cursor

/-! ## Simple statements -/

/-- The import statement that is read from the first cursor up to the second. -/
def ImportStatement.ReadAt (s : ImportStatement) (k k' : Cursor) : Prop :=
  ∃ current, word? k.rest = some "import" ∧
      readModules current k.pos (k.advance 6) = some (s, k') ∨
    word? k.rest = some "from" ∧ readMembers current k.pos (k.advance 4) = some (s, k')

theorem ImportStatement.ReadAt.reaches {s : ImportStatement} {k k' : Cursor}
    (h : s.ReadAt k k') : k.Reaches k' := by
  obtain ⟨current, ⟨-, h⟩ | ⟨-, h⟩⟩ := h
  · exact (reaches_advance k 6).trans (readModules_reaches h)
  · exact (reaches_advance k 4).trans (readMembers_reaches h)

/-- What a simple statement that ends at `k'` can be. -/
inductive SimpleAt (current : Nat) (k k' : Cursor) : Statement → Prop where
  | importing {s : ImportStatement} : s.ReadAt k k' → SimpleAt current k k' (.importing s)
  | expression {stmt : Statement} : readExpressionStatement current k = some (stmt, k') →
      SimpleAt current k k' stmt
  | other : SimpleAt current k k' .other

variable {current : Nat} {k k' : Cursor} {stmt : Statement}

/-- A statement of which only the cursor behind it is kept. -/
theorem simpleAt_of_map {r : Option Cursor} (hr : ∀ k', r = some k' → k.Reaches k')
    (h : (r.map fun k => (Statement.other, k)) = some (stmt, k')) :
    k.Reaches k' ∧ SimpleAt current k k' stmt := by
  obtain ⟨k₁, hk₁, h⟩ := Option.map_eq_some_iff.mp h
  cases h
  exact ⟨hr _ hk₁, .other⟩

theorem readSimpleWord_cases {w : String} (hw : word? k.rest = some w)
    (h : readSimpleWord current w k = some (stmt, k')) :
    k.Reaches k' ∧ SimpleAt current k k' stmt := by
  have hword : k.Reaches (k.advance w.length) := reaches_advance k _
  unfold readSimpleWord at h
  rcases ite_eq_iff.mp h with ⟨himport, h⟩ | ⟨-, h⟩
  · obtain rfl : w = "import" := by simpa using himport
    obtain ⟨⟨s, k₁⟩, hs, h⟩ := Option.map_eq_some_iff.mp h
    cases h
    exact ⟨hword.trans (readModules_reaches hs), .importing ⟨current, .inl ⟨hw, hs⟩⟩⟩
  rcases ite_eq_iff.mp h with ⟨hfrom, h⟩ | ⟨-, h⟩
  · obtain rfl : w = "from" := by simpa using hfrom
    obtain ⟨⟨s, k₁⟩, hs, h⟩ := Option.map_eq_some_iff.mp h
    cases h
    exact ⟨hword.trans (readMembers_reaches hs), .importing ⟨current, .inr ⟨hw, hs⟩⟩⟩
  rcases ite_eq_iff.mp h with ⟨-, h⟩ | ⟨-, h⟩
  · cases h
    exact ⟨hword, .other⟩
  rcases ite_eq_iff.mp h with ⟨-, h⟩ | ⟨-, h⟩
  · exact simpleAt_of_map (fun _ hr => hword.trans (readOptionalList_reaches hr)) h
  rcases ite_eq_iff.mp h with ⟨-, h⟩ | ⟨-, h⟩
  · exact simpleAt_of_map (fun _ hr => hword.trans (expression_map_reaches hr)) h
  rcases ite_eq_iff.mp h with ⟨-, h⟩ | ⟨-, h⟩
  · exact simpleAt_of_map (fun _ hr => hword.trans (expression_map_reaches hr)) h
  rcases ite_eq_iff.mp h with ⟨-, h⟩ | ⟨-, h⟩
  · exact simpleAt_of_map (fun _ hr => hword.trans (readRaise_reaches hr)) h
  rcases ite_eq_iff.mp h with ⟨-, h⟩ | ⟨-, h⟩
  · exact simpleAt_of_map (fun _ hr => hword.trans (readWords_reaches hr)) h
  -- words that begin a statement only where one can be read
  dsimp only at h
  split at h
  · next k₁ hsoft =>
    cases h
    refine ⟨hword.trans ?_, .other⟩
    rcases ite_eq_iff.mp hsoft with ⟨-, hsoft⟩ | ⟨-, hsoft⟩
    · exact readPrint_reaches hsoft
    rcases ite_eq_iff.mp hsoft with ⟨-, hsoft⟩ | ⟨-, hsoft⟩
    · exact readExec_reaches hsoft
    rcases ite_eq_iff.mp hsoft with ⟨-, hsoft⟩ | ⟨-, hsoft⟩
    · exact readTypeAlias_reaches hsoft
    · cases hsoft
  · exact ⟨readExpressionStatement_reaches h, .expression h⟩

/-- A simple statement is an import statement, an expression statement or one that leaves nothing
behind. -/
theorem readSimple_cases (h : readSimple current k = some (stmt, k')) :
    k.Reaches k' ∧ SimpleAt current k k' stmt := by
  rw [readSimple] at h
  split at h
  · next w hw =>
    have hword : word? k.rest = some w := by
      split at hw
      · cases hw
      · exact hw
    exact readSimpleWord_cases hword h
  · exact ⟨readExpressionStatement_reaches h, .expression h⟩

/-- Simple statements that follow each other on a line that ends at the second cursor. -/
inductive SimplesAt (current : Nat) : Cursor → List Statement → Cursor → Prop where
  | last {k k₁ k' : Cursor} {stmt : Statement} : k.Reaches k₁ → SimpleAt current k k₁ stmt →
      k₁.Reaches k' → SimplesAt current k [stmt] k'
  | more {k k₁ k₂ k' : Cursor} {stmt : Statement} {body : List Statement} : k.Reaches k₁ →
      SimpleAt current k k₁ stmt → k₁.Reaches k₂ → SimplesAt current k₂ body k' →
      SimplesAt current k (stmt :: body) k'

theorem SimplesAt.reaches {body : List Statement} (h : SimplesAt current k body k') :
    k.Reaches k' := by
  induction h with
  | last hstmt _ hend => exact hstmt.trans hend
  | more hstmt _ hnext _ ih => exact hstmt.trans (hnext.trans ih)

/-- A line of simple statements is read one after the other. -/
theorem readSimples_cases {fuel : Nat} {body : List Statement}
    (h : readSimples current fuel k = some (body, k')) : SimplesAt current k body k' := by
  induction fuel generalizing k body with
  | zero => cases h
  | succ fuel ih =>
    simp only [readSimples, Option.bind_eq_bind, Option.bind_eq_some_iff] at h
    obtain ⟨⟨stmt, k₁⟩, hstmt, h⟩ := h
    obtain ⟨hfirst, hat⟩ := readSimple_cases hstmt
    split at h
    · next k₂ hahead =>
      cases h
      exact .last hfirst hat (ahead_reaches hahead)
    · cases h
    next at_ hahead =>
    obtain ⟨k₂, hmark, h⟩ := Option.bind_eq_some_iff.mp h
    have hsecond : k₁.Reaches k₂ := (ahead_reaches hahead).trans (expectChar_reaches hmark)
    split at h
    · next k₃ hend =>
      cases h
      exact .last hfirst hat (hsecond.trans (ahead_reaches hend))
    · cases h
    next k₃ hnext =>
    obtain ⟨⟨rest, k₄⟩, hrest, h⟩ := Option.bind_eq_some_iff.mp h
    cases h
    exact .more hfirst hat (hsecond.trans (ahead_reaches hnext)) (ih hrest)

/-! ## Headers -/

namespace Reader

variable {s s' : State} {opening : Opening} {before : List Statement} {c : Clause}

/-- A block is opened somewhere behind a cursor. -/
def State.Opens (s : State) (opening : Opening) (before : List Statement) (k : Cursor)
    (s' : State) : Prop :=
  ∃ k', k.Reaches k' ∧ s.openBlock opening before k' = some s'

theorem State.Opens.reached {k₁ : Cursor} (hk : k.Reaches k₁) (h : s.Opens opening before k₁ s') :
    s.Opens opening before k s' := by
  obtain ⟨k', hk', h⟩ := h
  exact ⟨k', hk.trans hk', h⟩

theorem colon_reaches (h : s.colon k = some k') : k.Reaches k' := by
  obtain ⟨k₁, htoken, h⟩ := Option.bind_eq_some_iff.mp h
  exact (token_reaches htoken).trans (expectChar_reaches h)

theorem read_reaches {follow : Recognizer.Follow} (h : s.read follow k = some k') :
    k.Reaches k' :=
  expression_map_reaches h

/-- A block behind the colon of a header. -/
theorem State.Opens.colon (h : (s.colon k).bind (s.openBlock opening before) = some s') :
    s.Opens opening before k s' := by
  obtain ⟨k₁, hcolon, h⟩ := Option.bind_eq_some_iff.mp h
  exact ⟨k₁, colon_reaches hcolon, h⟩

theorem conditional_opens (h : s.conditional c before k = some s') :
    s.Opens (.clause c) before k s' := by
  obtain ⟨k₁, hread, h⟩ := Option.bind_eq_some_iff.mp h
  exact .reached (read_reaches hread) (.colon h)

theorem bare_opens (h : s.bare c before k = some s') : s.Opens (.clause c) before k s' :=
  .colon h

theorem forLoop_opens (h : s.forLoop k = some s') : s.Opens (.clause .loop) [] k s' := by
  obtain ⟨k₁, htarget, h⟩ := Option.bind_eq_some_iff.mp h
  obtain ⟨k₂, htoken, h⟩ := Option.bind_eq_some_iff.mp h
  obtain ⟨k₃, hin, h⟩ := Option.bind_eq_some_iff.mp h
  obtain ⟨k₄, hread, h⟩ := Option.bind_eq_some_iff.mp h
  have hreach : k.Reaches k₄ := (read_reaches htarget).trans <| (token_reaches htoken).trans <|
    (expectWord_reaches hin).trans (read_reaches hread)
  exact .reached hreach (.colon h)

theorem withBlock_opens (h : s.withBlock k = some s') : s.Opens (.clause .last) [] k s' := by
  obtain ⟨k₁, hread, h⟩ := Option.bind_eq_some_iff.mp h
  exact .reached (read_reaches hread) (.colon h)

theorem typeParameters_reaches (h : s.typeParameters k = some k') : k.Reaches k' := by
  obtain ⟨at_, htoken, h⟩ := Option.bind_eq_some_iff.mp h
  split at h
  · next k₁ hopen =>
    obtain ⟨n, _, rfl⟩ := Option.map_eq_some_iff.mp h
    exact (token_reaches htoken).trans <| (expectChar_reaches hopen).trans (reaches_advance k₁ n)
  · cases h
    exact .refl k

/-- A function takes the decorators that waited for it. -/
theorem functionBlock_opens {first : Nat} (h : s.functionBlock first k = some s') :
    ∃ name, State.Opens { s with decorated := none } (.definition .functionDef name first) [] k
      s' := by
  obtain ⟨k₁, h₁, h⟩ := Option.bind_eq_some_iff.mp h
  obtain ⟨⟨name, k₂⟩, h₂, h⟩ := Option.bind_eq_some_iff.mp h
  obtain ⟨k₃, h₃, h⟩ := Option.bind_eq_some_iff.mp h
  obtain ⟨k₄, h₄, h⟩ := Option.bind_eq_some_iff.mp h
  obtain ⟨k₅, h₅, h⟩ := Option.bind_eq_some_iff.mp h
  obtain ⟨n, -, h⟩ := Option.bind_eq_some_iff.mp h
  have hparameters : k.Reaches (k₅.advance n) := (token_reaches h₁).trans <|
    (takeWord_reaches h₂).trans <| (typeParameters_reaches h₃).trans <|
    (token_reaches h₄).trans <| (expectChar_reaches h₅).trans (reaches_advance k₅ n)
  obtain ⟨at_, htoken, h⟩ := Option.bind_eq_some_iff.mp h
  dsimp only at h
  split at h
  · next k₆ harrow =>
    obtain ⟨k₇, hread, h⟩ := Option.bind_eq_some_iff.mp h
    have hreach : k.Reaches k₇ := hparameters.trans <| (token_reaches htoken).trans <|
      (expectMark_reaches harrow).trans (read_reaches hread)
    exact ⟨name, .reached hreach (.colon h)⟩
  · exact ⟨name, .reached hparameters (.colon h)⟩

theorem classBlock_opens {first : Nat} (h : s.classBlock first k = some s') :
    ∃ name, State.Opens { s with decorated := none } (.definition .classDef name first) [] k
      s' := by
  obtain ⟨k₁, h₁, h⟩ := Option.bind_eq_some_iff.mp h
  obtain ⟨⟨name, k₂⟩, h₂, h⟩ := Option.bind_eq_some_iff.mp h
  obtain ⟨k₃, h₃, h⟩ := Option.bind_eq_some_iff.mp h
  have hname : k.Reaches k₃ := (token_reaches h₁).trans <| (takeWord_reaches h₂).trans
    (typeParameters_reaches h₃)
  obtain ⟨at_, htoken, h⟩ := Option.bind_eq_some_iff.mp h
  dsimp only at h
  split at h
  · next k₄ hopen =>
    obtain ⟨k₅, hbases, h⟩ := Option.bind_eq_some_iff.mp h
    obtain ⟨n, -, rfl⟩ := Option.map_eq_some_iff.mp hbases
    have hreach : k.Reaches (k₄.advance n) := hname.trans <| (token_reaches htoken).trans <|
      (expectChar_reaches hopen).trans (reaches_advance k₄ n)
    exact ⟨name, .reached hreach (.colon h)⟩
  · exact ⟨name, .reached hname (.colon h)⟩

theorem caught_reaches (h : s.caught k = some k') : k.Reaches k' := by
  obtain ⟨at_, -, h⟩ := Option.bind_eq_some_iff.mp h
  rcases ite_eq_iff.mp h with ⟨-, h⟩ | ⟨-, h⟩
  · cases h
    exact .refl k
  obtain ⟨k₁, hread, h⟩ := Option.bind_eq_some_iff.mp h
  obtain ⟨at', htoken, h⟩ := Option.bind_eq_some_iff.mp h
  split at h
  · next k₂ hcomma =>
    exact (read_reaches hread).trans <| (token_reaches htoken).trans <|
      (expectChar_reaches hcomma).trans (read_reaches h)
  · cases h
    exact read_reaches hread

theorem caseBlock_opens (h : s.caseBlock k = some s') : s.Opens (.clause .last) [] k s' := by
  obtain ⟨n, -, h⟩ := Option.bind_eq_some_iff.mp h
  have hpattern : k.Reaches (k.advance n) := reaches_advance k n
  obtain ⟨at_, htoken, h⟩ := Option.bind_eq_some_iff.mp h
  dsimp only at h
  split at h
  · next k₁ hif =>
    obtain ⟨k₂, hread, h⟩ := Option.bind_eq_some_iff.mp h
    have hreach : k.Reaches k₂ := hpattern.trans <| (token_reaches htoken).trans <|
      (expectWord_reaches hif).trans (read_reaches hread)
    exact .reached hreach (.colon h)
  · exact .reached hpattern (.colon h)

theorem matchBlock_opens (h : s.matchBlock k = some s') : s.Opens .cases [] k s' := by
  obtain ⟨k₁, hread, h⟩ := Option.bind_eq_some_iff.mp h
  obtain ⟨k₂, hcolon, h⟩ := Option.bind_eq_some_iff.mp h
  have hk₂ : k.Reaches k₂ := (read_reaches hread).trans (colon_reaches hcolon)
  split at h
  · obtain ⟨first, -, h⟩ := Option.bind_eq_some_iff.mp h
    rcases ite_eq_iff.mp h with ⟨-, h⟩ | ⟨-, h⟩
    · exact ⟨k₂, hk₂, h⟩
    · cases h
  · exact ⟨k₂, hk₂, h⟩
  · cases h

/-! ## Statements at a token -/

/-- What the first statement behind an ended one makes of a state. A definition begins on the line
of its first decorator, or on its own. -/
inductive State.Begins (s : State) (k : Cursor) (s' : State) : Prop where
  | definition (kind : DefinitionKind) (name : String) :
      State.Opens { s with decorated := none }
        (.definition kind name (s.decorated.getD k.pos.line)) [] k s' → s.Begins k s'
  | clause (c : Clause) : s.Opens (.clause c) [] k s' → s.Begins k s'
  | cases : s.Opens .cases [] k s' → s.Begins k s'
  | line : s.simples k = some s' → s.Begins k s'
  | decorator (k' : Cursor) : k.Reaches k' →
      s' = { s with cursor := k', decorated := some (s.decorated.getD k.pos.line) } → s.Begins k s'

theorem async?_begins {k₁ : Cursor} (hk : k.Reaches k₁)
    (h : s.async? (s.decorated.getD k.pos.line) k₁ = some s') : s.Begins k s' := by
  obtain ⟨k₂, htoken, h⟩ := Option.bind_eq_some_iff.mp h
  obtain ⟨⟨w, k₃⟩, hword, h⟩ := Option.bind_eq_some_iff.mp h
  have hk₃ : k.Reaches k₃ := hk.trans ((token_reaches htoken).trans (takeWord_reaches hword))
  rcases ite_eq_iff.mp h with ⟨-, h⟩ | ⟨-, h⟩
  · obtain ⟨name, h⟩ := functionBlock_opens h
    exact .definition _ name (.reached hk₃ h)
  rcases ite_eq_iff.mp h with ⟨-, h⟩ | ⟨-, h⟩
  · cases h
  rcases ite_eq_iff.mp h with ⟨-, h⟩ | ⟨-, h⟩
  · exact .clause _ (.reached hk₃ (forLoop_opens h))
  rcases ite_eq_iff.mp h with ⟨-, h⟩ | ⟨-, h⟩
  · exact .clause _ (.reached hk₃ (withBlock_opens h))
  · cases h

theorem statement_begins {w : String} (h : s.statement w k = some s') : s.Begins k s' := by
  have hword : k.Reaches (k.advance w.length) := reaches_advance k _
  unfold State.statement at h
  rcases ite_eq_iff.mp h with ⟨-, h⟩ | ⟨-, h⟩
  · obtain ⟨name, h⟩ := functionBlock_opens h
    exact .definition _ name (.reached hword h)
  rcases ite_eq_iff.mp h with ⟨-, h⟩ | ⟨-, h⟩
  · obtain ⟨name, h⟩ := classBlock_opens h
    exact .definition _ name (.reached hword h)
  rcases ite_eq_iff.mp h with ⟨-, h⟩ | ⟨-, h⟩
  · rcases ite_eq_iff.mp h with ⟨-, h⟩ | ⟨-, h⟩
    · exact async?_begins hword h
    · cases h
  rcases ite_eq_iff.mp h with ⟨-, h⟩ | ⟨-, h⟩
  · exact .clause _ (.reached hword (conditional_opens h))
  rcases ite_eq_iff.mp h with ⟨-, h⟩ | ⟨-, h⟩
  · exact .clause _ (.reached hword (conditional_opens h))
  rcases ite_eq_iff.mp h with ⟨-, h⟩ | ⟨-, h⟩
  · exact .clause _ (.reached hword (forLoop_opens h))
  rcases ite_eq_iff.mp h with ⟨-, h⟩ | ⟨-, h⟩
  · exact .clause _ (.reached hword (withBlock_opens h))
  rcases ite_eq_iff.mp h with ⟨-, h⟩ | ⟨-, h⟩
  · exact .clause _ (.reached hword (bare_opens h))
  -- words that begin a statement only where one can be read
  dsimp only at h
  split at h
  · next s₁ hspecial =>
    cases h
    rcases ite_eq_iff.mp hspecial with ⟨-, hspecial⟩ | ⟨-, hspecial⟩
    · exact async?_begins hword hspecial
    rcases ite_eq_iff.mp hspecial with ⟨-, hspecial⟩ | ⟨-, hspecial⟩
    · exact .cases (.reached hword (matchBlock_opens hspecial))
    · cases hspecial
  · exact .line h

theorem decorator_begins {k₁ : Cursor} (hk : k.Reaches k₁) (h : s.decorator k.pos k₁ = some s') :
    s.Begins k s' := by
  obtain ⟨k₂, hread, h⟩ := Option.bind_eq_some_iff.mp h
  split at h
  · next k₃ hahead =>
    cases h
    exact .decorator k₃ (hk.trans ((read_reaches hread).trans (ahead_reaches hahead))) rfl
  · cases h

theorem dispatch_begins {word : Option String} (h : State.atToken.dispatch k s word = some s') :
    s.Begins k s' := by
  unfold State.atToken.dispatch at h
  split at h
  · rcases ite_eq_iff.mp h with ⟨-, h⟩ | ⟨-, h⟩
    · exact .clause _ (.reached (reaches_advance k 4) (caseBlock_opens h))
    · cases h
  · cases h
  · exact statement_begins h
  · split at h
    · next next hmark => exact decorator_begins (expectChar_reaches hmark) h
    · rcases ite_eq_iff.mp h with ⟨-, h⟩ | ⟨-, h⟩
      · cases h
      · exact .line h

theorem continue?_opens {t : Tail} {w : String} (h : s.continue? t w k = some (some s')) :
    ∃ c, State.Opens { s with tail := none } (.clause c) t.body k s' := by
  have hword : k.Reaches (k.advance w.length) := reaches_advance k _
  unfold State.continue? at h
  rcases ite_eq_iff.mp h with ⟨-, h⟩ | ⟨-, h⟩
  · cases h
  rcases ite_eq_iff.mp h with ⟨-, h⟩ | ⟨-, h⟩
  · exact ⟨_, .reached hword (conditional_opens (Option.some.inj h))⟩
  rcases ite_eq_iff.mp h with ⟨-, h⟩ | ⟨-, h⟩
  · exact ⟨_, .reached hword (bare_opens (Option.some.inj h))⟩
  rcases ite_eq_iff.mp h with ⟨-, h⟩ | ⟨-, h⟩
  · exact ⟨_, .reached hword (bare_opens (Option.some.inj h))⟩
  rcases ite_eq_iff.mp h with ⟨-, h⟩ | ⟨-, h⟩
  · rcases ite_eq_iff.mp h with ⟨-, h⟩ | ⟨-, h⟩
    · obtain ⟨k₁, hread, h⟩ := Option.bind_eq_some_iff.mp (Option.some.inj h)
      have hreach : k.Reaches k₁ :=
        hword.trans <| (reaches_advance _ 1).trans (read_reaches hread)
      exact ⟨_, .reached hreach (.colon h)⟩
    rcases ite_eq_iff.mp h with ⟨-, h⟩ | ⟨-, h⟩
    · cases h
    · obtain ⟨k₁, hcaught, h⟩ := Option.bind_eq_some_iff.mp (Option.some.inj h)
      exact ⟨_, .reached (hword.trans (caught_reaches hcaught)) (.colon h)⟩
  · cases h

/-- A statement at a token goes on with the one that was closed last, or begins behind it. -/
theorem State.atToken_cases (h : s.atToken k = some s') :
    (∃ t c, s.tail = some t ∧ State.Opens { s with tail := none } (.clause c) t.body k s') ∨
      ∃ s₁, s.flush = some s₁ ∧ s₁.Begins k s' := by
  have hflush : ∀ word, (s.flush.bind fun s => State.atToken.dispatch k s word) = some s' →
      ∃ s₁, s.flush = some s₁ ∧ s₁.Begins k s' := by
    intro word h
    obtain ⟨s₁, hs₁, h⟩ := Option.bind_eq_some_iff.mp h
    exact ⟨s₁, hs₁, dispatch_begins h⟩
  unfold State.atToken at h
  dsimp only at h
  split at h
  · next t w htail hword =>
    split at h
    · next r hr =>
      subst h
      obtain ⟨c, h⟩ := continue?_opens hr
      exact .inl ⟨t, c, htail, h⟩
    · exact .inr (hflush _ h)
  · exact .inr (hflush _ h)

/-! ## Steps -/

/-- The state behind the end of the innermost block, which belongs to `parent`. -/
def State.leave (s : State) (parent : Block) (outer : List Block) (k : Cursor) : State :=
  State.endBlock { s with cursor := k, block := parent, outer := outer } s.block.opening
    (s.block.before ++ s.block.inside.reverse) k.pos

/-- A step closes the innermost block or reads a statement at a token. -/
theorem step_cases (h : step s = .next s') :
    ∃ k, s.cursor.Reaches k ∧
      ((∃ s₁ parent outer, s.flush = some s₁ ∧ s.outer = parent :: outer ∧
          s' = s₁.leave parent outer k) ∨
        k.rest ≠ [] ∧ s.atToken k = some s') := by
  unfold step at h
  dsimp only at h
  split at h
  · next k hahead =>
    split at h
    · next s₁ parent outer hflush houter =>
      split at h
      · cases h
        exact ⟨k, ahead_reaches hahead, .inl ⟨s₁, parent, outer, hflush, houter, rfl⟩⟩
      · cases h
    · cases h
  · cases h
  · next k hahead =>
    split at h
    · split at h
      · split at h <;> cases h
      · cases h
    · next hrest =>
      split at h
      · next s₁ hs₁ =>
        cases h
        exact ⟨k, ahead_reaches hahead, .inr ⟨by simpa using hrest, hs₁⟩⟩
      · cases h

/-- The last step gives the statements of the outermost block. -/
theorem step_done {body : List Statement} (h : step s = .done body) :
    ∃ s₁, s.flush = some s₁ ∧ s₁.outer = [] ∧ body = s₁.block.inside.reverse := by
  unfold step at h
  dsimp only at h
  split at h
  · split at h
    · split at h <;> cases h
    · cases h
  · cases h
  · split at h
    · split at h
      · next s₁ hflush =>
        split at h
        · next hend =>
          cases h
          rw [Bool.and_eq_true, List.isEmpty_iff] at hend
          exact ⟨s₁, hflush, hend.1, rfl⟩
        · cases h
      · cases h
    · split at h <;> cases h

end Reader

end ImportContext.Source
