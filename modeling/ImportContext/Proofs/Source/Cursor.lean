import ImportContext.Source.Reader

/-!
# Cursors only move forward

Every reader of a construct takes a cursor and gives back one that stands further in the same
text. `Cursor.Reaches` says so, and the lemmas here say it once for each reader.

Results:
* `Cursor.advance_advance`: moving twice is moving once.
* `readItems_reaches`, `readMembers_reaches`: so do the readers of import statements.
* `readParts_reaches`: and the reader of assignments.
-/

namespace ImportContext.Source

namespace Cursor

/-- The second cursor stands some number of characters behind the first in the same text. -/
def Reaches (k k' : Cursor) : Prop :=
  ∃ n, k' = k.advance n

theorem after_append (p : Position) (as bs : List Char) :
    p.after (as ++ bs) = (p.after as).after bs := by
  simp [Position.after]

/-- Moving twice is moving once. -/
theorem advance_advance (k : Cursor) (m n : Nat) :
    (k.advance m).advance n = k.advance (m + n) := by
  simp only [advance, List.drop_drop, List.take_add, after_append]

theorem Reaches.refl (k : Cursor) : k.Reaches k :=
  ⟨0, by simp [advance, Position.after]⟩

theorem reaches_advance (k : Cursor) (n : Nat) : k.Reaches (k.advance n) :=
  ⟨n, rfl⟩

theorem Reaches.trans {a b c : Cursor} (hab : a.Reaches b) (hbc : b.Reaches c) : a.Reaches c := by
  obtain ⟨m, rfl⟩ := hab
  obtain ⟨n, rfl⟩ := hbc
  exact ⟨m + n, advance_advance a m n⟩

/-! ## Tokens -/

theorem ahead_reaches {e : Expected} {current : Nat} {k k' : Cursor} {l : Option Layout}
    (h : k.ahead e current = (l, k')) : k.Reaches k' := by
  have hk : k' = (k.ahead e current).2 := by rw [h]
  exact ⟨_, hk⟩

theorem token_reaches {e : Expected} {current : Nat} {k k' : Cursor}
    (h : k.token e current = some k') : k.Reaches k' := by
  unfold token at h
  split at h
  · next hahead => cases h; exact ahead_reaches hahead
  · cases h

theorem takeWord_reaches {k k' : Cursor} {w : String} (h : k.takeWord = some (w, k')) :
    k.Reaches k' := by
  unfold takeWord at h
  split at h
  · cases h; exact reaches_advance k _
  · cases h

theorem expectWord_reaches {w : String} {k k' : Cursor} (h : k.expectWord w = some k') :
    k.Reaches k' := by
  unfold expectWord at h
  split at h
  · cases h; exact reaches_advance k _
  · cases h

theorem expectMark_reaches {m : String} {k k' : Cursor} (h : k.expectMark m = some k') :
    k.Reaches k' := by
  unfold expectMark at h
  split at h
  · cases h; exact reaches_advance k _
  · cases h

theorem expectChar_reaches {c : Char} {k k' : Cursor} (h : k.expectChar c = some k') :
    k.Reaches k' := by
  unfold expectChar at h
  split at h
  · cases h; exact reaches_advance k _
  · cases h

end Cursor

open Cursor

/-! ## Import statements -/

theorem dottedTail_reaches {e : Expected} {current : Nat} :
    ∀ {fuel : Nat} {k k' : Cursor} {ws : List String},
      dottedTail e current fuel k = some (ws, k') → k.Reaches k' := by
  intro fuel
  induction fuel with
  | zero => intro k k' ws h; cases h; exact .refl k
  | succ fuel ih =>
    intro k k' ws h
    rw [dottedTail] at h
    split at h
    · next at_ hahead =>
      split at h
      · next k₁ hdot =>
        simp only [Option.bind_eq_bind, Option.bind_eq_some_iff] at h
        obtain ⟨k₂, htoken, ⟨w, k₃⟩, hword, ⟨ws', k₄⟩, htail, h⟩ := h
        cases h
        exact (ahead_reaches hahead).trans <| (expectChar_reaches hdot).trans <|
          (token_reaches htoken).trans <| (takeWord_reaches hword).trans (ih htail)
      · cases h; exact .refl k
    · cases h; exact .refl k

theorem readDotted_reaches {e : Expected} {current : Nat} {k k' : Cursor} {name : DottedName}
    (h : readDotted e current k = some (name, k')) : k.Reaches k' := by
  simp only [readDotted, Option.bind_eq_bind, Option.bind_eq_some_iff] at h
  obtain ⟨⟨w, k₁⟩, hword, ⟨ws, k₂⟩, htail, h⟩ := h
  cases h
  exact (takeWord_reaches hword).trans (dottedTail_reaches htail)

theorem readItem_reaches {e : Expected} {current : Nat} {k k' : Cursor} {item : ImportItem}
    (h : readItem e current k = some (item, k')) : k.Reaches k' := by
  simp only [readItem, Option.bind_eq_bind, Option.bind_eq_some_iff] at h
  obtain ⟨⟨path, k₁⟩, hpath, h⟩ := h
  have hname : k.Reaches k₁ := readDotted_reaches hpath
  split at h
  · next at_ hahead =>
    split at h
    · next k₂ has =>
      simp only [Option.bind_eq_some_iff] at h
      obtain ⟨k₃, htoken, ⟨w, k₄⟩, hword, h⟩ := h
      cases h
      exact hname.trans <| (ahead_reaches hahead).trans <| (expectWord_reaches has).trans <|
        (token_reaches htoken).trans (takeWord_reaches hword)
    · cases h; exact hname
  · cases h; exact hname

theorem readItems_reaches {e : Expected} {current : Nat} :
    ∀ {fuel : Nat} {k k' : Cursor} {items : List ImportItem} {comma : Option Position},
      readItems e current fuel k = some (items, comma, k') → k.Reaches k' := by
  intro fuel
  induction fuel with
  | zero => intro k k' items comma h; cases h
  | succ fuel ih =>
    intro k k' items comma h
    simp only [readItems, Option.bind_eq_bind, Option.bind_eq_some_iff] at h
    obtain ⟨⟨item, k₁⟩, hitem, h⟩ := h
    have hfirst : k.Reaches k₁ := readItem_reaches hitem
    split at h
    · next at_ hahead =>
      split at h
      · next k₂ hcomma =>
        have hsecond : k.Reaches k₂ :=
          hfirst.trans <| (ahead_reaches hahead).trans (expectChar_reaches hcomma)
        split at h
        · next k₃ hnext =>
          split at h
          · simp only [Option.bind_eq_some_iff] at h
            obtain ⟨⟨items', comma', k₄⟩, hrest, h⟩ := h
            cases h
            exact hsecond.trans <| (ahead_reaches hnext).trans (ih hrest)
          · cases h; exact hsecond
        · cases h; exact hsecond
      · cases h; exact hfirst
    · cases h; exact hfirst

theorem readModules_reaches {current : Nat} {pos : Position} {k k' : Cursor} {s : ImportStatement}
    (h : readModules current pos k = some (s, k')) : k.Reaches k' := by
  simp only [readModules, Option.bind_eq_bind, Option.bind_eq_some_iff] at h
  obtain ⟨k₁, htoken, ⟨items, comma, k₂⟩, hitems, h⟩ := h
  cases h
  exact (token_reaches htoken).trans (readItems_reaches hitems)

theorem readDots_reaches {current : Nat} :
    ∀ {fuel : Nat} {k k' : Cursor} {n : Nat},
      readDots current fuel k = some (n, k') → k.Reaches k' := by
  intro fuel
  induction fuel with
  | zero => intro k k' n h; cases h; exact .refl k
  | succ fuel ih =>
    intro k k' n h
    rw [readDots] at h
    split at h
    · next k₁ hdot =>
      simp only [Option.bind_eq_bind, Option.bind_eq_some_iff] at h
      obtain ⟨next, htoken, ⟨m, last⟩, hdots, h⟩ := h
      have hlast : k.Reaches last :=
        (expectChar_reaches hdot).trans <| (token_reaches htoken).trans (ih hdots)
      split at h
      · cases h; exact hlast
      · cases h; exact hlast
    · cases h; exact .refl k

theorem readSource_reaches {current : Nat} {k k' : Cursor} {s : ImportSource}
    (h : readSource current k = some (s, k')) : k.Reaches k' := by
  rw [readSource] at h
  split at h
  · simp only [Option.bind_eq_bind, Option.bind_eq_some_iff] at h
    obtain ⟨⟨dots, next⟩, hdots, h⟩ := h
    have hnext : k.Reaches next := readDots_reaches hdots
    split at h
    · cases h; exact hnext
    · simp only [Option.bind_eq_some_iff] at h
      obtain ⟨⟨path, k₁⟩, hpath, k₂, htoken, h⟩ := h
      cases h
      exact hnext.trans <| (readDotted_reaches hpath).trans (token_reaches htoken)
  · split at h
    · simp only [Option.bind_eq_bind, Option.bind_eq_some_iff] at h
      obtain ⟨next, htoken, h⟩ := h
      cases h
      exact (reaches_advance k 10).trans (token_reaches htoken)
    · simp only [Option.bind_eq_bind, Option.bind_eq_some_iff] at h
      obtain ⟨⟨path, k₁⟩, hpath, k₂, htoken, h⟩ := h
      cases h
      exact (readDotted_reaches hpath).trans (token_reaches htoken)

theorem readListing_reaches {current : Nat} {pos : Position} {source : ImportSource}
    {k k' : Cursor} {s : ImportStatement} (h : readListing current pos source k = some (s, k')) :
    k.Reaches k' := by
  rw [readListing] at h
  split at h
  · next k₁ hstar =>
    split at h
    · cases h
    · cases h; exact expectChar_reaches hstar
  · split at h
    · next k₁ hopen =>
      simp only [Option.bind_eq_bind, Option.bind_eq_some_iff] at h
      obtain ⟨k₂, h₂, ⟨items, comma, k₃⟩, h₃, k₄, h₄, k₅, h₅, h⟩ := h
      cases h
      exact (expectChar_reaches hopen).trans <| (token_reaches h₂).trans <|
        (readItems_reaches h₃).trans <| (token_reaches h₄).trans (expectChar_reaches h₅)
    · simp only [Option.bind_eq_bind, Option.bind_eq_some_iff] at h
      obtain ⟨⟨items, comma, k₁⟩, hitems, h⟩ := h
      cases h
      exact readItems_reaches hitems

theorem readMembers_reaches {current : Nat} {pos : Position} {k k' : Cursor} {s : ImportStatement}
    (h : readMembers current pos k = some (s, k')) : k.Reaches k' := by
  simp only [readMembers, Option.bind_eq_bind, Option.bind_eq_some_iff] at h
  obtain ⟨k₁, h₁, ⟨source, k₂⟩, h₂, k₃, h₃, k₄, h₄, h⟩ := h
  exact (token_reaches h₁).trans <| (readSource_reaches h₂).trans <|
    (expectWord_reaches h₃).trans <| (token_reaches h₄).trans (readListing_reaches h)

/-! ## Simple statements -/

theorem expression_reaches {follow : Recognizer.Follow} {current : Nat} {k k' : Cursor}
    {r : Recognizer.Reading} (h : k.expression follow current = some (r, k')) : k.Reaches k' := by
  unfold expression at h
  split at h
  · cases h; exact reaches_advance k _
  · cases h

/-- Reading expressions for their cursor only. -/
theorem expression_map_reaches {follow : Recognizer.Follow} {current : Nat} {k k' : Cursor}
    (h : (k.expression follow current).map (·.2) = some k') : k.Reaches k' := by
  obtain ⟨⟨r, k₁⟩, hr, rfl⟩ := Option.map_eq_some_iff.mp h
  exact expression_reaches hr

theorem readYield_reaches {current : Nat} {k k' : Cursor} (h : readYield current k = some k') :
    k.Reaches k' := by
  rw [readYield] at h
  split at h
  · cases h; exact .refl k
  · simp only [Option.bind_eq_bind, Option.bind_eq_some_iff] at h
    obtain ⟨k₁, htoken, h⟩ := h
    split at h
    · next k₂ hfrom =>
      exact (token_reaches htoken).trans <| (expectWord_reaches hfrom).trans
        (expression_map_reaches h)
    · exact (token_reaches htoken).trans (expression_map_reaches h)

theorem readHint_reaches {current : Nat} :
    ∀ {fuel : Nat} {k k' : Cursor}, readHint current fuel k = some k' → k.Reaches k' := by
  intro fuel
  induction fuel with
  | zero => intro k k' h; cases h
  | succ fuel ih =>
    intro k k' h
    simp only [readHint, Option.bind_eq_bind, Option.bind_eq_some_iff] at h
    obtain ⟨⟨r, k₁⟩, hr, h⟩ := h
    have hfirst : k.Reaches k₁ := expression_reaches hr
    split at h
    · next at_ hahead =>
      split at h
      · next k₂ hcolon =>
        exact hfirst.trans <| (ahead_reaches hahead).trans <| (expectMark_reaches hcolon).trans
          (ih h)
      · cases h; exact hfirst
    · cases h; exact hfirst

theorem readParts_reaches {current : Nat} :
    ∀ {fuel : Nat} {chain : Bool} {names bound : List String} {k k' : Cursor},
      readParts current fuel chain names k = some (bound, k') → k.Reaches k' := by
  intro fuel
  induction fuel with
  | zero => intro chain names bound k k' h; cases h
  | succ fuel ih =>
    intro chain names bound k k' h
    rw [readParts] at h
    split at h
    · next k₁ hyield =>
      obtain ⟨k₂, hrest, h⟩ := Option.map_eq_some_iff.mp h
      cases h
      exact (expectWord_reaches hyield).trans (readYield_reaches hrest)
    obtain ⟨⟨r, next⟩, hr, h⟩ := Option.bind_eq_some_iff.mp h
    have hfirst : k.Reaches next := expression_reaches hr
    dsimp only at h
    split at h
    · cases h; exact hfirst
    next at_ hahead =>
    have hat : k.Reaches at_ := hfirst.trans (ahead_reaches hahead)
    split at h
    · cases h
    split at h
    · cases h; exact hfirst
    split at h
    · cases h
    split at h
    · -- a further target behind `=`
      obtain ⟨k₁, htoken, h⟩ := Option.bind_eq_some_iff.mp h
      exact hat.trans <| (reaches_advance at_ 1).trans <| (token_reaches htoken).trans (ih h)
    split at h
    · -- a hint, and perhaps a value behind it
      obtain ⟨k₁, hhint, h⟩ := Option.bind_eq_some_iff.mp h
      have hk₁ : k.Reaches k₁ :=
        hat.trans <| (reaches_advance at_ 1).trans (readHint_reaches hhint)
      split at h
      · cases h; exact hk₁
      next at' hahead' =>
      split at h
      · next k₂ hequals =>
        obtain ⟨k₃, htoken, h⟩ := Option.bind_eq_some_iff.mp h
        exact hk₁.trans <| (ahead_reaches hahead').trans <| (expectMark_reaches hequals).trans <|
          (token_reaches htoken).trans (ih h)
      · cases h; exact hk₁
    split at h
    · -- an augmented assignment
      obtain ⟨k₁, htoken, h⟩ := Option.bind_eq_some_iff.mp h
      exact hat.trans <| (reaches_advance at_ _).trans <| (token_reaches htoken).trans (ih h)
    · cases h

theorem readExpressionStatement_reaches {current : Nat} {k k' : Cursor} {s : Statement}
    (h : readExpressionStatement current k = some (s, k')) : k.Reaches k' := by
  simp only [readExpressionStatement, Option.bind_eq_bind, Option.bind_eq_some_iff] at h
  obtain ⟨⟨names, next⟩, hparts, h⟩ := h
  split at h
  · cases h; exact readParts_reaches hparts
  · cases h; exact readParts_reaches hparts

theorem readPrint_reaches {current : Nat} {k k' : Cursor} (h : readPrint current k = some k') :
    k.Reaches k' := by
  simp only [readPrint, Option.bind_eq_bind, Option.bind_eq_some_iff] at h
  obtain ⟨k₁, htoken, ⟨r, k₂⟩, hr, h⟩ := h
  have hmark : k₁.Reaches ((k₁.expectMark ">>").getD k₁) := by
    cases hm : k₁.expectMark ">>" with
    | none => exact .refl k₁
    | some next => exact expectMark_reaches hm
  split at h
  · cases h
    exact (token_reaches htoken).trans <| hmark.trans (expression_reaches hr)
  · cases h

theorem readExecuted_reaches {current : Nat} {k k' : Cursor}
    (h : readExecuted current k = some k') : k.Reaches k' := by
  unfold readExecuted at h
  split at h
  · obtain ⟨n, _, rfl⟩ := Option.map_eq_some_iff.mp h
    exact reaches_advance k _
  · obtain ⟨⟨w, k₁⟩, hword, h⟩ := Option.bind_eq_some_iff.mp h
    dsimp only at h
    split at h
    · cases h
    · cases h; exact takeWord_reaches hword

theorem readScopes_reaches {current : Nat} {k k' : Cursor} (h : readScopes current k = some k') :
    k.Reaches k' := by
  unfold readScopes at h
  split at h
  · next at_ hahead =>
    split at h
    · next k₁ hin =>
      obtain ⟨⟨r, k₂⟩, hr, h⟩ := Option.bind_eq_some_iff.mp h
      dsimp only at h
      split at h
      · cases h
        exact (ahead_reaches hahead).trans <| (expectWord_reaches hin).trans (expression_reaches hr)
      · cases h
    · split at h
      · cases h; exact .refl _
      · cases h
  · cases h; exact .refl _

theorem readExec_reaches {current : Nat} {k k' : Cursor} (h : readExec current k = some k') :
    k.Reaches k' := by
  obtain ⟨k₁, htoken, h⟩ := Option.bind_eq_some_iff.mp h
  obtain ⟨k₂, hexecuted, h⟩ := Option.bind_eq_some_iff.mp h
  exact (token_reaches htoken).trans <| (readExecuted_reaches hexecuted).trans
    (readScopes_reaches h)

theorem readTypeAlias_reaches {current : Nat} {k k' : Cursor}
    (h : readTypeAlias current k = some k') : k.Reaches k' := by
  simp only [readTypeAlias, Option.bind_eq_bind, Option.bind_eq_some_iff] at h
  obtain ⟨⟨r, k₁⟩, h₁, k₂, h₂, k₃, h₃, ⟨r', k₄⟩, h₄, h⟩ := h
  split at h
  · cases h
    exact (expression_reaches h₁).trans <| (token_reaches h₂).trans <|
      (expectMark_reaches h₃).trans (expression_reaches h₄)
  · cases h

theorem readWords_reaches {current : Nat} :
    ∀ {fuel : Nat} {k k' : Cursor}, readWords current fuel k = some k' → k.Reaches k' := by
  intro fuel
  induction fuel with
  | zero => intro k k' h; cases h
  | succ fuel ih =>
    intro k k' h
    simp only [readWords, Option.bind_eq_bind, Option.bind_eq_some_iff] at h
    obtain ⟨k₁, htoken, ⟨w, k₂⟩, hword, h⟩ := h
    have hfirst : k.Reaches k₂ := (token_reaches htoken).trans (takeWord_reaches hword)
    split at h
    · next at_ hahead =>
      split at h
      · next k₃ hcomma =>
        exact hfirst.trans <| (ahead_reaches hahead).trans <| (expectChar_reaches hcomma).trans
          (ih h)
      · cases h; exact hfirst
    · cases h; exact hfirst

theorem readException_reaches {current : Nat} {k next k' : Cursor}
    (h : readException current k next = some k') : k.Reaches k' := by
  unfold readException at h
  split at h
  · cases h; exact .refl _
  · exact expression_map_reaches h

theorem readCause_reaches {current : Nat} {k k' : Cursor} (h : readCause current k = some k') :
    k.Reaches k' := by
  unfold readCause at h
  split at h
  · next at_ hahead =>
    split at h
    · next k₁ hfrom =>
      exact (ahead_reaches hahead).trans <| (expectWord_reaches hfrom).trans
        (expression_map_reaches h)
    · cases h; exact .refl _
  · cases h; exact .refl _

theorem readRaise_reaches {current : Nat} {k k' : Cursor} (h : readRaise current k = some k') :
    k.Reaches k' := by
  unfold readRaise at h
  split at h
  · cases h; exact .refl k
  · obtain ⟨next, -, h⟩ := Option.bind_eq_some_iff.mp h
    obtain ⟨k₁, hexception, h⟩ := Option.bind_eq_some_iff.mp h
    exact (readException_reaches hexception).trans (readCause_reaches h)

theorem readOptionalList_reaches {current : Nat} {k k' : Cursor}
    (h : readOptionalList current k = some k') : k.Reaches k' := by
  unfold readOptionalList at h
  split at h
  · cases h; exact .refl k
  · exact expression_map_reaches h

end ImportContext.Source
