import ImportContext.Import.Extract
import ImportContext.Proofs.Fallible
import ImportContext.Proofs.Import.Readers
import ImportContext.Proofs.Source.Words
import ImportContext.Proofs.Text.Lines

/-!
# The grammar of import statements

A line of tokens that begins as an import statement has declarations just when it is one by the
grammar: a list of dotted names, or names from somewhere, with or without parentheses. The readers
are more generous than that, and the checks on what they read take back what they give too much.

Results:
* `extractImports_line`: what is extracted from a line of tokens is what its one statement declares.
* `declarations_modules_eq_ok_iff`, `declarations_listing_eq_ok_iff`: which statements pass the
  checks, and what they declare.
* `readModules_iff`, `readMembers_iff`: readers and checks together leave the grammar.
* `extractImports_iff`: a line has declarations if it follows the grammar, and which ones.
-/

namespace ImportContext

open Source ImportToken

/-! ## Lines with one statement -/

namespace Source

open Reader

variable {k k' : Cursor} {w : String} {ts rest : List ImportToken}

theorem openQuote?_import (cs : List Char) : openQuote? ("import".toList ++ cs) = none := by
  simp [openQuote?, isQuoteLetter]

theorem openQuote?_from (cs : List Char) : openQuote? ("from".toList ++ cs) = none := by
  simp [openQuote?, isQuoteLetter]

/-- The words that begin an import statement. -/
def BeginsImport (w : String) : Prop :=
  w = "import" ∨ w = "from"

section Begin

variable {cs : List Char}

theorem isWord_of_beginsImport (hw : BeginsImport w) : IsWord w := by
  rcases hw with rfl | rfl
  · exact isWord_of_all rfl rfl rfl
  · exact isWord_of_all rfl rfl rfl

theorem word_of_beginsImport (hw : BeginsImport w) (hk : k.rest = w.toList ++ cs)
    (hcs : cs.takeWhile isWordPart = []) :
    (if (openQuote? k.rest).isSome then none else word? k.rest) = some w := by
  have hquote : openQuote? k.rest = none := by
    rw [hk]
    rcases hw with rfl | rfl
    · exact openQuote?_import _
    · exact openQuote?_from _
  have hword : word? k.rest = some w := by
    rw [hk, word?_append (isWord_of_beginsImport hw) hcs]
  rw [hquote, hword]
  rfl

/-- The reader of the statement that a word begins. -/
def readImport (w : String) (k : Cursor) : Option (ImportStatement × Cursor) :=
  if w = "import" then readModules 0 k.pos (k.advance 6) else readMembers 0 k.pos (k.advance 4)

theorem readSimple_line (hw : BeginsImport w) (hk : k.rest = w.toList ++ cs)
    (hcs : cs.takeWhile isWordPart = []) :
    readSimple 0 k = (readImport w k).map fun (s, k) => (.importing s, k) := by
  rw [readSimple, word_of_beginsImport hw hk hcs]
  rcases hw with rfl | rfl
  · rfl
  · rfl

/-- A line of one statement ends behind it. -/
theorem readSimples_line {stmt : Statement} (hstmt : readSimple 0 k = some (stmt, k'))
    (hk' : k'.rest = behind rest) (hts : ∀ t ∈ rest, t.IsProper) (fuel : Nat) :
    readSimples 0 (fuel + 1) k = if rest = [] then some ([stmt], k') else none := by
  rw [readSimples, hstmt]
  simp only [Option.bind_eq_bind, Option.bind_some, ahead_behind hk' hts]
  cases rest with
  | nil => rfl
  | cons t rest =>
    have hsemicolon : (k'.advance 1).expectChar ';' = none :=
      expectChar_semicolon (rest_blank hk') hts
    simp [hsemicolon]

theorem atToken_line (hw : BeginsImport w) (hk : k.rest = w.toList ++ cs)
    (hcs : cs.takeWhile isWordPart = []) :
    State.atToken { cursor := k } k = State.simples { cursor := k } k := by
  rw [State.atToken, word_of_beginsImport hw hk hcs]
  rcases hw with rfl | rfl
  · rfl
  · rfl

theorem step_line (hw : BeginsImport w) (hk : k.rest = w.toList ++ cs)
    (hcs : cs.takeWhile isWordPart = []) :
    step { cursor := k } = match State.simples { cursor := k } k with
      | some s => .next s
      | none => .fail := by
  obtain ⟨c, cs', hstart, hsolid⟩ : ∃ c cs', k.rest = c :: cs' ∧ Solid c := by
    rw [hk]
    rcases hw with rfl | rfl
    · exact ⟨'i', _, rfl, solid_of_letter rfl⟩
    · exact ⟨'f', _, rfl, solid_of_letter rfl⟩
  have hahead : ∀ e : Expected, k.ahead e 0 = (none, k) := by
    intro e
    rw [Cursor.ahead, hstart, lead_solid hsolid]
    rfl
  have hne : k.rest.isEmpty = false := by rw [hstart, List.isEmpty_cons]
  rw [step]
  simp only [hahead, hne, atToken_line hw hk hcs]
  rfl

theorem step_end {stmt : Statement} (hk : k.rest = behind []) :
    step (State.add { cursor := k } stmt) = .done [stmt] := by
  have hahead : ∀ e : Expected, e.newline = false → k.ahead e 0 = (none, k.advance 1) := by
    intro e he
    rw [ahead_behind hk (by simp), he]
    rfl
  have hend : (k.advance 1).rest = [] := rest_blank hk
  rw [step]
  simp only [State.add]
  rw [hahead _ rfl]
  simp [hend, State.flush]

theorem size_lt_of_line {stmt : Statement} (hw : BeginsImport w) (hk : k.rest = w.toList ++ cs)
    (hk' : k'.rest = behind []) :
    (State.add { cursor := k' } stmt).size < State.size { cursor := k } := by
  have hlength : 1 < k.rest.length := by
    rw [hk, List.length_append]
    rcases hw with rfl | rfl
    · exact Nat.lt_of_lt_of_le (by decide) (Nat.le_add_right _ _)
    · exact Nat.lt_of_lt_of_le (by decide) (Nat.le_add_right _ _)
  have hend : k'.rest.length = 1 := by
    rw [hk']
    rfl
  simp only [State.size, State.add, List.length_nil]
  omega

/-- A statement that takes all of a line is the whole text. -/
theorem run_of_readImport {s : ImportStatement} (hw : BeginsImport w)
    (hk : k.rest = w.toList ++ cs) (hcs : cs.takeWhile isWordPart = [])
    (h : readImport w k = some (s, k')) (hk' : k'.rest = behind []) :
    run { cursor := k } = some [.importing s] := by
  have hsimple : readSimple 0 k = some (.importing s, k') := by
    rw [readSimple_line hw hk hcs, h, Option.map_some]
  have hline : readSimples 0 (k.rest.length + 1) k = some ([.importing s], k') := by
    rw [readSimples_line hsimple hk' (by simp), if_pos rfl]
  have hnext : run (State.add { cursor := k' } (.importing s)) = some [.importing s] := by
    rw [run, step_end hk']
  rw [run, step_line hw hk hcs, State.simples]
  simp only [hline, Option.bind_eq_bind, Option.bind_some, List.foldl_cons, List.foldl_nil,
    if_pos (size_lt_of_line hw hk hk'), hnext]

end Begin

/-- Behind the statement that a line begins with stand tokens of the line. -/
theorem readImport_rest {s : ImportStatement} (hw : BeginsImport w)
    (hk : k.rest = front (.word w :: ts)) (hts : ∀ t ∈ ts, t.IsProper)
    (h : readImport w k = some (s, k')) :
    ∃ rest, k'.rest = behind rest ∧ ∀ t ∈ rest, t.IsProper := by
  have hbehind := rest_word hk
  rcases hw with rfl | rfl
  · obtain ⟨items, bareComma, rest, -, -, -, hk', rfl⟩ := readModules_sound hbehind hts h
    exact ⟨rest, hk', (List.forall_mem_append.mp (List.forall_mem_append.mp hts).2).2⟩
  · obtain ⟨-, source, dots, path, listing, rest, -, -, -, hk', rfl⟩ :=
      readMembers_sound hbehind hts h
    have hlisting := (List.forall_mem_cons.mp (List.forall_mem_append.mp hts).2).2
    exact ⟨rest, hk', (List.forall_mem_append.mp (List.forall_mem_append.mp hlisting).2).2⟩

/-- A line that begins as an import statement is read if that statement takes all of it. -/
theorem run_line (hw : BeginsImport w) (hk : k.rest = front (.word w :: ts))
    (hts : ∀ t ∈ (.word w :: ts : List ImportToken), t.IsProper) {body : List Statement} :
    run { cursor := k } = some body ↔ ∃ s k', readImport w k = some (s, k') ∧
      k'.rest = behind [] ∧ body = [.importing s] := by
  have hcs : (behind ts).takeWhile isWordPart = [] := not_isWordPart_behind ts
  constructor
  · intro h
    rw [run, step_line hw hk hcs, State.simples] at h
    have hsimple := readSimple_line hw hk hcs
    cases himport : readImport w k with
    | none =>
      rw [himport, Option.map_none] at hsimple
      have hfail : readSimples 0 (k.rest.length + 1) k = none := by
        rw [readSimples, hsimple]
        rfl
      simp [hfail] at h
    | some r =>
      obtain ⟨s, k'⟩ := r
      rw [himport, Option.map_some] at hsimple
      obtain ⟨rest, hk', hproper⟩ := readImport_rest hw hk (List.forall_mem_cons.mp hts).2 himport
      have hline := readSimples_line hsimple hk' hproper k.rest.length
      -- a second statement would have to stand behind a semicolon, which is no token
      by_cases hnil : rest = []
      · subst hnil
        have hbody := run_of_readImport hw hk hcs himport hk'
        rw [run, step_line hw hk hcs, State.simples, h, Option.some.injEq] at hbody
        exact ⟨s, k', rfl, hk', hbody⟩
      · rw [if_neg hnil] at hline
        simp [hline] at h
  · rintro ⟨s, k', h, hk', rfl⟩
    exact run_of_readImport hw hk hcs h hk'

theorem readSource?_line (hw : BeginsImport w)
    (hts : ∀ t ∈ (.word w :: ts : List ImportToken), t.IsProper) {body : List Statement} :
    readSource? (line (.word w :: ts)) = some body ↔
      ∃ s k', readImport w (Cursor.ofText (front (.word w :: ts))) = some (s, k') ∧
        k'.rest = behind [] ∧ body = [.importing s] := by
  have htext : (line (.word w :: ts)).toList = front (.word w :: ts) := toList_line _ _
  rw [readSource?, htext, Text.unifyNewlines_of_not_mem (return_not_mem_front hts)]
  exact run_line hw rfl hts

end Source

theorem declarationsOf_importing (s : ImportStatement) :
    declarationsOf (importsIn true [.importing s]) = s.declarations := by
  have hone : importsIn true [.importing s] = [s] := rfl
  rw [declarationsOf, hone, List.mapM_cons, List.mapM_nil]
  cases s.declarations with
  | error e => rfl
  | ok ds =>
    change Except.ok [ds].flatten = Except.ok ds
    rw [List.flatten_singleton]

theorem extractImports_eq_ok_iff {source : String} {ds : List ImportDeclaration} :
    extractImports source = .ok ds ↔
      ∃ body, readSource? source = some body ∧ declarationsOf (importsIn true body) = .ok ds := by
  rw [extractImports, parseSource]
  cases readSource? source with
  | none => simp [bind, Except.bind]
  | some body => simp [bind, Except.bind]

/-- What is extracted from a line is what its one statement declares. -/
theorem extractImports_line {w : String} {ts : List ImportToken} (hw : BeginsImport w)
    (hts : ∀ t ∈ (.word w :: ts : List ImportToken), t.IsProper) {ds : List ImportDeclaration} :
    extractImports (line (.word w :: ts)) = .ok ds ↔
      ∃ s k', readImport w (Cursor.ofText (front (.word w :: ts))) = some (s, k') ∧
        k'.rest = behind [] ∧ s.declarations = .ok ds := by
  rw [extractImports_eq_ok_iff]
  constructor
  · rintro ⟨body, hbody, hds⟩
    obtain ⟨s, k', hread, hk', rfl⟩ := (readSource?_line hw hts).mp hbody
    exact ⟨s, k', hread, hk', (declarationsOf_importing s).symm.trans hds⟩
  · rintro ⟨s, k', hread, hk', hds⟩
    exact ⟨[.importing s], (readSource?_line hw hts).mpr ⟨s, k', hread, hk', rfl⟩,
      (declarationsOf_importing s).trans hds⟩

/-! ## Checks -/

section Checks

variable {parts : List String} {pos : Position}

theorem checkNames_eq_ok_iff : checkNames parts pos = .ok () ↔ ∀ w ∈ parts, w ∉ keywords := by
  rw [checkNames]
  split
  · next w h =>
    have hkeyword : w ∈ keywords := by simpa [isKeyword] using List.find?_some h
    constructor
    · intro hok
      cases hok
    · intro hall
      exact absurd hkeyword (hall w (List.mem_of_find?_eq_some h))
  · next h => simpa [isKeyword] using h

theorem checkNames_bind_eq_ok_iff {α : Type} {f : Unit → Except SyntaxError α} {a : α} :
    checkNames parts pos >>= f = .ok a ↔ (∀ w ∈ parts, w ∉ keywords) ∧ f () = .ok a := by
  rw [bind_eq_ok_iff]
  constructor
  · rintro ⟨⟨⟩, hnames, h⟩
    exact ⟨checkNames_eq_ok_iff.mp hnames, h⟩
  · rintro ⟨hnames, h⟩
    exact ⟨(), checkNames_eq_ok_iff.mpr hnames, h⟩

theorem checkAlias_eq_ok_iff {a : Option (String × Position)} {asName : Option String} :
    checkAlias a = .ok asName ↔ (∀ w ∈ a.map (·.1), w ∉ keywords) ∧ asName = a.map (·.1) := by
  cases a with
  | none => simp [checkAlias, eq_comm]
  | some a =>
    rw [checkAlias, checkNames_bind_eq_ok_iff]
    simp [eq_comm]

theorem checkSource_eq_ok_iff {source : ImportSource} {r : String × Nat} :
    checkSource source = .ok r ↔
      (∀ w ∈ source.words.2, w ∉ keywords) ∧ r = (dotted source.words.2, source.words.1) := by
  cases source with
  | future =>
    have hfuture : ∀ w ∈ ImportSource.future.words.2, w ∉ keywords := by decide
    rw [and_iff_right hfuture]
    constructor
    · intro h
      exact (Except.ok.inj h).symm
    · rintro rfl
      rfl
  | absolute path =>
    rw [checkSource, checkNames_bind_eq_ok_iff]
    simp [ImportSource.words, eq_comm]
  | relative dots parts pos =>
    rw [checkSource, checkNames_bind_eq_ok_iff]
    simp [ImportSource.words, eq_comm]

theorem checkSource_bind_eq_ok_iff {α : Type} {source : ImportSource}
    {f : String × Nat → Except SyntaxError α} {a : α} :
    checkSource source >>= f = .ok a ↔
      (∀ w ∈ source.words.2, w ∉ keywords) ∧
        f (dotted source.words.2, source.words.1) = .ok a := by
  rw [bind_eq_ok_iff]
  constructor
  · rintro ⟨r, hsource, h⟩
    obtain ⟨hnames, rfl⟩ := checkSource_eq_ok_iff.mp hsource
    exact ⟨hnames, h⟩
  · rintro ⟨hnames, h⟩
    exact ⟨_, checkSource_eq_ok_iff.mpr ⟨hnames, rfl⟩, h⟩

end Checks

namespace Source

/-- No word of an item is a keyword. -/
def ItemWords.NoKeyword (i : ItemWords) : Prop :=
  (∀ w ∈ i.parts, w ∉ keywords) ∧ ∀ w ∈ i.asName, w ∉ keywords

instance (i : ItemWords) : Decidable i.NoKeyword :=
  inferInstanceAs (Decidable ((∀ w ∈ i.parts, w ∉ keywords) ∧ ∀ w ∈ i.asName, w ∉ keywords))

/-- A dotted name, with an alias or without. -/
def ItemWords.IsModule (i : ItemWords) : Prop :=
  i.parts ≠ [] ∧ i.NoKeyword

instance (i : ItemWords) : Decidable i.IsModule :=
  inferInstanceAs (Decidable (i.parts ≠ [] ∧ i.NoKeyword))

/-- A name without dots, with an alias or without. -/
def ItemWords.IsMember (i : ItemWords) : Prop :=
  i.parts.length = 1 ∧ i.NoKeyword

instance (i : ItemWords) : Decidable i.IsMember :=
  inferInstanceAs (Decidable (i.parts.length = 1 ∧ i.NoKeyword))

/-- The declaration of an item of an `import` statement. -/
def ItemWords.moduleDeclaration (pos : Position) (i : ItemWords) : ImportDeclaration :=
  .plain ⟨dotted i.parts, i.asName, pos⟩

/-- The declaration of an item of a `from` statement. -/
def ItemWords.memberDeclaration (pos : Position) (modulePath : String) (depth : Nat)
    (i : ItemWords) : ImportDeclaration :=
  .member ⟨modulePath, dotted i.parts, i.asName, depth, pos⟩

end Source

theorem moduleDeclaration_eq_ok_iff {pos : Position} {item : ImportItem} {d : ImportDeclaration} :
    moduleDeclaration pos item = .ok d ↔
      item.words.NoKeyword ∧ d = item.words.moduleDeclaration pos := by
  rw [moduleDeclaration, bind_eq_ok_iff]
  constructor
  · rintro ⟨asName, hasName, h⟩
    obtain ⟨halias, rfl⟩ := checkAlias_eq_ok_iff.mp hasName
    obtain ⟨hparts, h⟩ := checkNames_bind_eq_ok_iff.mp h
    exact ⟨⟨hparts, halias⟩, (Except.ok.inj h).symm⟩
  · rintro ⟨⟨hparts, halias⟩, rfl⟩
    exact ⟨_, checkAlias_eq_ok_iff.mpr ⟨halias, rfl⟩, checkNames_bind_eq_ok_iff.mpr ⟨hparts, rfl⟩⟩

/-- A member has a name without dots. -/
theorem memberDeclaration_eq_ok_iff {pos : Position} {modulePath : String} {depth : Nat}
    {item : ImportItem} {d : ImportDeclaration} :
    memberDeclaration pos modulePath depth item = .ok d ↔
      item.words.IsMember ∧ d = item.words.memberDeclaration pos modulePath depth := by
  obtain ⟨⟨parts, path⟩, a⟩ := item
  rw [memberDeclaration, bind_eq_ok_iff]
  constructor
  · rintro ⟨asName, hasName, h⟩
    obtain ⟨halias, rfl⟩ := checkAlias_eq_ok_iff.mp hasName
    obtain ⟨hparts, h⟩ := checkNames_bind_eq_ok_iff.mp h
    split at h
    · next symbol hsymbol =>
      obtain rfl : parts = [symbol] := hsymbol
      exact ⟨⟨rfl, hparts, halias⟩, (Except.ok.inj h).symm⟩
    · cases h
  · rintro ⟨⟨hone, hparts, halias⟩, rfl⟩
    obtain ⟨symbol, rfl⟩ : ∃ symbol, parts = [symbol] := List.length_eq_one_iff.mp hone
    exact ⟨_, checkAlias_eq_ok_iff.mpr ⟨halias, rfl⟩, checkNames_bind_eq_ok_iff.mpr ⟨hparts, rfl⟩⟩

/-! ## The grammar -/

namespace Source

namespace Listing

def Valid : Listing → Prop
  | all => True
  | bare items => items ≠ [] ∧ ∀ i ∈ items, i.IsMember
  | enclosed items _ => items ≠ [] ∧ ∀ i ∈ items, i.IsMember

instance : DecidablePred Valid
  | all => inferInstanceAs (Decidable True)
  | bare items => inferInstanceAs (Decidable (items ≠ [] ∧ ∀ i ∈ items, i.IsMember))
  | enclosed items _ => inferInstanceAs (Decidable (items ≠ [] ∧ ∀ i ∈ items, i.IsMember))

/-- The declarations of a listing, one per item. -/
def declarations (pos : Position) (modulePath : String) (depth : Nat) :
    Listing → List ImportDeclaration
  | all => [.member ⟨modulePath, "*", none, depth, pos⟩]
  | bare items => items.map (·.memberDeclaration pos modulePath depth)
  | enclosed items _ => items.map (·.memberDeclaration pos modulePath depth)

end Listing

/-- The import statements of the grammar. -/
inductive ImportPhrase where
  | modules (items : List ItemWords)
  /-- Names from the module at a path behind leading dots. -/
  | members (dots : Nat) (path : List String) (listing : Listing)
deriving DecidableEq, Repr

namespace ImportPhrase

def Valid : ImportPhrase → Prop
  | modules items => items ≠ [] ∧ ∀ i ∈ items, i.IsModule
  | members dots path listing =>
    (0 < dots ∨ path ≠ []) ∧ (∀ w ∈ path, w ∉ keywords) ∧ listing.Valid

instance : DecidablePred Valid
  | modules items => inferInstanceAs (Decidable (items ≠ [] ∧ ∀ i ∈ items, i.IsModule))
  | members dots path listing =>
    inferInstanceAs
      (Decidable ((0 < dots ∨ path ≠ []) ∧ (∀ w ∈ path, w ∉ keywords) ∧ listing.Valid))

def tokens : ImportPhrase → List ImportToken
  | modules items => .word "import" :: listTokens items
  | members dots path listing =>
    .word "from" :: (originTokens dots path ++ .word "import" :: listing.tokens)

/-- The declarations of a statement at the beginning of a text, one per item. -/
def declarations : ImportPhrase → List ImportDeclaration
  | modules items => items.map (·.moduleDeclaration ⟨1, 0⟩)
  | members dots path listing => listing.declarations ⟨1, 0⟩ (dotted path) dots

end ImportPhrase

end Source

/-! ## Statements of the grammar and their declarations -/

section Statements

variable {pos : Position} {bareComma : Option Position} {ds : List ImportDeclaration}

theorem declarations_modules_eq_ok_iff {items : List ImportItem} :
    ImportStatement.declarations ⟨pos, .modules items, bareComma⟩ = .ok ds ↔
      bareComma = none ∧ (∀ i ∈ items.map ImportItem.words, i.NoKeyword) ∧
        ds = (items.map ImportItem.words).map (·.moduleDeclaration pos) := by
  cases bareComma with
  | some comma => simp [ImportStatement.declarations]
  | none =>
    rw [ImportStatement.declarations, mapM_eq_ok_iff_of fun _ _ => moduleDeclaration_eq_ok_iff,
      and_iff_right rfl, List.forall_mem_map, List.map_map]
    rfl

theorem declarations_members_eq_ok_iff {source : ImportSource} {items : List ImportItem} :
    ImportStatement.declarations ⟨pos, .members source items, none⟩ = .ok ds ↔
      (∀ w ∈ source.words.2, w ∉ keywords) ∧ (∀ i ∈ items.map ImportItem.words, i.IsMember) ∧
        ds = (items.map ImportItem.words).map
          (·.memberDeclaration pos (dotted source.words.2) source.words.1) := by
  rw [ImportStatement.declarations, checkSource_bind_eq_ok_iff,
    mapM_eq_ok_iff_of fun _ _ => memberDeclaration_eq_ok_iff, List.forall_mem_map, List.map_map]
  rfl

theorem declarations_wildcard_eq_ok_iff {source : ImportSource} :
    ImportStatement.declarations ⟨pos, .wildcard source, none⟩ = .ok ds ↔
      (∀ w ∈ source.words.2, w ∉ keywords) ∧
        ds = Listing.all.declarations pos (dotted source.words.2) source.words.1 := by
  rw [ImportStatement.declarations, checkSource_bind_eq_ok_iff, Except.ok.injEq, eq_comm]
  rfl

/-- The checks of a `from` statement are those of its origin and of its items. -/
theorem declarations_listing_eq_ok_iff {source : ImportSource} {listing : Listing}
    {form : ImportForm} (hform : listing.Form source form) :
    ImportStatement.declarations ⟨pos, form, bareComma⟩ = .ok ds ↔
      bareComma = none ∧ (∀ w ∈ source.words.2, w ∉ keywords) ∧ listing.Valid ∧
        ds = listing.declarations pos (dotted source.words.2) source.words.1 := by
  cases bareComma with
  | some comma => simp [ImportStatement.declarations]
  | none =>
    rw [and_iff_right rfl]
    cases listing with
    | all =>
      obtain rfl : form = .wildcard source := hform
      rw [declarations_wildcard_eq_ok_iff, Listing.Valid, true_and]
    | bare is =>
      obtain ⟨hne, items, rfl, rfl⟩ := hform
      rw [declarations_members_eq_ok_iff, Listing.Valid, and_iff_right hne]
      rfl
    | enclosed is comma =>
      obtain ⟨hne, items, rfl, rfl⟩ := hform
      rw [declarations_members_eq_ok_iff, Listing.Valid, and_iff_right hne]
      rfl

end Statements

/-! ## Lines of the grammar -/

section Lines

variable {k : Cursor} {pos : Position} {ts : List ImportToken} {ds : List ImportDeclaration}

theorem Source.Listing.Valid.filled {listing : Listing} (h : listing.Valid) : listing.Filled := by
  have hparts : ∀ {i : ItemWords}, i.IsMember → i.parts ≠ [] := by
    intro i hi
    exact List.ne_nil_of_length_pos (hi.1 ▸ Nat.one_pos)
  cases listing with
  | all => trivial
  | bare is => exact ⟨h.1, fun i hi => hparts (h.2 i hi)⟩
  | enclosed is comma => exact ⟨h.1, fun i hi => hparts (h.2 i hi)⟩

/-- The lists of modules that are read to the end of the line and pass the checks. -/
theorem readModules_iff (hk : k.rest = behind ts) (hts : ∀ t ∈ ts, t.IsProper) :
    (∃ s k', readModules 0 pos k = some (s, k') ∧ k'.rest = behind [] ∧
        s.declarations = .ok ds) ↔
      ∃ is : List ItemWords, is ≠ [] ∧ (∀ i ∈ is, i.IsModule) ∧ listTokens is = ts ∧
        is.map (·.moduleDeclaration pos) = ds := by
  constructor
  · rintro ⟨s, k', hread, hend, hds⟩
    obtain ⟨items, bareComma, rest, rfl, hne, hparts, hk', rfl⟩ := readModules_sound hk hts hread
    obtain ⟨rfl, hnames, rfl⟩ := declarations_modules_eq_ok_iff.mp hds
    obtain rfl : rest = [] := behind_eq_behind_nil.mp (hk'.symm.trans hend)
    refine ⟨items.map ImportItem.words, by simpa using hne, ?_, by simp [commaTokens], rfl⟩
    intro i hi
    obtain ⟨item, hitem, rfl⟩ := List.mem_map.mp hi
    exact ⟨hparts item hitem, hnames _ hi⟩
  · rintro ⟨is, hne, his, rfl, rfl⟩
    obtain ⟨items, k', hread, rfl, hk'⟩ :=
      readModules_complete pos hne (fun i hi => (his i hi).1) hk hts
    refine ⟨_, k', hread, hk', declarations_modules_eq_ok_iff.mpr ⟨rfl, ?_, rfl⟩⟩
    exact fun i hi => (his i hi).2

/-- The `from` statements that are read to the end of the line and pass the checks. -/
theorem readMembers_iff (hk : k.rest = behind ts) (hts : ∀ t ∈ ts, t.IsProper) :
    (∃ s k', readMembers 0 pos k = some (s, k') ∧ k'.rest = behind [] ∧
        s.declarations = .ok ds) ↔
      ∃ (dots : Nat) (path : List String) (listing : Listing), (0 < dots ∨ path ≠ []) ∧
        (∀ w ∈ path, w ∉ keywords) ∧ listing.Valid ∧
        originTokens dots path ++ .word "import" :: listing.tokens = ts ∧
        listing.declarations pos (dotted path) dots = ds := by
  constructor
  · rintro ⟨⟨_, form, bareComma⟩, k', hread, hend, hds⟩
    obtain ⟨rfl, source, dots, path, listing, rest, hwords, hsome, hform, hk', rfl⟩ :=
      readMembers_sound hk hts hread
    obtain ⟨rfl, hnames, hvalid, rfl⟩ := (declarations_listing_eq_ok_iff hform).mp hds
    obtain rfl : rest = [] := behind_eq_behind_nil.mp (hk'.symm.trans hend)
    rw [hwords] at hnames ⊢
    exact ⟨dots, path, listing, hsome, hnames, hvalid, by simp [commaTokens], rfl⟩
  · rintro ⟨dots, path, listing, hsome, hnames, hvalid, rfl, rfl⟩
    -- a path that begins with `import` would be taken for the end of the dots
    have himport : path.head? ≠ some "import" := by
      intro h
      exact hnames "import" (List.mem_of_mem_head? h) (by decide)
    obtain ⟨source, form, k', hread, hwords, hform, hk'⟩ :=
      readMembers_complete pos hsome himport hvalid.filled hk hts
    refine ⟨_, k', hread, hk', (declarations_listing_eq_ok_iff hform).mpr ?_⟩
    rw [hwords]
    exact ⟨rfl, hnames, hvalid, rfl⟩

end Lines

/-- A line of tokens that begins as an import statement has declarations just when it is a
statement of the grammar, and then those of the statement. -/
theorem extractImports_iff {ts : List ImportToken} (hproper : ∀ t ∈ ts, t.IsProper)
    (hstart : ts.head? = some (.word "import") ∨ ts.head? = some (.word "from"))
    {ds : List ImportDeclaration} :
    extractImports (line ts) = .ok ds ↔
      ∃ phrase : ImportPhrase, phrase.Valid ∧ phrase.tokens = ts ∧ phrase.declarations = ds := by
  rcases hstart with hstart | hstart
  · obtain ⟨ts, rfl⟩ := List.head?_eq_some_iff.mp hstart
    have hts := (List.forall_mem_cons.mp hproper).2
    have hk : ((Cursor.ofText (front (.word "import" :: ts))).advance 6).rest = behind ts :=
      rest_word (w := "import") rfl
    rw [extractImports_line (.inl rfl) hproper]
    refine (readModules_iff hk hts).trans ⟨?_, ?_⟩
    · rintro ⟨is, hne, his, rfl, rfl⟩
      exact ⟨.modules is, ⟨hne, his⟩, rfl, rfl⟩
    · rintro ⟨phrase, hvalid, htokens, rfl⟩
      cases phrase with
      | modules is => exact ⟨is, hvalid.1, hvalid.2, (List.cons.inj htokens).2, rfl⟩
      | members dots path listing => exact absurd (List.cons.inj htokens).1 (by decide)
  · obtain ⟨ts, rfl⟩ := List.head?_eq_some_iff.mp hstart
    have hts := (List.forall_mem_cons.mp hproper).2
    have hk : ((Cursor.ofText (front (.word "from" :: ts))).advance 4).rest = behind ts :=
      rest_word (w := "from") rfl
    rw [extractImports_line (.inr rfl) hproper]
    refine (readMembers_iff hk hts).trans ⟨?_, ?_⟩
    · rintro ⟨dots, path, listing, hsome, hnames, hvalid, rfl, rfl⟩
      exact ⟨.members dots path listing, ⟨hsome, hnames, hvalid⟩, rfl, rfl⟩
    · rintro ⟨phrase, hvalid, htokens, rfl⟩
      cases phrase with
      | modules is => exact absurd (List.cons.inj htokens).1 (by decide)
      | members dots path listing =>
        obtain ⟨hsome, hnames, hvalid⟩ := hvalid
        exact ⟨dots, path, listing, hsome, hnames, hvalid, (List.cons.inj htokens).2, rfl⟩

theorem extractImports_iff_enclosed :
    let ts : List ImportToken := [.word "from", .mark .dot, .mark .dot, .word "a", .word "import",
      .mark .opening, .word "b", .word "as", .word "c", .mark .comma, .word "d", .mark .comma,
      .mark .closing]
    (∀ t ∈ ts, t.IsProper) ∧ line ts = "from . . a import ( b as c , d , )\n" ∧
      extractImports (line ts) =
        .ok [.member ⟨"a", "b", some "c", 2, ⟨1, 0⟩⟩, .member ⟨"a", "d", none, 2, ⟨1, 0⟩⟩] :=
  ⟨by decide, by decide, (extractImports_iff (by decide) (by decide)).mpr
    ⟨.members 2 ["a"] (.enclosed [⟨["b"], some "c"⟩, ⟨["d"], none⟩] true), by decide, rfl, rfl⟩⟩

end ImportContext
