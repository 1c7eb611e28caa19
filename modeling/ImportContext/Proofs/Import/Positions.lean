import ImportContext.Proofs.Import.Grammar
import ImportContext.Proofs.Import.Sequence
import ImportContext.Proofs.Source.Words
import ImportContext.Proofs.Text.ByteOrder
import Mathlib.Data.List.Pairwise
import Mathlib.Data.Prod.Lex

/-!
# Positions of import declarations

Positions are counted in a text with unified line ends but used with the lines of the text as it is
written. They mean the same there: a line end is one character or two, and in either spelling it
ends a line and is followed by column 0.

Results:
* `Text.standsOn_lineChars`: text between two line ends stands at its position in the raw lines.
* `ImportsBetween.declarations_follow`: declarations follow each other as their statements do.
* `extractImports_traceable`: declarations stand in the raw lines, in order, and share a position
  only with declarations of the same statement.
-/

namespace ImportContext

open Source Text

/-! ## Places on raw lines -/

namespace Text

/-- The number of bytes of some characters. -/
def byteLength (cs : List Char) : Nat :=
  (cs.flatMap String.utf8EncodeChar).length

theorem byteLength_cons (c : Char) (cs : List Char) :
    byteLength (c :: cs) = c.utf8Size + byteLength cs := by
  simp [byteLength]

theorem bytes_ofList (cs : List Char) :
    bytes (String.ofList cs) = cs.flatMap String.utf8EncodeChar := by
  rw [bytes_eq, String.toList_ofList]

/-- The text `w` stands at `q` on one of the lines, the first of which goes on at `p`. -/
def StandsOn (lines : List (List Char)) (p q : Position) (w : List Char) : Prop :=
  p.line ≤ q.line ∧ ∃ before after, lines[q.line - p.line]? = some (before ++ w ++ after) ∧
    q.column = (if q.line = p.line then p.column else 0) + byteLength before

section Lines

variable {lines : List (List Char)} {line cs pre w rest : List Char} {c : Char} {p q : Position}

/-- Behind a line end the lines go on with the next one. -/
theorem StandsOn.newline (h : StandsOn lines ⟨p.line + 1, 0⟩ q w) :
    StandsOn (line :: lines) p q w := by
  obtain ⟨hle, before, after, hline, hcolumn⟩ := h
  have hlt : p.line + 1 ≤ q.line := hle
  have hindex : q.line - p.line = q.line - (p.line + 1) + 1 := by omega
  refine ⟨by omega, before, after, ?_, ?_⟩
  · rw [hindex, List.getElem?_cons_succ]
    exact hline
  · rw [if_neg (by omega), hcolumn]
    simp

/-- A character that ends no line moves what stands on its line. -/
theorem StandsOn.char (hc : c ≠ '\n')
    (h : StandsOn (line :: lines) (p.next c) q w) : StandsOn ((c :: line) :: lines) p q w := by
  obtain ⟨hle, before, after, hline, hcolumn⟩ := h
  rw [Position.next, if_neg hc] at hle hline hcolumn
  have hle : p.line ≤ q.line := hle
  by_cases hsame : q.line = p.line
  · have hindex : q.line - p.line = 0 := by omega
    rw [hindex] at hline
    obtain rfl : line = before ++ w ++ after := by simpa using hline
    refine ⟨hle, c :: before, after, ?_, ?_⟩
    · rw [hindex]
      simp
    · rw [if_pos hsame] at hcolumn ⊢
      rw [byteLength_cons, hcolumn, Nat.add_assoc]
  · obtain ⟨n, hindex⟩ : ∃ n, q.line - p.line = n + 1 := ⟨q.line - p.line - 1, by omega⟩
    refine ⟨hle, before, after, ?_, ?_⟩
    · rw [hindex] at hline ⊢
      exact hline
    · rw [if_neg hsame] at hcolumn ⊢
      exact hcolumn

/-- A character other than a line end is the same in the raw text. -/
theorem exists_of_unifyNewlines_cons (hc : c ≠ '\n') (h : unifyNewlines cs = c :: rest) :
    ∃ cs', cs = c :: cs' ∧ c ≠ '\r' ∧ unifyNewlines cs' = rest := by
  unfold unifyNewlines at h
  split at h
  · cases h
  · exact absurd (List.cons.inj h).1.symm hc
  · exact absurd (List.cons.inj h).1.symm hc
  · next c' cs' _ hr =>
    obtain ⟨rfl, rfl⟩ := List.cons.inj h
    exact ⟨cs', rfl, hr, rfl⟩

theorem lineChars_cons (hr : c ≠ '\r') (hn : c ≠ '\n') (cs : List Char) :
    ∃ line lines, lineChars (c :: cs) = (c :: line) :: lines ∧
      (lineChars cs = line :: lines ∨ lineChars cs = [] ∧ line = [] ∧ lines = []) := by
  rw [lineChars]
  · split
    · next hnil => exact ⟨[], [], rfl, .inr ⟨hnil, rfl, rfl⟩⟩
    · next line lines hcs => exact ⟨line, lines, rfl, .inl hcs⟩
  · exact fun _ h => absurd h hr
  · exact hr
  · exact hn

/-- Text before the first line end stands at the head of the first line. -/
theorem lineChars_head (hne : w ≠ []) (hw : '\n' ∉ w) (h : unifyNewlines cs = w ++ rest) :
    ∃ after lines, lineChars cs = (w ++ after) :: lines := by
  induction w generalizing cs with
  | nil => exact absurd rfl hne
  | cons c w ih =>
    obtain ⟨hc, hw⟩ : c ≠ '\n' ∧ '\n' ∉ w := by simpa [eq_comm] using hw
    obtain ⟨cs', rfl, hr, hcs'⟩ := exists_of_unifyNewlines_cons hc h
    obtain ⟨line, lines, hlines, hcases⟩ := lineChars_cons hr hc cs'
    by_cases hnil : w = []
    · exact ⟨line, lines, by rw [hlines, hnil]; rfl⟩
    · obtain ⟨after, lines', hrest⟩ := ih hnil hw hcs'
      rcases hcases with hcons | ⟨hempty, -, -⟩
      · obtain ⟨rfl, rfl⟩ := List.cons.inj (hcons.symm.trans hrest)
        exact ⟨after, lines, hlines⟩
      · rw [hempty] at hrest
        cases hrest

/-- A line end at the head of a text stands before any text without line ends. -/
theorem exists_of_newline_cons {out : List Char} (hne : w ≠ []) (hw : '\n' ∉ w)
    (h : '\n' :: out = pre ++ w ++ rest) :
    ∃ pre', pre = '\n' :: pre' ∧ out = pre' ++ w ++ rest := by
  cases pre with
  | nil =>
    obtain ⟨a, w', rfl⟩ := List.exists_cons_of_ne_nil hne
    have ha : '\n' = a := (List.cons.inj h).1
    exact absurd (ha ▸ List.mem_cons_self) hw
  | cons a pre' =>
    obtain ⟨rfl, hout⟩ := List.cons.inj h
    exact ⟨pre', rfl, hout⟩

/-- Text between two line ends stands on one of the raw lines, where the position counted in the
unified text says. -/
theorem standsOn_lineChars (hne : w ≠ []) (hw : '\n' ∉ w)
    (h : unifyNewlines cs = pre ++ w ++ rest) : StandsOn (lineChars cs) p (p.after pre) w := by
  induction cs using unifyNewlines.induct generalizing p pre with
  | case1 => simp [unifyNewlines, hne] at h
  | case2 cs ih =>
    rw [unifyNewlines] at h
    obtain ⟨pre', rfl, hpre⟩ := exists_of_newline_cons hne hw h
    rw [lineChars]
    exact (ih hpre).newline
  | case3 cs hcs ih =>
    have hunify : unifyNewlines ('\r' :: cs) = '\n' :: unifyNewlines cs := by
      rw [unifyNewlines]
      exact hcs
    rw [hunify] at h
    obtain ⟨pre', rfl, hpre⟩ := exists_of_newline_cons hne hw h
    rw [lineChars]
    · exact (ih hpre).newline
    · exact hcs
  | case4 c cs hcrlf hr ih =>
    have hunify : unifyNewlines (c :: cs) = c :: unifyNewlines cs := by
      rw [unifyNewlines]
      · exact hcrlf
      · exact hr
    by_cases hn : c = '\n'
    · subst hn
      rw [hunify] at h
      obtain ⟨pre', rfl, hpre⟩ := exists_of_newline_cons hne hw h
      rw [lineChars]
      exact (ih hpre).newline
    · cases pre with
      | nil =>
        obtain ⟨after, lines, hlines⟩ := lineChars_head hne hw h
        refine ⟨Nat.le_refl _, [], after, ?_, ?_⟩
        · rw [hlines]
          simp [Position.after]
        · simp [Position.after, byteLength]
      | cons a pre' =>
        rw [hunify] at h
        obtain ⟨rfl, hpre⟩ := List.cons.inj h
        obtain ⟨line, lines, hlines, hcases⟩ := lineChars_cons hr hn cs
        have hstands : StandsOn (lineChars cs) (p.next c) ((p.next c).after pre') w := ih hpre
        rw [hlines]
        rcases hcases with hcons | ⟨hempty, -, -⟩
        · rw [hcons] at hstands
          exact hstands.char hn
        · obtain ⟨-, before, after, hline, -⟩ := hstands
          rw [hempty] at hline
          simp at hline

end Lines

end Text

/-! ## The order of positions -/

namespace Source

/-- Line and column, compared one after the other. -/
def Position.key (p : Position) : ℕ ×ₗ ℕ :=
  toLex (p.line, p.column)

theorem Position.key_lt_next (p : Position) (c : Char) : p.key < (p.next c).key := by
  rw [Position.next]
  split
  · exact Prod.Lex.toLex_lt_toLex.mpr (.inl (Nat.lt_succ_self _))
  · exact Prod.Lex.toLex_lt_toLex.mpr (.inr ⟨rfl, Nat.lt_add_of_pos_right c.utf8Size_pos⟩)

theorem Position.key_le_after (p : Position) (cs : List Char) : p.key ≤ (p.after cs).key := by
  induction cs generalizing p with
  | nil => exact le_refl _
  | cons c cs ih => exact (p.key_lt_next c).le.trans (ih (p.next c))

theorem Position.key_lt_after (p : Position) {cs : List Char} (hne : cs ≠ []) :
    p.key < (p.after cs).key := by
  obtain ⟨c, cs, rfl⟩ := List.exists_cons_of_ne_nil hne
  exact (p.key_lt_next c).trans_le ((p.next c).key_le_after cs)

theorem Cursor.Reaches.key_le {k k' : Cursor} (h : k.Reaches k') : k.pos.key ≤ k'.pos.key := by
  obtain ⟨n, rfl⟩ := h
  exact k.pos.key_le_after _

theorem Cursor.key_lt_advance {k : Cursor} {w : String} (h : word? k.rest = some w) {n : Nat}
    (hn : 0 < n) : k.pos.key < (k.advance n).pos.key := by
  have hne : k.rest ≠ [] := by
    intro hnil
    rw [hnil] at h
    cases h
  refine k.pos.key_lt_after ?_
  rw [Ne, List.take_eq_nil_iff, not_or]
  exact ⟨by omega, hne⟩

/-! ## What a statement passes on to its declarations -/

/-- The word that begins a statement. -/
def ImportForm.keyword : ImportForm → String
  | .modules _ => "import"
  | .members _ _ => "from"
  | .wildcard _ => "from"

/-- The module path and the depth of a `from` statement. -/
def ImportForm.origin : ImportForm → Option (String × Nat)
  | .modules _ => none
  | .members source _ => some (dotted source.words.2, source.words.1)
  | .wildcard source => some (dotted source.words.2, source.words.1)

end Source

namespace ImportDeclaration

/-- The word that begins the statement of a declaration. -/
def keyword : ImportDeclaration → String
  | plain _ => "import"
  | member _ => "from"

/-- The module path and the depth of a declaration of a `from` statement. -/
def origin : ImportDeclaration → Option (String × Nat)
  | plain _ => none
  | member d => some (d.modulePath, d.depth)

/-- A declaration of a later statement, or another one of the same statement. -/
def Follows (b a : ImportDeclaration) : Prop :=
  a.pos.key < b.pos.key ∨ a.pos = b.pos ∧ a.origin = b.origin

end ImportDeclaration

theorem Source.ImportStatement.declared {s : ImportStatement} {ds : List ImportDeclaration}
    (h : s.declarations = .ok ds) {d : ImportDeclaration} (hd : d ∈ ds) :
    d.pos = s.pos ∧ d.keyword = s.form.keyword ∧ d.origin = s.form.origin := by
  obtain ⟨pos, form, bareComma⟩ := s
  cases form with
  | modules items =>
    obtain ⟨-, -, rfl⟩ := declarations_modules_eq_ok_iff.mp h
    obtain ⟨i, -, rfl⟩ := List.mem_map.mp hd
    exact ⟨rfl, rfl, rfl⟩
  | members source items =>
    cases bareComma with
    | some comma => cases h
    | none =>
      obtain ⟨-, -, rfl⟩ := declarations_members_eq_ok_iff.mp h
      obtain ⟨i, -, rfl⟩ := List.mem_map.mp hd
      exact ⟨rfl, rfl, rfl⟩
  | wildcard source =>
    cases bareComma with
    | some comma => cases h
    | none =>
      obtain ⟨-, rfl⟩ := declarations_wildcard_eq_ok_iff.mp h
      obtain rfl := List.mem_singleton.mp hd
      exact ⟨rfl, rfl, rfl⟩

theorem declarationsOf_cons_eq_ok_iff {s : ImportStatement} {ss : List ImportStatement}
    {ds : List ImportDeclaration} :
    declarationsOf (s :: ss) = .ok ds ↔
      ∃ group rest, s.declarations = .ok group ∧ declarationsOf ss = .ok rest ∧
        ds = group ++ rest := by
  simp only [declarationsOf, bind_eq_ok_iff, mapM_eq_ok_iff]
  constructor
  · rintro ⟨groups, hgroups, h⟩
    cases groups with
    | nil => cases hgroups
    | cons group groups =>
      obtain ⟨hgroup, hrest⟩ := List.cons.inj hgroups
      cases h
      exact ⟨group, groups.flatten, hgroup, ⟨groups, hrest, rfl⟩, rfl⟩
  · rintro ⟨group, rest, hgroup, ⟨groups, hrest, h⟩, rfl⟩
    cases h
    refine ⟨group :: groups, ?_, rfl⟩
    rw [List.map_cons, List.map_cons, hgroup, hrest]

namespace Source

variable {k k' : Cursor} {s : ImportStatement} {ss : List ImportStatement}

theorem readListing_form {current : Nat} {pos : Position} {source : ImportSource}
    (h : readListing current pos source k = some (s, k')) :
    s.pos = pos ∧ s.form.keyword = "from" := by
  rw [readListing] at h
  split at h
  · split at h
    · cases h
    · cases h
      exact ⟨rfl, rfl⟩
  · split at h
    · simp only [Option.bind_eq_bind, Option.bind_eq_some_iff] at h
      obtain ⟨k₁, -, ⟨items, comma, k₂⟩, -, k₃, -, k₄, -, h⟩ := h
      cases h
      exact ⟨rfl, rfl⟩
    · simp only [Option.bind_eq_bind, Option.bind_eq_some_iff] at h
      obtain ⟨⟨items, comma, k₂⟩, -, h⟩ := h
      cases h
      exact ⟨rfl, rfl⟩

/-- A statement stands where its first word does. -/
theorem ImportStatement.ReadAt.begins (h : s.ReadAt k k') :
    s.pos = k.pos ∧ word? k.rest = some s.form.keyword ∧ k.pos.key < k'.pos.key := by
  obtain ⟨current, ⟨hword, h⟩ | ⟨hword, h⟩⟩ := h
  · have hreach := (readModules_reaches h).key_le
    have hadvance : k.pos.key < (k.advance 6).pos.key := Cursor.key_lt_advance hword (by decide)
    simp only [readModules, Option.bind_eq_bind, Option.bind_eq_some_iff] at h
    obtain ⟨k₁, -, ⟨items, comma, k₂⟩, -, h⟩ := h
    cases h
    exact ⟨rfl, hword, hadvance.trans_le hreach⟩
  · have hreach := (readMembers_reaches h).key_le
    have hadvance : k.pos.key < (k.advance 4).pos.key := Cursor.key_lt_advance hword (by decide)
    simp only [readMembers, Option.bind_eq_bind, Option.bind_eq_some_iff] at h
    obtain ⟨k₁, -, ⟨source, k₂⟩, -, k₃, -, k₄, -, h⟩ := h
    obtain ⟨hpos, hform⟩ := readListing_form h
    exact ⟨hpos, hform ▸ hword, hadvance.trans_le hreach⟩

/-- Declarations stand at the first words of their statements and follow each other as these do. -/
theorem ImportsBetween.declarations_follow (h : ImportsBetween k ss k')
    {ds : List ImportDeclaration} (hds : declarationsOf ss = .ok ds) :
    (∀ d ∈ ds, ∃ start, k.Reaches start ∧ start.pos = d.pos ∧
      word? start.rest = some d.keyword) ∧ ds.Pairwise fun a b => b.Follows a := by
  induction h generalizing ds with
  | nil _ =>
    cases hds
    exact ⟨by simp, List.Pairwise.nil⟩
  | @cons k start stop k' s ss hreach hat hrest ih =>
    obtain ⟨group, rest, hgroup, hothers, rfl⟩ := declarationsOf_cons_eq_ok_iff.mp hds
    obtain ⟨hplaced, hfollow⟩ := ih hothers
    obtain ⟨hpos, hword, hlt⟩ := hat.begins
    refine ⟨?_, List.pairwise_append.mpr ⟨?_, hfollow, ?_⟩⟩
    · intro d hd
      rcases List.mem_append.mp hd with hd | hd
      · obtain ⟨hdpos, hkeyword, -⟩ := ImportStatement.declared hgroup hd
        exact ⟨start, hreach, hpos.symm.trans hdpos.symm, hkeyword ▸ hword⟩
      · obtain ⟨start', hstart', hd⟩ := hplaced d hd
        exact ⟨start', (hreach.trans hat.reaches).trans hstart', hd⟩
    · refine List.pairwise_of_forall_mem_list ?_
      intro a ha b hb
      obtain ⟨hapos, -, haorigin⟩ := ImportStatement.declared hgroup ha
      obtain ⟨hbpos, -, hborigin⟩ := ImportStatement.declared hgroup hb
      exact .inr ⟨hapos.trans hbpos.symm, haorigin.trans hborigin.symm⟩
    · intro a ha b hb
      obtain ⟨hapos, -, -⟩ := ImportStatement.declared hgroup ha
      obtain ⟨start', hstart', hbpos, -⟩ := hplaced b hb
      refine .inl ?_
      rw [hapos, hpos, ← hbpos]
      exact hlt.trans_le hstart'.key_le

end Source

/-! ## Declarations of a text -/

/-- What is read as a word of the unified text stands on a raw line. -/
theorem bytes_prefix_of_word {source w : String} {k : Cursor}
    (hk : (Cursor.ofText (unifyNewlines source.toList)).Reaches k) (hw : word? k.rest = some w) :
    1 ≤ k.pos.line ∧ ∃ line, (splitLines source)[k.pos.line - 1]? = some line ∧
      bytes w <+: (bytes line).drop k.pos.column := by
  obtain ⟨n, rfl⟩ := hk
  obtain ⟨hword, rest, hrest⟩ := exists_of_word? hw
  have htext : unifyNewlines source.toList =
      (unifyNewlines source.toList).take n ++ w.toList ++ rest := by
    rw [List.append_assoc, ← hrest]
    exact (List.take_append_drop n _).symm
  obtain ⟨hle, before, after, hline, hcolumn⟩ :=
    standsOn_lineChars (p := Position.start) hword.toList_ne_nil (hword.not_mem rfl) htext
  refine ⟨hle, String.ofList (before ++ w.toList ++ after), ?_, ?_⟩
  · rw [splitLines, List.getElem?_map]
    exact congrArg (Option.map String.ofList) hline
  · have hzero : (if (Position.start.after ((unifyNewlines source.toList).take n)).line =
        Position.start.line then Position.start.column else 0) = 0 := ite_self 0
    rw [hzero, Nat.zero_add, byteLength] at hcolumn
    have hpos : ((Cursor.ofText (unifyNewlines source.toList)).advance n).pos.column =
        (before.flatMap String.utf8EncodeChar).length := hcolumn
    rw [hpos, bytes_ofList, List.append_assoc, List.flatMap_append, List.drop_left,
      List.flatMap_append, bytes_eq]
    exact List.prefix_append _ _

/-- Declarations stand in the raw lines, come in order, and two of them share a position only as
declarations of the same kind, of the same module at the same depth. -/
theorem extractImports_traceable {source : String} {ds : List ImportDeclaration}
    (h : extractImports source = .ok ds) :
    (∀ d ∈ ds, 1 ≤ d.pos.line ∧ d.pos.line ≤ (splitLines source).length ∧
      ∃ line, (splitLines source)[d.pos.line - 1]? = some line ∧
        bytes d.keyword <+: (bytes line).drop d.pos.column) ∧
    (ds.Pairwise fun a b => a.pos.key ≤ b.pos.key) ∧
    ∀ a ∈ ds, ∀ b ∈ ds, a.pos = b.pos → a.origin = b.origin := by
  obtain ⟨body, hread, hds⟩ := extractImports_eq_ok_iff.mp h
  obtain ⟨k', hbetween⟩ := readSource?_imports hread
  obtain ⟨hplaced, hfollow⟩ := hbetween.declarations_follow hds
  refine ⟨?_, ?_, ?_⟩
  · intro d hd
    obtain ⟨start, hreach, hpos, hword⟩ := hplaced d hd
    obtain ⟨hone, line, hline, hprefix⟩ := bytes_prefix_of_word hreach hword
    rw [hpos] at hone hline hprefix
    have hlt : d.pos.line - 1 < (splitLines source).length :=
      (List.getElem?_eq_some_iff.mp hline).1
    exact ⟨hone, by omega, line, hline, hprefix⟩
  · refine hfollow.imp ?_
    rintro a b (hlt | ⟨hpos, -⟩)
    · exact hlt.le
    · rw [hpos]
  · have hsame : ds.Pairwise fun a b => a.pos = b.pos → a.origin = b.origin := by
      refine hfollow.imp ?_
      rintro a b (hlt | ⟨-, horigin⟩) hpos
      · rw [hpos] at hlt
        exact absurd hlt (lt_irrefl _)
      · exact horigin
    refine fun a ha b hb => hsame.forall_of_forall_of_flip (fun _ _ _ => rfl) (hsame.imp ?_) ha hb
    intro a b hab hpos
    exact (hab hpos.symm).symm

theorem extractImports_traceable_nested :
    let source := "é = 'é'; import a, b\r\ndef f():\r from ..c import (d,\n e)\r if é: import g\n"
    let ds : List ImportDeclaration :=
      [.plain ⟨"a", none, ⟨1, 11⟩⟩, .plain ⟨"b", none, ⟨1, 11⟩⟩,
        .member ⟨"c", "d", none, 2, ⟨3, 1⟩⟩, .member ⟨"c", "e", none, 2, ⟨3, 1⟩⟩,
        .plain ⟨"g", none, ⟨5, 8⟩⟩]
    extractImports source = .ok ds ∧
      (∀ d ∈ ds, 1 ≤ d.pos.line ∧ d.pos.line ≤ (splitLines source).length ∧
        ∃ line, (splitLines source)[d.pos.line - 1]? = some line ∧
          bytes d.keyword <+: (bytes line).drop d.pos.column) ∧
      (ds.Pairwise fun a b => a.pos.key ≤ b.pos.key) ∧
      ∀ a ∈ ds, ∀ b ∈ ds, a.pos = b.pos → a.origin = b.origin := by
  intro source ds
  have hds : extractImports source = .ok ds := eq_ok_of_toOption (by decide +kernel)
  exact ⟨hds, extractImports_traceable hds⟩

end ImportContext
