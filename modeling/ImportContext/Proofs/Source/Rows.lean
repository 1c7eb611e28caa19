import ImportContext.Bundle.Build
import ImportContext.Proofs.Fallible
import ImportContext.Proofs.Source.Cursor
import ImportContext.Proofs.Text.Lines

/-!
# Rows of a source text

A source text is parsed with unified line ends and quoted by its raw lines. There is one way to
divide a text into lines, and unifying the ends of the lines gives the rows of the unified text. A
place in it is therefore in the raw line of the same number, as many bytes from its beginning.

Results:
* `eq_lineChars_iff`: the lines of a text are its only division.
* `unifyNewlines_eq`: unifying line ends in one pass is replacing them in two.
* `Divided.rows_unifyNewlines`: lines with unified ends are the rows of the unified text.
* `Divided.standsIn`: a position in the unified text is one in the raw line of its number.
* `splitLines_aligned`: lines and rows of a text, and the text of a source file.
-/

namespace ImportContext

namespace Text

open Source (Position)

/-! ## Divisions into lines -/

/-- What ends a line. -/
def IsTerminator (t : List Char) : Prop :=
  t = ['\n'] ∨ t = ['\r', '\n'] ∨ t = ['\r']

/-- No character ends a line. -/
def IsUnbroken (cs : List Char) : Prop :=
  ∀ c ∈ cs, c ≠ '\r' ∧ c ≠ '\n'

/-- Lines into which a text is divided. Each ends in one terminator, the last perhaps in none, and
there is no terminator elsewhere. A return and the newline behind it are one terminator. -/
inductive Divided : List (List Char) → Prop
  | nil : Divided []
  | last {body : List Char} : IsUnbroken body → body ≠ [] → Divided [body]
  | ended {body term : List Char} {rest : List (List Char)} : IsUnbroken body →
      IsTerminator term → (term = ['\r'] → rest.flatten.head? ≠ some '\n') → Divided rest →
      Divided ((body ++ term) :: rest)

variable {body term cs rest : List Char} {lines : List (List Char)} {c : Char}

theorem isUnbroken_cons : IsUnbroken (c :: cs) ↔ (c ≠ '\r' ∧ c ≠ '\n') ∧ IsUnbroken cs :=
  List.forall_mem_cons

theorem isUnbroken_append : IsUnbroken (cs ++ rest) ↔ IsUnbroken cs ∧ IsUnbroken rest :=
  List.forall_mem_append

theorem IsUnbroken.newline_not_mem (h : IsUnbroken cs) : '\n' ∉ cs :=
  fun hmem => (h '\n' hmem).2 rfl

/-- A character that ends no line joins the line behind it. -/
theorem Divided.exists_cons (hr : c ≠ '\r') (hn : c ≠ '\n') (h : Divided lines) :
    ∃ lines', Divided lines' ∧ lines'.flatten = c :: lines.flatten := by
  cases h with
  | nil =>
    refine ⟨[[c]], .last ?_ (by simp), rfl⟩
    exact isUnbroken_cons.mpr ⟨⟨hr, hn⟩, by simp [IsUnbroken]⟩
  | @last body hbody hne =>
    refine ⟨[c :: body], .last ?_ (by simp), rfl⟩
    exact isUnbroken_cons.mpr ⟨⟨hr, hn⟩, hbody⟩
  | @ended body term rest hbody hterm hreturn hrest =>
    exact ⟨((c :: body) ++ term) :: rest,
      .ended (isUnbroken_cons.mpr ⟨⟨hr, hn⟩, hbody⟩) hterm hreturn hrest, rfl⟩

/-- A text can be divided into lines. -/
theorem exists_divided (cs : List Char) : ∃ lines, Divided lines ∧ lines.flatten = cs := by
  have hnone : IsUnbroken [] := by simp [IsUnbroken]
  induction cs using unifyNewlines.induct with
  | case1 => exact ⟨[], .nil, rfl⟩
  | case2 rest ih =>
    obtain ⟨lines, hlines, rfl⟩ := ih
    exact ⟨_, .ended hnone (.inr (.inl rfl)) (by simp) hlines, rfl⟩
  | case3 rest hrest ih =>
    obtain ⟨lines, hlines, rfl⟩ := ih
    have hhead : lines.flatten.head? ≠ some '\n' := by
      intro h
      obtain ⟨tail, htail⟩ := List.head?_eq_some_iff.mp h
      exact hrest tail htail
    exact ⟨_, .ended hnone (.inr (.inr rfl)) (fun _ => hhead) hlines, rfl⟩
  | case4 c rest _ hr ih =>
    obtain ⟨lines, hlines, rfl⟩ := ih
    by_cases hn : c = '\n'
    · subst hn
      exact ⟨_, .ended hnone (.inl rfl) (by simp) hlines, rfl⟩
    · exact hlines.exists_cons hr hn

theorem lineChars_cons_of_eq (hr : c ≠ '\r') (hn : c ≠ '\n') {line : List Char}
    (h : lineChars cs = line :: lines) : lineChars (c :: cs) = (c :: line) :: lines := by
  rw [lineChars, h]
  · exact fun _ h => absurd h hr
  · exact hr
  · exact hn

/-- A line that ends is followed by the lines of the rest. -/
theorem lineChars_ended (hbody : IsUnbroken body) (hterm : IsTerminator term)
    (hreturn : term = ['\r'] → rest.head? ≠ some '\n') :
    lineChars (body ++ term ++ rest) = (body ++ term) :: lineChars rest := by
  induction body with
  | nil =>
    rcases hterm with rfl | rfl | rfl
    · rw [List.nil_append, List.singleton_append, lineChars]
    · exact lineChars.eq_2 rest
    · refine lineChars.eq_3 rest ?_
      rintro tail rfl
      exact hreturn rfl rfl
  | cons c body ih =>
    obtain ⟨⟨hr, hn⟩, hbody⟩ := isUnbroken_cons.mp hbody
    exact lineChars_cons_of_eq hr hn (ih hbody)

/-- A text in which nothing ends a line is one line. -/
theorem lineChars_unbroken (hbody : IsUnbroken body) (hne : body ≠ []) :
    lineChars body = [body] := by
  induction body with
  | nil => exact absurd rfl hne
  | cons c body ih =>
    obtain ⟨⟨hr, hn⟩, hbody⟩ := isUnbroken_cons.mp hbody
    by_cases hnil : body = []
    · subst hnil
      rw [lineChars]
      · rfl
      · exact fun _ h => absurd h hr
      · exact hr
      · exact hn
    · exact lineChars_cons_of_eq hr hn (ih hbody hnil)

theorem Divided.lineChars_flatten (h : Divided lines) : lineChars lines.flatten = lines := by
  induction h with
  | nil => rfl
  | last hbody hne => simpa using lineChars_unbroken hbody hne
  | ended hbody hterm hreturn _ ih =>
    rw [List.flatten_cons, lineChars_ended hbody hterm hreturn, ih]

/-- The lines of a text are its only division. -/
theorem eq_lineChars_iff : lines = lineChars cs ↔ lines.flatten = cs ∧ Divided lines := by
  constructor
  · rintro rfl
    obtain ⟨lines, hlines, rfl⟩ := exists_divided cs
    rw [hlines.lineChars_flatten]
    exact ⟨rfl, hlines⟩
  · rintro ⟨rfl, hlines⟩
    exact hlines.lineChars_flatten.symm

/-! ## Unified line ends -/

/-- Every return with a newline behind it replaced by a newline. -/
def replacePairs : List Char → List Char
  | [] => []
  | '\r' :: '\n' :: rest => '\n' :: replacePairs rest
  | c :: rest => c :: replacePairs rest

/-- Every return replaced by a newline. -/
def replaceReturns (cs : List Char) : List Char :=
  cs.map fun c => if c = '\r' then '\n' else c

/-- Unifying line ends in one pass is replacing them in two. -/
theorem unifyNewlines_eq (cs : List Char) :
    unifyNewlines cs = replaceReturns (replacePairs cs) := by
  induction cs using unifyNewlines.induct with
  | case1 => rfl
  | case2 rest ih => rw [unifyNewlines, ih]; rfl
  | case3 rest hrest ih =>
    rw [unifyNewlines, replacePairs, ih]
    · rfl
    · exact fun tail _ h => hrest tail h
    · exact hrest
  | case4 c rest hcrlf hr ih =>
    have hkeep : (if c = '\r' then '\n' else c) = c := if_neg hr
    rw [unifyNewlines, replacePairs, ih, replaceReturns, replaceReturns, List.map_cons, hkeep]
    · exact hcrlf
    · exact hcrlf
    · exact hr

theorem unifyNewlines_unbroken_append (hbody : IsUnbroken body) :
    unifyNewlines (body ++ rest) = body ++ unifyNewlines rest := by
  induction body with
  | nil => rfl
  | cons c body ih =>
    obtain ⟨⟨hr, -⟩, hbody⟩ := isUnbroken_cons.mp hbody
    rw [List.cons_append, unifyNewlines, ih hbody, List.cons_append]
    · exact fun _ h => absurd h hr
    · exact hr

theorem unifyNewlines_unbroken (hbody : IsUnbroken body) : unifyNewlines body = body := by
  have h : unifyNewlines (body ++ []) = body ++ unifyNewlines [] :=
    unifyNewlines_unbroken_append hbody
  simpa [unifyNewlines] using h

theorem unifyNewlines_terminator_append (hterm : IsTerminator term)
    (hreturn : term = ['\r'] → rest.head? ≠ some '\n') :
    unifyNewlines (term ++ rest) = '\n' :: unifyNewlines rest := by
  rcases hterm with rfl | rfl | rfl
  · rw [List.singleton_append, unifyNewlines] <;> simp
  · exact unifyNewlines.eq_2 rest
  · refine unifyNewlines.eq_3 rest ?_
    rintro tail rfl
    exact hreturn rfl rfl

theorem unifyNewlines_terminator (hterm : IsTerminator term) : unifyNewlines term = ['\n'] := by
  have h : unifyNewlines (term ++ []) = '\n' :: unifyNewlines [] :=
    unifyNewlines_terminator_append hterm (by simp)
  simpa [unifyNewlines] using h

/-! ## Rows -/

/-- The lines of a text in which only `\n` ends a line, each with the `\n` that ends it. -/
def rows (cs : List Char) : List (List Char) :=
  let pieces := cs.splitOn '\n'
  let last := pieces.getLastD []
  pieces.dropLast.map (· ++ ['\n']) ++ if last.isEmpty then [] else [last]

theorem rows_nil : rows [] = [] := rfl

theorem rows_last (hbody : '\n' ∉ body) (hne : body ≠ []) : rows body = [body] := by
  rw [rows, List.splitOn_eq_singleton hbody]
  simp [hne]

theorem rows_ended (hbody : '\n' ∉ body) :
    rows (body ++ '\n' :: rest) = (body ++ ['\n']) :: rows rest := by
  rw [rows, rows, List.splitOn_append_cons_self_of_not_mem hbody]
  cases hpieces : rest.splitOn '\n' with
  | nil => exact absurd hpieces (List.splitOn_ne_nil _ _)
  | cons piece pieces => rfl

/-- Lines with unified ends are the rows of the unified text. -/
theorem Divided.rows_unifyNewlines (h : Divided lines) :
    rows (unifyNewlines lines.flatten) = lines.map unifyNewlines := by
  induction h with
  | nil => exact rows_nil
  | @last body hbody hne =>
    rw [List.flatten_singleton, List.map_singleton, unifyNewlines_unbroken hbody]
    exact rows_last hbody.newline_not_mem hne
  | @ended body term rest hbody hterm hreturn _ ih =>
    rw [List.flatten_cons, List.append_assoc, unifyNewlines_unbroken_append hbody,
      unifyNewlines_terminator_append hterm hreturn, rows_ended hbody.newline_not_mem, ih,
      List.map_cons, unifyNewlines_unbroken_append hbody, unifyNewlines_terminator hterm]

/-- Behind characters that end no line a position is as many bytes further on its line. -/
theorem after_unbroken (h : '\n' ∉ cs) (p : Position) :
    p.after cs = ⟨p.line, p.column + (String.ofList cs).utf8ByteSize⟩ := by
  induction cs generalizing p with
  | nil => simp [Position.after]
  | cons c cs ih =>
    obtain ⟨hc, hcs⟩ : c ≠ '\n' ∧ '\n' ∉ cs := by simpa [eq_comm] using h
    have hstep : p.after (c :: cs) = (p.next c).after cs := rfl
    rw [hstep, ih hcs, Position.next, if_neg hc, String.ofList_cons, String.utf8ByteSize_append,
      String.utf8ByteSize_singleton, Nat.add_assoc]

/-- The position is in one of the lines, the first of which has the number `first`. Its column
counts the bytes before it, none of which ends the line, and `c` is what comes behind them when the
end of the line is unified. -/
def StandsIn (lines : List (List Char)) (first : Nat) (p : Position) (c : Char) : Prop :=
  ∃ k before tail, p = ⟨first + k, (String.ofList before).utf8ByteSize⟩ ∧
    lines[k]? = some (before ++ tail) ∧ IsUnbroken before ∧ (unifyNewlines tail).head? = some c

variable {first : Nat} {before tail line : List Char} {p : Position}

theorem StandsIn.here (hbefore : IsUnbroken before) (hc : (unifyNewlines tail).head? = some c) :
    StandsIn ((before ++ tail) :: lines) first ((⟨first, 0⟩ : Position).after before) c := by
  refine ⟨0, before, tail, ?_, rfl, hbefore, hc⟩
  rw [after_unbroken hbefore.newline_not_mem, Nat.zero_add, Nat.add_zero]

theorem StandsIn.below (h : StandsIn lines (first + 1) p c) :
    StandsIn (line :: lines) first p c := by
  obtain ⟨k, before, tail, rfl, hline, hbefore, hc⟩ := h
  exact ⟨k + 1, before, tail, by rw [Nat.add_assoc, Nat.add_comm 1 k], hline, hbefore, hc⟩

/-- A position in the unified text is one in the raw line of the same number. -/
theorem Divided.standsIn (h : Divided lines) {pre post : List Char}
    (heq : unifyNewlines lines.flatten = pre ++ c :: post) :
    StandsIn lines first ((⟨first, 0⟩ : Position).after pre) c := by
  induction h generalizing first pre with
  | nil => simp [unifyNewlines] at heq
  | @last body hbody hne =>
    rw [List.flatten_singleton, unifyNewlines_unbroken hbody] at heq
    subst heq
    obtain ⟨hpre, htail⟩ := isUnbroken_append.mp hbody
    exact .here hpre (by rw [unifyNewlines_unbroken htail]; rfl)
  | @ended body term rest hbody hterm hreturn _ ih =>
    rw [List.flatten_cons, List.append_assoc, unifyNewlines_unbroken_append hbody,
      unifyNewlines_terminator_append hterm hreturn] at heq
    rcases List.append_eq_append_iff.mp heq with ⟨more, rfl, hmore⟩ | ⟨more, rfl, hmore⟩
    · cases more with
      | nil =>
        -- The position is that of the terminator.
        obtain ⟨rfl, -⟩ := List.cons.inj hmore
        rw [List.append_nil]
        exact .here hbody (by rw [unifyNewlines_terminator hterm]; rfl)
      | cons a pre' =>
        obtain ⟨rfl, hrest⟩ := List.cons.inj hmore
        have hnext : ((⟨first, 0⟩ : Position).after body).after ('\n' :: pre') =
            (⟨first + 1, 0⟩ : Position).after pre' := by
          rw [after_unbroken hbody.newline_not_mem]
          rfl
        rw [Source.Cursor.after_append, hnext]
        exact (ih hrest).below
    · obtain ⟨hpre, hmiddle⟩ := isUnbroken_append.mp hbody
      rw [List.append_assoc]
      refine .here hpre ?_
      rw [unifyNewlines_unbroken_append hmiddle, unifyNewlines_terminator hterm]
      have hhead := congrArg List.head? hmore
      simpa [List.head?_append, eq_comm] using hhead

/-! ## Texts as they are read -/

theorem map_toList_splitLines (s : String) :
    (splitLines s).map String.toList = lineChars s.toList := by
  rw [splitLines, List.map_map]
  refine (List.map_congr_left ?_).trans (List.map_id _)
  intro line _
  exact String.toList_ofList

theorem eq_splitLines_iff {s : String} {lines : List String} :
    lines = splitLines s ↔ String.join lines = s ∧ Divided (lines.map String.toList) := by
  rw [← List.map_inj_right (f := String.toList) fun _ _ => String.toList_inj.mp,
    map_toList_splitLines, eq_lineChars_iff, ← String.toList_inj, String.toList_join,
    List.flatMap_def]

end Text

open Text Source

/-- A source file that was read has the text of the file. -/
theorem loadUnit_source {h : Host} {file : Path} {u : SourceUnit} (hu : loadUnit h file = .ok u) :
    u.path = h.normalize file ∧ h.readText u.path = .ok u.source := by
  rw [loadUnit] at hu
  split at hu
  · cases hu
  · dsimp only at hu
    split at hu
    · cases hu
    · next source hread =>
      split at hu
      · cases hu
      · cases hu
        refine ⟨rfl, hread.trans ?_⟩
        rw [SourceUnit.source, (eq_splitLines_iff.mp rfl).1]

/-- The lines of a text are the only ones into which it can be divided, and none of it is lost.
With unified ends they are the rows of the text whose line ends are replaced, first those of two
characters, and a position there means the same place of the raw line. A source file that was read
has the text of the file. -/
theorem splitLines_aligned (s : String) :
    (∀ lines, lines = splitLines s ↔
      String.join lines = s ∧ Divided (lines.map String.toList)) ∧
    unifyNewlines s.toList = replaceReturns (replacePairs s.toList) ∧
    rows (unifyNewlines s.toList) = (splitLines s).map (fun line => unifyNewlines line.toList) ∧
    (∀ pre c post, unifyNewlines s.toList = pre ++ c :: post →
      StandsIn ((splitLines s).map String.toList) 1 (Position.start.after pre) c) ∧
    ∀ h file u, loadUnit h file = .ok u →
      u.path = h.normalize file ∧ h.readText u.path = .ok u.source := by
  obtain ⟨hjoin, hdivided⟩ := eq_splitLines_iff.mp (Eq.refl (splitLines s))
  have hflatten : ((splitLines s).map String.toList).flatten = s.toList := by
    rw [← List.flatMap_def, ← String.toList_join, hjoin]
  refine ⟨fun lines => eq_splitLines_iff, unifyNewlines_eq _, ?_, ?_, ?_⟩
  · have hrows := hdivided.rows_unifyNewlines
    rw [hflatten, List.map_map] at hrows
    exact hrows
  · intro pre c post heq
    rw [← hflatten] at heq
    exact hdivided.standsIn heq
  · intro h file u hu
    exact loadUnit_source hu

/-- A source file with every kind of line end. -/
def mixedEnds : String := "import a\rimport b\r\né = 1\n\r"

def mixedEndsHost : Host :=
  { files := ⟨[.file "m.py" mixedEnds.toUTF8 false]⟩ }

def mixedEndsUnit : SourceUnit :=
  { path := ⟨"/m.py"⟩
    lines := ["import a\r", "import b\r\n", "é = 1\n", "\r"]
    declarations := [.plain ⟨"a", none, ⟨1, 0⟩⟩, .plain ⟨"b", none, ⟨2, 0⟩⟩] }

theorem splitLines_aligned_mixed :
    (unifyNewlines mixedEnds.toList = "import a\nimport b\né".toList ++ ' ' :: "= 1\n\n".toList ∧
      StandsIn ((splitLines mixedEnds).map String.toList) 1 ⟨3, 2⟩ ' ') ∧
    (loadUnit mixedEndsHost ⟨"m.py"⟩ = .ok mixedEndsUnit ∧
      mixedEndsHost.readText ⟨"/m.py"⟩ = .ok mixedEndsUnit.source) := by
  have htext : unifyNewlines mixedEnds.toList =
      "import a\nimport b\né".toList ++ ' ' :: "= 1\n\n".toList := by decide +kernel
  have hunit : loadUnit mixedEndsHost ⟨"m.py"⟩ = .ok mixedEndsUnit :=
    eq_ok_of_toOption (by decide +kernel)
  obtain ⟨-, -, -, hplaces, hunits⟩ := splitLines_aligned mixedEnds
  exact ⟨⟨htext, hplaces _ _ _ htext⟩, hunit, (hunits _ _ _ hunit).2⟩

end ImportContext
