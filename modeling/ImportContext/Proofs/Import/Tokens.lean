import ImportContext.Source.ImportReader

/-!
# Import statements as tokens

A line of words and marks, with a blank between each two and a line end behind the last. Every
way to take something off such a line takes whole tokens: what is left is always the text of the
tokens that are left.

Results:
* `ahead_behind`, `token_behind`: from behind a token to the next one.
* `word?_front`, `takeWord_front`, `expectChar_front`: what stands at a token.
-/

namespace ImportContext.Source

/-! ## Tokens -/

/-- The marks of import statements. -/
inductive Mark where
  | dot
  | comma
  | opening
  | closing
  | star
deriving DecidableEq, Repr

def Mark.char : Mark → Char
  | dot => '.'
  | comma => ','
  | opening => '('
  | closing => ')'
  | star => '*'

/-- A word or a mark. -/
inductive ImportToken where
  | word (w : String)
  | mark (m : Mark)
deriving DecidableEq, Repr

/-- Whether a text has the shape of an identifier, in ASCII. -/
def isIdentifier (w : String) : Bool :=
  match w.toList with
  | c :: cs => (c.isAlpha || c == '_') && cs.all fun c => c.isAlphanum || c == '_'
  | [] => false

namespace ImportToken

/-- A word has the shape of an identifier and is not `__future__`, which is read in a way of its
own. -/
def IsProper : ImportToken → Prop
  | word w => isIdentifier w = true ∧ w ≠ "__future__"
  | mark _ => True

instance : DecidablePred IsProper
  | word _ => inferInstanceAs (Decidable (_ ∧ _))
  | mark _ => inferInstanceAs (Decidable True)

def chars : ImportToken → List Char
  | word w => w.toList
  | mark m => [m.char]

/-- The line of some tokens. -/
def line (ts : List ImportToken) : String :=
  String.intercalate " " (ts.map fun t => String.ofList t.chars) ++ "\n"

/-- What is left of a line behind a token, given the tokens that follow. -/
def behind : List ImportToken → List Char
  | [] => ['\n']
  | t :: ts => ' ' :: (t.chars ++ behind ts)

/-- What is left of a line at a token, or behind its end. -/
def front : List ImportToken → List Char
  | [] => []
  | t :: ts => t.chars ++ behind ts

/-- The word at the head of some tokens. -/
def headWord? : List ImportToken → Option String
  | word w :: _ => some w
  | _ => none

theorem eq_cons_of_headWord? {ts : List ImportToken} {w : String} (h : headWord? ts = some w) :
    ∃ ts', ts = .word w :: ts' := by
  unfold headWord? at h
  split at h
  · next ts' => exact ⟨ts', by rw [Option.some.inj h]⟩
  · cases h

theorem toList_line (t : ImportToken) (ts : List ImportToken) :
    (line (t :: ts)).toList = t.chars ++ behind ts := by
  have hline : ∀ ts, (line ts).toList = [' '].intercalate (ts.map chars) ++ ['\n'] := by
    intro ts
    simp [line, String.toList_intercalate, Function.comp_def]
  rw [hline]
  induction ts generalizing t with
  | nil => simp [behind]
  | cons s ts ih =>
    rw [List.map_cons, List.map_cons, List.intercalate_cons_cons, ← List.map_cons,
      List.append_assoc, List.append_assoc, ih s]
    rfl

theorem behind_eq_behind_nil {ts : List ImportToken} : behind ts = behind [] ↔ ts = [] := by
  cases ts with
  | nil => simp
  | cons t ts => simp [behind]

theorem length_lt_behind (ts : List ImportToken) : ts.length < (behind ts).length := by
  induction ts with
  | nil => simp [behind]
  | cons t ts ih =>
    rw [behind, List.length_cons, List.length_cons, List.length_append]
    omega

theorem length_le_front (ts : List ImportToken) : ts.length ≤ (front ts).length := by
  cases ts with
  | nil => exact Nat.le_refl 0
  | cons t ts =>
    have hbehind := length_lt_behind ts
    rw [front, List.length_cons, List.length_append]
    omega

/-! ## Characters -/

theorem toList_identifier {w : String} (h : isIdentifier w = true) :
    ∃ c cs, w.toList = c :: cs ∧ (c.isAlpha || c == '_') = true ∧
      ∀ c ∈ cs, (c.isAlphanum || c == '_') = true := by
  rw [isIdentifier] at h
  split at h
  · next c cs hcs =>
    rw [Bool.and_eq_true, List.all_eq_true] at h
    exact ⟨c, cs, hcs, h.1, h.2⟩
  · cases h

/-- A character that begins a token. -/
def Solid (c : Char) : Prop :=
  isSpace c = false ∧ c ≠ '\\' ∧ c ≠ '#'

theorem toNat_of_letter {c : Char} (h : (c.isAlpha || c == '_') = true) :
    65 ≤ c.toNat ∧ c.toNat ≤ 90 ∨ c.toNat = 95 ∨ 97 ≤ c.toNat ∧ c.toNat ≤ 122 := by
  rcases Bool.or_eq_true _ _ ▸ h with h | h
  · have hcase : c.isUpper = true ∨ c.isLower = true := Bool.or_eq_true _ _ ▸ h
    rcases hcase with hupper | hlower
    · have hcode : 'A'.val ≤ c.val ∧ c.val ≤ 'Z'.val := of_decide_eq_true hupper
      exact .inl ⟨UInt32.le_iff_toNat_le.mp hcode.1, UInt32.le_iff_toNat_le.mp hcode.2⟩
    · have hcode : 'a'.val ≤ c.val ∧ c.val ≤ 'z'.val := by
        obtain ⟨hlow, hhigh⟩ := Bool.and_eq_true _ _ ▸ hlower
        exact ⟨of_decide_eq_true hlow, of_decide_eq_true hhigh⟩
      exact .inr (.inr ⟨UInt32.le_iff_toNat_le.mp hcode.1, UInt32.le_iff_toNat_le.mp hcode.2⟩)
  · rw [eq_of_beq h]
    exact .inr (.inl rfl)

theorem isWordStart_of_letter {c : Char} (h : (c.isAlpha || c == '_') = true) :
    isWordStart c = true := by
  have hlt : c.toNat < 128 := by
    have hcode := toNat_of_letter h
    omega
  rw [isWordStart, if_pos hlt, h]

theorem isWordPart_of_identifier {c : Char} (h : (c.isAlphanum || c == '_') = true) :
    isWordPart c = true := by
  have hlt : c.toNat < 128 := by
    rw [Char.isAlphanum, Bool.or_right_comm, Bool.or_eq_true] at h
    rcases h with h | h
    · have hcode := toNat_of_letter h
      omega
    · simp only [Char.isDigit, Bool.and_eq_true, decide_eq_true_eq, UInt32.le_iff_toNat_le] at h
      have hcode : c.toNat ≤ 57 := h.2
      omega
  rw [isWordPart, if_pos hlt, h]

theorem solid_of_letter {c : Char} (h : (c.isAlpha || c == '_') = true) : Solid c := by
  have hcode := toNat_of_letter h
  refine ⟨?_, ?_, ?_⟩
  · simp [isSpace]
    omega
  · rintro rfl
    revert hcode
    decide
  · rintro rfl
    revert hcode
    decide

theorem solid_mark (m : Mark) : Solid m.char := by
  unfold Solid
  cases m <;> decide

/-- A token begins with a character that is no blank. -/
theorem exists_solid {t : ImportToken} (h : t.IsProper) : ∃ c cs, t.chars = c :: cs ∧ Solid c := by
  cases t with
  | mark m => exact ⟨m.char, [], rfl, solid_mark m⟩
  | word w =>
    obtain ⟨c, cs, hcs, hletter, -⟩ := toList_identifier h.1
    exact ⟨c, cs, hcs, solid_of_letter hletter⟩

/-- There is no other line end on a line than the one at its end. -/
theorem return_not_mem_front {ts : List ImportToken} (hts : ∀ t ∈ ts, t.IsProper) :
    '\r' ∉ front ts := by
  have hchars : ∀ {t : ImportToken}, t.IsProper → '\r' ∉ t.chars := by
    intro t ht hmem
    cases t with
    | mark m => cases m <;> revert hmem <;> decide
    | word w =>
      obtain ⟨c, cs, hcs, hletter, hmore⟩ := toList_identifier ht.1
      rw [chars, hcs] at hmem
      rcases List.mem_cons.mp hmem with rfl | hmem
      · revert hletter
        decide
      · exact absurd (hmore _ hmem) (by decide)
  have hbehind : ∀ ts : List ImportToken, (∀ t ∈ ts, t.IsProper) → '\r' ∉ behind ts := by
    intro ts hts
    induction ts with
    | nil => decide
    | cons t ts ih =>
      obtain ⟨ht, hts⟩ := List.forall_mem_cons.mp hts
      simp [behind, hchars ht, ih hts]
  cases ts with
  | nil => simp [front]
  | cons t ts =>
    obtain ⟨ht, hts⟩ := List.forall_mem_cons.mp hts
    simp [front, hchars ht, hbehind ts hts]

/-! ## From behind a token to the next one -/

section Gaps

variable {e : Expected} {c : Char} {cs : List Char}

theorem scanGap_solid (h : Solid c) (watch : Bool) (g : Gap) :
    scanGap watch g false (c :: cs) = some { g with next := c :: cs } := by
  obtain ⟨hspace, hslash, hhash⟩ := h
  have hother : c ≠ '\n' ∧ c ≠ ' ' ∧ c ≠ '\t' ∧ c ≠ '\r' ∧ c ≠ '\x0c' := by
    refine ⟨?_, ?_, ?_, ?_, ?_⟩ <;>
    · rintro rfl
      revert hspace
      decide
  simp [scanGap, hslash, hhash, hother]

theorem lead_blank (h : Solid c) : lead e 0 false (' ' :: c :: cs) = ⟨1, none⟩ := by
  have hlayout : e.layout 0 false (' ' :: c :: cs) = none := by
    simp [Expected.layout, scanGap, scanGap_solid h]
  rw [lead, hlayout]
  simp [leadFrom, show isSpace ' ' = true from rfl, h.1, h.2.1, h.2.2]

theorem lead_solid (h : Solid c) : lead e 0 false (c :: cs) = ⟨0, none⟩ := by
  have hlayout : e.layout 0 false (c :: cs) = none := by
    simp [Expected.layout, scanGap_solid h]
  rw [lead, hlayout]
  simp [leadFrom, h.1, h.2.1, h.2.2]

theorem lead_newline : lead e 0 false ['\n'] =
    if e.newline then ⟨0, some .newline⟩ else ⟨1, none⟩ := by
  have hlayout : e.layout 0 false ['\n'] = if e.newline then some .newline else none := by
    simp [Expected.layout, scanGap]
  rw [lead, hlayout]
  cases e.newline with
  | true => rfl
  | false => rfl

end Gaps

section Cursors

variable {e : Expected} {k : Cursor} {t : ImportToken} {ts : List ImportToken}

/-- Behind the last token of a line only the line end may stand, where it means anything. -/
theorem ahead_behind (hk : k.rest = behind ts) (hts : ∀ t ∈ ts, t.IsProper) :
    k.ahead e 0 =
      if ts.isEmpty && e.newline then (some .newline, k) else (none, k.advance 1) := by
  rw [Cursor.ahead, hk]
  cases ts with
  | nil =>
    rw [behind, lead_newline]
    cases e.newline with
    | true => rfl
    | false => rfl
  | cons t ts =>
    obtain ⟨c, cs, hcs, hc⟩ := exists_solid (hts t List.mem_cons_self)
    rw [behind, hcs, List.cons_append, lead_blank hc]
    rfl

theorem token_behind (hk : k.rest = behind ts) (hts : ∀ t ∈ ts, t.IsProper)
    (he : e.newline = false) : k.token e 0 = some (k.advance 1) := by
  rw [Cursor.token, ahead_behind hk hts, he, Bool.and_false]
  rfl

theorem rest_blank (hk : k.rest = behind ts) : (k.advance 1).rest = front ts := by
  rw [Cursor.advance, hk]
  cases ts with
  | nil => rfl
  | cons t ts => rfl

/-! ## At a token -/

theorem not_isWordPart_behind (ts : List ImportToken) :
    (behind ts).takeWhile isWordPart = [] := by
  cases ts with
  | nil => rfl
  | cons t ts => rfl

theorem wordLength_word {w : String} (h : isIdentifier w = true) (ts : List ImportToken) :
    wordLength (w.toList ++ behind ts) = w.toList.length := by
  obtain ⟨c, cs, hcs, hletter, hmore⟩ := toList_identifier h
  have hparts : ∀ c ∈ cs, isWordPart c = true := fun c hc => isWordPart_of_identifier (hmore c hc)
  rw [hcs, List.cons_append, wordLength, if_pos (isWordStart_of_letter hletter),
    List.takeWhile_append_of_pos hparts, not_isWordPart_behind, List.append_nil, List.length_cons]

theorem word?_front (hts : ∀ t ∈ ts, t.IsProper) : word? (front ts) = headWord? ts := by
  cases ts with
  | nil => rfl
  | cons t ts =>
    cases t with
    | mark m => cases m <;> rfl
    | word w =>
      obtain ⟨hw, -⟩ := hts _ List.mem_cons_self
      have hne : w.toList.length ≠ 0 := by
        obtain ⟨c, cs, hcs, -⟩ := toList_identifier hw
        simp [hcs]
      rw [front, chars, word?, wordLength_word hw]
      split
      · next hzero => exact absurd hzero hne
      · rw [List.take_left, String.ofList_toList]
        rfl

theorem takeWord_front (hk : k.rest = front ts) (hts : ∀ t ∈ ts, t.IsProper) :
    k.takeWord = (headWord? ts).map fun w => (w, k.advance w.length) := by
  rw [Cursor.takeWord, hk, word?_front hts]
  cases headWord? ts with
  | none => rfl
  | some w => rfl

theorem expectWord_front (hk : k.rest = front ts) (hts : ∀ t ∈ ts, t.IsProper) (w : String) :
    k.expectWord w = if headWord? ts = some w then some (k.advance w.length) else none := by
  rw [Cursor.expectWord, hk, word?_front hts]

theorem head?_word_ne {w : String} (hw : (word w).IsProper) {c : Char} (hc : c.toNat < 65) :
    ((word w).chars ++ behind ts).head? ≠ some c := by
  obtain ⟨a, cs, hcs, hletter, -⟩ := toList_identifier hw.1
  have hcode := toNat_of_letter hletter
  rw [chars, hcs, List.cons_append, List.head?_cons, Ne, Option.some.injEq]
  rintro rfl
  omega

/-- Which mark a line goes on with is seen from one character. -/
theorem head?_front (hts : ∀ t ∈ ts, t.IsProper) (m : Mark) :
    (front ts).head? = some m.char ↔ ts.head? = some (.mark m) := by
  cases ts with
  | nil => simp [front]
  | cons t ts =>
    rw [front, List.head?_cons, Option.some.injEq]
    cases t with
    | mark m' =>
      rw [chars, List.singleton_append, List.head?_cons, Option.some.injEq]
      cases m <;> cases m' <;> decide
    | word w =>
      have hmark : m.char.toNat < 65 := by cases m <;> decide
      constructor
      · intro h
        exact absurd h (head?_word_ne (hts _ List.mem_cons_self) hmark)
      · intro h
        cases h

theorem expectChar_front (hk : k.rest = front ts) (hts : ∀ t ∈ ts, t.IsProper) (m : Mark) :
    k.expectChar m.char = if ts.head? = some (.mark m) then some (k.advance 1) else none := by
  rw [Cursor.expectChar, hk]
  simp only [head?_front hts]

/-- No statement of another kind goes on behind a semicolon. -/
theorem expectChar_semicolon (hk : k.rest = front ts) (hts : ∀ t ∈ ts, t.IsProper) :
    k.expectChar ';' = none := by
  rw [Cursor.expectChar, hk]
  cases ts with
  | nil => rfl
  | cons t ts =>
    cases t with
    | mark m => cases m <;> rfl
    | word w => exact if_neg (head?_word_ne (hts _ List.mem_cons_self) (by decide))

theorem rest_word {w : String} (hk : k.rest = front (.word w :: ts)) :
    (k.advance w.length).rest = behind ts := by
  rw [Cursor.advance, hk, front, chars, ← String.length_toList, List.drop_left]

theorem rest_mark {m : Mark} (hk : k.rest = front (.mark m :: ts)) :
    (k.advance 1).rest = behind ts := by
  rw [Cursor.advance, hk]
  rfl

theorem takeWord_word {w : String} (hk : k.rest = front (.word w :: ts))
    (hts : ∀ t ∈ (.word w :: ts : List ImportToken), t.IsProper) :
    ∃ k', k.takeWord = some (w, k') ∧ k'.rest = behind ts :=
  ⟨k.advance w.length, takeWord_front hk hts, rest_word hk⟩

theorem exists_of_takeWord {w : String} {k' : Cursor} (hk : k.rest = front ts)
    (hts : ∀ t ∈ ts, t.IsProper) (h : k.takeWord = some (w, k')) :
    ∃ ts', ts = .word w :: ts' ∧ k'.rest = behind ts' := by
  rw [takeWord_front hk hts] at h
  obtain ⟨w', hw, hk'⟩ := Option.map_eq_some_iff.mp h
  cases hk'
  obtain ⟨ts', rfl⟩ := eq_cons_of_headWord? hw
  exact ⟨ts', rfl, rest_word hk⟩

theorem exists_of_expectWord {w : String} {k' : Cursor} (hk : k.rest = front ts)
    (hts : ∀ t ∈ ts, t.IsProper) (h : k.expectWord w = some k') :
    ∃ ts', ts = .word w :: ts' ∧ k'.rest = behind ts' := by
  rw [expectWord_front hk hts] at h
  split at h
  · next hw =>
    cases h
    obtain ⟨ts', rfl⟩ := eq_cons_of_headWord? hw
    exact ⟨ts', rfl, rest_word hk⟩
  · cases h

theorem expectChar_mark {m : Mark} (hk : k.rest = front (.mark m :: ts)) :
    k.expectChar m.char = some (k.advance 1) := by
  rw [Cursor.expectChar, hk]
  exact if_pos rfl

theorem exists_of_expectChar {m : Mark} {k' : Cursor} (hk : k.rest = front ts)
    (hts : ∀ t ∈ ts, t.IsProper) (h : k.expectChar m.char = some k') :
    ∃ ts', ts = .mark m :: ts' ∧ k'.rest = behind ts' := by
  rw [expectChar_front hk hts] at h
  split at h
  · next hm =>
    cases h
    obtain ⟨ts', rfl⟩ := List.head?_eq_some_iff.mp hm
    exact ⟨ts', rfl, rest_mark hk⟩
  · cases h

/-! ## Behind a token, with a look at the next one -/

theorem ahead_mark {m : Mark} (hk : k.rest = behind (.mark m :: ts)) :
    ∃ at_, k.ahead e 0 = (none, at_) ∧ at_.rest = front (.mark m :: ts) ∧
      at_.expectChar m.char = some (at_.advance 1) ∧ (at_.advance 1).rest = behind ts := by
  have hat : (k.advance 1).rest = front (.mark m :: ts) := rest_blank hk
  refine ⟨k.advance 1, ?_, hat, expectChar_mark hat, rest_mark hat⟩
  rw [Cursor.ahead, hk, behind, chars, List.singleton_append, lead_blank (solid_mark m)]

theorem ahead_no_mark {m : Mark} (hk : k.rest = behind ts) (hts : ∀ t ∈ ts, t.IsProper)
    (hstop : ts.head? ≠ some (.mark m)) :
    (∃ at_, k.ahead e 0 = (none, at_) ∧ at_.expectChar m.char = none) ∨
      ∃ l at_, k.ahead e 0 = (some l, at_) := by
  rw [ahead_behind hk hts]
  split
  · exact .inr ⟨_, _, rfl⟩
  · refine .inl ⟨_, rfl, ?_⟩
    rw [expectChar_front (rest_blank hk) hts, if_neg hstop]

theorem ahead_word {w : String} (hk : k.rest = behind (.word w :: ts))
    (hts : ∀ t ∈ (.word w :: ts : List ImportToken), t.IsProper) :
    ∃ at_, k.ahead e 0 = (none, at_) ∧ at_.expectWord w = some (at_.advance w.length) ∧
      (at_.advance w.length).rest = behind ts := by
  have hat : (k.advance 1).rest = front (.word w :: ts) := rest_blank hk
  refine ⟨k.advance 1, ?_, ?_, rest_word hat⟩
  · rw [ahead_behind hk hts]
    rfl
  · rw [expectWord_front hat hts]
    exact if_pos rfl

theorem ahead_no_word {w : String} (hk : k.rest = behind ts) (hts : ∀ t ∈ ts, t.IsProper)
    (hstop : headWord? ts ≠ some w) :
    (∃ at_, k.ahead e 0 = (none, at_) ∧ at_.expectWord w = none) ∨
      ∃ l at_, k.ahead e 0 = (some l, at_) := by
  rw [ahead_behind hk hts]
  split
  · exact .inr ⟨_, _, rfl⟩
  · refine .inl ⟨_, rfl, ?_⟩
    rw [expectWord_front (rest_blank hk) hts, if_neg hstop]

end Cursors

end ImportToken

end ImportContext.Source
