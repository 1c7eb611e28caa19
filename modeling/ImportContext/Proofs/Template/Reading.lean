import ImportContext.Proofs.Import.Tokens
import ImportContext.Proofs.Text.Trimming
import ImportContext.Template.Token

/-!
# Template sources that are read back

A source is written segment by segment: texts as they are, expressions between double braces, and
every tag on a line of its own. Such a source is read as the segments it was written from. Nothing
of a text gets lost, and the line end behind a tag belongs to the tag.

Results:
* `readTokens_writeTokens`: expressions.
* `readSegments_output`, `readSegments_tag`: a text with what ends it.
* `templateSegments?_written`: a whole source.
-/

namespace ImportContext.Template

variable {ts : List TemplateToken} {t : TemplateToken} {cs rest tail lead : List Char} {c d : Char}

/-! ## Tokens -/

/-- A character that a name, a dot or a bar starts with. -/
def startsPlain (c : Char) : Bool :=
  isNameStart c || c == '.' || c == '|'

/-- A name, a dot or a bar. -/
def isPlain : TemplateToken → Bool
  | .word w => match w.toList with
    | [] => false
    | c :: cs => isNameStart c && cs.all isNameChar
  | .mark m => m == "." || m == "|"
  | _ => false

def tokenChars : TemplateToken → List Char
  | .word w => w.toList
  | .mark m => m.toList
  | _ => []

/-- The blank behind a token, given the tokens that follow: none next to a dot. -/
def gap (t : TemplateToken) (ts : List TemplateToken) : List Char :=
  if t = .mark "." ∨ ts.head? = some (.mark ".") then [] else [' ']

/-- Tokens with their gaps. -/
def writeTokens : List TemplateToken → List Char
  | [] => []
  | t :: ts => tokenChars t ++ (gap t ts ++ writeTokens ts)

theorem isDigit_of_isNameStart (h : isNameStart c = true) : c.isDigit = false := by
  have hcode := Source.ImportToken.toNat_of_letter h
  rw [← Bool.not_eq_true]
  intro hdigit
  simp only [Char.isDigit, Bool.and_eq_true, decide_eq_true_eq, UInt32.le_iff_toNat_le] at hdigit
  have hhigh : c.toNat ≤ 57 := hdigit.2
  omega

theorem isNameChar_of_isNameStart (h : isNameStart c = true) : isNameChar c = true := by
  rw [isNameStart, Bool.or_eq_true] at h
  rw [isNameChar, Char.isAlphanum, Bool.or_eq_true, Bool.or_eq_true]
  exact h.imp_left .inl

theorem startsPlain_of_isNameStart (h : isNameStart c = true) : startsPlain c = true := by
  simp [startsPlain, h]

theorem exists_head_of_isPlain (h : isPlain t = true) :
    ∃ c cs, tokenChars t = c :: cs ∧ startsPlain c = true := by
  cases t with
  | word w =>
    rw [isPlain] at h
    split at h
    · cases h
    · next c cs hcs =>
      rw [Bool.and_eq_true] at h
      exact ⟨c, cs, hcs, startsPlain_of_isNameStart h.1⟩
  | mark m =>
    rw [isPlain, Bool.or_eq_true, beq_iff_eq, beq_iff_eq] at h
    rcases h with rfl | rfl
    · exact ⟨'.', [], rfl, rfl⟩
    · exact ⟨'|', [], rfl, rfl⟩
  | _ => cases h

/-- A plain token starts with no blank, sign or closing delimiter. -/
theorem ne_of_startsPlain (h : startsPlain c = true) (hd : startsPlain d = false) : c ≠ d := by
  rintro rfl
  rw [h] at hd
  cases hd

theorem not_isWhitespace_of_startsPlain (h : startsPlain c = true) : c.isWhitespace = false := by
  simp only [Char.isWhitespace, Bool.or_eq_false_iff, decide_eq_false_iff_not]
  exact ⟨⟨⟨ne_of_startsPlain h (by decide), ne_of_startsPlain h (by decide)⟩,
    ne_of_startsPlain h (by decide)⟩, ne_of_startsPlain h (by decide)⟩

/-- No delimiter closes in front of a plain token. -/
theorem readClose?_of_startsPlain (h : startsPlain c = true) (hclose : d = '\x7d' ∨ d = '%') :
    readClose? d (c :: cs) = none := by
  have hminus : c ≠ '-' := ne_of_startsPlain h (by decide)
  have hplus : c ≠ '+' := ne_of_startsPlain h (by decide)
  have hsign : readSign (c :: cs) = (.standard, c :: cs) := by
    unfold readSign
    split
    · next heq => exact absurd (List.cons.inj heq).1 hminus
    · next heq => exact absurd (List.cons.inj heq).1 hplus
    · rfl
  have hne : c ≠ d := by
    rcases hclose with rfl | rfl
    · exact ne_of_startsPlain h (by decide)
    · exact ne_of_startsPlain h (by decide)
  rw [readClose?, hsign]
  split
  · next heq =>
    cases heq
    rw [if_neg]
    simpa using hne
  · rfl

/-- A dot or a bar is read by itself, since no mark of two characters starts with it. -/
theorem readToken_single (hstart : startsPlain c = true) (hname : isNameStart c = false)
    (hsingle : singleMarks.contains c = true) :
    readToken (c :: rest) = some (.mark c.toString, rest) := by
  have hquote : (c == '"' || c == '\x27') = false := by
    simp [ne_of_startsPlain hstart (show startsPlain '"' = false by decide),
      ne_of_startsPlain hstart (show startsPlain '\x27' = false by decide)]
  have hc : c = '.' ∨ c = '|' := by
    simpa [startsPlain, hname] using hstart
  have hfirst : ∀ m ∈ doubleMarks, m.toList.head? ≠ some '.' ∧ m.toList.head? ≠ some '|' := by
    decide +kernel
  have hdouble : doubleMarks.contains (String.ofList ((c :: rest).take 2)) = false := by
    rw [← Bool.not_eq_true, List.contains_iff_mem]
    intro hmem
    have hhead : (String.ofList ((c :: rest).take 2)).toList.head? = some c := by simp
    rcases hc with rfl | rfl
    · exact (hfirst _ hmem).1 hhead
    · exact (hfirst _ hmem).2 hhead
  have hdigit : c.isDigit = false := by
    rcases hc with rfl | rfl <;> decide
  rw [readToken, hquote, hdigit, hname]
  simp only [Bool.false_eq_true, if_false, hdouble, hsingle, if_true]

/-- A plain token is read back, a name if no character of a name follows it. -/
theorem readToken_plain (h : isPlain t = true)
    (hrest : ∀ w, t = .word w → rest.takeWhile isNameChar = []) :
    readToken (tokenChars t ++ rest) = some (t, rest) := by
  cases t with
  | word w =>
    have hend : rest.takeWhile isNameChar = [] := hrest w rfl
    rw [isPlain] at h
    split at h
    · cases h
    · next c cs hcs =>
      rw [Bool.and_eq_true, List.all_eq_true] at h
      obtain ⟨hstart, hall⟩ := h
      have hplain := startsPlain_of_isNameStart hstart
      have hquote : (c == '"' || c == '\x27') = false := by
        simp [ne_of_startsPlain hplain (show startsPlain '"' = false by decide),
          ne_of_startsPlain hplain (show startsPlain '\x27' = false by decide)]
      have hname : (c :: cs ++ rest).takeWhile isNameChar = c :: cs := by
        rw [List.takeWhile_append_of_pos, hend, List.append_nil]
        intro d hd
        rcases List.mem_cons.mp hd with rfl | hd
        · exact isNameChar_of_isNameStart hstart
        · exact hall d hd
      rw [tokenChars, hcs, List.cons_append, readToken, hquote, isDigit_of_isNameStart hstart,
        hstart]
      simp only [Bool.false_eq_true, if_false, if_true]
      rw [← List.cons_append, hname, List.drop_left, ← hcs, String.ofList_toList]
  | mark m =>
    rw [isPlain, Bool.or_eq_true, beq_iff_eq, beq_iff_eq] at h
    rcases h with rfl | rfl
    · exact readToken_single (by decide) (by decide) (by decide)
    · exact readToken_single (by decide) (by decide) (by decide)
  | _ => cases h

theorem isWhitespace_of_mem_gap (h : c ∈ gap t ts) : c.isWhitespace = true := by
  unfold gap at h
  split at h
  · cases h
  · cases List.mem_singleton.mp h
    rfl

/-- No character of a name stands behind a name. -/
theorem takeWhile_gap {w : String} :
    (gap (.word w) ts ++ (writeTokens ts ++ rest)).takeWhile isNameChar = [] := by
  unfold gap
  split
  · next hdot =>
    obtain ⟨ts', rfl⟩ : ∃ ts', ts = .mark "." :: ts' :=
      List.head?_eq_some_iff.mp (hdot.resolve_left TemplateToken.noConfusion)
    rfl
  · rfl

/-- Tokens are read back up to the closing delimiter. -/
theorem readTokens_writeTokens {close : Char} (hclose : close = '\x7d' ∨ close = '%')
    (hts : ts.all isPlain = true) {fuel : Nat} (hfuel : ts.length < fuel) (blanks : List Char)
    (hblanks : ∀ c ∈ blanks, c.isWhitespace = true) :
    readTokens close fuel (blanks ++ (writeTokens ts ++ close :: '\x7d' :: rest)) =
      some (ts, .standard, rest) := by
  induction ts generalizing fuel blanks with
  | nil =>
    obtain ⟨fuel, rfl⟩ : ∃ n, fuel = n + 1 := Nat.exists_eq_succ_of_ne_zero (Nat.ne_zero_of_lt hfuel)
    rw [writeTokens, List.nil_append, readTokens]
    dsimp only
    have hhead : ∀ c, (close :: '\x7d' :: rest).head? = some c → c.isWhitespace = false := by
      rintro c ⟨⟩
      rcases hclose with rfl | rfl <;> decide
    rw [Text.dropWhile_append_of_head hblanks hhead]
    rcases hclose with rfl | rfl <;> rfl
  | cons t ts ih =>
    obtain ⟨fuel, rfl⟩ : ∃ n, fuel = n + 1 := Nat.exists_eq_succ_of_ne_zero (Nat.ne_zero_of_lt hfuel)
    rw [List.all_cons, Bool.and_eq_true] at hts
    obtain ⟨ht, hts⟩ := hts
    obtain ⟨c, cs, hcs, hstart⟩ := exists_head_of_isPlain ht
    have hmore := ih hts (Nat.lt_of_succ_lt_succ hfuel) (gap t ts)
      fun c hc => isWhitespace_of_mem_gap hc
    have hend : ∀ w, t = .word w → (gap t ts ++ (writeTokens ts ++
        close :: '\x7d' :: rest)).takeWhile isNameChar = [] := by
      rintro w rfl
      exact takeWhile_gap
    rw [writeTokens, readTokens, List.append_assoc, List.append_assoc]
    generalize gap t ts ++ (writeTokens ts ++ close :: '\x7d' :: rest) = behind at hmore hend ⊢
    have hread : readToken (tokenChars t ++ behind) = some (t, behind) := readToken_plain ht hend
    rw [hcs, List.cons_append] at hread ⊢
    have hhead : ∀ d, (c :: (cs ++ behind)).head? = some d → d.isWhitespace = false := by
      rintro d ⟨⟩
      exact not_isWhitespace_of_startsPlain hstart
    dsimp only
    rw [Text.dropWhile_append_of_head hblanks hhead, readClose?_of_startsPlain hstart hclose]
    simp only [hread, Option.bind_eq_bind, Option.bind_some, hmore]

/-! ## Texts and what ends them -/

theorem splitAtDelimiter_cons (h : c ≠ '\x7b') : splitAtDelimiter (c :: cs) =
    (c :: (splitAtDelimiter cs).1, (splitAtDelimiter cs).2) := by
  rw [splitAtDelimiter]
  intro d rest heq
  exact absurd heq h

theorem splitAtDelimiter_append (h : '\x7b' ∉ lead) (hc : c = '\x7b' ∨ c = '%') :
    splitAtDelimiter (lead ++ '\x7b' :: c :: rest) = (lead, some (c, rest)) := by
  induction lead with
  | nil => rcases hc with rfl | rfl <;> rfl
  | cons d lead ih =>
    obtain ⟨hd, hlead⟩ := not_or.mp (mt List.mem_cons.mpr h)
    rw [List.cons_append, splitAtDelimiter_cons (Ne.symm hd), ih hlead]

def printedChars (ts : List TemplateToken) : List Char :=
  '\x7b' :: '\x7b' :: ' ' :: (writeTokens ts ++ ['\x7d', '\x7d'])

def tagChars (ts : List TemplateToken) : List Char :=
  '\x7b' :: '%' :: ' ' :: (writeTokens ts ++ ['%', '\x7d'])

theorem length_le_writeTokens (hts : ts.all isPlain = true) :
    ts.length ≤ (writeTokens ts).length := by
  induction ts with
  | nil => exact Nat.le_refl 0
  | cons t ts ih =>
    rw [List.all_cons, Bool.and_eq_true] at hts
    obtain ⟨c, cs, hcs, -⟩ := exists_head_of_isPlain hts.1
    have hmore := ih hts.2
    simp only [writeTokens, hcs, List.length_append, List.length_cons]
    omega

/-- An expression or tag is read with the blank in front of it. -/
theorem readTokens_inner {close : Char} (hclose : close = '\x7d' ∨ close = '%')
    (hts : ts.all isPlain = true) :
    readTokens close ((' ' :: (writeTokens ts ++ close :: '\x7d' :: rest)).length + 1)
      (' ' :: (writeTokens ts ++ close :: '\x7d' :: rest)) = some (ts, .standard, rest) := by
  have hlength := length_le_writeTokens hts
  refine readTokens_writeTokens hclose hts ?_ [' '] ?_
  · simp only [List.length_cons, List.length_append]
    omega
  · intro c hc
    cases List.mem_singleton.mp hc
    rfl

variable {fuel : Nat} {blank : Bool} {more : List TemplateSegment}

theorem readSegments_output (hlead : '\x7b' ∉ lead) (hts : ts.all isPlain = true)
    (hmore : readSegments fuel false false rest = some more) :
    readSegments (fuel + 1) blank false (lead ++ (printedChars ts ++ rest)) =
      some (textSegment lead ++ .output ts :: more) := by
  have hchars : printedChars ts ++ rest =
      '\x7b' :: '\x7b' :: ' ' :: (writeTokens ts ++ '\x7d' :: '\x7d' :: rest) := by
    simp [printedChars]
  rw [hchars, readSegments]
  simp only [Bool.false_eq_true, if_false, List.length_nil, List.drop_zero,
    splitAtDelimiter_append hlead (.inl rfl)]
  rw [show readSign (' ' :: (writeTokens ts ++ '\x7d' :: '\x7d' :: rest)) =
    (.standard, ' ' :: (writeTokens ts ++ '\x7d' :: '\x7d' :: rest)) from rfl]
  dsimp only
  rw [readTokens_inner (.inl rfl) hts]
  have hkind : ('\x7b' == '#') = false := by decide
  simp only [Option.bind_eq_bind, Option.bind_some, hkind, Bool.false_eq_true, if_false,
    BEq.rfl, if_true, show (Blanks.standard == Blanks.remove) = false from rfl, hmore]
  rfl

/-- A tag that starts with another letter does not begin a raw part. -/
theorem readWordTag?_raw (hts : ts.all isPlain = true)
    (hraw : (writeTokens ts).head? ≠ some 'r') :
    readWordTag? "raw" (' ' :: (writeTokens ts ++ '%' :: rest)) = none := by
  cases ts with
  | nil => rfl
  | cons t ts =>
    rw [List.all_cons, Bool.and_eq_true] at hts
    obtain ⟨c, cs, hcs, hstart⟩ := exists_head_of_isPlain hts.1
    rw [writeTokens, hcs, List.cons_append] at hraw ⊢
    have hr : ('r' == c) = false := by
      rw [beq_eq_false_iff_ne]
      rintro rfl
      exact hraw rfl
    have hraw' : "raw".toList = ['r', 'a', 'w'] := by decide
    rw [readWordTag?, List.dropWhile_cons_of_pos (by decide), List.cons_append,
      List.dropWhile_cons_of_neg (by simp [not_isWhitespace_of_startsPlain hstart]), hraw']
    simp only [List.isPrefixOf_cons_cons, hr, Bool.false_and, Bool.false_eq_true, if_false]

theorem readSegments_tag (hlead : '\x7b' ∉ lead) (hflush : dropIndent lead = lead)
    (hts : ts.all isPlain = true) (hraw : (writeTokens ts).head? ≠ some 'r')
    (htail : dropLineEnd tail = rest)
    (hmore : ∀ blank, readSegments fuel blank false rest = some more) :
    readSegments (fuel + 1) blank false (lead ++ (tagChars ts ++ tail)) =
      some (textSegment lead ++ .tag ts :: more) := by
  have hchars : tagChars ts ++ tail =
      '\x7b' :: '%' :: ' ' :: (writeTokens ts ++ '%' :: '\x7d' :: tail) := by
    simp [tagChars]
  rw [hchars, readSegments]
  simp only [Bool.false_eq_true, if_false, List.length_nil, List.drop_zero,
    splitAtDelimiter_append hlead (.inr rfl)]
  rw [show readSign (' ' :: (writeTokens ts ++ '%' :: '\x7d' :: tail)) =
    (.standard, ' ' :: (writeTokens ts ++ '%' :: '\x7d' :: tail)) from rfl]
  dsimp only
  rw [readTokens_inner (.inr rfl) hts, readWordTag?_raw hts hraw]
  have hcomment : ('%' == '#') = false := by decide
  have hprinted : ('%' == '\x7b') = false := by decide
  have hlead' : ∀ blank, trimLead .standard ('%' != '\x7b') blank lead = lead := by
    intro blank
    cases blank with
    | false => rfl
    | true => exact hflush
  simp only [Option.bind_eq_bind, Option.bind_some, hcomment, hprinted, Bool.false_eq_true, if_false,
    hlead', trimTail, htail, hmore]

/-! ## Whole sources -/

/-- A text is shown as it is in front of a tag: no blanks that go stand at its end. -/
def isFlush (s : String) : Bool :=
  s.toList.getLast?.all fun c => !Text.isBlank c || isLineEnd c

theorem dropIndent_of_isFlush {s : String} (h : isFlush s = true) :
    dropIndent s.toList = s.toList := by
  have hlast : ∀ c, s.toList.getLast? = some c → (Text.isBlank c && !isLineEnd c) = false := by
    intro c hc
    rw [isFlush, hc] at h
    cases hblank : Text.isBlank c <;> simp_all
  have hdrop : dropIndent (s.toList ++ []) = s.toList :=
    Text.dropTailWhile_append (fun c hc => absurd hc List.not_mem_nil) hlast
  rwa [List.append_nil] at hdrop

def isTagLine (ts : List TemplateToken) : Bool :=
  ts.all isPlain && (writeTokens ts).head? != some 'r'

def isPlainText (s : String) : Bool :=
  s != "" && !s.toList.contains '\x7b'

/-- Segments that can be written: no text is empty, has a brace that opens, or stands last or in
front of another one, and what stands in front of a tag ends in no blanks. -/
def isWritable : List TemplateSegment → Bool
  | [] => true
  | .text s :: .output ts :: rest => isPlainText s && ts.all isPlain && isWritable rest
  | .text s :: .tag ts :: rest => isPlainText s && isFlush s && isTagLine ts && isWritable rest
  | .output ts :: rest => ts.all isPlain && isWritable rest
  | .tag ts :: rest => isTagLine ts && isWritable rest
  | _ => false

/-- A segment as it is written. -/
def writeSegment : TemplateSegment → String
  | .text s => s
  | .output ts => String.ofList (printedChars ts)
  | .tag ts => String.ofList (tagChars ts ++ ['\n'])

/-- What is read of a source: all of it but a line end behind the last tag. -/
def sourceChars : List TemplateSegment → List Char
  | [] => []
  | .text s :: rest => s.toList ++ sourceChars rest
  | .output ts :: rest => printedChars ts ++ sourceChars rest
  | .tag ts :: rest => tagChars ts ++ (if rest.isEmpty then [] else '\n' :: sourceChars rest)

theorem textSegment_toList {s : String} (h : s ≠ "") : textSegment s.toList = [.text s] := by
  rw [textSegment, if_neg, String.ofList_toList]
  rw [List.isEmpty_iff, String.toList_eq_nil_iff]
  exact h

/-- The line end behind a tag goes with it. -/
theorem dropLineEnd_sourceChars (segments : List TemplateSegment) :
    dropLineEnd (if segments.isEmpty then [] else '\n' :: sourceChars segments) =
      sourceChars segments := by
  cases segments with
  | nil => rfl
  | cons segment rest => rfl

theorem isPlainText_iff {s : String} :
    isPlainText s = true ↔ textSegment s.toList = [.text s] ∧ '\x7b' ∉ s.toList := by
  rw [isPlainText, Bool.and_eq_true, bne_iff_ne, Bool.not_eq_true', List.contains_eq_mem,
    decide_eq_false_iff_not]
  refine and_congr_left' ⟨textSegment_toList, ?_⟩
  rintro h rfl
  cases h

theorem isTagLine_iff : isTagLine ts = true ↔
    ts.all isPlain = true ∧ (writeTokens ts).head? ≠ some 'r' := by
  rw [isTagLine, Bool.and_eq_true, bne_iff_ne]

/-- What is written is read back, each text together with what ends it. -/
theorem readSegments_sourceChars {segments : List TemplateSegment} (blank : Bool)
    (h : isWritable segments = true) (hfuel : segments.length < fuel) :
    readSegments fuel blank false (sourceChars segments) = some segments := by
  fun_induction isWritable segments generalizing fuel blank with
  | case1 =>
    cases fuel with
    | zero => cases hfuel
    | succ fuel => rfl
  | case2 s ts rest ih =>
    obtain ⟨fuel, rfl⟩ : ∃ n, fuel = n + 1 := Nat.exists_eq_add_one.mpr (Nat.zero_lt_of_lt hfuel)
    rw [Bool.and_eq_true, Bool.and_eq_true, isPlainText_iff] at h
    obtain ⟨⟨⟨hs, hbrace⟩, hts⟩, hrest⟩ := h
    have hmore := ih false hrest (Nat.lt_of_succ_lt (Nat.lt_of_succ_lt_succ hfuel))
    rw [sourceChars, sourceChars, readSegments_output hbrace hts hmore, hs]
    rfl
  | case3 s ts rest ih =>
    obtain ⟨fuel, rfl⟩ : ∃ n, fuel = n + 1 := Nat.exists_eq_add_one.mpr (Nat.zero_lt_of_lt hfuel)
    rw [Bool.and_eq_true, Bool.and_eq_true, Bool.and_eq_true, isPlainText_iff, isTagLine_iff] at h
    obtain ⟨⟨⟨⟨hs, hbrace⟩, hflush⟩, hts, hraw⟩, hrest⟩ := h
    have hmore := fun blank =>
      ih blank hrest (Nat.lt_of_succ_lt (Nat.lt_of_succ_lt_succ hfuel))
    rw [sourceChars, sourceChars, readSegments_tag hbrace (dropIndent_of_isFlush hflush) hts hraw
      (dropLineEnd_sourceChars rest) hmore, hs]
    rfl
  | case4 ts rest ih =>
    obtain ⟨fuel, rfl⟩ : ∃ n, fuel = n + 1 := Nat.exists_eq_add_one.mpr (Nat.zero_lt_of_lt hfuel)
    rw [Bool.and_eq_true] at h
    have hmore := ih false h.2 (Nat.lt_of_succ_lt_succ hfuel)
    exact readSegments_output (List.not_mem_nil : '\x7b' ∉ []) h.1 hmore
  | case5 ts rest ih =>
    obtain ⟨fuel, rfl⟩ : ∃ n, fuel = n + 1 := Nat.exists_eq_add_one.mpr (Nat.zero_lt_of_lt hfuel)
    rw [Bool.and_eq_true, isTagLine_iff] at h
    have hmore := fun blank => ih blank h.2 (Nat.lt_of_succ_lt_succ hfuel)
    exact readSegments_tag (List.not_mem_nil : '\x7b' ∉ []) rfl h.1.1 h.1.2
      (dropLineEnd_sourceChars rest) hmore
  | case6 => cases h

/-! ## The end of a source -/

/-- What is read of a source ends in a brace, and at most a line end follows it. -/
structure EndsInBrace (segments : List TemplateSegment) : Prop where
  length_le : segments.length ≤ (sourceChars segments).length
  last : ∀ c, (sourceChars segments).getLast? = some c → c = '\x7d'
  written : ∃ behind, (behind = [] ∨ behind = ['\n']) ∧
    (String.join (segments.map writeSegment)).toList = sourceChars segments ++ behind

section End

variable {segment : TemplateSegment} {segments : List TemplateSegment}

theorem sourceChars_cons (hne : segments ≠ []) : sourceChars (segment :: segments) =
    (writeSegment segment).toList ++ sourceChars segments := by
  cases segment with
  | text s => rfl
  | output ts => rw [sourceChars, writeSegment, String.toList_ofList]
  | tag ts =>
    rw [sourceChars, writeSegment, String.toList_ofList, if_neg (by simpa using hne),
      List.append_assoc]
    rfl

theorem EndsInBrace.cons (h : EndsInBrace segments) (hne : segments ≠ [])
    (hsegment : (writeSegment segment).toList ≠ []) : EndsInBrace (segment :: segments) := by
  have hpos : 0 < segments.length := List.length_pos_iff.mpr hne
  have hlength := h.length_le
  have hsome : 0 < (writeSegment segment).toList.length := List.length_pos_iff.mpr hsegment
  refine ⟨?_, ?_, ?_⟩
  · rw [sourceChars_cons hne, List.length_append, List.length_cons]
    omega
  · intro c hc
    have hmore : sourceChars segments ≠ [] := List.length_pos_iff.mp (by omega)
    have hd := List.getLast?_eq_some_getLast hmore
    rw [sourceChars_cons hne, List.getLast?_append, hd, Option.some_or] at hc
    exact h.last c (hd.trans hc)
  · obtain ⟨behind, hbehind, hwritten⟩ := h.written
    refine ⟨behind, hbehind, ?_⟩
    rw [sourceChars_cons hne, List.map_cons, String.join_cons, String.toList_append, hwritten,
      List.append_assoc]

theorem endsInBrace_output : EndsInBrace [.output ts] := by
  refine ⟨Nat.succ_le_of_lt (Nat.zero_lt_succ _), ?_, [], .inl rfl, ?_⟩
  · intro c hc
    have hchars : sourceChars [.output ts] =
        '\x7b' :: '\x7b' :: ' ' :: (writeTokens ts ++ ['\x7d']) ++ ['\x7d'] := by
      simp [sourceChars, printedChars]
    rw [hchars, List.getLast?_concat] at hc
    exact (Option.some.inj hc).symm
  · simp [sourceChars, writeSegment]

theorem endsInBrace_tag : EndsInBrace [.tag ts] := by
  refine ⟨Nat.succ_le_of_lt (Nat.zero_lt_succ _), ?_, ['\n'], .inr rfl, ?_⟩
  · intro c hc
    have hchars : sourceChars [.tag ts] =
        '\x7b' :: '%' :: ' ' :: (writeTokens ts ++ ['%']) ++ ['\x7d'] := by
      simp [sourceChars, tagChars]
    rw [hchars, List.getLast?_concat] at hc
    exact (Option.some.inj hc).symm
  · simp [sourceChars, writeSegment]

theorem endsInBrace_nil : EndsInBrace [] where
  length_le := Nat.le_refl 0
  last := fun c hc => by cases hc
  written := ⟨[], .inl rfl, rfl⟩

theorem EndsInBrace.output (h : EndsInBrace segments) : EndsInBrace (.output ts :: segments) := by
  by_cases hne : segments = []
  · rw [hne]
    exact endsInBrace_output
  · refine h.cons hne ?_
    rw [writeSegment, String.toList_ofList]
    exact List.cons_ne_nil _ _

theorem EndsInBrace.tag (h : EndsInBrace segments) : EndsInBrace (.tag ts :: segments) := by
  by_cases hne : segments = []
  · rw [hne]
    exact endsInBrace_tag
  · refine h.cons hne ?_
    rw [writeSegment, String.toList_ofList]
    exact List.cons_ne_nil _ _

theorem EndsInBrace.text {s : String} (h : EndsInBrace segments) (hne : segments ≠ [])
    (hs : isPlainText s = true) : EndsInBrace (.text s :: segments) := by
  refine h.cons hne fun hempty => ?_
  have htext := (isPlainText_iff.mp hs).1
  rw [show s.toList = [] from hempty] at htext
  cases htext

theorem endsInBrace_of_isWritable (h : isWritable segments = true) : EndsInBrace segments := by
  fun_induction isWritable segments with
  | case1 => exact endsInBrace_nil
  | case2 s ts rest ih =>
    rw [Bool.and_eq_true, Bool.and_eq_true] at h
    exact (ih h.2).output.text (List.cons_ne_nil _ _) h.1.1
  | case3 s ts rest ih =>
    rw [Bool.and_eq_true, Bool.and_eq_true, Bool.and_eq_true] at h
    exact (ih h.2).tag.text (List.cons_ne_nil _ _) h.1.1.1
  | case4 ts rest ih =>
    rw [Bool.and_eq_true] at h
    exact (ih h.2).output
  | case5 ts rest ih =>
    rw [Bool.and_eq_true] at h
    exact (ih h.2).tag
  | case6 => cases h

theorem EndsInBrace.dropLastLineEnd (h : EndsInBrace segments) :
    dropLastLineEnd (String.join (segments.map writeSegment)).toList = sourceChars segments := by
  have hne : ∀ c, c ≠ '\x7d' → ((sourceChars segments).getLast? == some c) = false := by
    intro c hc
    rw [beq_eq_false_iff_ne]
    intro heq
    exact hc (h.last c heq)
  obtain ⟨behind, rfl | rfl, hwritten⟩ := h.written
  · rw [hwritten, List.append_nil, Template.dropLastLineEnd, hne _ (by decide),
      if_neg Bool.false_ne_true, hne _ (by decide), if_neg Bool.false_ne_true]
  · rw [hwritten, Template.dropLastLineEnd, List.getLast?_concat, List.dropLast_concat, BEq.rfl,
      if_pos rfl, hne _ (by decide), if_neg Bool.false_ne_true]

/-- A source that is written segment by segment is read as these segments. -/
theorem templateSegments?_written (h : isWritable segments = true) :
    templateSegments? (String.join (segments.map writeSegment)) = some segments := by
  have hend := endsInBrace_of_isWritable h
  rw [templateSegments?, hend.dropLastLineEnd]
  apply readSegments_sourceChars true h
  obtain ⟨behind, -, hwritten⟩ := hend.written
  have hlength := hend.length_le
  rw [← String.length_toList, hwritten, List.length_append]
  omega

end End

end ImportContext.Template
