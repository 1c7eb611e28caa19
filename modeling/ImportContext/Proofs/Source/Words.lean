import ImportContext.Source.ImportReader

/-!
# Words

What the reader of words takes for one, and what it gives back of a word that is followed by
something else.

Results:
* `exists_of_word?`: what is read as a word has the characters of one.
* `word?_append`: a word is read up to where it ends.
-/

namespace ImportContext.Source

/-- A text that is read as one word. -/
def IsWord (w : String) : Prop :=
  ∃ c cs, w.toList = c :: cs ∧ isWordStart c = true ∧ ∀ x ∈ cs, isWordPart x = true

variable {w : String} {cs rest : List Char}

theorem isWord_of_all {c : Char} (hw : w.toList = c :: cs) (hstart : isWordStart c = true)
    (hparts : cs.all isWordPart = true) : IsWord w :=
  ⟨c, cs, hw, hstart, List.all_eq_true.mp hparts⟩

theorem exists_of_word? (h : word? cs = some w) : IsWord w ∧ ∃ rest, cs = w.toList ++ rest := by
  cases cs with
  | nil => cases h
  | cons c rest =>
    by_cases hstart : isWordStart c = true
    · have hlength : wordLength (c :: rest) = (rest.takeWhile isWordPart).length + 1 := by
        rw [wordLength, if_pos hstart]
      have htake : rest.take (rest.takeWhile isWordPart).length = rest.takeWhile isWordPart :=
        List.prefix_iff_eq_take.mp (List.takeWhile_prefix _) |>.symm
      rw [word?, hlength] at h
      obtain rfl := Option.some.inj h
      rw [List.take_succ_cons, htake]
      refine ⟨⟨c, rest.takeWhile isWordPart, String.toList_ofList, hstart, ?_⟩,
        rest.dropWhile isWordPart, ?_⟩
      · exact List.all_eq_true.mp List.all_takeWhile
      · rw [String.toList_ofList, List.cons_append, List.takeWhile_append_dropWhile]
    · rw [word?, wordLength, if_neg hstart] at h
      cases h

theorem word?_append (hw : IsWord w) (hrest : rest.takeWhile isWordPart = []) :
    word? (w.toList ++ rest) = some w := by
  obtain ⟨c, cs, hcs, hstart, hparts⟩ := hw
  have hlength : wordLength (w.toList ++ rest) = cs.length + 1 := by
    rw [hcs, List.cons_append, wordLength, if_pos hstart, List.takeWhile_append_of_pos hparts,
      hrest, List.append_nil]
  have hword : (w.toList ++ rest).take (cs.length + 1) = w.toList := by
    rw [hcs, List.cons_append, List.take_succ_cons, List.take_left]
  rw [word?, hlength]
  simp only [hword, String.ofList_toList]

theorem isWordPart_of_isWordStart {c : Char} (h : isWordStart c = true) : isWordPart c = true := by
  rw [isWordStart] at h
  rw [isWordPart]
  split at h
  · next hlt =>
    rw [if_pos hlt, Char.isAlphanum, Bool.or_right_comm, h, Bool.true_or]
  · next hlt => rw [if_neg hlt, h, Bool.true_or]

theorem IsWord.isWordPart {c : Char} (hw : IsWord w) (hc : c ∈ w.toList) : isWordPart c = true := by
  obtain ⟨a, cs, hcs, hstart, hparts⟩ := hw
  rw [hcs] at hc
  rcases List.mem_cons.mp hc with rfl | hc
  · exact isWordPart_of_isWordStart hstart
  · exact hparts c hc

theorem IsWord.not_mem {c : Char} (hw : IsWord w) (hc : Source.isWordPart c = false) :
    c ∉ w.toList := by
  intro hmem
  rw [hw.isWordPart hmem] at hc
  cases hc

theorem IsWord.toList_ne_nil (hw : IsWord w) : w.toList ≠ [] := by
  obtain ⟨c, cs, hcs, -⟩ := hw
  rw [hcs]
  exact List.cons_ne_nil c cs

theorem isWord_of_takeWord {k k' : Cursor} (h : k.takeWord = some (w, k')) : IsWord w := by
  rw [Cursor.takeWord] at h
  split at h
  · next w' hw =>
    cases h
    exact (exists_of_word? hw).1
  · cases h

end ImportContext.Source
