import Mathlib.Data.List.TakeWhile
import ImportContext.Text.Blank

/-!
# Trimming

What is trimmed off a text and what stays: a text between characters that go keeps nothing of them,
and trimming ends at the first character that stays.

Results:
* `dropTailWhile_append`: the characters of a tail go if what stands before them stays.
* `dropTailWhile_dropWhile`: a text comes back from between characters that go.
* `exists_trimEnd`: a text is what is left of it by trimming its end, and blanks.
-/

namespace ImportContext.Text

variable {p : Char → Bool} {front mid back cs : List Char}

/-- Neither the first nor the last character has the property. -/
def EndsFree (p : Char → Bool) (cs : List Char) : Prop :=
  (∀ c, cs.head? = some c → p c = false) ∧ ∀ c, cs.getLast? = some c → p c = false

theorem dropWhile_append_of_head (hfront : ∀ c ∈ front, p c = true)
    (hhead : ∀ c, mid.head? = some c → p c = false) : (front ++ mid).dropWhile p = mid := by
  rw [List.dropWhile_append_of_pos hfront]
  cases mid with
  | nil => rfl
  | cons c rest =>
    apply List.dropWhile_cons_of_neg
    simp [hhead c rfl]

/-- The characters of a tail go if what stands before them stays. -/
theorem dropTailWhile_append (hback : ∀ c ∈ back, p c = true)
    (hlast : ∀ c, mid.getLast? = some c → p c = false) : dropTailWhile p (mid ++ back) = mid := by
  rw [dropTailWhile, List.reverse_append, dropWhile_append_of_head, List.reverse_reverse]
  · intro c hc
    exact hback c (List.mem_reverse.mp hc)
  · intro c hc
    rw [List.head?_reverse] at hc
    exact hlast c hc

/-- A text comes back from between characters that go. -/
theorem dropTailWhile_dropWhile (hfront : ∀ c ∈ front, p c = true)
    (hback : ∀ c ∈ back, p c = true) (hmid : EndsFree p mid) :
    dropTailWhile p ((front ++ mid ++ back).dropWhile p) = mid := by
  by_cases hempty : mid = []
  · have hall : (front ++ mid ++ back).dropWhile p = [] := by
      rw [List.dropWhile_eq_nil_iff, hempty]
      intro c hc
      simp only [List.append_nil, List.mem_append] at hc
      exact hc.elim (hfront c) (hback c)
    rw [hall, hempty]
    rfl
  · rw [List.append_assoc, dropWhile_append_of_head hfront, dropTailWhile_append hback hmid.2]
    intro c hc
    apply hmid.1 c
    cases mid with
    | nil => exact absurd rfl hempty
    | cons d rest => exact hc

/-- A text is what is left of it by trimming its end, and blanks. -/
theorem exists_trimEnd (s : String) : ∃ blanks, s = trimEnd s ++ String.ofList blanks ∧
    (∀ c ∈ blanks, isBlank c = true) ∧
    ∀ c, (trimEnd s).toList.getLast? = some c → isBlank c = false := by
  refine ⟨(s.toList.reverse.takeWhile isBlank).reverse, ?_, ?_, ?_⟩
  · rw [← String.toList_inj]
    simp only [trimEnd, dropTailWhile, String.toList_append, String.toList_ofList]
    rw [← List.reverse_append, List.takeWhile_append_dropWhile, List.reverse_reverse]
  · intro c hc
    exact List.mem_takeWhile_imp (List.mem_reverse.mp hc)
  · intro c hc
    rw [trimEnd, dropTailWhile, String.toList_ofList, List.getLast?_reverse] at hc
    have hhead := List.head?_dropWhile_not isBlank s.toList.reverse
    rw [hc] at hhead
    simpa using hhead

end ImportContext.Text
