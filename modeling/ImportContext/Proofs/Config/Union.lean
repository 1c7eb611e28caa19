import ImportContext.Config.Basic
import Mathlib.Data.List.Lex
import Mathlib.Data.List.Sort

/-!
# Sorted unions

Values are compared by keys. Whatever is put into a list one by one, in whatever order, its keys
stay strictly increasing and are those of all values, so lists of the same keys have them in the
same order. Which of two values of one key stays has no part in that.

Results:
* `increasing_sortedUnion`, `mem_keys_sortedUnion`: a union holds each key of the two lists once, in
  order.
* `Increasing.map_eq`: increasing lists with the same keys have the same list of keys.
* `isUnion_foldl`, `IsUnion.map_eq_of_perm`: the union of several lists, in whatever order.
-/

namespace ImportContext

variable {α κ : Type} [LinearOrder κ] {key : α → κ} {le : α → α → Bool} {choose : α → α → α}
  {a b : α} {l values base overlay : List α} {k : κ}

/-- The keys of a list increase strictly. -/
def Increasing (key : α → κ) (l : List α) : Prop :=
  (l.map key).Pairwise (· < ·)

theorem Increasing.map_eq {l' : List α} (h : Increasing key l) (h' : Increasing key l')
    (hkeys : ∀ k, k ∈ l.map key ↔ k ∈ l'.map key) : l.map key = l'.map key :=
  List.Pairwise.eq_of_mem_iff h h' hkeys

/-! ## One value -/

section Insert

variable (hle : ∀ a b, le a b = true ↔ key a ≤ key b)
  (hchoose : ∀ old new, choose old new = old ∨ choose old new = new)

omit [LinearOrder κ] in
include hchoose in
/-- Whichever of two values of one key is chosen has that key. -/
theorem key_choose (h : key a = key b) : key (choose b a) = key b := by
  rcases hchoose b a with hold | hnew
  · rw [hold]
  · rw [hnew, h]

include hchoose in
theorem mem_insertSorted (h : b ∈ insertSorted le choose a l) : b = a ∨ b ∈ l := by
  induction l with
  | nil => exact .inl (List.mem_singleton.mp h)
  | cons x rest ih =>
    rw [insertSorted] at h
    split at h
    · split at h
      · rcases List.mem_cons.mp h with hb | h
        · rcases hchoose x a with hold | hnew
          · exact .inr (List.mem_cons.mpr (.inl (hb.trans hold)))
          · exact .inl (hb.trans hnew)
        · exact .inr (List.mem_cons_of_mem _ h)
      · exact List.mem_cons.mp h
    · rcases List.mem_cons.mp h with rfl | h
      · exact .inr List.mem_cons_self
      · exact (ih h).imp_right (List.mem_cons_of_mem _)

include hle hchoose in
/-- A value adds its own key. -/
theorem mem_keys_insertSorted :
    k ∈ (insertSorted le choose a l).map key ↔ k = key a ∨ k ∈ l.map key := by
  induction l with
  | nil => simp [insertSorted]
  | cons x rest ih =>
    rw [insertSorted]
    split
    · next hax =>
      split
      · next hxa =>
        have hsame : key a = key x := le_antisymm ((hle a x).mp hax) ((hle x a).mp hxa)
        rw [List.map_cons, List.map_cons, key_choose hchoose hsame, hsame, List.mem_cons]
        exact ⟨.inr, fun h => h.elim .inl id⟩
      · rw [List.map_cons, List.mem_cons]
    · rw [List.map_cons, List.map_cons, List.mem_cons, List.mem_cons, ih]
      exact or_left_comm

include hle hchoose in
theorem increasing_insertSorted (h : Increasing key l) :
    Increasing key (insertSorted le choose a l) := by
  induction l with
  | nil => exact List.pairwise_singleton _ _
  | cons x rest ih =>
    obtain ⟨hx, hrest⟩ := List.pairwise_cons.mp h
    rw [Increasing, insertSorted]
    split
    · next hax =>
      split
      · next hxa =>
        have hsame : key a = key x := le_antisymm ((hle a x).mp hax) ((hle x a).mp hxa)
        rw [List.map_cons, key_choose hchoose hsame]
        exact h
      · next hxa =>
        have hlt : key a < key x := lt_of_not_ge fun hge => hxa ((hle x a).mpr hge)
        refine List.pairwise_cons.mpr ⟨?_, h⟩
        intro k hk
        rcases List.mem_cons.mp hk with rfl | hk
        · exact hlt
        · exact hlt.trans (hx k hk)
    · next hax =>
      have hlt : key x < key a := lt_of_not_ge fun hge => hax ((hle a x).mpr hge)
      refine List.pairwise_cons.mpr ⟨?_, ih hrest⟩
      intro k hk
      rcases (mem_keys_insertSorted hle hchoose).mp hk with rfl | hk
      · exact hlt
      · exact hx k hk

/-! ## All values of a list -/

include hchoose in
theorem mem_insertAll (h : b ∈ insertAll le choose values l) : b ∈ values ∨ b ∈ l := by
  induction values generalizing l with
  | nil => exact .inr h
  | cons a values ih =>
    rcases ih h with h | h
    · exact .inl (List.mem_cons_of_mem _ h)
    · rcases mem_insertSorted hchoose h with rfl | h
      · exact .inl List.mem_cons_self
      · exact .inr h

include hle hchoose in
theorem mem_keys_insertAll :
    k ∈ (insertAll le choose values l).map key ↔ k ∈ values.map key ∨ k ∈ l.map key := by
  induction values generalizing l with
  | nil => simp [insertAll]
  | cons a values ih =>
    have hrest := ih (l := insertSorted le choose a l)
    rw [insertAll] at hrest
    rw [insertAll, List.foldl_cons, hrest, mem_keys_insertSorted hle hchoose, List.map_cons,
      List.mem_cons]
    exact or_left_comm.trans or_assoc.symm

include hle hchoose in
theorem increasing_insertAll (h : Increasing key l) :
    Increasing key (insertAll le choose values l) := by
  induction values generalizing l with
  | nil => exact h
  | cons a values ih => exact ih (increasing_insertSorted hle hchoose h)

end Insert

/-! ## Unions -/

theorem mem_of_mem_sortedUnion (h : a ∈ sortedUnion le base overlay) : a ∈ base ∨ a ∈ overlay := by
  rcases mem_insertAll (fun _ _ => .inl rfl) h with h | h
  · exact .inr h
  · exact .inl ((mem_insertAll (fun _ _ => .inr rfl) h).resolve_right List.not_mem_nil)

theorem mem_keys_sortedUnion (hle : ∀ a b, le a b = true ↔ key a ≤ key b) :
    k ∈ (sortedUnion le base overlay).map key ↔ k ∈ base.map key ∨ k ∈ overlay.map key := by
  rw [sortedUnion, mem_keys_insertAll hle fun _ _ => .inl rfl,
    mem_keys_insertAll hle fun _ _ => .inr rfl, List.map_nil, or_iff_left List.not_mem_nil]
  exact or_comm

theorem increasing_sortedUnion (hle : ∀ a b, le a b = true ↔ key a ≤ key b)
    (base overlay : List α) : Increasing key (sortedUnion le base overlay) :=
  increasing_insertAll hle (fun _ _ => .inl rfl)
    (increasing_insertAll hle (fun _ _ => .inr rfl) List.Pairwise.nil)

theorem map_key_sortedUnion_assoc (hle : ∀ a b, le a b = true ↔ key a ≤ key b)
    (l₁ l₂ l₃ : List α) : (sortedUnion le (sortedUnion le l₁ l₂) l₃).map key =
      (sortedUnion le l₁ (sortedUnion le l₂ l₃)).map key := by
  refine (increasing_sortedUnion hle _ _).map_eq (increasing_sortedUnion hle _ _) fun k => ?_
  rw [mem_keys_sortedUnion hle, mem_keys_sortedUnion hle, mem_keys_sortedUnion hle,
    mem_keys_sortedUnion hle]
  exact or_assoc

/-! ## Unions of several lists -/

/-- The values of several lists: sorted, each once, and no others. -/
structure IsUnion (key : α → κ) (lists : List (List α)) (union : List α) : Prop where
  increasing : Increasing key union
  keys (k : κ) : k ∈ union.map key ↔ ∃ l ∈ lists, k ∈ l.map key
  subset : ∀ a ∈ union, ∃ l ∈ lists, a ∈ l

/-- The order of the lists does not matter. -/
theorem IsUnion.map_eq_of_perm {lists lists' : List (List α)} {union union' : List α}
    (h : IsUnion key lists union) (h' : IsUnion key lists' union') (hperm : lists.Perm lists') :
    union.map key = union'.map key := by
  refine h.increasing.map_eq h'.increasing fun k => ?_
  rw [h.keys, h'.keys]
  exact exists_congr fun l => and_congr_left' hperm.mem_iff

/-- The union of two lists stands for both. -/
theorem IsUnion.of_sortedUnion (hle : ∀ a b, le a b = true ↔ key a ≤ key b)
    {lists : List (List α)} {union : List α}
    (h : IsUnion key (sortedUnion le base overlay :: lists) union) :
    IsUnion key (base :: overlay :: lists) union where
  increasing := h.increasing
  keys k := by
    rw [h.keys, List.exists_mem_cons_iff, List.exists_mem_cons_iff, List.exists_mem_cons_iff,
      mem_keys_sortedUnion hle]
    exact or_assoc
  subset a ha := by
    have hlists := h.subset a ha
    rw [List.exists_mem_cons_iff] at hlists
    rw [List.exists_mem_cons_iff, List.exists_mem_cons_iff]
    rcases hlists with ha | ha
    · exact (mem_of_mem_sortedUnion ha).imp_right .inl
    · exact .inr (.inr ha)

/-- A list alone is left as it is. -/
theorem isUnion_foldl (hle : ∀ a b, le a b = true ↔ key a ≤ key b) {first : List α}
    {rest : List (List α)} (h : rest = [] → Increasing key first) :
    IsUnion key (first :: rest) (rest.foldl (sortedUnion le) first) := by
  induction rest generalizing first with
  | nil => exact ⟨h rfl, fun k => by simp, fun a ha => ⟨first, List.mem_singleton_self _, ha⟩⟩
  | cons l rest ih => exact (ih fun _ => increasing_sortedUnion hle _ _).of_sortedUnion hle

end ImportContext
