import ImportContext.Proofs.Path.Below
import Mathlib.Data.List.Lex
import Mathlib.Data.Prod.Lex
import Mathlib.Data.String.Basic

/-!
# The order of paths

Paths are compared component by component: the kinds of components have an order among each other,
and ordinary names are compared as texts, so as their bytes. A path that another one continues
comes first. This differs from the order of the texts, since a slash is no component: `a/b` comes
before `a.b`.

Results:
* `Path.le_iff`: paths compare as their keys, so their order is total.
* `Path.key_eq_iff`: paths have one key if they have the same components.
* `Path.eq_of_key_foldl_child`: below one path, names are told by the key.
-/

namespace ImportContext.Path

variable {p q : Path}

namespace Component

/-- What a component is compared by: its kind, then the text of an ordinary name. -/
def key : Component → ℕ ×ₗ String
  | .name s => toLex (3, s)
  | .up => toLex (2, "")
  | .here => toLex (1, "")
  | .root => toLex (0, "")

theorem key_injective : Function.Injective key := by
  intro a b h
  cases a <;> cases b <;> simp_all [key]

theorem le_iff {a b : Component} : a.le b = true ↔ a.key ≤ b.key := by
  cases a <;> cases b <;> simp [Component.le, key, rank, Prod.Lex.toLex_le_toLex]

end Component

/-- What a path is compared by. -/
def key (p : Path) : List (ℕ ×ₗ String) :=
  p.components.map Component.key

theorem lexLe_iff {as bs : List Component} :
    lexLe as bs = true ↔ as.map Component.key ≤ bs.map Component.key := by
  rw [← not_lt]
  induction as generalizing bs with
  | nil => simp [lexLe]
  | cons a as ih =>
    cases bs with
    | nil => simp [lexLe]
    | cons b bs =>
      rw [lexLe, List.map_cons, List.map_cons, List.cons_lt_cons_iff]
      split
      · next heq =>
        rw [ih, heq]
        simp
      · next hne =>
        have hkey : a.key ≠ b.key := fun h => hne (Component.key_injective h)
        rw [Component.le_iff]
        simp [hkey.symm]

/-- Paths compare as their keys. -/
theorem le_iff (p q : Path) : p.le q = true ↔ p.key ≤ q.key :=
  lexLe_iff

theorem key_eq_iff : p.key = q.key ↔ p.same q = true := by
  rw [key, key, same, beq_iff_eq]
  exact (List.map_injective_iff.mpr Component.key_injective).eq_iff

/-- Lists of paths have the same keys if they have the same components. -/
theorem map_components_eq_iff {l l' : List Path} :
    l.map components = l'.map components ↔ l.map key = l'.map key := by
  have hkey : key = List.map Component.key ∘ components := rfl
  have hinjective : Function.Injective (List.map (List.map Component.key)) :=
    List.map_injective_iff.mpr (List.map_injective_iff.mpr Component.key_injective)
  rw [hkey, ← List.map_map, ← List.map_map, hinjective.eq_iff]

/-- Names below one path are told by the key of where they lead. -/
theorem eq_of_key_foldl_child {ns ns' : List String} (hp : p.text ≠ "") (h : ∀ s ∈ ns, IsName s)
    (h' : ∀ s ∈ ns', IsName s) (hkey : (ns.foldl child p).key = (ns'.foldl child p).key) :
    ns = ns' := by
  rw [key_eq_iff, same, beq_iff_eq, components_foldl_child hp h,
    components_foldl_child hp h'] at hkey
  refine List.map_injective_iff.mpr ?_ (List.append_cancel_left hkey)
  exact fun s s' heq => Component.name.inj heq

end ImportContext.Path
