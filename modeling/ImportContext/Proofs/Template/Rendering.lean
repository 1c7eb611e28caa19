import Mathlib.Data.List.Forall2
import ImportContext.Template.Node

/-!
# What templates show

Nodes that set no names are shown one by one: the text of a list of them is that of its nodes, one
after the other. Of a branch the first case whose test is true is shown, and of a loop its body,
once for every item.

Results:
* `shows_of_pieces`: the text of several nodes.
* `shows_case_true`, `shows_case_false`: branches.
* `shows_loop`: loops whose body shows the same for an item wherever it stands.
-/

namespace ImportContext

variable {scope : TemplateScope} {node : TemplateNode} {nodes more : List TemplateNode}
  {s t : String} {texts : List String} {e test : TemplateExpr} {v : TemplateValue}

/-- In a scope, nodes are shown as a text, and set no names. -/
def Shows (scope : TemplateScope) (nodes : List TemplateNode) (text : String) : Prop :=
  renderNodes scope nodes = some (text, scope)

theorem renderTemplate?_of_shows (h : Shows scope nodes t) :
    renderTemplate? nodes scope = some t := by
  rw [renderTemplate?, h]
  rfl

/-! ## Sequences -/

theorem shows_nil : Shows scope [] "" := by
  rw [Shows, renderNodes]

theorem shows_singleton_iff : Shows scope [node] t ↔ renderNode scope node = some (t, scope) := by
  rw [Shows, renderNodes]
  cases h : renderNode scope node with
  | none => simp
  | some shown =>
    obtain ⟨out, after⟩ := shown
    simp [renderNodes]

/-- Further nodes see the names that those before them have set. -/
theorem renderNodes_append : renderNodes scope (nodes ++ more) =
    (renderNodes scope nodes).bind fun (out, after) =>
      (renderNodes after more).map fun (rest, last) => (out ++ rest, last) := by
  induction nodes generalizing scope with
  | nil => simp [renderNodes]
  | cons node nodes ih =>
    rw [List.cons_append, renderNodes, renderNodes]
    simp only [ih, Option.bind_eq_bind, Option.bind_assoc, Option.map_eq_bind]
    simp only [Function.comp_def, Option.bind_some, String.append_assoc]

theorem shows_append (h : Shows scope nodes s) (hmore : Shows scope more t) :
    Shows scope (nodes ++ more) (s ++ t) := by
  unfold Shows at h hmore ⊢
  rw [renderNodes_append, h, Option.bind_some]
  dsimp only
  rw [hmore, Option.map_some]

/-- Nodes are shown one after the other. -/
theorem shows_of_pieces (h : List.Forall₂ (fun node s => Shows scope [node] s) nodes texts) :
    Shows scope nodes (String.join texts) := by
  induction h with
  | nil => exact shows_nil
  | cons hnode _ ih =>
    rw [String.join_cons]
    exact shows_append hnode ih

/-! ## Single nodes -/

theorem shows_text : Shows scope [.text s] s := by
  rw [shows_singleton_iff, renderNode]

theorem shows_output (h : e.eval? scope = some v) : Shows scope [.output e] v.display := by
  rw [shows_singleton_iff, renderNode, h]
  rfl

theorem shows_output_string (h : e.eval? scope = some (.string t)) : Shows scope [.output e] t :=
  shows_output h

/-- A text that is printed between two others. -/
theorem shows_framed {before after : String} (h : e.eval? scope = some (.string t)) :
    Shows scope [.text before, .output e, .text after] (String.join [before, t, after]) :=
  shows_of_pieces <| .cons shows_text <| .cons (shows_output_string h) <| .cons shows_text .nil

section Branch

variable {body otherwise : List TemplateNode} {cases : List (TemplateExpr × List TemplateNode)}

/-- Without cases, the alternative is shown. -/
theorem shows_otherwise (h : Shows scope otherwise t) : Shows scope [.branch [] otherwise] t := by
  rw [shows_singleton_iff, renderNode, renderCases]
  exact h

theorem shows_case_true (htest : test.eval? scope = some v) (htrue : v.truth = true)
    (h : Shows scope body t) : Shows scope [.branch ((test, body) :: cases) otherwise] t := by
  rw [shows_singleton_iff, renderNode, renderCases, htest]
  simp only [Option.bind_eq_bind, Option.bind_some, if_pos htrue]
  exact h

theorem shows_case_false (htest : test.eval? scope = some v) (hfalse : v.truth = false)
    (h : Shows scope [.branch cases otherwise] t) :
    Shows scope [.branch ((test, body) :: cases) otherwise] t := by
  rw [shows_singleton_iff, renderNode] at h
  rw [shows_singleton_iff, renderNode, renderCases, htest]
  simp only [Option.bind_eq_bind, Option.bind_some, hfalse, Bool.false_eq_true, if_false]
  exact h

end Branch

/-! ## Loops -/

section Loop

variable {α : Type} {target : String} {items : List α} {value : α → TemplateValue}
  {body : List TemplateNode} {text : α → String}

/-- The scopes give the same values to all names but the two that a loop sets. -/
def SameOutside (target : String) (scope scope' : TemplateScope) : Prop :=
  ∀ name, name ≠ target → name ≠ "loop" → scope'.lookup name = scope.lookup name

theorem SameOutside.refl (target : String) (scope : TemplateScope) :
    SameOutside target scope scope :=
  fun _ _ _ => rfl

theorem SameOutside.cons {scope' : TemplateScope} (h : SameOutside target scope scope')
    (item state : TemplateValue) :
    SameOutside target scope ((target, item) :: ("loop", state) :: scope') := by
  intro name htarget hloop
  rw [List.lookup_cons, List.lookup_cons, beq_false_of_ne htarget, beq_false_of_ne hloop]
  exact h name htarget hloop

/-- The runs of a body that shows the same for an item wherever it stands in the list. What one run
leaves behind are the names of the loop, which the next one sets anew. -/
theorem runLoop_eq {scope' : TemplateScope} (n i : Nat) (hsame : SameOutside target scope scope')
    (h : ∀ scope', SameOutside target scope scope' → ∀ state, ∀ item ∈ items,
      Shows ((target, value item) :: ("loop", state) :: scope') body (text item)) :
    runLoop (fun scope => renderNodes scope body) target n scope' i (items.map value) =
      some (String.join (items.map text)) := by
  induction items generalizing scope' i with
  | nil => rfl
  | cons item items ih =>
    have hitem := h scope' hsame (loopState i n) item List.mem_cons_self
    have hrest := ih (i + 1) (hsame.cons (value item) (loopState i n))
      fun scope' hsame state item hmem => h scope' hsame state item (List.mem_cons_of_mem _ hmem)
    rw [List.map_cons, runLoop, show renderNodes _ body = _ from hitem]
    simp only [Option.bind_eq_bind, Option.bind_some, hrest, List.map_cons, String.join_cons]

theorem shows_loop {source : TemplateExpr}
    (hsource : source.eval? scope = some (.list (items.map value)))
    (h : ∀ scope', SameOutside target scope scope' → ∀ state, ∀ item ∈ items,
      Shows ((target, value item) :: ("loop", state) :: scope') body (text item)) :
    Shows scope [.loop target source none body []] (String.join (items.map text)) := by
  rw [shows_singleton_iff, renderNode, hsource]
  simp only [Option.bind_eq_bind, Option.bind_some, TemplateValue.items?, passing?]
  cases items with
  | nil => rw [List.map_nil, List.isEmpty_nil, if_pos rfl, renderNodes, List.map_nil,
      String.join_nil]
  | cons item items =>
    rw [runLoop_eq _ 0 (.refl target scope) h]
    rfl

end Loop

end ImportContext
