import ImportContext.Template.Expression

/-!
# Templates

A template is a list of nodes: text, printed expressions, branches, loops and assignments.
Rendering fails when an expression has no value. What a loop tells its body, and how long a name
that was set lasts, follows minijinja.

Main definitions: `TemplateNode`, `renderNodes`, `renderTemplate?`.
-/

namespace ImportContext

inductive TemplateNode where
  | text (s : String)
  | output (e : TemplateExpr)
  /-- The first case whose test is true, or the alternative. -/
  | branch (cases : List (TemplateExpr × List TemplateNode)) (otherwise : List TemplateNode)
  /-- The body for every value that passes the condition, or the alternative when there is
  none. -/
  | loop (target : String) (source : TemplateExpr) (condition : Option TemplateExpr)
      (body otherwise : List TemplateNode)
  | assign (name : String) (e : TemplateExpr)
deriving Inhabited

/-- What a loop tells its body about the iteration `i` of `n`. -/
def loopState (i n : Nat) : TemplateValue :=
  .record [("index0", .int i), ("index", .int (i + 1)), ("length", .int n),
    ("revindex", .int (n - i)), ("revindex0", .int (n - i - 1)), ("first", .bool (i == 0)),
    ("last", .bool (i + 1 == n))]

/-- The values that pass the condition of a loop. -/
def passing? (scope : TemplateScope) (target : String) (condition : Option TemplateExpr)
    (items : List TemplateValue) : Option (List TemplateValue) :=
  match condition with
  | none => some items
  | some test => items.filterM fun v => do
    let verdict ← test.eval? ((target, v) :: scope)
    some verdict.truth

/-- Runs a loop body for items numbered from `i`; names set by one run are seen by the next. -/
def runLoop (body : TemplateScope → Option (String × TemplateScope)) (target : String) (n : Nat)
    (scope : TemplateScope) (i : Nat) : List TemplateValue → Option String
  | [] => some ""
  | v :: vs => do
    let (out, scope) ← body ((target, v) :: ("loop", loopState i n) :: scope)
    let rest ← runLoop body target n scope (i + 1) vs
    some (out ++ rest)

mutual

/-- The text of one node, and the names that are set behind it. -/
def renderNode (scope : TemplateScope) (node : TemplateNode) : Option (String × TemplateScope) :=
  match node with
  | .text s => some (s, scope)
  | .output e => (e.eval? scope).map fun v => (v.display, scope)
  | .assign name e => (e.eval? scope).map fun v => ("", (name, v) :: scope)
  | .branch cases otherwise => renderCases scope (renderNodes scope otherwise) cases
  | .loop target source condition body otherwise => do
    let v ← source.eval? scope
    let items ← passing? scope target condition (← v.items?)
    if items.isEmpty then renderNodes scope otherwise
    else
      let out ← runLoop (fun scope => renderNodes scope body) target items.length scope 0 items
      some (out, scope)

/-- The text of nodes one after the other. -/
def renderNodes (scope : TemplateScope) (nodes : List TemplateNode) :
    Option (String × TemplateScope) :=
  match nodes with
  | [] => some ("", scope)
  | node :: rest => do
    let (out, scope) ← renderNode scope node
    let (more, scope) ← renderNodes scope rest
    some (out ++ more, scope)

/-- The text of the first case whose test is true. -/
def renderCases (scope : TemplateScope) (otherwise : Option (String × TemplateScope))
    (cases : List (TemplateExpr × List TemplateNode)) : Option (String × TemplateScope) :=
  match cases with
  | [] => otherwise
  | (test, body) :: rest => do
    let v ← test.eval? scope
    if v.truth then renderNodes scope body else renderCases scope otherwise rest

end

/-- The text of a template; `none` when an expression has no value. -/
def renderTemplate? (nodes : List TemplateNode) (scope : TemplateScope) : Option String :=
  (renderNodes scope nodes).map (·.1)

end ImportContext
