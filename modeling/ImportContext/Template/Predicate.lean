import ImportContext.Template.Value

/-!
# Tests on values

The properties that a template can ask a value for, as in `x is defined`: the tests of minijinja.

Main definition: `TemplateValue.passes?`.
-/

namespace ImportContext.TemplateValue

def isUndefined : TemplateValue → Bool
  | undefined => true
  | _ => false

/-- What is left of a whole number after division by two. -/
def parity? : TemplateValue → Option Int
  | int n => some (n % 2)
  | _ => Option.none

/-- The kinds of values by their names. -/
def isOfKind? (kind : String) (v : TemplateValue) : Option Bool :=
  match kind with
  | "defined" => some (!v.isUndefined)
  | "undefined" => some v.isUndefined
  | "none" => some (v matches none)
  | "true" => some (v matches bool true)
  | "false" => some (v matches bool false)
  | "boolean" => some (v matches bool _)
  | "number" => some (v matches int _ | decimal _ _)
  | "string" => some (v matches string _)
  | "sequence" => some (v matches list _)
  | "mapping" => some (v matches record _)
  | "iterable" => some v.items?.isSome
  | "odd" => some (v.parity? == some 1)
  | "even" => some (v.parity? == some 0)
  | _ => Option.none

/-- How a value compares to another, by the names of comparisons. -/
def compares? (relation : String) (v w : TemplateValue) : Option Bool :=
  match relation with
  | "eq" => some (v.same w)
  | "equalto" => some (v.same w)
  | "ne" => some (!v.same w)
  | "lt" => some ((v.less? w).getD false)
  | "lessthan" => some ((v.less? w).getD false)
  | "le" => some ((w.less? v).any (!·))
  | "gt" => some ((w.less? v).getD false)
  | "greaterthan" => some ((w.less? v).getD false)
  | "ge" => some ((v.less? w).any (!·))
  | "in" => w.contains? v
  | "startingwith" => some (w.display.toList.isPrefixOf v.display.toList)
  | "endingwith" => some (w.display.toList.isSuffixOf v.display.toList)
  | _ => Option.none

/-- Whether a value passes a test; `none` when there is no such test. -/
def passes? (v : TemplateValue) (name : String) (args : List TemplateValue) : Option Bool :=
  match args with
  | [] => v.isOfKind? name
  | [w] => v.compares? name w
  | _ => Option.none

end ImportContext.TemplateValue
