import ImportContext.Template.Predicate
import ImportContext.Text.Case

/-!
# Filters

Functions that a template applies to a value, as in `title | upper`: those that minijinja brings
along, and `titleize`, which is added to them.

Main definitions: `titleize`, `applyFilter?`.
-/

namespace ImportContext

/-! ## Texts -/

/-- A word with its first letter in upper case and the others in lower case. -/
def capitalize (word : String) : String :=
  match word.toList with
  | [] => ""
  | c :: rest => String.ofList (Text.upperChar c ++ rest.flatMap Text.lowerChar)

/-- Characters with a blank for every underscore and hyphen, and one before every capital letter
that follows a small letter or a digit. -/
def spaceOut (previous : Option Char) : List Char → List Char
  | [] => []
  | c :: rest =>
    let hump := Text.isUpper c && previous.any fun p => Text.isLower p || p.isDigit
    let shown := if c == '_' || c == '-' then ' ' else c
    (if hump then [' ', shown] else [shown]) ++ spaceOut (some c) rest

/-- A text with every word capitalized; underscores, hyphens and humps separate words. -/
def titleize (s : String) : String :=
  String.intercalate " " ((Text.words (String.ofList (spaceOut none s.toList))).map capitalize)

/-- A mark of the printable part of ASCII. -/
def isPunctuation (c : Char) : Bool :=
  33 ≤ c.toNat && c.toNat ≤ 126 && !c.isAlphanum

/-- Characters with the first of every word in upper case and the others in lower case; `start`
says whether a word starts here. -/
def titleChars (start : Bool) : List Char → List Char
  | [] => []
  | c :: rest =>
    if isPunctuation c || Text.isBlank c then c :: titleChars true rest
    else (if start then Text.upperChar c else Text.lowerChar c) ++ titleChars false rest

/-- A text without one line end at its end. -/
def dropFinalLineEnd (s : String) : String :=
  let cs := s.toList
  let cs := if cs.getLast? == some '\n' then cs.dropLast else cs
  String.ofList (if cs.getLast? == some '\r' then cs.dropLast else cs)

/-- A text with blanks before its lines, the first one and empty ones only if asked. -/
def indentLines (width : Nat) (first blank : Bool) (s : String) : String :=
  let margin := String.ofList (List.replicate width ' ')
  let shift (line : String) : String := if line == "" && !blank then line else margin ++ line
  match Text.splitOnChar '\n' (dropFinalLineEnd s) with
  | [] => ""
  | line :: rest =>
    dropFinalLineEnd
      (String.join (((if first then shift line else line) :: rest.map shift).map (· ++ "\n")))

/-- A character as it is written in markup. -/
def escapeMarkup (c : Char) : String :=
  if c == '<' then "&lt;"
  else if c == '>' then "&gt;"
  else if c == '&' then "&amp;"
  else if c == '"' then "&quot;"
  else if c == '\x27' then "&#x27;"
  else if c == '/' then "&#x2f;"
  else c.toString

/-- A text with every occurrence of a part replaced; an empty part occurs around every
character. -/
def replaceAll (s part new : String) : String :=
  if part == "" then
    new ++ String.join (s.toList.map fun c => c.toString ++ new)
  else String.intercalate new (s.splitOn part)

/-! ## Sequences -/

/-- Values as texts with a separator between them. -/
def joined (separator : String) (items : List TemplateValue) : String :=
  String.intercalate separator (items.map TemplateValue.display)

/-- A value that is compared; texts in lower case unless case counts. -/
def sortKey (caseCounts : Bool) : TemplateValue → TemplateValue
  | .string s => .string (if caseCounts then s else Text.lower s)
  | v => v

/-- Whether two values are in order. -/
def inOrder (caseCounts : Bool) (v w : TemplateValue) : Bool :=
  !((sortKey caseCounts w).less? (sortKey caseCounts v)).getD false

/-- The values that come first among equal ones. -/
def distinct (items : List TemplateValue) : List TemplateValue :=
  items.foldl (fun seen v => if seen.any (·.same v) then seen else seen ++ [v]) []

/-- The smallest value in an order, or nothing. -/
def extreme (before : TemplateValue → TemplateValue → Bool) : List TemplateValue → TemplateValue
  | [] => .undefined
  | v :: vs => vs.foldl (fun best w => if before w best then w else best) v

/-- Fields in the order of their names, later ones winning. -/
def sortFields (fields : List (String × TemplateValue)) : List (String × TemplateValue) :=
  let names := (fields.map (·.1)).eraseDups.mergeSort (fun a b => decide (a ≤ b))
  names.map fun name => (name, (fields.reverse.lookup name).getD .undefined)

/-- The number of characters, items or fields. -/
def TemplateValue.length? : TemplateValue → Option Nat
  | .string s => some s.length
  | .list items => some items.length
  | .record fields => some fields.length
  | _ => Option.none

/-! ## Filters by name -/

/-- Filters that turn the text of a value into another text. -/
def textFilter? (name : String) (s : String) (args : List TemplateValue) : Option String :=
  match name, args with
  | "upper", [] => some (Text.upper s)
  | "lower", [] => some (Text.lower s)
  | "title", [] => some (String.ofList (titleChars true s.toList))
  | "capitalize", [] => some (capitalize s)
  | "titleize", [] => some (titleize s)
  | "trim", [] => some (Text.trim s)
  | "trim", [chars] => some (Text.trimWhile (chars.display.toList.contains ·) s)
  | "replace", [part, new] => some (replaceAll s part.display new.display)
  | "indent", .int (.ofNat width) :: more =>
    some (indentLines width ((more.getD 0 .undefined).truth) ((more.getD 1 .undefined).truth) s)
  | "safe", [] => some s
  | "escape", [] => some (String.join (s.toList.map escapeMarkup))
  | "e", [] => some (String.join (s.toList.map escapeMarkup))
  | _, _ => none

/-- Filters on the items of a value. -/
def sequenceFilter? (name : String) (items : List TemplateValue) : Option TemplateValue :=
  match name with
  | "list" => some (.list items)
  | "unique" => some (.list (distinct items))
  | "min" => some (extreme (fun v w => (v.less? w).getD false) items)
  | "max" => some (extreme (fun v w => !(v.less? w).getD true) items)
  | _ => none

/-- The items of a text or list, and nothing else. -/
def TemplateValue.ordered? : TemplateValue → Option (List TemplateValue)
  | .string s => (TemplateValue.string s).items?
  | .list items => some items
  | _ => Option.none

/-- The items of a value in reverse; a text stays a text. -/
def reversed? : TemplateValue → Option TemplateValue
  | .string s => some (.string (String.ofList s.toList.reverse))
  | .list items => some (.list items.reverse)
  | _ => none

/-- Filters without named arguments. -/
def plainFilter? (name : String) (v : TemplateValue) (args : List TemplateValue) :
    Option TemplateValue :=
  match name, args with
  | "length", [] => v.length?.map fun n => .int n
  | "count", [] => v.length?.map fun n => .int n
  | "default", args => some (if v.isUndefined then args.headD (.string "") else v)
  | "d", args => some (if v.isUndefined then args.headD (.string "") else v)
  | "first", [] => v.ordered?.map (·.headD .undefined)
  | "last", [] => v.ordered?.map (·.getLastD .undefined)
  | "reverse", [] => reversed? v
  | "join", [] => v.items?.map fun items => .string (joined "" items)
  | "join", [separator] => v.items?.map fun items => .string (joined separator.display items)
  | "bool", [] => some (.bool v.truth)
  | "abs", [] =>
    match v with
    | .int n => some (.int n.natAbs)
    | .decimal d p => some (.decimal d.natAbs p)
    | _ => none
  | "attr", [.string key] => v.field? key
  | "items", [] =>
    match v with
    | .record fields => some (.list (fields.map fun (k, w) => .list [.string k, w]))
    | _ => none
  | "sort", [] => v.items?.map fun items => .list (items.mergeSort (inOrder false))
  | _, [] =>
    match v.items?.bind (sequenceFilter? name) with
    | some w => some w
    | none => (textFilter? name v.display []).map .string
  | _, _ => (textFilter? name v.display args).map .string

/-- The items that pass a test, or count as true when none is given. `key` gives what is tested of
an item. -/
def selected? (keep : Bool) (key : TemplateValue → Option TemplateValue)
    (args items : List TemplateValue) : Option TemplateValue := do
  let kept ← items.filterM fun v => do
    let tested ← key v
    let verdict ← match args with
      | [] => some tested.truth
      | test :: more => tested.passes? test.display more
    some (verdict == keep)
  some (.list kept)

/-- What a named argument says about an item: the value at a path. -/
def attributeOf? (path : TemplateValue) (v : TemplateValue) : Option TemplateValue :=
  match path with
  | .string path => v.follow? path
  | index => v.at? index

/-- The items sorted by what the named arguments say. -/
def sorted? (named : List (String × TemplateValue)) (items : List TemplateValue) :
    Option TemplateValue :=
  let option (name : String) : Bool := ((named.lookup name).getD .undefined).truth
  let key (v : TemplateValue) : TemplateValue :=
    match named.lookup "attribute" with
    | some path => (attributeOf? path v).getD .undefined
    | none => v
  if named.all fun (name, _) => ["attribute", "reverse", "case_sensitive"].contains name then
    let items := items.mergeSort fun v w => inOrder (option "case_sensitive") (key v) (key w)
    some (.list (if option "reverse" then items.reverse else items))
  else none

/-- The value of a filter; `none` when it cannot be applied. -/
def applyFilter? (name : String) (v : TemplateValue) (args : List TemplateValue)
    (named : List (String × TemplateValue)) : Option TemplateValue :=
  match name, args, named with
  | "map", [], [("attribute", path)] => do
    let values ← (← v.items?).mapM (attributeOf? path)
    some (.list values)
  | "map", [], [("attribute", path), ("default", other)] => do
    let values := (← v.items?).map fun w =>
      match attributeOf? path w with
      | some found => if found.isUndefined then other else found
      | none => other
    some (.list values)
  | "map", filter :: more, [] => do
    let values ← (← v.items?).mapM fun w => plainFilter? filter.display w more
    some (.list values)
  | "select", args, [] => v.items?.bind (selected? true some args)
  | "reject", args, [] => v.items?.bind (selected? false some args)
  | "selectattr", path :: args, [] => v.items?.bind (selected? true (attributeOf? path) args)
  | "rejectattr", path :: args, [] => v.items?.bind (selected? false (attributeOf? path) args)
  | "sort", [], named => v.items?.bind (sorted? named)
  | _, _, [] => plainFilter? name v args
  | _, _, _ => none

end ImportContext
