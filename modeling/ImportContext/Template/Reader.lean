import ImportContext.Template.Node
import ImportContext.Template.Token

/-!
# Reading templates

Expressions by precedence, and the tags `if`, `for` and `set`, as minijinja reads them. Its other
tags (for macros, inheritance, inclusion, filtered and raw text) are left out: a template that uses
one is refused.

Main definitions: `Template.parseExpr?`, `parseTemplate?`.
-/

namespace ImportContext

namespace Template

/-! ## Expressions

From the loosest to the tightest: `or`, `and`, `not`, comparisons, sums, concatenation, products,
powers, and last fields, items, filters and tests. -/

/-- The level of comparisons. -/
def compareLevel : Nat := 4

/-- The operator that a token stands for at a level. -/
def operatorAt? (level : Nat) (t : TemplateToken) : Option TemplateOp :=
  match level, t with
  | 1, .word "or" => some .or
  | 2, .word "and" => some .and
  | 4, .mark "==" => some .equal
  | 4, .mark "!=" => some .unequal
  | 4, .mark "<" => some .less
  | 4, .mark "<=" => some .atMost
  | 4, .mark ">" => some .greater
  | 4, .mark ">=" => some .atLeast
  | 4, .word "in" => some .member
  | 5, .mark "+" => some .add
  | 5, .mark "-" => some .subtract
  | 6, .mark "~" => some .concat
  | 7, .mark "*" => some .multiply
  | 7, .mark "/" => some .divide
  | 7, .mark "//" => some .quotient
  | 7, .mark "%" => some .remainder
  | 8, .mark "**" => some .power
  | _, _ => none

/-- The level of operands behind the last operator. -/
def operandLevel : Nat := 9

/-- The value of a word that is no name. -/
def constant? (word : String) : Option TemplateValue :=
  if ["true", "True"].contains word then some (.bool true)
  else if ["false", "False"].contains word then some (.bool false)
  else if ["none", "None"].contains word then some .none
  else none

abbrev Tokens := List TemplateToken

mutual

/-- An expression at a level; level 0 admits `a if b else c`. -/
def parseLevel : Nat → Nat → Tokens → Option (TemplateExpr × Tokens)
  | 0, _, _ => none
  | fuel + 1, level, ts =>
    if level = 0 then do
      let (e, rest) ← parseLevel fuel 1 ts
      parseConditional fuel e rest
    else if level = 3 then
      match ts with
      | .word "not" :: rest => (parseLevel fuel 3 rest).map fun (e, rest) => (.not e, rest)
      | _ => parseLevel fuel compareLevel ts
    else if operandLevel ≤ level then do
      let (e, rest) ← parseSigned fuel ts
      let (e, rest) ← parsePostfix fuel e rest
      parseFilters fuel e rest
    else do
      let (e, rest) ← parseLevel fuel (level + 1) ts
      parseChain fuel level e rest

/-- What follows an expression in `a if b else c`. -/
def parseConditional : Nat → TemplateExpr → Tokens → Option (TemplateExpr × Tokens)
  | 0, _, _ => none
  | fuel + 1, e, ts =>
    match ts with
    | .word "if" :: rest => do
      let (test, rest) ← parseLevel fuel 1 rest
      match rest with
      | .word "else" :: rest => do
        let (no, rest) ← parseLevel fuel 0 rest
        parseConditional fuel (.conditional test e (some no)) rest
      | _ => parseConditional fuel (.conditional test e none) rest
    | _ => some (e, ts)

/-- Operators of one level, applied from the left. -/
def parseChain : Nat → Nat → TemplateExpr → Tokens → Option (TemplateExpr × Tokens)
  | 0, _, _, _ => none
  | fuel + 1, level, e, ts =>
    match ts with
    | .word "not" :: rest =>
      if level = compareLevel then
        match rest with
        | .word "in" :: rest => do
          let (b, rest) ← parseLevel fuel (level + 1) rest
          parseChain fuel level (.not (.binary .member e b)) rest
        | _ => none
      else some (e, ts)
    | t :: rest =>
      match operatorAt? level t with
      | some op => do
        let (b, rest) ← parseLevel fuel (level + 1) rest
        parseChain fuel level (.binary op e b) rest
      | none => some (e, ts)
    | [] => some (e, [])

/-- An operand with an optional sign. -/
def parseSigned : Nat → Tokens → Option (TemplateExpr × Tokens)
  | 0, _ => none
  | fuel + 1, ts =>
    match ts with
    | .mark "-" :: rest => (parseSigned fuel rest).map fun (e, rest) => (.negate e, rest)
    | .word "range" :: .mark "(" :: rest =>
      (parseItems fuel ")" rest).map fun (es, rest) => (.range es, rest)
    | .word w :: rest =>
      match constant? w with
      | some v => some (.literal v, rest)
      | none => some (.name w, rest)
    | .string s :: rest => some (.literal (.string s), rest)
    | .int n :: rest => some (.literal (.int n), rest)
    | .decimal d p :: rest => some (.literal (.decimal d p), rest)
    | .mark "(" :: .mark ")" :: rest => some (.list [], rest)
    | .mark "(" :: rest => do
      let (e, rest) ← parseLevel fuel 0 rest
      match rest with
      | .mark ")" :: rest => some (e, rest)
      | .mark "," :: rest => (parseItems fuel ")" rest).map fun (es, rest) => (.list (e :: es), rest)
      | _ => none
    | .mark "[" :: rest => (parseItems fuel "]" rest).map fun (es, rest) => (.list es, rest)
    | .mark "\x7b" :: rest => (parseFields fuel rest).map fun (fs, rest) => (.record fs, rest)
    | _ => none

/-- Fields and items behind an operand. -/
def parsePostfix : Nat → TemplateExpr → Tokens → Option (TemplateExpr × Tokens)
  | 0, _, _ => none
  | fuel + 1, e, ts =>
    match ts with
    | .mark "." :: .word key :: rest => parsePostfix fuel (.field e key) rest
    | .mark "[" :: rest => do
      let (first, rest) ← parseBound fuel rest
      match first, rest with
      | some i, .mark "]" :: rest => parsePostfix fuel (.index e i) rest
      | first, .mark ":" :: rest => do
        let (last, rest) ← parseBound fuel rest
        match rest with
        | .mark "]" :: rest => parsePostfix fuel (.slice e first last none) rest
        | .mark ":" :: rest => do
          let (step, rest) ← parseBound fuel rest
          match rest with
          | .mark "]" :: rest => parsePostfix fuel (.slice e first last step) rest
          | _ => none
        | _ => none
      | _, _ => none
    | _ => some (e, ts)

/-- A position inside brackets, which may be missing. -/
def parseBound : Nat → Tokens → Option (Option TemplateExpr × Tokens)
  | 0, _ => none
  | fuel + 1, ts =>
    match ts with
    | .mark "]" :: _ => some (none, ts)
    | .mark ":" :: _ => some (none, ts)
    | _ => (parseLevel fuel 0 ts).map fun (e, rest) => (some e, rest)

/-- Filters and tests behind an operand. -/
def parseFilters : Nat → TemplateExpr → Tokens → Option (TemplateExpr × Tokens)
  | 0, _, _ => none
  | fuel + 1, e, ts =>
    match ts with
    | .mark "|" :: .word f :: .mark "(" :: rest => do
      let (args, named, rest) ← parseArguments fuel rest
      parseFilters fuel (.filter f e args named) rest
    | .mark "|" :: .word f :: rest => parseFilters fuel (.filter f e [] []) rest
    | .mark "|" :: _ => none
    | .word "is" :: .word "not" :: rest => do
      let (verdict, rest) ← parseTest fuel e rest
      parseFilters fuel (.not verdict) rest
    | .word "is" :: rest => do
      let (verdict, rest) ← parseTest fuel e rest
      parseFilters fuel verdict rest
    | _ => some (e, ts)

/-- The name of a test with its arguments. -/
def parseTest : Nat → TemplateExpr → Tokens → Option (TemplateExpr × Tokens)
  | 0, _, _ => none
  | fuel + 1, e, ts =>
    match ts with
    | .word f :: .mark "(" :: rest =>
      (parseItems fuel ")" rest).map fun (args, rest) => (.test f e args, rest)
    | .word f :: rest => some (.test f e [], rest)
    | _ => none

/-- Arguments up to the closing parenthesis, those without a name first. -/
def parseArguments :
    Nat → Tokens → Option (List TemplateExpr × List (String × TemplateExpr) × Tokens)
  | 0, _ => none
  | fuel + 1, ts =>
    match ts with
    | .mark ")" :: rest => some ([], [], rest)
    | .word key :: .mark "=" :: rest => do
      let (e, rest) ← parseLevel fuel 1 rest
      let (args, named, rest) ← parseMoreArguments fuel rest
      if args.isEmpty then some ([], (key, e) :: named, rest) else none
    | _ => do
      let (e, rest) ← parseLevel fuel 0 ts
      let (args, named, rest) ← parseMoreArguments fuel rest
      some (e :: args, named, rest)

/-- The end of the arguments, or a comma and further ones. -/
def parseMoreArguments :
    Nat → Tokens → Option (List TemplateExpr × List (String × TemplateExpr) × Tokens)
  | 0, _ => none
  | fuel + 1, ts =>
    match ts with
    | .mark ")" :: rest => some ([], [], rest)
    | .mark "," :: rest => parseArguments fuel rest
    | _ => none

/-- Fields of a record up to the closing brace; their names are texts. -/
def parseFields : Nat → Tokens → Option (List (String × TemplateExpr) × Tokens)
  | 0, _ => none
  | fuel + 1, ts =>
    match ts with
    | .mark "\x7d" :: rest => some ([], rest)
    | .string key :: .mark ":" :: rest => do
      let (e, rest) ← parseLevel fuel 0 rest
      match rest with
      | .mark "," :: rest => (parseFields fuel rest).map fun (fs, rest) => ((key, e) :: fs, rest)
      | .mark "\x7d" :: rest => some ([(key, e)], rest)
      | _ => none
    | _ => none

/-- Expressions with commas between them, up to a closing mark. -/
def parseItems : Nat → String → Tokens → Option (List TemplateExpr × Tokens)
  | 0, _, _ => none
  | fuel + 1, close, ts =>
    match ts with
    | [] => none
    | t :: rest =>
      if t = .mark close then some ([], rest)
      else do
        let (e, rest) ← parseLevel fuel 0 (t :: rest)
        match rest with
        | .mark "," :: rest => (parseItems fuel close rest).map fun (es, rest) => (e :: es, rest)
        | t :: rest => if t = .mark close then some ([e], rest) else none
        | [] => none

end

/-- Steps that suffice to read an expression: no more than a few per level and token. -/
def exprFuel (ts : Tokens) : Nat :=
  20 * (ts.length + 2)

/-- The expression that all tokens together form. -/
def parseExpr? (ts : Tokens) : Option TemplateExpr :=
  match parseLevel (exprFuel ts) 0 ts with
  | some (e, []) => some e
  | _ => none

/-! ## Tags -/

/-- Names that cannot be set. -/
def reservedNames : List String :=
  ["true", "True", "false", "False", "none", "None", "loop", "self"]

/-- The head of a loop. -/
structure LoopHead where
  target : String
  source : TemplateExpr
  condition : Option TemplateExpr

/-- The head of a loop: `for target in source`, with an optional condition. -/
def parseLoopHead? (ts : Tokens) : Option LoopHead :=
  match ts with
  | .word target :: .word "in" :: rest => do
    if reservedNames.contains target then none
    else
      let (source, rest) ← parseLevel (exprFuel ts) 1 rest
      match rest with
      | [] => some ⟨target, source, none⟩
      | .word "if" :: test => (parseExpr? test).map fun e => ⟨target, source, some e⟩
      | _ => none
  | _ => none

/-- The tag that ended a list of nodes. -/
inductive Stop where
  | finish
  | elif (test : TemplateExpr)
  | otherwise
  | endIf
  | endFor
deriving Inhabited

mutual

/-- Nodes up to a tag that ends them. -/
def parseNodes :
    Nat → List TemplateSegment → Option (List TemplateNode × Stop × List TemplateSegment)
  | 0, _ => none
  | fuel + 1, segments =>
    match segments with
    | [] => some ([], .finish, [])
    | .text s :: rest => prepend fuel (.text s) rest
    | .output ts :: rest => do
      let e ← parseExpr? ts
      prepend fuel (.output e) rest
    | .tag ts :: rest =>
      match ts with
      | [.word "else"] => some ([], .otherwise, rest)
      | [.word "endif"] => some ([], .endIf, rest)
      | [.word "endfor"] => some ([], .endFor, rest)
      | .word "elif" :: test => (parseExpr? test).map fun e => ([], .elif e, rest)
      | .word "if" :: test => do
        let e ← parseExpr? test
        let (cases, otherwise, rest) ← parseCases fuel e rest
        prepend fuel (.branch cases otherwise) rest
      | .word "for" :: head => do
        let head ← parseLoopHead? head
        let (body, stop, rest) ← parseNodes fuel rest
        let (otherwise, rest) ← match stop with
          | .endFor => some ([], rest)
          | .otherwise =>
            match parseNodes fuel rest with
            | some (nodes, .endFor, rest) => some (nodes, rest)
            | _ => none
          | _ => none
        prepend fuel (.loop head.target head.source head.condition body otherwise) rest
      | .word "set" :: .word name :: .mark "=" :: value =>
        if reservedNames.contains name then none
        else do
          let e ← parseExpr? value
          prepend fuel (.assign name e) rest
      | _ => none

/-- A node in front of those that follow. -/
def prepend :
    Nat → TemplateNode → List TemplateSegment →
      Option (List TemplateNode × Stop × List TemplateSegment)
  | 0, _, _ => none
  | fuel + 1, node, rest => do
    let (nodes, stop, rest) ← parseNodes fuel rest
    some (node :: nodes, stop, rest)

/-- The cases of a branch from a test on, its alternative, and what follows it. -/
def parseCases :
    Nat → TemplateExpr → List TemplateSegment →
      Option (List (TemplateExpr × List TemplateNode) × List TemplateNode × List TemplateSegment)
  | 0, _, _ => none
  | fuel + 1, test, segments => do
    let (body, stop, rest) ← parseNodes fuel segments
    match stop with
    | .endIf => some ([(test, body)], [], rest)
    | .elif next => do
      let (cases, otherwise, rest) ← parseCases fuel next rest
      some ((test, body) :: cases, otherwise, rest)
    | .otherwise =>
      match parseNodes fuel rest with
      | some (nodes, .endIf, rest) => some ([(test, body)], nodes, rest)
      | _ => none
    | _ => none

end

end Template

open Template in
/-- The nodes of a template source; `none` when it does not follow the grammar. -/
def parseTemplate? (source : String) : Option (List TemplateNode) := do
  let segments ← templateSegments? source
  match parseNodes (4 * (segments.length + 1)) segments with
  | some (nodes, .finish, _) => some nodes
  | _ => none

end ImportContext
