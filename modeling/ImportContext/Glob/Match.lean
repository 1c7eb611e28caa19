import ImportContext.Glob.Pattern

/-!
# Matching globs

Matching is on the bytes of a path, as in globset, which turns patterns into regular expressions
over bytes. Here a token takes a text to the rests that it can leave behind; a pattern matches a
text when the empty text is among its rests.

Main definitions: `GlobToken.rests`, `restsOfAll`, `globMatches`.
-/

namespace ImportContext

/-- The byte `/`. -/
def slashByte : UInt8 := 47

/-- Keeps a rest unless one of its length was seen; `seen` has a bit for each length. -/
def keepRest (st : Nat × List (List UInt8)) (s : List UInt8) : Nat × List (List UInt8) :=
  if st.1.testBit s.length then st else (st.1 ||| 1 <<< s.length, s :: st.2)

/-- The different rests in a list of rests of one text, which are told apart by their lengths. -/
def distinctRests (rests : List (List UInt8)) : List (List UInt8) :=
  (rests.foldl keepRest (0, [])).2

/-- Everything that is left after a run of bytes that satisfy `p`. -/
def runRests (p : UInt8 → Bool) : List UInt8 → List (List UInt8)
  | [] => [[]]
  | b :: rest => (b :: rest) :: (if p b then runRests p rest else [])

/-- Everything that is left behind a slash. -/
def slashRests : List UInt8 → List (List UInt8)
  | [] => []
  | b :: rest => if b = slashByte then rest :: slashRests rest else slashRests rest

/-- What is left behind the bytes `bs`. -/
def literalRest? : List UInt8 → List UInt8 → Option (List UInt8)
  | [], s => some s
  | _ :: _, [] => none
  | b :: bs, c :: s => if b = c then literalRest? bs s else none

/-- The bytes of a character. -/
def charBytes (c : Char) : List UInt8 :=
  c.toString.toUTF8.toList

/-- The byte ranges of a range of characters: the bytes of a character of several bytes count
one by one, and only the two that meet span a range. -/
def byteRanges (range : Char × Char) : List (UInt8 × UInt8) :=
  let first := charBytes range.1
  let last := charBytes range.2
  if range.1 = range.2 then first.map fun b => (b, b)
  else
    (first.dropLast.map fun b => (b, b)) ++ [(first.getLastD 0, last.headD 0)] ++
      last.tail.map fun b => (b, b)

/-- Whether a byte is in a class. -/
def inClass (ranges : List (Char × Char)) (b : UInt8) : Bool :=
  ranges.any fun r => (byteRanges r).any fun (lo, hi) => lo ≤ b && b ≤ hi

mutual

/-- A token that stands for nothing at all. -/
def GlobToken.isVoid : GlobToken → Bool
  | .choice branches => allVoid branches
  | _ => false

/-- A branch that stands for nothing at all. -/
def isVoidBranch : List GlobToken → Bool
  | [] => true
  | t :: ts => t.isVoid && isVoidBranch ts

/-- Only branches that stand for nothing. -/
def allVoid : List (List GlobToken) → Bool
  | [] => true
  | b :: bs => isVoidBranch b && allVoid bs

end

mutual

/-- What a token can leave of a text. -/
def GlobToken.rests (o : GlobOptions) (t : GlobToken) (s : List UInt8) : List (List UInt8) :=
  match t with
  | .literal c => (literalRest? (charBytes c) s).toList
  | .any =>
    match s with
    | [] => []
    | b :: rest => if o.slashIsLiteral && b = slashByte then [] else [rest]
  | .star => runRests (fun b => !(o.slashIsLiteral && b = slashByte)) s
  | .leadingDirs => s :: slashRests s
  | .innerDirs =>
    match s with
    | [] => []
    | b :: rest => if b = slashByte then rest :: slashRests rest else []
  | .trailingDirs =>
    match s with
    | [] => []
    | b :: rest => if b = slashByte then runRests (fun _ => true) rest else []
  | .oneOf negated ranges =>
    match s with
    | [] => []
    | b :: rest => if inClass ranges b != negated then [rest] else []
  | .choice branches => if allVoid branches then [s] else choiceRests o branches s

/-- What tokens one after the other can leave of some texts. -/
def restsOfAll (o : GlobOptions) (ts : List GlobToken) (ss : List (List UInt8)) :
    List (List UInt8) :=
  match ts with
  | [] => ss
  | t :: ts =>
    restsOfAll o ts
      (match ss with
      | [s] => t.rests o s
      | _ => distinctRests (ss.flatMap (t.rests o)))

/-- What the branches can leave of a text; one that stands for nothing does not count. -/
def choiceRests (o : GlobOptions) (branches : List (List GlobToken)) (s : List UInt8) :
    List (List UInt8) :=
  match branches with
  | [] => []
  | b :: bs => (if isVoidBranch b then [] else restsOfAll o b [s]) ++ choiceRests o bs s

end

/-- Whether a pattern matches a whole text. The pattern `**` alone matches everything. -/
def globMatches (o : GlobOptions) (ts : List GlobToken) (s : List UInt8) : Bool :=
  match ts with
  | [.leadingDirs] => true
  | _ => (restsOfAll o ts [s]).any List.isEmpty

end ImportContext
