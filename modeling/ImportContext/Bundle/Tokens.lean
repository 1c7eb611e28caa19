import ImportContext.Text.Blank

/-!
# Token estimates

The size of a text in tokens of a language model. Two models need the tables of their tokenizer,
which are not part of this library; the third estimates from characters and words in numbers of
24 significant bits.

Main definitions: `TokenModel.ofName`, `TokenModel.count?`, `roundSingle`.
-/

namespace ImportContext

inductive TokenModel where
  | gpt4o
  | cl100k
  | characters
deriving DecidableEq, Repr

namespace TokenModel

def name : TokenModel → String
  | gpt4o => "openai:gpt-4o"
  | cl100k => "cl100k"
  | characters => "fallback:characters"

/-- The spellings of each model. -/
def spellings : List (String × TokenModel) :=
  [("openai:gpt-4o", gpt4o), ("openai:gpt-4o-mini", gpt4o), ("o200k", gpt4o),
    ("cl100k", cl100k), ("openai:gpt-4", cl100k), ("anthropic:claude", cl100k),
    ("fallback:characters", characters), ("heuristic", characters), ("fallback", characters)]

/-- The model that a name stands for, or why there is none. Case and outer blanks do not count. -/
def ofName (s : String) : Except String TokenModel :=
  let key := Text.asciiLower (Text.trim s)
  match spellings.lookup key with
  | some m => .ok m
  | none => .error ("unknown token model '" ++ key ++ "'")

end TokenModel

/-- The nearest number of 24 significant bits, a tie going to the even one. -/
def roundSingle (n : Nat) : Nat :=
  let unit := Nat.pow 2 (n.log2 - 23)
  let q := n / unit
  let r := n % unit
  if 2 * r < unit then q * unit
  else if 2 * r > unit then (q + 1) * unit
  else if r = 0 || q % 2 = 0 then q * unit
  else (q + 1) * unit

/-- A quarter of a number, rounded up. -/
def quarterUp (n : Nat) : Nat :=
  (n + 3) / 4

/-- A token for every four characters or every word, whichever are more, and a quarter on top. -/
def estimateTokens (text : String) : Nat :=
  let chars := roundSingle text.length
  let words := roundSingle (Text.words text).length
  max (quarterUp (roundSingle (5 * max (quarterUp chars) words))) 1

/-- The number of tokens of a text; `none` when it takes a tokenizer's tables to tell. -/
def TokenModel.count? (m : TokenModel) (text : String) : Option Nat :=
  if text.toList.all Text.isBlank then some 0
  else
    match m with
    | .characters => some (estimateTokens text)
    | _ => none

end ImportContext
