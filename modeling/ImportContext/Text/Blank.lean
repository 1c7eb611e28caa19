/-!
# Blank characters, trimming and words

White space is the Unicode property `White_Space`. Trimming and splitting into words are stated
on character lists, and the versions on `String` wrap them.

Main definitions: `isBlank`, `trim`, `trimEnd`, `words`, `asciiLower`.
-/

namespace ImportContext.Text

/-- The characters with the Unicode property `White_Space`. -/
def isBlank (c : Char) : Bool :=
  let n := c.toNat
  (9 ≤ n && n ≤ 13) || n == 0x20 || n == 0x85 || n == 0xA0 || n == 0x1680 ||
    (0x2000 ≤ n && n ≤ 0x200A) || n == 0x2028 || n == 0x2029 || n == 0x202F ||
    n == 0x205F || n == 0x3000

/-- Drops the longest tail whose characters all satisfy `p`. -/
def dropTailWhile (p : Char → Bool) (cs : List Char) : List Char :=
  (cs.reverse.dropWhile p).reverse

/-- The text without trailing blanks. -/
def trimEnd (s : String) : String :=
  String.ofList (dropTailWhile isBlank s.toList)

/-- The text without leading and trailing blanks. -/
def trim (s : String) : String :=
  String.ofList (dropTailWhile isBlank (s.toList.dropWhile isBlank))

/-- The text without leading and trailing characters that satisfy `p`. -/
def trimWhile (p : Char → Bool) (s : String) : String :=
  String.ofList (dropTailWhile p (s.toList.dropWhile p))

/-- One step of `words`: a blank closes the open word, any other character extends it. -/
def wordStep (st : List Char × List (List Char)) (c : Char) : List Char × List (List Char) :=
  if isBlank c then
    if st.1.isEmpty then st else ([], st.1.reverse :: st.2)
  else (c :: st.1, st.2)

/-- The maximal runs of characters that are not blank, in order. -/
def words (s : String) : List String :=
  let st := s.toList.foldl wordStep ([], [])
  let all := if st.1.isEmpty then st.2 else st.1.reverse :: st.2
  all.reverse.map String.ofList

/-- `A` to `Z` become `a` to `z`; every other character stays. -/
def asciiLower (s : String) : String :=
  s.map Char.toLower

/-- The parts of `s` between occurrences of the character `sep`. -/
def splitOnChar (sep : Char) (s : String) : List String :=
  (s.toList.splitOn sep).map String.ofList

/-- Parts without the character between them come back from the text they are written to. -/
theorem splitOnChar_intercalate {sep : Char} {between : String} {parts : List String}
    (hbetween : between.toList = [sep]) (hne : parts ≠ []) (h : ∀ s ∈ parts, sep ∉ s.toList) :
    splitOnChar sep (String.intercalate between parts) = parts := by
  have hparts : ∀ cs ∈ parts.map String.toList, sep ∉ cs := by
    simpa using h
  have hmap : (parts.map String.toList).map String.ofList = parts := by
    rw [List.map_map]
    refine (List.map_congr_left ?_).trans (List.map_id parts)
    intro s _
    exact String.ofList_toList
  rw [splitOnChar, String.toList_intercalate, hbetween,
    List.splitOn_intercalate sep hparts (by simpa using hne), hmap]

end ImportContext.Text
