/-!
# Blanks and words

Which characters separate words, a text without the blanks around it, and the words of a text.
-/

namespace Campaign.Text

/-- The characters with the Unicode property White_Space. -/
def isBlank (c : Char) : Bool :=
  let n := c.toNat
  (9 ≤ n && n ≤ 13) || n == 0x20 || n == 0x85 || n == 0xA0 || n == 0x1680 ||
    (0x2000 ≤ n && n ≤ 0x200A) || n == 0x2028 || n == 0x2029 || n == 0x202F || n == 0x205F ||
    n == 0x3000

/-- `s` without the characters at its end that satisfy `p`. -/
def dropEndWhile (p : Char → Bool) (s : List Char) : List Char :=
  (s.reverse.dropWhile p).reverse

/-- `s` without the characters at either end that satisfy `p`. -/
def dropAround (p : Char → Bool) (s : List Char) : List Char :=
  dropEndWhile p (s.dropWhile p)

/-- `s` without the blanks at either end. -/
def trim (s : List Char) : List Char :=
  dropAround isBlank s

/-- The word collected in `word`, last character first, if there is one. -/
def closeWord (word : List Char) : List (List Char) :=
  if word.isEmpty then [] else [word.reverse]

/-- The words of `s`, when the characters in `word`, last first, stand directly before it. -/
def wordsAfter (word : List Char) : List Char → List (List Char)
  | [] => closeWord word
  | c :: s => if isBlank c then closeWord word ++ wordsAfter [] s else wordsAfter (c :: word) s

/-- The words of `s`: its longest stretches without a blank, in order. -/
def words (s : List Char) : List (List Char) :=
  wordsAfter [] s

/-- Whether `needle` stands somewhere in `s`, in one piece. -/
def occursIn (needle : List Char) : List Char → Bool
  | [] => needle.isEmpty
  | c :: s => needle.isPrefixOf (c :: s) || occursIn needle s

end Campaign.Text
