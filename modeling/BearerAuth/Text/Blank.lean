/-!
# Blank characters and words

The characters that separate words are those with the Unicode property `White_Space`.

* `isBlank` decides the property;
* `words` splits a text into its maximal runs of characters that are not blank.
-/

namespace BearerAuth.Text

/-- The Unicode property `White_Space`. -/
def isBlank (c : Char) : Bool :=
  let n := c.toNat
  (0x09 ≤ n && n ≤ 0x0D) || n == 0x20 || n == 0x85 || n == 0xA0 || n == 0x1680 ||
    (0x2000 ≤ n && n ≤ 0x200A) || n == 0x2028 || n == 0x2029 || n == 0x202F || n == 0x205F ||
    n == 0x3000

/-- Splits off the first word: `word` holds its characters so far, in reverse. -/
def wordsFrom (word : List Char) : List Char → List (List Char)
  | [] => if word.isEmpty then [] else [word.reverse]
  | c :: rest =>
    if isBlank c then
      if word.isEmpty then wordsFrom [] rest else word.reverse :: wordsFrom [] rest
    else wordsFrom (c :: word) rest

/-- The words of a text, in order. -/
def words (text : List Char) : List (List Char) := wordsFrom [] text

/-- A text without any word. -/
def isAllBlank (text : List Char) : Bool := text.all isBlank

@[simp] theorem words_nil : words [] = [] := rfl

end BearerAuth.Text
