/-!
# White space and runs of text

White space is the Unicode property `White_Space`, twenty-five code points. Texts are handled
as lists of characters: trimming drops white space at both ends, and a text is cut into the
maximal runs between separators. Every function is structural on the list.
-/

namespace Beneficiary.Text

/-- The code point ranges, ascending, of the Unicode property `White_Space`. -/
def blankRanges : List (Nat × Nat) :=
  [(0x09, 0x0D), (0x20, 0x20), (0x85, 0x85), (0xA0, 0xA0), (0x1680, 0x1680),
   (0x2000, 0x200A), (0x2028, 0x2029), (0x202F, 0x202F), (0x205F, 0x205F), (0x3000, 0x3000)]

/-- Whether a character is white space. -/
def isBlank (c : Char) : Bool :=
  blankRanges.any fun range => range.1 ≤ c.toNat && c.toNat ≤ range.2

/-- The text from its first character that is not white space. -/
def trimStart (cs : List Char) : List Char := cs.dropWhile isBlank

/-- The text up to its last character that is not white space. -/
def trimEnd (cs : List Char) : List Char := (cs.reverse.dropWhile isBlank).reverse

/-- The text without the white space at its ends. -/
def trim (cs : List Char) : List Char := trimEnd (trimStart cs)

/-- The string without the white space at its ends. -/
def trimmed (s : String) : String := String.ofList (trim s.toList)

/-- Whether a string holds nothing but white space. -/
def isBlankText (s : String) : Bool := s.toList.all isBlank

/-- The pieces between separators, empty pieces included; a text without separators is one
piece. -/
def pieces {α : Type} (isSeparator : α → Bool) : List α → List (List α)
  | [] => [[]]
  | c :: cs =>
    if isSeparator c then [] :: pieces isSeparator cs
    else match pieces isSeparator cs with
      | [] => [[c]]
      | piece :: others => (c :: piece) :: others

/-- The maximal runs of characters that are no separators, in order. -/
def runs (isSeparator : Char → Bool) (cs : List Char) : List (List Char) :=
  (pieces isSeparator cs).filter fun piece => !piece.isEmpty

/-- The maximal runs of a string, as strings. -/
def runsOf (isSeparator : Char → Bool) (s : String) : List String :=
  (runs isSeparator s.toList).map String.ofList

/-- Whether one text occurs within another as a block. -/
def occursIn (needle : List Char) : List Char → Bool
  | [] => needle.isEmpty
  | c :: cs => needle.isPrefixOf (c :: cs) || occursIn needle cs

/-- Whether one string occurs within another. -/
def contains (text needle : String) : Bool := occursIn needle.toList text.toList

/-- The string with the letters `A` to `Z` in lower case. -/
def lowerAscii (s : String) : String := String.ofList (s.toList.map Char.toLower)

/-- The texts joined with a separator between neighbours. -/
def joined (separator : String) : List String → String
  | [] => ""
  | [s] => s
  | s :: others => s ++ separator ++ joined separator others

end Beneficiary.Text
