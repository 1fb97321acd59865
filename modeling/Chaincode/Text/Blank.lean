/-!
# Blank characters

The characters with the Unicode `White_Space` property, and trimming by them. Core's
`Char.isWhitespace` knows only six ASCII characters; texts read from the ledger may also start
or end with a no-break space, an ideographic space or a line separator, and those are trimmed too.
-/

namespace Chaincode.Text

/-- The Unicode `White_Space` property: the ASCII tab, line feed, vertical tab, form feed,
carriage return and space, next line, no-break space, ogham space mark, the spaces U+2000 to
U+200A, the line and paragraph separators, the narrow no-break space, the medium mathematical
space and the ideographic space. The zero width space U+200B is not among them. -/
def isBlank (c : Char) : Bool :=
  let n := c.toNat
  (0x09 ≤ n && n ≤ 0x0D) || n = 0x20 || n = 0x85 || n = 0xA0 || n = 0x1680 ||
    (0x2000 ≤ n && n ≤ 0x200A) || n = 0x2028 || n = 0x2029 || n = 0x202F || n = 0x205F ||
    n = 0x3000

/-- The characters of a text without its leading and trailing blanks. -/
def trimBlankChars (cs : List Char) : List Char :=
  ((cs.dropWhile isBlank).reverse.dropWhile isBlank).reverse

/-- A text without its leading and trailing blanks. -/
def trimBlank (s : String) : String :=
  String.ofList (trimBlankChars s.toList)

/-- Whether a text holds a blank anywhere. -/
def hasBlank (s : String) : Bool :=
  s.toList.any isBlank

/-- Every character that core counts as whitespace is blank. -/
theorem isBlank_of_isWhitespace {c : Char} (h : c.isWhitespace = true) : isBlank c = true := by
  simp only [Char.isWhitespace, Bool.or_eq_true, decide_eq_true_eq] at h
  simp only [isBlank]
  rcases h with ((h | h) | h) | h <;> simp [h]

end Chaincode.Text
