import Chaincode.Text.GraphemeExtend
import Chaincode.Text.Printable

/-!
# Quoted texts

The quoted form of a text, as diagnostics and debugging output show names, keys and reasons: the
text between double quotes, with the NUL, tab, carriage return, line feed, backslash and double
quote written as backslash escapes, and every extending or unprintable character written as its
code point in lowercase hexadecimal, `\u{301}`. Everything else is written as it is, so
`é`, `日本` and `😀` stay readable.
-/

namespace Chaincode.Text

/-- The digits of a natural number in lowercase hexadecimal, most significant first. -/
def hexDigits (n : Nat) : List Char :=
  (Nat.toDigits 16 n)

/-- A code point escape, `\u{hex}`. -/
def codePointEscape (c : Char) : String :=
  "\\u\x7b" ++ String.ofList (hexDigits c.toNat) ++ "\x7d"

/-- How one character is written inside a quoted text. -/
def escapeChar (c : Char) : String :=
  if c = '\x00' then "\\0"
  else if c = '\t' then "\\t"
  else if c = '\r' then "\\r"
  else if c = '\n' then "\\n"
  else if c = '\\' then "\\\\"
  else if c = '"' then "\\\""
  else if isGraphemeExtend c || !isPrintable c then codePointEscape c
  else c.toString

/-- A text in double quotes with its special characters escaped. -/
def quote (s : String) : String :=
  "\"" ++ String.join (s.toList.map escapeChar) ++ "\""

/-- A list of texts in brackets, each quoted, separated by a comma and a space. -/
def quoteList (xs : List String) : String :=
  "[" ++ ", ".intercalate (xs.map quote) ++ "]"

end Chaincode.Text
