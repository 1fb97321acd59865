/-!
# Texts as character lists

Small operations on texts, stated on their character lists so that lemmas about lists apply.
-/

namespace Chaincode.Text

/-- Whether `p` is a prefix of `s`, character by character. -/
def startsWith (s p : String) : Bool :=
  p.toList.isPrefixOf s.toList

/-- Whether a text holds a character. -/
def containsChar (s : String) (c : Char) : Bool :=
  s.toList.contains c

/-- A natural number in decimal, padded with zeros on the left to at least `width` digits. -/
def padNat (width n : Nat) : String :=
  let digits := Nat.toDigits 10 n
  String.ofList (List.replicate (width - digits.length) '0' ++ digits)

end Chaincode.Text
