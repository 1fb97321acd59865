import Chaincode.Number.Shortest
import Chaincode.Bytes

/-!
# JSON values

A JSON document as a tree. Numbers are classified as a JSON reader classifies them: a natural
number below 2^64, a negative integer not below -2^63, or otherwise a double. Objects keep their
members in the order given: a writer of records lists fields in declaration order, while the
general reader (`Json.parseValue`) sorts members by name.

`render` writes the compact form: no blanks, strings in double quotes with the quote, the
backslash and the control characters escaped (`\b \f \n \r \t` by name, the others as `\u00XX`)
and every other character written as it is.
-/

namespace Chaincode

/-- A JSON number, classified. -/
inductive JsonNumber where
  | nat (n : Nat)
  | negative (n : Int)
  | float (x : Float)

/-- A JSON document. -/
inductive JsonValue where
  | null
  | bool (b : Bool)
  | number (n : JsonNumber)
  | string (s : String)
  | array (items : List JsonValue)
  | object (members : List (String × JsonValue))

namespace JsonNumber

/-- The number an integer reads as: natural below 2^64, negative from -2^63, a double beyond. -/
def ofInt (i : Int) : JsonNumber :=
  if 0 ≤ i then (if i < Int.pow 2 64 then .nat i.toNat else .float (Float.ofInt i))
  else if -Int.pow 2 63 ≤ i then .negative i
  else .float (Float.ofInt i)

/-- The written form of a number. -/
def render : JsonNumber → String
  | .nat n => toString n
  | .negative n => toString n
  | .float x => Number.DoubleFormat.messages.show x

end JsonNumber

namespace JsonValue

/-- How one character is written inside a JSON string. -/
def escapeChar (c : Char) : String :=
  if c = '"' then "\\\""
  else if c = '\\' then "\\\\"
  else if c = '\n' then "\\n"
  else if c = '\r' then "\\r"
  else if c = '\t' then "\\t"
  else if c = '\x08' then "\\b"
  else if c = '\x0c' then "\\f"
  else if c.toNat < 0x20 then
    "\\u00" ++ String.ofList [Bytes.hexDigit (c.toNat / 16), Bytes.hexDigit (c.toNat % 16)]
  else c.toString

/-- A JSON string literal. -/
def quote (s : String) : String :=
  "\"" ++ String.join (s.toList.map escapeChar) ++ "\""

mutual

/-- The compact written form. -/
def render : JsonValue → String
  | .null => "null"
  | .bool b => if b then "true" else "false"
  | .number n => n.render
  | .string s => quote s
  | .array items => "[" ++ renderItems items ++ "]"
  | .object members => "\x7b" ++ renderMembers members ++ "\x7d"

/-- Array items separated by commas. -/
def renderItems : List JsonValue → String
  | [] => ""
  | [v] => render v
  | v :: rest => render v ++ "," ++ renderItems rest

/-- Object members separated by commas. -/
def renderMembers : List (String × JsonValue) → String
  | [] => ""
  | [(k, v)] => quote k ++ ":" ++ render v
  | (k, v) :: rest => quote k ++ ":" ++ render v ++ "," ++ renderMembers rest

end

mutual

/-- How deeply arrays and objects nest in a value: zero for a scalar. -/
def depth : JsonValue → Nat
  | .array items => itemsDepth items + 1
  | .object members => membersDepth members + 1
  | _ => 0

/-- The greatest depth of array items. -/
def itemsDepth : List JsonValue → Nat
  | [] => 0
  | v :: rest => max (depth v) (itemsDepth rest)

/-- The greatest depth of member values. -/
def membersDepth : List (String × JsonValue) → Nat
  | [] => 0
  | (_, v) :: rest => max (depth v) (membersDepth rest)

end

/-- The member of an object with a given name. -/
def field? (v : JsonValue) (name : String) : Option JsonValue :=
  match v with
  | .object members => members.lookup name
  | _ => none

/-- The text of a string value. -/
def asString? : JsonValue → Option String
  | .string s => some s
  | _ => none

/-- The items of an array value. -/
def asArray? : JsonValue → Option (List JsonValue)
  | .array items => some items
  | _ => none

/-- The value of a boolean. -/
def asBool? : JsonValue → Option Bool
  | .bool b => some b
  | _ => none

/-- An object member inserted by name order, replacing a member of the same name. -/
def insertSorted (k : String) (v : JsonValue) :
    List (String × JsonValue) → List (String × JsonValue)
  | [] => [(k, v)]
  | (k', v') :: rest =>
    if k = k' then (k, v) :: rest
    else if k < k' then (k, v) :: (k', v') :: rest
    else (k', v') :: insertSorted k v rest

/-- An object whose members are sorted by name, later members replacing earlier ones. -/
def sortedObject (members : List (String × JsonValue)) : JsonValue :=
  .object (members.foldl (fun acc (k, v) => insertSorted k v acc) [])

mutual

/-- The value with the members of every object sorted by name, later members replacing earlier
ones of the same name: the form a value takes when its objects are held as maps. -/
def sortMembers : JsonValue → JsonValue
  | .array items => .array (sortItems items)
  | .object members => sortedObject (sortMemberValues members)
  | v => v

/-- Array items with their objects sorted. -/
def sortItems : List JsonValue → List JsonValue
  | [] => []
  | v :: rest => sortMembers v :: sortItems rest

/-- Member values with their objects sorted, the members themselves in place. -/
def sortMemberValues : List (String × JsonValue) → List (String × JsonValue)
  | [] => []
  | (k, v) :: rest => (k, sortMembers v) :: sortMemberValues rest

end

end JsonValue

end Chaincode
