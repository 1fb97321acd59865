import Chaincode.Json.Decode
import Chaincode.Text.Blank
import Chaincode.Text.Quoted

/-!
# Router configuration

A router has a name, the name of its initialisation function, whether it refuses surplus
arguments, and whether it reports every invocation. A configuration is valid when its name is
not blank, and its initialisation function is not blank and holds no blank character.

A configuration is read from a JSON tree: either an object, whose known members replace the
defaults and whose other members are ignored, or an array of the fields in declaration order,
which may be shorter than the list of fields but not longer.
-/

namespace Chaincode

open Json

/-- Why a configuration is refused. -/
inductive ConfigError where
  | invalidFunctionName (reason : String)
  | invalid (reason : String)
  deriving DecidableEq, Repr

namespace ConfigError

/-- The wording of a refused configuration. -/
def message : ConfigError → String
  | .invalidFunctionName reason => "invalid function name: " ++ reason
  | .invalid reason => "invalid configuration: " ++ reason

/-- The name of the failure's kind. -/
def kindName : ConfigError → String
  | .invalidFunctionName _ => "InvalidFunctionName"
  | .invalid _ => "Invalid"

end ConfigError

/-- How a router is set up. -/
structure RouterConfig where
  name : String := "chaincode"
  initFunction : String := "init"
  strictArgs : Bool := false
  logInvocations : Bool := false
  deriving DecidableEq, Repr

namespace RouterConfig

/-- The default configuration. -/
def default : RouterConfig := {}

/-- Refuses a blank name, a blank initialisation function, and one holding a blank. -/
def validate (c : RouterConfig) : Except ConfigError Unit := do
  if (Text.trimBlank c.name).isEmpty then throw (.invalid "name cannot be empty")
  if (Text.trimBlank c.initFunction).isEmpty then
    throw (.invalidFunctionName "init_function cannot be empty")
  if Text.hasBlank c.initFunction then
    throw (.invalidFunctionName ("init_function " ++ Text.quote c.initFunction ++
      " contains whitespace"))

/-- The debugging form. -/
def debug (c : RouterConfig) : String :=
  "RouterConfig \x7b name: " ++ Text.quote c.name ++ ", init_function: " ++
    Text.quote c.initFunction ++ ", strict_args: " ++ toString c.strictArgs ++
    ", log_invocations: " ++ toString c.logInvocations ++ " \x7d"

/-- The configuration as a JSON object. -/
def toJson (c : RouterConfig) : JsonValue :=
  .object [("init_function", .string c.initFunction), ("log_invocations", .bool c.logInvocations),
    ("name", .string c.name), ("strict_args", .bool c.strictArgs)]

/-- Sets a field from a JSON member; other members are ignored. -/
def setField (c : RouterConfig) : String × JsonValue → Except ReadErrorCode RouterConfig
  | ("name", v) => return { c with name := ← decodeString v }
  | ("init_function", v) => return { c with initFunction := ← decodeString v }
  | ("strict_args", v) => return { c with strictArgs := ← decodeBool v }
  | ("log_invocations", v) => return { c with logInvocations := ← decodeBool v }
  | _ => pure c

/-- The field names in declaration order. -/
def fieldNames : List String := ["name", "init_function", "strict_args", "log_invocations"]

/-- Reads a configuration from a JSON tree. -/
def ofJson (v : JsonValue) : Except ReadErrorCode RouterConfig :=
  match v with
  | .object members => members.foldlM setField {}
  | .array items => do
    let c ← (fieldNames.zip items).foldlM setField {}
    if items.length > fieldNames.length then
      throw (.invalidLength items.length "fewer elements in array")
    return c
  | _ => .error (mismatch v "struct RouterConfig")

end RouterConfig

end Chaincode
