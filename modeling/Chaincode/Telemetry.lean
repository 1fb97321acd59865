/-!
# Telemetry settings

Logging settings read from named variables: the service name, the log level (the chaincode's own
variable first, then the general one, then `info`), whether logs are JSON (the value `true` in
any ASCII case, or exactly `1`), and whether output is coloured (unless `NO_COLOR` is set at all).
-/

namespace Chaincode

/-- Logging settings. -/
structure TelemetryConfig where
  serviceName : String
  logLevel : String
  jsonLogs : Bool
  ansi : Bool
  deriving DecidableEq, Repr

namespace TelemetryConfig

/-- Whether a text is `true` in any ASCII case, or exactly `1`. -/
def isTrueFlag (v : String) : Bool :=
  v.toList.map Char.toLower == "true".toList || v == "1"

/-- The settings given by a lookup of variables. -/
def ofLookup (lookup : String → Option String) : TelemetryConfig where
  serviceName := (lookup "CC_SERVICE_NAME").getD "chaincode"
  logLevel := ((lookup "CC_LOG_LEVEL").orElse fun _ => lookup "RUST_LOG").getD "info"
  jsonLogs := ((lookup "CC_JSON_LOGS").map isTrueFlag).getD false
  ansi := (lookup "NO_COLOR").isNone

end TelemetryConfig

end Chaincode
