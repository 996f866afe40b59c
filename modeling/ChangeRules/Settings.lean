import ChangeRules.Text.Case
import ChangeRules.Text.Find
import ChangeRules.Validation.Scalar

/-!
# Settings

What a service is told when it starts: by the caller, by variables of the environment whose names
begin with `RULES_`, in this order, and by default.

* `Settings.read`: the settings, or every issue against them.
* `Settings.toValue`: the settings as a value.
-/

namespace ChangeRules

/-- The settings of a service. -/
structure Settings where
  env : String
  logLevel : String
  storageBackend : String
  postgresAddress : String
  storeTimeout : Double
  kafkaBootstrap : String
  changeTopic : String
  consumerGroup : String
  enableConsumer : Bool
  emailAddress : String
  recordsAddress : String
  actionTimeout : Double
  serviceName : String
  port : Int
  host : String

namespace Settings

/-- The front of the names of variables. -/
def variableFront : String := "rules_"

/-- The settings that variables of the environment hold. Capital and small letters are the same in
their names. -/
def ofVariables (environment : List (String × String)) : Fields :=
  Fields.ofPairs (environment.filterMap fun p =>
    let name := Text.lower p.1
    if Text.startsWith name variableFront then
      some (String.ofList (name.toList.drop variableFront.length), .text p.2)
    else none)

/-- The value given first, or else the second one's. -/
def given (overrides environment : Fields) (name : String) : Fields :=
  match Fields.get? overrides name with
  | some v => [(name, v)]
  | none =>
    match Fields.get? environment name with
    | some v => [(name, v)]
    | none => []

/-- The settings of a service with a name and a port. -/
def read (service port : Value) (overrides : Fields) (environment : List (String × String)) :
    Check Settings :=
  let environment := ofVariables environment
  let text (name default : String) : Check String :=
    Check.optional (given overrides environment name) [name] default Check.text
  let seconds (name : String) (default : Int) : Check Double :=
    Check.optional (given overrides environment name) [name] (.ofInt default) Check.positive
  .ok Settings.mk
  |> Check.also (text "env" "local")
  |> Check.also (text "log_level" "info")
  |> Check.also (text "storage_backend" "postgres")
  |> Check.also (text "postgres_dsn" "postgres://localhost:5432/business_rules")
  |> Check.also (seconds "store_timeout_seconds" 5)
  |> Check.also (text "kafka_bootstrap" "localhost:9092")
  |> Check.also (text "change_topic" "school.record_changes")
  |> Check.also (text "consumer_group" "business-rule-engine")
  |> Check.also (Check.optional (given overrides environment "enable_consumer") ["enable_consumer"] false
      Check.truth)
  |> Check.also (text "email_queue_url" "http://localhost:8020")
  |> Check.also (text "data_service_url" "http://localhost:8021")
  |> Check.also (seconds "action_timeout_seconds" 10)
  |> Check.also (Check.under (.field "service_name") (Check.text service))
  |> Check.also (Check.under (.field "port") (Check.integer port))
  |> Check.also (text "host" "0.0.0.0")

/-- Settings as a value. -/
def toValue (s : Settings) : Value :=
  .object [("env", .text s.env), ("log_level", .text s.logLevel),
    ("storage_backend", .text s.storageBackend), ("postgres_dsn", .text s.postgresAddress),
    ("store_timeout_seconds", .double s.storeTimeout), ("kafka_bootstrap", .text s.kafkaBootstrap),
    ("change_topic", .text s.changeTopic), ("consumer_group", .text s.consumerGroup),
    ("enable_consumer", .bool s.enableConsumer), ("email_queue_url", .text s.emailAddress),
    ("data_service_url", .text s.recordsAddress), ("action_timeout_seconds", .double s.actionTimeout),
    ("service_name", .text s.serviceName), ("port", .int s.port), ("host", .text s.host)]

end Settings

end ChangeRules
