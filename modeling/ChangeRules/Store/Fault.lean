import ChangeRules.Fault

/-!
# Faults of stores

The rules are in one store and the logs in another. Whatever goes wrong in a store is reported with
its name.

* `Store.fault`: a fault of a store, for a reason.
-/

namespace ChangeRules

/-- The stores. -/
inductive Store where
  | rules
  | logs
  deriving DecidableEq

namespace Store

def name : Store → String
  | .rules => "rule_store"
  | .logs => "execution_log_store"

/-- A fault of a store. -/
def fault (s : Store) (reason : String) : Fault := .error (.store s.name reason [])

/-- Why a store that was not started does nothing. -/
def notStarted : String := "not started"

/-- A call of the store took longer than so many seconds. -/
def timedOut (s : Store) (seconds : Double) : Fault :=
  s.fault ("timed out after " ++ seconds.brief ++ "s")

end Store

end ChangeRules
