import ChangeRules.Text.Find
import ChangeRules.Value.Basic

/-!
# Resources

What the service can be asked for. A path names at most one resource, and each resource knows some
methods.

* `Resource.ofPath?`: the resource that a path names.
* `Resource.operation?`: what a method asks of a resource.
* `Resource.elsewhere?`: a resource whose path differs only in slashes at the end.
* **`Resource.ofSegments?_rules`**: where a tenant's rules are.
-/

namespace ChangeRules.Api

/-- What a path can name. -/
inductive Resource where
  | home
  | health
  | metrics
  | events
  | rules (tenant : String)
  | rule (tenant id : String)
  | toggle (tenant id : String)
  | logs (tenant : String)
  | logStats (tenant : String)
  deriving DecidableEq

/-- What a client can ask for. -/
inductive Operation where
  | home
  | health
  | metrics
  | takeEvent
  | createRule (tenant : String)
  | listRules (tenant : String)
  | readRule (tenant id : String)
  | toggleRule (tenant id : String)
  | listLogs (tenant : String)
  | readStats (tenant : String)
  deriving DecidableEq

namespace Resource

/-- Whether the last segment of a path is a word; a line may end behind it. -/
def isLast (word segment : String) : Bool := segment == word || segment == word ++ "\n"

/-- The resource with one segment. -/
def single? (segment : String) : Option Resource :=
  [("", home), ("health", health), ("metrics", metrics), ("events", events)].findSome? fun r =>
    if isLast r.1 segment then some r.2 else none

/-- The resource that the segments of a path name. -/
def ofSegments? : List String → Option Resource
  | [segment] => single? segment
  | ["tenants", tenant, kind] =>
    if tenant.isEmpty then none
    else if isLast "rules" kind then some (rules tenant)
    else if isLast "logs" kind then some (logs tenant)
    else none
  | ["tenants", tenant, kind, name] =>
    if tenant.isEmpty || name.isEmpty then none
    else if kind = "rules" then some (rule tenant name)
    else if kind = "logs" && isLast "stats" name then some (logStats tenant)
    else none
  | ["tenants", tenant, "rules", id, verb] =>
    if tenant.isEmpty || id.isEmpty then none
    else if isLast "toggle" verb then some (toggle tenant id)
    else none
  | _ => none

/-- The resource that a path names. -/
def ofPath? (path : String) : Option Resource :=
  match Text.pieces '/' path with
  | "" :: segments => ofSegments? segments
  | _ => none

/-- The path without slashes at its end, or with one if it has none. -/
def otherPath (path : String) : String :=
  let cs := path.toList
  if cs.getLast? = some '/' then String.ofList (cs.reverse.dropWhile (· = '/')).reverse
  else String.ofList (cs ++ ['/'])

/-- A resource whose path differs only in slashes at the end. -/
def elsewhere? (path : String) : Option Resource :=
  if path = "/" then none else ofPath? (otherPath path)

/-- What a method asks of a resource. -/
def operation? (method : String) (r : Resource) : Option Operation :=
  match method, r with
  | "GET", home => some .home
  | "GET", health => some .health
  | "GET", metrics => some .metrics
  | "POST", events => some .takeEvent
  | "POST", rules tenant => some (.createRule tenant)
  | "GET", rules tenant => some (.listRules tenant)
  | "GET", rule tenant id => some (.readRule tenant id)
  | "POST", toggle tenant id => some (.toggleRule tenant id)
  | "GET", logs tenant => some (.listLogs tenant)
  | "GET", logStats tenant => some (.readStats tenant)
  | _, _ => none

theorem ofSegments?_rules {tenant : String} (h : tenant ≠ "") :
    ofSegments? ["tenants", tenant, "rules"] = some (rules tenant) := by
  simp [ofSegments?, isLast, h]

end Resource

end ChangeRules.Api
