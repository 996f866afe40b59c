import ChangeRules.Number.Notation
import ChangeRules.Value.Text

/-!
# Metrics

Counters of requests, errors, events, firings and actions, and the durations of requests and firings,
each told apart by labels.

* `Metrics.countAction` and its like: something happened.
* `Metrics.samples`: the names, labels and values of all counters and durations.
* `Metrics.lines`: the same as the lines of a page, each family behind a heading.
-/

namespace ChangeRules

/-- Labels and their values. -/
abbrev Labels := List (String × String)

/-! ## Series -/

/-- How often something happened, and how much it amounted to. -/
structure Series where
  labels : Labels
  count : Nat := 0
  sum : Double := .zero

/-- The series of one family, in the order in which they began. -/
abbrev Tally := List Series

namespace Tally

/-- Something happened once and amounted to something. -/
def count (labels : Labels) (amount : Double) : Tally → Tally
  | [] => [⟨labels, 1, Double.zero.add amount⟩]
  | s :: rest =>
    if s.labels = labels then { s with count := s.count + 1, sum := s.sum.add amount } :: rest
    else s :: count labels amount rest

end Tally

/-- What a service counts. -/
structure Metrics where
  service : String
  httpRequests : Tally := []
  httpDurations : Tally := []
  errors : Tally := []
  changeEvents : Tally := []
  firings : Tally := []
  firingDurations : Tally := [⟨[], 0, .zero⟩]
  actions : Tally := []

/-- One value of one family. -/
structure Sample where
  name : String
  labels : Labels
  value : Double

namespace Metrics

/-! ## Counting -/

def countRequest (method endpoint status : String) (seconds : Double) (m : Metrics) : Metrics :=
  { m with
    httpRequests := Tally.count
      [("method", method), ("endpoint", endpoint), ("status_code", status)] .zero m.httpRequests
    httpDurations := Tally.count [("method", method), ("endpoint", endpoint)] seconds m.httpDurations }

/-- An error of a type; it belongs to this service unless another one is named. -/
def countError (type service : String) (m : Metrics) : Metrics :=
  let service := if service.isEmpty then m.service else service
  { m with errors := Tally.count [("error_type", type), ("service", service)] .zero m.errors }

def countEvent (operation : String) (m : Metrics) : Metrics :=
  { m with changeEvents := Tally.count [("operation", operation)] .zero m.changeEvents }

/-- A firing that ended in a state after some milliseconds. -/
def countFiring (state : String) (milliseconds : Double) (m : Metrics) : Metrics :=
  { m with
    firings := Tally.count [("state", state)] .zero m.firings
    firingDurations := Tally.count [] (milliseconds.div (.ofInt 1000)) m.firingDurations }

def countAction (type : String) (success : Bool) (m : Metrics) : Metrics :=
  let status := if success then "success" else "failure"
  { m with actions := Tally.count [("action_type", type), ("status", status)] .zero m.actions }

/-! ## Families -/

/-- The kinds of family. -/
inductive FamilyKind where
  | gauge
  | counter
  | histogram
  deriving DecidableEq

def FamilyKind.name : FamilyKind → String
  | .gauge => "gauge"
  | .counter => "counter"
  | .histogram => "histogram"

/-- A family with its heading. -/
structure Family where
  name : String
  help : String
  kind : FamilyKind
  tally : Tally

/-- All families, in the order of the page. -/
def families (m : Metrics) : List Family :=
  [ ⟨"service_info_info", "Service information", .gauge,
      [⟨[("service", m.service), ("version", "1.0.0")], 1, .zero⟩]⟩,
    ⟨"http_requests_total", "Total HTTP requests", .counter, m.httpRequests⟩,
    ⟨"http_request_duration_seconds", "HTTP request duration in seconds", .histogram,
      m.httpDurations⟩,
    ⟨"errors_total", "Total errors", .counter, m.errors⟩,
    ⟨"change_events_total", "Total change events received", .counter, m.changeEvents⟩,
    ⟨"rule_firings_total", "Total rule firings by terminal state", .counter, m.firings⟩,
    ⟨"rule_firing_duration_seconds", "Action dispatch duration per firing in seconds", .histogram,
      m.firingDurations⟩,
    ⟨"rule_actions_total", "Total actions executed", .counter, m.actions⟩ ]

namespace Family

/-- The samples of a family: a histogram shows its count and its sum. -/
def samples (f : Family) : List Sample :=
  f.tally.flatMap fun s =>
    let count : Double := .ofInt s.count
    match f.kind with
    | .histogram => [⟨f.name ++ "_count", s.labels, count⟩, ⟨f.name ++ "_sum", s.labels, s.sum⟩]
    | _ => [⟨f.name, s.labels, count⟩]

end Family

def samples (m : Metrics) : List Sample := m.families.flatMap Family.samples

/-! ## The page -/

/-- A label's value between quotes. -/
def escapeLabel (s : String) : String :=
  String.ofList (s.toList.flatMap fun c =>
    if c = '\\' then ['\\', '\\'] else if c = '\n' then ['\\', 'n']
    else if c = '"' then ['\\', '"'] else [c])

/-- Labels in the order of their names. -/
def labelText (labels : Labels) : String :=
  if labels.isEmpty then ""
  else "\x7b" ++ ",".intercalate
    ((labels.mergeSort fun a b => a.1 ≤ b.1).map fun l =>
      l.1 ++ "=\"" ++ escapeLabel l.2 ++ "\"") ++ "\x7d"

/-- A value; from a million on a positive one is written with an exponent. -/
def valueText (x : Double) : String :=
  match x with
  | .infinity negative => if negative then "-Inf" else "+Inf"
  | .nan => "NaN"
  | x =>
    let cs := x.text.toList
    let whole := cs.takeWhile (· != '.')
    if Double.zero.lt x && cs.contains '.' && 6 < whole.length then
      let digits := whole.take 1 ++ '.' :: whole.drop 1 ++ cs.drop (whole.length + 1)
      let kept := (digits.reverse.dropWhile fun c => c = '0' || c = '.').reverse
      String.ofList kept ++ "e+0" ++ toString (whole.length - 1)
    else x.text

def Sample.line (s : Sample) : String := s.name ++ labelText s.labels ++ " " ++ valueText s.value

/-- The lines of the page. -/
def lines (m : Metrics) : List String :=
  m.families.flatMap fun f =>
    ("# HELP " ++ f.name ++ " " ++ f.help) :: ("# TYPE " ++ f.name ++ " " ++ f.kind.name) ::
      f.samples.map Sample.line

end Metrics

end ChangeRules
