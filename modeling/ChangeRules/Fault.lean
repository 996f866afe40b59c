import ChangeRules.Number.Mixed
import ChangeRules.Validation.Issue

/-!
# Faults

Everything that can go wrong, as a cause. A fault from outside (a sink, a store, a broker) is known by
the name of its kind; the kinds form a tree, and whoever handles a kind handles everything below it.
The engine's own errors carry a code, a message and details.

* `isKind`: whether a kind lies below another one.
* `RuleError`: an error of the engine, with a constructor for every code.
* `Fault.message`, `Fault.kind`: what is written about a fault.
* `Fault.withinLimit`: what a time limit makes of a call's outcome.

A time limit is not compared with the seconds that replies and waits take on the clock. It acts on a
call that never ends and on no other one: that a call takes too long is said by letting it never end.
-/

namespace ChangeRules

/-! ## Kinds -/

/-- Kinds and the kind right above each, the lower ones first. -/
def kindsAbove : List (String × String) :=
  [ ("ConnectTimeout", "TimeoutException"), ("ReadTimeout", "TimeoutException"),
    ("WriteTimeout", "TimeoutException"), ("PoolTimeout", "TimeoutException"),
    ("ConnectError", "NetworkError"), ("ReadError", "NetworkError"),
    ("WriteError", "NetworkError"), ("CloseError", "NetworkError"),
    ("LocalProtocolError", "ProtocolError"), ("RemoteProtocolError", "ProtocolError"),
    ("TimeoutException", "TransportError"), ("NetworkError", "TransportError"),
    ("ProtocolError", "TransportError"), ("ProxyError", "TransportError"),
    ("UnsupportedProtocol", "TransportError"), ("TransportError", "RequestError"),
    ("DecodingError", "RequestError"), ("TooManyRedirects", "RequestError"),
    ("RequestError", "HTTPError"), ("HTTPStatusError", "HTTPError"), ("HTTPError", "Exception"),
    ("InvalidURL", "Exception"), ("CookieConflict", "Exception"),
    ("StreamConsumed", "StreamError"), ("StreamClosed", "StreamError"),
    ("ResponseNotRead", "StreamError"), ("RequestNotRead", "StreamError"),
    ("StreamError", "RuntimeError"),
    ("KafkaError", "RuntimeError"), ("PostgresError", "Exception"),
    ("InterfaceError", "Exception"), ("OutdatedSchemaCacheError", "InternalClientError"),
    ("UnsupportedServerFeatureError", "InternalClientError"), ("InternalClientError", "Exception"),
    ("TabError", "IndentationError"), ("IndentationError", "SyntaxError"),
    ("UnicodeDecodeError", "UnicodeError"), ("UnicodeEncodeError", "UnicodeError"),
    ("UnicodeTranslateError", "UnicodeError"), ("JSONDecodeError", "ValueError"),
    ("UnicodeError", "ValueError"),
    ("BrokenPipeError", "ConnectionError"), ("ConnectionAbortedError", "ConnectionError"),
    ("ConnectionRefusedError", "ConnectionError"), ("ConnectionResetError", "ConnectionError"),
    ("BlockingIOError", "OSError"), ("ChildProcessError", "OSError"),
    ("ConnectionError", "OSError"), ("FileExistsError", "OSError"),
    ("FileNotFoundError", "OSError"), ("InterruptedError", "OSError"),
    ("IsADirectoryError", "OSError"), ("NotADirectoryError", "OSError"),
    ("PermissionError", "OSError"), ("ProcessLookupError", "OSError"), ("TimeoutError", "OSError"),
    ("IndexError", "LookupError"), ("KeyError", "LookupError"),
    ("FloatingPointError", "ArithmeticError"), ("OverflowError", "ArithmeticError"),
    ("ZeroDivisionError", "ArithmeticError"), ("ModuleNotFoundError", "ImportError"),
    ("NotImplementedError", "RuntimeError"), ("RecursionError", "RuntimeError"),
    ("UnboundLocalError", "NameError"), ("BytesWarning", "Warning"),
    ("DeprecationWarning", "Warning"), ("EncodingWarning", "Warning"), ("FutureWarning", "Warning"),
    ("ImportWarning", "Warning"), ("PendingDeprecationWarning", "Warning"),
    ("ResourceWarning", "Warning"), ("RuntimeWarning", "Warning"), ("SyntaxWarning", "Warning"),
    ("UnicodeWarning", "Warning"), ("UserWarning", "Warning"),
    ("ArithmeticError", "Exception"), ("AssertionError", "Exception"),
    ("AttributeError", "Exception"), ("BufferError", "Exception"), ("EOFError", "Exception"),
    ("ImportError", "Exception"), ("LookupError", "Exception"), ("MemoryError", "Exception"),
    ("NameError", "Exception"), ("OSError", "Exception"), ("ReferenceError", "Exception"),
    ("RuntimeError", "Exception"), ("StopAsyncIteration", "Exception"),
    ("StopIteration", "Exception"), ("SyntaxError", "Exception"), ("SystemError", "Exception"),
    ("TypeError", "Exception"), ("ValueError", "Exception"), ("Warning", "Exception") ]

/-- The kinds from one up to the topmost, given pairs of which the lower ones come first. -/
def kindChain (kind : String) : List (String × String) → List String
  | [] => [kind]
  | (low, high) :: rest => if low == kind then kind :: kindChain high rest else kindChain kind rest

/-- Whether a kind is `family` or lies below it. -/
def isKind (kind family : String) : Bool := (kindChain kind kindsAbove).contains family

/-! ## Errors of the engine -/

/-- The classes of the engine's own errors. -/
inductive ErrorClass where
  | general
  | validation
  | matching
  | configuration
  | action
  | actionValidation
  | actionTimeout
  | store
  | service
  | rejection
  deriving DecidableEq

/-- The name of a class. -/
def ErrorClass.name : ErrorClass → String
  | .general => "RuleEngineException"
  | .validation => "ValidationError"
  | .matching => "MatchingError"
  | .configuration => "ConfigurationError"
  | .action => "ActionError"
  | .actionValidation => "ActionValidationError"
  | .actionTimeout => "ActionTimeoutError"
  | .store => "StoreError"
  | .service => "ExternalServiceError"
  | .rejection => "ExternalServiceRejection"

/-- Whether errors of the class belong to an action. -/
def ErrorClass.isAction : ErrorClass → Bool
  | .action | .actionValidation | .actionTimeout => true
  | _ => false

/-- Whether errors of the class concern the matching of a rule. -/
def ErrorClass.isMatching : ErrorClass → Bool
  | .matching | .configuration => true
  | _ => false

/-- Whether errors of the class come from a service outside. -/
def ErrorClass.isService : ErrorClass → Bool
  | .service | .rejection => true
  | _ => false

/-- An error of the engine. -/
structure RuleError where
  kind : ErrorClass
  code : String
  message : String
  details : Fields := []
  /-- The place of the failing action in its rule, once known. -/
  actionIndex : Option Int := none
  /-- The type of the failing action, once known. -/
  actionType : Option String := none
  /-- The store or the service that failed. -/
  origin : String := ""

namespace RuleError

def general (code message : String) (details : Fields) : RuleError :=
  { kind := .general, code, message, details }

def validation (message : String) (details : Fields) : RuleError :=
  { kind := .validation, code := "VALIDATION_ERROR", message, details }

def matching (message : String) (details : Fields) : RuleError :=
  { kind := .matching, code := "MATCHING_ERROR", message, details }

def configuration (message : String) (details : Fields) : RuleError :=
  { kind := .configuration, code := "CONFIGURATION_ERROR", message, details }

/-- The code of an error of an action. -/
def actionCode : ErrorClass → String
  | .actionValidation => "ACTION_VALIDATION_ERROR"
  | .actionTimeout => "ACTION_TIMEOUT"
  | _ => "ACTION_ERROR"

/-- A field that is set unless it is there, if there is something to set. -/
def noteDetail (details : Fields) (key : String) : Option Value → Fields
  | none => details
  | some v => details.setDefault key v

/-- Attach the place of the failing action as far as it is not known yet; the details mention what
they did not mention before. -/
def bind (e : RuleError) (index : Option Int) (type : Option String) : RuleError :=
  let place := if e.actionIndex.isNone then index else none
  let name := if e.actionType.isNone then type else none
  { e with
    actionIndex := e.actionIndex.or place
    actionType := e.actionType.or name
    details := noteDetail (noteDetail e.details "action_index" (place.map Value.int))
      "action_type" (name.map Value.text) }

/-- An error of an action, with its place as far as it is known. -/
def action (kind : ErrorClass) (message : String) (index : Option Int) (type : Option String)
    (details : Fields) : RuleError :=
  bind { kind, code := actionCode kind, message, details } index type

/-- A store that is not available. -/
def store (name message : String) (details : Fields) : RuleError :=
  { kind := .store, code := "STORE_ERROR", message := name ++ ": " ++ message, details,
    origin := name }

/-- A service that failed. -/
def service (name message : String) (details : Fields) : RuleError :=
  { kind := .service, code := "EXTERNAL_SERVICE_ERROR", message := name ++ ": " ++ message, details,
    origin := name }

/-- A service that answered and refused. -/
def rejection (name message : String) (details : Fields) : RuleError :=
  { kind := .rejection, code := "EXTERNAL_SERVICE_REJECTED", message := name ++ ": " ++ message,
    details, origin := name }

/-- The error as an answer to a request. -/
def toResponse (e : RuleError) (request : Value) : Value :=
  .object [("request_id", request), ("code", .text e.code), ("message", .text e.message),
    ("details", .object e.details)]

end RuleError

/-! ## Misuse -/

/-- A value met an operation that it does not support. -/
inductive Misuse where
  | arithmetic (flaw : ArithmeticFlaw)
  | noMember (type member : String)
  | notIterable (type : String)
  | noLength (type : String)
  | noSum (left right : String)
  | noDifference (left right : String)
  | noEntries (type : String)
  | unhashable (type : String)
  | pairShape (index : Nat)
  | pairLength (index length : Nat)
  | unknownOperation (shown : String)
  | badAddress (reason : String)
  | integerLiteral (shown : String)
  /-- An integer has more digits than are read. -/
  | unreadableInteger (digits : Nat)
  /-- An integer has more digits than are written. -/
  | unwritableInteger
  | integerArgument (type : String)
  | doubleLiteral (shown : String)
  | doubleArgument (type : String)
  | encodingOfNonText
  | missingKey (key : String)
  | tableRequired
  | unknownBackend (name : String)
  | unknownLevel (name : String)
  | other (kind message : String)
  deriving DecidableEq

namespace Misuse

/-- The kind of a fault in arithmetic. -/
def arithmeticKind : ArithmeticFlaw → String
  | .integerTooLarge | .powerTooLarge | .infinityToInteger => "OverflowError"
  | .zeroToNegativePower => "ZeroDivisionError"
  | .undefinedToInteger => "ValueError"

def kind : Misuse → String
  | .arithmetic flaw => arithmeticKind flaw
  | .noMember _ _ | .unknownLevel _ => "AttributeError"
  | .notIterable _ | .noLength _ | .noSum _ _ | .noDifference _ _ | .noEntries _ | .unhashable _
  | .pairShape _ | .integerArgument _ | .doubleArgument _ | .encodingOfNonText => "TypeError"
  | .pairLength _ _ | .unknownOperation _ | .badAddress _
  | .integerLiteral _ | .unreadableInteger _ | .unwritableInteger | .doubleLiteral _
  | .tableRequired | .unknownBackend _ => "ValueError"
  | .missingKey _ => "KeyError"
  | .other kind _ => kind

def message : Misuse → String
  | .arithmetic flaw => flaw.message
  | .noMember type member =>
    "'" ++ type ++ "' object has no attribute '" ++ member ++ "'"
  | .notIterable type => "'" ++ type ++ "' object is not iterable"
  | .noLength type => "object of type '" ++ type ++ "' has no len()"
  | .noSum left right =>
    "unsupported operand type(s) for +: '" ++ left ++ "' and '" ++ right ++ "'"
  | .noDifference left right =>
    "unsupported operand type(s) for -: '" ++ left ++ "' and '" ++ right ++ "'"
  | .noEntries type =>
    if type = "str" then "string indices must be integers, not 'str'"
    else if type = "list" then "list indices must be integers or slices, not str"
    else "'" ++ type ++ "' object is not subscriptable"
  | .unhashable type => "unhashable type: '" ++ type ++ "'"
  | .pairShape index =>
    "cannot convert dictionary update sequence element #" ++ toString index ++ " to a sequence"
  | .pairLength index length =>
    "dictionary update sequence element #" ++ toString index ++ " has length " ++
      toString length ++ "; 2 is required"
  | .unknownOperation shown => shown ++ " is not a valid EventOperation"
  | .badAddress reason => reason
  | .integerLiteral shown => "invalid literal for int() with base 10: " ++ shown
  | .unreadableInteger digits =>
    "Exceeds the limit (" ++ toString Text.integerDigits ++
      " digits) for integer string conversion: value has " ++ toString digits ++
      " digits; use sys.set_int_max_str_digits() to increase the limit"
  | .unwritableInteger =>
    "Exceeds the limit (" ++ toString Text.integerDigits ++
      " digits) for integer string conversion; " ++
      "use sys.set_int_max_str_digits() to increase the limit"
  | .integerArgument type =>
    "int() argument must be a string, a bytes-like object or a real number, not '" ++ type ++ "'"
  | .doubleLiteral shown => "could not convert string to float: " ++ shown
  | .doubleArgument type =>
    "float() argument must be a string or a real number, not '" ++ type ++ "'"
  | .encodingOfNonText => "quote_from_bytes() expected bytes"
  | .missingKey key => Text.quoted key
  | .tableRequired => "trigger_table is required for record triggers"
  | .unknownBackend name => "Unknown storage backend: " ++ name
  | .unknownLevel name => "module 'logging' has no attribute '" ++ name ++ "'"
  | .other _ message => message

end Misuse

/-! ## Faults -/

/-- Anything that can go wrong. -/
inductive Fault where
  /-- A fault from outside, by the name of its kind. -/
  | outside (kind message : String)
  | misuse (m : Misuse)
  | error (e : RuleError)
  /-- Every attempt of a job failed, the last one with `last`. -/
  | exhausted (job : String) (attempts : Int) (last : Fault)
  /-- A breaker let a call not through. -/
  | blocked (breaker : String)
  | invalid (issues : List Issue)
  /-- A call that never ends. Only a time limit around it sees it. -/
  | stuck

instance : Inhabited Fault := ⟨.misuse (.arithmetic .integerTooLarge)⟩

namespace Fault

/-- The name of a fault's kind. -/
def kind : Fault → String
  | .outside kind _ => kind
  | .misuse m => m.kind
  | .error e => e.kind.name
  | .exhausted _ _ _ => "RetryError"
  | .blocked _ => "CircuitBreakerOpenException"
  | .invalid _ => "ValidationError"
  | .stuck => "CancelledError"

/-- What a fault says. A missing key is quoted. -/
def message : Fault → String
  | .outside kind message => if kind = "KeyError" then Text.quoted message else message
  | .misuse m => m.message
  | .error e => e.message
  | .exhausted job attempts _ =>
    "Function " ++ job ++ " failed after " ++ toString attempts ++ " attempts"
  | .blocked breaker => "Circuit breaker '" ++ breaker ++ "' is OPEN - blocking call"
  | .invalid issues => toString issues.length ++ " validation error(s)"
  | .stuck => ""

/-- The kind and the message. -/
def describe (f : Fault) : String := f.kind ++ ": " ++ f.message

/-- Whether a fault is of a kind or of one below it. The engine's own classes lie below the topmost
kind only. -/
def isA (f : Fault) (family : String) : Bool :=
  match f with
  | .outside kind _ => isKind kind family
  | .misuse m => isKind m.kind family
  | .invalid _ => family == "ValueError" || family == "Exception"
  | .stuck => false
  | _ => family == "Exception"

/-- A call that took too long. -/
def isTimeout (f : Fault) : Bool := f.isA "TimeoutError"

/-- A time limit was reached. -/
def timeout : Fault := .outside "TimeoutError" ""

/-- What a time limit makes of a call's outcome: the call that never ends is the one that takes too
long. -/
def withinLimit {α : Type} (outcome : Except Fault α) : Except Fault α :=
  match outcome with
  | .error .stuck => .error timeout
  | r => r

end Fault

end ChangeRules
