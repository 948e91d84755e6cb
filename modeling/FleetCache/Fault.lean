import FleetCache.Value.Display
/-!
What can go wrong, by cause. Each fault has a kind and a message. The faults about unusable input values
form a family of their own: they cost a single record or request, never a whole run.
-/
set_option autoImplicit false

namespace FleetCache

open FleetCache.Text

inductive KeyProblem where
  | unknownNamespace (shown : String)
  | fieldCount (ns : String) (required total given : Nat)
  | tooManyFields (ns : String) (total : Nat)
  | emptyField (ns field : String)
  | stated (text : String)

def KeyProblem.message : KeyProblem → String
  | .unknownNamespace shown => "Unknown namespace: " ++ shown
  | .fieldCount ns required total given =>
    ns ++ " keys take " ++ natText required ++ ".." ++ natText total ++ " fields, got " ++ natText given
  | .tooManyFields ns total => ns ++ " keys take at most " ++ natText total ++ " fields"
  | .emptyField ns field => ns ++ " key requires a non-empty " ++ field
  | .stated text => text

inductive KeyDefect where
  | empty
  | tooFewSegments
  | otherProvider (segment : String)
  | unknownNamespace (segment : String)
  | fieldCount (required total given : Nat)
  | badField
  | stated (reason : Value)

def KeyDefect.message : KeyDefect → String
  | .empty => "empty key"
  | .tooFewSegments => "too few segments"
  | .otherProvider segment => "unexpected provider " ++ quoted segment
  | .unknownNamespace segment => "unknown namespace " ++ quoted segment
  | .fieldCount required total given =>
    "expected " ++ natText required ++ ".." ++ natText total ++ " fields, got " ++ natText given
  | .badField => "empty or wildcard field"
  | .stated reason => reason.text

def KeyDefect.reason : KeyDefect → Value
  | .stated reason => reason
  | defect => .str defect.message

/-- A single auxiliary lookup that failed: what was asked, about which resource, and the provider's code. -/
structure LookupFailure where
  operation : Value
  resource : Value
  code : Value

/-- What a failed lookup says. A resource or a code that does not count as present is left out. -/
def LookupFailure.message (f : LookupFailure) : String :=
  let about := fun (lead : String) (part : Value) => if part.truthy then lead ++ part.text else ""
  f.operation.text ++ " failed" ++ about " for " f.resource ++ about ": " f.code

inductive PathStep where
  | member (name : String)
  | index (n : Int)
  deriving DecidableEq

/-- A value that does not fit its schema: where it stands and which rule it breaks. -/
structure FieldError where
  path : List PathStep
  rule : String

/-- What ends a command before its work: an exit status or a message. -/
inductive ExitCode where
  | status (n : Nat)
  | message (text : String)

inductive Fault where
  | general (text : String)
  | invalidKey (problem : KeyProblem)
  | malformedKey (key : Value) (defect : KeyDefect)
  | lookup (failure : LookupFailure)
  | listing (agent cause : Value)
  | unparsable (field value : Value)
  | emptyName
  | longInteger (digits : Nat)
  | noWorkers
  | negativeAmount
  | unpaired (index length : Nat)
  | notOneOf (what : String) (value : Value)
  | zeroStep
  | unusable (text : String)
  | badHost
  | schema (errors : List FieldError)
  | badJson
  | wrongType (text : String)
  | missingKey (name : Atom)
  | noAttribute (text : String)
  | outOfRange (text : String)
  | overflow (text : String)
  | unavailable (text : String)
  | timedOut (text : String)
  | exit (code : ExitCode)

def Fault.kind : Fault → String
  | .general _ => "RelCacheError"
  | .invalidKey _ => "InvalidKeyError"
  | .malformedKey _ _ => "KeyFormatError"
  | .lookup _ => "TransientFetchError"
  | .listing _ _ => "AgentFetchFailure"
  | .unparsable _ _ => "ParseError"
  | .emptyName => "ValueError"
  | .longInteger _ => "ValueError"
  | .noWorkers => "ValueError"
  | .negativeAmount => "ValueError"
  | .unpaired _ _ => "ValueError"
  | .notOneOf _ _ => "ValueError"
  | .zeroStep => "ValueError"
  | .unusable _ => "ValueError"
  | .badHost => "UnicodeError"
  | .schema _ => "ValidationError"
  | .badJson => "JSONDecodeError"
  | .wrongType _ => "TypeError"
  | .missingKey _ => "KeyError"
  | .noAttribute _ => "AttributeError"
  | .outOfRange _ => "IndexError"
  | .overflow _ => "OverflowError"
  | .unavailable _ => "RuntimeError"
  | .timedOut _ => "TimeoutError"
  | .exit _ => "SystemExit"

def Fault.message : Fault → String
  | .general text => text
  | .invalidKey problem => problem.message
  | .malformedKey key defect => "Malformed cache key " ++ key.shown ++ ": " ++ defect.message
  | .lookup failure => failure.message
  | .listing agent cause => agent.text ++ ": " ++ cause.text
  | .unparsable field value => "Cannot parse " ++ field.text ++ ": " ++ value.shown
  | .emptyName => "Cannot parse an empty name"
  | .longInteger digits =>
    "Exceeds the limit (4300 digits) for integer string conversion: value has " ++ natText digits
      ++ " digits; use sys.set_int_max_str_digits() to increase the limit"
  | .noWorkers => "max_workers must be greater than 0"
  | .negativeAmount => "Counters can only be incremented by non-negative amounts."
  | .unpaired index length =>
    "dictionary update sequence element #" ++ natText index ++ " has length " ++ natText length
      ++ "; 2 is required"
  | .notOneOf what value => value.shown ++ " is not a valid " ++ what
  | .zeroStep => "range() arg 3 must not be zero"
  | .unusable text => text
  | .badHost => "label empty or too long"
  | .schema errors => natText errors.length ++ " validation errors"
  | .badJson => "malformed JSON text"
  | .wrongType text => text
  | .missingKey name => name.shown
  | .noAttribute text => text
  | .outOfRange text => text
  | .overflow text => text
  | .unavailable text => text
  | .timedOut text => text
  | .exit (.status n) => natText n
  | .exit (.message text) => text

def Fault.aboutValue : Fault → Bool
  | .invalidKey _ | .malformedKey _ _ | .unparsable _ _ | .emptyName | .longInteger _ | .noWorkers
  | .negativeAmount | .unpaired _ _ | .notOneOf _ _ | .zeroStep | .unusable _ | .badHost
  | .schema _ | .badJson => true
  | _ => false

/-- How a fault is named in the log: faults of this library and faults about values by what they say,
all others by their kind. -/
def Fault.logged (f : Fault) : String :=
  match f with
  | .general _ | .lookup _ | .listing _ _ => f.message
  | _ => if f.aboutValue then f.message else "<" ++ f.kind ++ ">"

/-- Whether a value contains a text: as a part of a text, as an element, or as the name of a member. -/
def Value.contains (v : Value) (text : String) : Except Fault Bool :=
  match v with
  | .str s => .ok (occursIn text.toList s.toList)
  | .list items => .ok (items.any (· == .str text))
  | .object members => .ok (Attributes.has members text)
  | .set items => .ok (items.contains (.str text))
  | other => .error (.wrongType ("argument of type '" ++ other.typeName ++ "' is not iterable"))

def missingCode : String := "NotFound"

def LookupFailure.notFound (f : LookupFailure) : Except Fault Bool :=
  if f.code.truthy then f.code.contains missingCode else .ok false

def Fault.details : Fault → Except Fault Attributes
  | .malformedKey key defect => .ok [("key", key), ("reason", defect.reason)]
  | .lookup f => do
    return [("operation", f.operation), ("resource_id", f.resource), ("code", f.code),
      ("not_found", .bool (← f.notFound))]
  | .listing agent cause => .ok [("agent_type", agent), ("cause", cause)]
  | .unparsable field value => .ok [("field", field), ("value", value)]
  | _ => .ok []

end FleetCache
