import ArchGraph.Timestamp

/-!
What is wrong with a document, and where.
-/

namespace ArchGraph

/-- One step into a document. -/
inductive PathStep where
  | field (name : String)
  | index (i : Nat)
  deriving DecidableEq, Repr

/-- Why a value is refused. -/
inductive Refusal where
  | missing
  | notRecord
  | notInstance (model : String)
  | notText
  | emptyText
  | patternMismatch (pattern : String)
  | notInteger
  | unreadableInteger
  | fractionalInteger
  | notNumber
  | unreadableNumber
  | notFinite
  | notBoolean
  | unreadableBoolean
  | notList
  | notDictionary
  | notOneOf (codes : List String)
  | belowOne
  | notDatetime
  | badDate (fault : Timestamp.DateFault)
  | brokenJson
  deriving DecidableEq, Repr

namespace Refusal

/-- The short name of the kind of refusal. -/
def code : Refusal → String
  | .missing => "missing"
  | .notRecord => "model_attributes_type"
  | .notInstance _ => "model_type"
  | .notText => "string_type"
  | .emptyText => "string_too_short"
  | .patternMismatch _ => "string_pattern_mismatch"
  | .notInteger => "int_type"
  | .unreadableInteger => "int_parsing"
  | .fractionalInteger => "int_from_float"
  | .notNumber => "float_type"
  | .unreadableNumber => "float_parsing"
  | .notFinite => "finite_number"
  | .notBoolean => "bool_type"
  | .unreadableBoolean => "bool_parsing"
  | .notList => "list_type"
  | .notDictionary => "dict_type"
  | .notOneOf _ => "enum"
  | .belowOne => "greater_than_equal"
  | .notDatetime => "datetime_type"
  | .badDate _ => "datetime_from_date_parsing"
  | .brokenJson => "json_invalid"

/-- The choices in quotes, the last one after "or". -/
def choiceText : List String → String
  | [] => ""
  | [c] => "\x27" ++ c ++ "\x27"
  | [c, d] => "\x27" ++ c ++ "\x27 or \x27" ++ d ++ "\x27"
  | c :: rest => "\x27" ++ c ++ "\x27, " ++ choiceText rest

def message : Refusal → String
  | .missing => "Field required"
  | .notRecord => "Input should be a valid dictionary or object to extract fields from"
  | .notInstance model => "Input should be a valid dictionary or instance of " ++ model
  | .notText => "Input should be a valid string"
  | .emptyText => "String should have at least 1 character"
  | .patternMismatch pattern => "String should match pattern \x27" ++ pattern ++ "\x27"
  | .notInteger => "Input should be a valid integer"
  | .unreadableInteger => "Input should be a valid integer, unable to parse string as an integer"
  | .fractionalInteger => "Input should be a valid integer, got a number with a fractional part"
  | .notNumber => "Input should be a valid number"
  | .unreadableNumber => "Input should be a valid number, unable to parse string as a number"
  | .notFinite => "Input should be a finite number"
  | .notBoolean => "Input should be a valid boolean"
  | .unreadableBoolean => "Input should be a valid boolean, unable to interpret input"
  | .notList => "Input should be a valid list"
  | .notDictionary => "Input should be a valid dictionary"
  | .notOneOf codes => "Input should be " ++ choiceText codes
  | .belowOne => "Input should be greater than or equal to 1"
  | .notDatetime => "Input should be a valid datetime"
  | .badDate fault => "Input should be a valid datetime or date, " ++ fault.message
  | .brokenJson => "JSON decode error"

end Refusal

structure Fault where
  path : List PathStep
  refusal : Refusal
  deriving DecidableEq, Repr

namespace Fault

/-- The fault seen from one step further out. -/
def under (step : PathStep) (fault : Fault) : Fault := { fault with path := step :: fault.path }

def pathJson (path : List PathStep) : Json :=
  .arr (path.map (fun step =>
    match step with
    | .field name => .str name
    | .index i => .ofNat i))

def toJson (fault : Fault) : Json :=
  .obj [("loc", pathJson fault.path), ("type", .str fault.refusal.code),
    ("msg", .str fault.refusal.message)]

end Fault

/-- A value, or everything that is wrong with the document. -/
inductive Checked (α : Type) where
  | ok (value : α)
  | bad (faults : List Fault)
  deriving Repr

namespace Checked

variable {α β : Type}

/-- Faults of both sides are gathered, the left ones first. -/
def combine (f : Checked (α → β)) (x : Checked α) : Checked β :=
  match f, x with
  | .ok f, .ok a => .ok (f a)
  | .ok _, .bad found => .bad found
  | .bad found, .ok _ => .bad found
  | .bad found, .bad more => .bad (found ++ more)

instance : Applicative Checked where
  pure := .ok
  seq f x := combine f (x ())

def refuse (refusal : Refusal) : Checked α := .bad [⟨[], refusal⟩]

def under (step : PathStep) : Checked α → Checked α
  | .ok a => .ok a
  | .bad found => .bad (found.map (·.under step))

def andThen (x : Checked α) (f : α → Checked β) : Checked β :=
  match x with
  | .ok a => f a
  | .bad found => .bad found

end Checked

end ArchGraph
