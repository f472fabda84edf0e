import ArchGraph.Schema.Fault
import ArchGraph.Text

/-!
Decoding documents into values. A decoder either gives a value or every fault of the document, in
the order in which the fields are declared.
-/

namespace ArchGraph

abbrev Decoder (α : Type) := Json → Checked α

/-- The entries of an object. -/
abbrev Entries := List (String × Json)

namespace Decoder

variable {α : Type}

def text : Decoder String
  | .str s => .ok s
  | _ => .refuse .notText

def nonEmptyText : Decoder String
  | .str s => if s = "" then .refuse .emptyText else .ok s
  | _ => .refuse .notText

/-- A text that is one of a few, which a pattern names. -/
def textAmong (pattern : String) (choices : List String) : Decoder String
  | .str s => if s ∈ choices then .ok s else .refuse (.patternMismatch pattern)
  | _ => .refuse .notText

/-- Digits with single underscores between them. -/
def groupedDigits? (cs : List Char) : Option Nat :=
  let groups := Text.splitWhere (· == '_') cs
  if groups.all (fun g => !g.isEmpty && g.all Json.isDigit) then
    some (Json.digitsValue groups.flatten)
  else none

/-- An optional sign in front. -/
def signed (cs : List Char) : Bool × List Char :=
  match cs with
  | '-' :: rest => (true, rest)
  | '+' :: rest => (false, rest)
  | _ => (false, cs)

/-- Whole numbers as text: blanks around, one sign, grouped digits, and a fraction of zeros. -/
def integerOfText? (s : String) : Option Int := do
  let (negative, cs) := signed (Text.trimWhere Text.isWhiteSpace s.toList)
  let whole := Text.before '.' cs
  let rest := cs.drop whole.length
  let size ← groupedDigits? whole
  if rest.isEmpty ∨ (1 < rest.length ∧ (rest.drop 1).all (· == '0')) then
    some (if negative then -(size : Int) else size)
  else none

def integer : Decoder Int
  | .int n => .ok n
  | .bool b => .ok (if b then 1 else 0)
  | .float x =>
    match x with
    | .finite .. =>
      match x.toInt? with
      | some n => .ok n
      | none => .refuse .fractionalInteger
    | _ => .refuse .notFinite
  | .str s =>
    match integerOfText? s with
    | some n => .ok n
    | none => .refuse .unreadableInteger
  | _ => .refuse .notInteger

def positiveInteger : Decoder Int := fun j =>
  (integer j).andThen (fun n => if 1 ≤ n then .ok n else .refuse .belowOne)

def truthWords : List (List Char) := ["1", "true", "t", "yes", "y", "on"].map String.toList

def falsehoodWords : List (List Char) := ["0", "false", "f", "no", "n", "off"].map String.toList

def asciiLower (c : Char) : Char := if 'A' ≤ c ∧ c ≤ 'Z' then Char.ofNat (c.toNat + 32) else c

def booleanOfText (s : String) : Checked Bool :=
  let word := s.toList.map asciiLower
  if word ∈ truthWords then .ok true
  else if word ∈ falsehoodWords then .ok false
  else .refuse .unreadableBoolean

def booleanOfInt (n : Int) : Checked Bool :=
  if n = 0 then .ok false else if n = 1 then .ok true else .refuse .unreadableBoolean

def boolean : Decoder Bool
  | .bool b => .ok b
  | .int n => booleanOfInt n
  | .float x =>
    match x.toInt? with
    | some n => booleanOfInt n
    | none => .refuse .notBoolean
  | .str s => booleanOfText s
  | _ => .refuse .notBoolean

/-- Numbers with a fraction, an exponent, or one of the names of what is not finite. -/
def numberOfText? (s : String) : Option Binary64 :=
  let (negative, cs) := signed (Text.trimWhere Text.isWhiteSpace s.toList)
  let word := cs.map asciiLower
  if word = "inf".toList ∨ word = "infinity".toList then some (.infinite negative)
  else if word = "nan".toList then some .nan
  else
    let whole := cs.takeWhile (fun c => Json.isDigit c || c == '_')
    let rest := cs.drop whole.length
    let parts := match rest with
      | '.' :: more => more.takeWhile Json.isDigit
      | _ => []
    let rest := match rest with
      | '.' :: more => more.drop parts.length
      | _ => rest
    let (power, rest) := Json.exponent rest
    let size := if whole.isEmpty then some 0 else groupedDigits? whole
    match size with
    | none => none
    | some n =>
      if (whole.isEmpty && parts.isEmpty) || !rest.isEmpty then none
      else some (Binary64.ofDecimal negative (n * Nat.pow 10 parts.length + Json.digitsValue parts)
        (power.getD 0 - parts.length))

def number : Decoder Binary64
  | .float x => .ok x
  | .int n => .ok (.ofInt n)
  | .bool b => .ok (.ofInt (if b then 1 else 0))
  | .str s =>
    match numberOfText? s with
    | some x => .ok x
    | none => .refuse .unreadableNumber
  | _ => .refuse .notNumber

/-- A number of seconds since 1970, or of milliseconds when it is too large for seconds. -/
def timestampOfInt (n : Int) : Checked Timestamp :=
  if 20000000000 < n.natAbs then
    .ok (Timestamp.afterEpoch (n / 1000) ((n % 1000).toNat * 1000))
  else .ok (Timestamp.afterEpoch n 0)

def timestamp : Decoder Timestamp
  | .str s =>
    match Timestamp.read s with
    | .ok t => .ok t
    | .error fault => .refuse (.badDate fault)
  | .int n => timestampOfInt n
  | .float x =>
    match x.toInt? with
    | some n => timestampOfInt n
    | none => .refuse .notDatetime
  | _ => .refuse .notDatetime

def any : Decoder Json := .ok

def nullable (d : Decoder α) : Decoder (Option α)
  | .null => .ok none
  | j => some <$> d j

def itemsFrom (d : Decoder α) : Nat → List Json → Checked (List α)
  | _, [] => .ok []
  | i, j :: rest => List.cons <$> (d j).under (.index i) <*> itemsFrom d (i + 1) rest

def list (d : Decoder α) : Decoder (List α)
  | .arr items => itemsFrom d 0 items
  | _ => .refuse .notList

def entriesOf (d : Decoder α) : Entries → Checked (List (String × α))
  | [] => .ok []
  | (key, j) :: rest =>
    List.cons <$> (Prod.mk key <$> (d j).under (.field key)) <*> entriesOf d rest

def dictionary (d : Decoder α) : Decoder (Table String α)
  | .obj entries => Table.mk <$> entriesOf d entries
  | _ => .refuse .notDictionary

/-- A record: an object whose fields `d` reads. -/
def record (d : Entries → Checked α) : Decoder α
  | .obj entries => d entries
  | _ => .refuse .notRecord

/-- A record that is called by the name of its model when something else stands in its place. -/
def recordOf (model : String) (d : Entries → Checked α) : Decoder α
  | .obj entries => d entries
  | _ => .refuse (.notInstance model)

def required (name : String) (d : Decoder α) (entries : Entries) : Checked α :=
  match entries.lookup name with
  | some j => (d j).under (.field name)
  | none => (Checked.refuse .missing).under (.field name)

def withDefault (name : String) (default : α) (d : Decoder α) (entries : Entries) : Checked α :=
  match entries.lookup name with
  | some j => (d j).under (.field name)
  | none => .ok default

def optional (name : String) (d : Decoder α) (entries : Entries) : Checked (Option α) :=
  withDefault name none (nullable d) entries

def items (name : String) (d : Decoder α) (entries : Entries) : Checked (List α) :=
  withDefault name [] (list d) entries

end Decoder

/-- Values that documents write as one of a few codes. -/
class Coded (α : Type) where
  all : List α
  code : α → String

namespace Coded

variable {α : Type} [Coded α]

def codes (α : Type) [Coded α] : List String := (all : List α).map code

def ofCode? (s : String) : Option α := (all : List α).find? (fun a => code a == s)

def decode : Decoder α
  | .str s =>
    match ofCode? s with
    | some a => .ok a
    | none => .refuse (.notOneOf (codes α))
  | _ => .refuse (.notOneOf (codes α))

def toJson (a : α) : Json := .str (code a)

end Coded

end ArchGraph
