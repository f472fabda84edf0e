import ArchGraph.Json.Value
import ArchGraph.Table

/-!
Reading JSON text. A text that is not JSON is refused with the offset of the character at which
reading stopped. Besides the numbers of the standard the names `NaN`, `Infinity` and `-Infinity` are
read. Of two entries with one key the later value is kept in the place of the earlier.
-/

namespace ArchGraph.Json

/-- What is left of the text where reading stopped. -/
structure ReadFault where
  remaining : Nat
  deriving DecidableEq, Repr

/-- A value and the text after it. -/
abbrev Found (α : Type) := α × List Char

def stopAt {α : Type} (cs : List Char) : Except ReadFault α := .error ⟨cs.length⟩

def isSpace (c : Char) : Bool := c == ' ' || c == '\t' || c == '\n' || c == '\r'

def skipSpace (cs : List Char) : List Char := cs.dropWhile isSpace

def isDigit (c : Char) : Bool := '0' ≤ c && c ≤ '9'

def hexValue? (c : Char) : Option Nat :=
  if isDigit c then some (c.toNat - '0'.toNat)
  else if 'a' ≤ c && c ≤ 'f' then some (c.toNat - 'a'.toNat + 10)
  else if 'A' ≤ c && c ≤ 'F' then some (c.toNat - 'A'.toNat + 10)
  else none

/-- Four hexadecimal digits with at least one character after them. -/
def hexUnit? : List Char → Option (Nat × List Char)
  | a :: b :: c :: d :: rest@(_ :: _) => do
    let a ← hexValue? a
    let b ← hexValue? b
    let c ← hexValue? c
    let d ← hexValue? d
    some (((a * 16 + b) * 16 + c) * 16 + d, rest)
  | _ => none

def isHighHalf (unit : Nat) : Bool := 0xD800 ≤ unit && unit ≤ 0xDBFF

def isLowHalf (unit : Nat) : Bool := 0xDC00 ≤ unit && unit ≤ 0xDFFF

/-- The character of one unit. Half of a pair that stands alone is no character. -/
def charOfUnit (unit : Nat) : Char :=
  if isHighHalf unit || isLowHalf unit then '�' else Char.ofNat unit

/-- The character after `\u`, which may take a second unit with it. The text given starts at the
`u` and is what a fault counts from. -/
def readUnit (cs : List Char) : Except ReadFault (Found Char) :=
  match hexUnit? (cs.drop 1) with
  | none => stopAt cs
  | some (high, rest) =>
    match isHighHalf high, rest with
    | true, '\\' :: 'u' :: after =>
      if rest.length ≤ 6 then .ok (charOfUnit high, rest)
      else match hexUnit? after with
        | none => stopAt ('u' :: after)
        | some (low, after') =>
          if isLowHalf low then
            .ok (Char.ofNat (0x10000 + (high - 0xD800) * 0x400 + (low - 0xDC00)), after')
          else .ok (charOfUnit high, rest)
    | _, _ => .ok (charOfUnit high, rest)

def simpleEscape? : Char → Option Char
  | '"' => some '"'
  | '\\' => some '\\'
  | '/' => some '/'
  | 'b' => some '\x08'
  | 'f' => some '\x0c'
  | 'n' => some '\n'
  | 'r' => some '\r'
  | 't' => some '\t'
  | _ => none

/-- The characters of a string up to its closing quote, last one first. `opening` is the text from
the opening quote on. -/
def readChars (opening : List Char) :
    Nat → List Char → List Char → Except ReadFault (Found (List Char))
  | 0, _, _ => stopAt opening
  | _ + 1, _, [] => stopAt opening
  | fuel + 1, done, c :: cs =>
    if c == '"' then .ok (done, cs)
    else if c == '\\' then
      match cs with
      | [] => stopAt opening
      | 'u' :: _ => do
        let (d, rest) ← readUnit cs
        readChars opening fuel (d :: done) rest
      | e :: rest =>
        match simpleEscape? e with
        | some d => readChars opening fuel (d :: done) rest
        | none => stopAt (c :: cs)
    else if c.toNat < 0x20 then stopAt (c :: cs)
    else readChars opening fuel (c :: done) cs

/-- The string whose opening quote is the head of `opening`. -/
def readString (opening : List Char) : Except ReadFault (Found String) := do
  let (done, rest) ← readChars opening (opening.length + 1) [] (opening.drop 1)
  .ok (String.ofList done.reverse, rest)

def digitsValue (ds : List Char) : Nat :=
  ds.foldl (fun n d => n * 10 + (d.toNat - '0'.toNat)) 0

/-- The digits after a point, if there is one with a digit behind it. -/
def fraction (cs : List Char) : List Char × List Char :=
  match cs with
  | '.' :: rest =>
    let ds := rest.takeWhile isDigit
    if ds.isEmpty then ([], cs) else (ds, rest.dropWhile isDigit)
  | _ => ([], cs)

/-- The exponent, if a mark stands here with digits behind it. -/
def exponent (cs : List Char) : Option Int × List Char :=
  match cs with
  | mark :: rest =>
    if mark == 'e' || mark == 'E' then
      let signed := match rest with
        | '-' :: more => (true, more)
        | '+' :: more => (false, more)
        | _ => (false, rest)
      let ds := signed.2.takeWhile isDigit
      if ds.isEmpty then (none, cs)
      else
        let size : Int := digitsValue ds
        (some (if signed.1 then -size else size), signed.2.dropWhile isDigit)
    else (none, cs)
  | [] => (none, cs)

/-- The digits before the point: a zero, or digits that start with another. -/
def wholePart? : List Char → Option (List Char × List Char)
  | '0' :: rest => some (['0'], rest)
  | cs =>
    let ds := cs.takeWhile isDigit
    if ds.isEmpty then none else some (ds, cs.dropWhile isDigit)

/-- A number is whole unless it has a fraction or an exponent. -/
def readNumber (cs : List Char) : Except ReadFault (Found Json) :=
  let negative := cs.head? == some '-'
  match wholePart? (if negative then cs.drop 1 else cs) with
  | none => stopAt cs
  | some (whole, rest) =>
    let (parts, rest) := fraction rest
    let (power, rest) := exponent rest
    if parts.isEmpty && power.isNone then
      let size : Int := digitsValue whole
      .ok (.int (if negative then -size else size), rest)
    else
      .ok (.float (Binary64.ofDecimal negative (digitsValue (whole ++ parts))
        (power.getD 0 - parts.length)), rest)

/-- Values that are written as one word. -/
def literals : List (List Char × Json) := [
  ("null".toList, .null), ("true".toList, .bool true), ("false".toList, .bool false),
  ("NaN".toList, .float .nan), ("Infinity".toList, .float (.infinite false)),
  ("-Infinity".toList, .float (.infinite true))]

def readScalar (cs : List Char) : Except ReadFault (Found Json) :=
  match literals.find? (fun l => l.1.isPrefixOf cs) with
  | some (word, value) => .ok (value, cs.drop word.length)
  | none => readNumber cs

/-- Entries with each key once: the later value in the place of the earlier. -/
def mergedEntries (entries : List (String × Json)) : List (String × Json) :=
  (Table.ofList entries).entries

mutual

def readValue : Nat → List Char → Except ReadFault (Found Json)
  | 0, cs => stopAt cs
  | fuel + 1, cs =>
    match cs with
    | '"' :: _ => do
      let (s, rest) ← readString cs
      .ok (.str s, rest)
    | '[' :: rest =>
      match skipSpace rest with
      | ']' :: after => .ok (.arr [], after)
      | start => do
        let (items, after) ← readItems fuel [] start
        .ok (.arr items.reverse, after)
    | '\x7b' :: rest =>
      match skipSpace rest with
      | '\x7d' :: after => .ok (.obj [], after)
      | start => do
        let (entries, after) ← readEntries fuel [] start
        .ok (.obj (mergedEntries entries.reverse), after)
    | _ => readScalar cs

/-- Items up to the closing bracket, last one first. -/
def readItems : Nat → List Json → List Char → Except ReadFault (Found (List Json))
  | 0, _, cs => stopAt cs
  | fuel + 1, done, cs => do
    let (item, rest) ← readValue fuel cs
    match skipSpace rest with
    | ']' :: after => .ok (item :: done, after)
    | ',' :: after => readItems fuel (item :: done) (skipSpace after)
    | other => stopAt other

/-- Entries up to the closing brace, last one first. -/
def readEntries :
    Nat → List (String × Json) → List Char → Except ReadFault (Found (List (String × Json)))
  | 0, _, cs => stopAt cs
  | fuel + 1, done, cs =>
    match cs with
    | '"' :: _ => do
      let (key, rest) ← readString cs
      match skipSpace rest with
      | ':' :: after =>
        let (value, rest) ← readValue fuel (skipSpace after)
        match skipSpace rest with
        | '\x7d' :: after => .ok ((key, value) :: done, after)
        | ',' :: after => readEntries fuel ((key, value) :: done) (skipSpace after)
        | other => stopAt other
      | other => stopAt other
    | _ => stopAt cs

end

/-- The value of a whole text, or the offset of the character where reading stopped. -/
def read (cs : List Char) : Except Nat Json :=
  let outcome : Except ReadFault Json := do
    let (value, rest) ← readValue (cs.length + 1) (skipSpace cs)
    match skipSpace rest with
    | [] => .ok value
    | extra => stopAt extra
  match outcome with
  | .ok value => .ok value
  | .error fault => .error (cs.length - fault.remaining)

end ArchGraph.Json
