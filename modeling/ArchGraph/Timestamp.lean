import ArchGraph.Json.Reader

/-!
Calendar date and time of day with an optional offset from universal time, and its two texts: the
one that records are stored and compared by, and the one that documents carry.
-/

namespace ArchGraph

structure Timestamp where
  year : Nat
  month : Nat
  day : Nat
  hour : Nat
  minute : Nat
  second : Nat
  microsecond : Nat
  /-- Minutes ahead of universal time. -/
  offset : Option Int
  deriving DecidableEq, Repr

namespace Timestamp

def isLeap (year : Nat) : Bool := year % 4 == 0 && (year % 100 != 0 || year % 400 == 0)

/-- The days of a month; a month that does not exist has none. -/
def monthLength (year month : Nat) : Nat :=
  match month with
  | 2 => if isLeap year then 29 else 28
  | 4 | 6 | 9 | 11 => 30
  | 1 | 3 | 5 | 7 | 8 | 10 | 12 => 31
  | _ => 0

def nextDay (t : Timestamp) : Timestamp :=
  if t.day < monthLength t.year t.month then { t with day := t.day + 1 }
  else if t.month < 12 then { t with month := t.month + 1, day := 1 }
  else { t with year := t.year + 1, month := 1, day := 1 }

def previousDay (t : Timestamp) : Timestamp :=
  if 1 < t.day then { t with day := t.day - 1 }
  else if 1 < t.month then
    { t with month := t.month - 1, day := monthLength t.year (t.month - 1) }
  else { t with year := t.year - 1, month := 12, day := 31 }

def forward (t : Timestamp) : Nat → Timestamp
  | 0 => t
  | n + 1 => (forward t n).nextDay

def back (t : Timestamp) : Nat → Timestamp
  | 0 => t
  | n + 1 => (back t n).previousDay

def addDays (t : Timestamp) : Int → Timestamp
  | .ofNat n => t.forward n
  | .negSucc n => t.back (n + 1)

/-- Hours beyond a day, or before it, go to the date. -/
def addHours (t : Timestamp) (hours : Int) : Timestamp :=
  let total := t.hour + hours
  { t.addDays (total / 24) with hour := (total % 24).toNat }

/-- The start of 1970 in universal time. -/
def epoch : Timestamp := ⟨1970, 1, 1, 0, 0, 0, 0, some 0⟩

/-- So many seconds after that, and a part of a second more. -/
def afterEpoch (seconds : Int) (microseconds : Nat) : Timestamp :=
  let ofDay := (seconds % 86400).toNat
  { epoch.addDays (seconds / 86400) with
    hour := ofDay / 3600
    minute := ofDay % 3600 / 60
    second := ofDay % 60
    microsecond := microseconds }

/-- Decimal digits, at least `width` of them. -/
def padded (width n : Nat) : String :=
  let ds := Nat.toDigits 10 n
  String.ofList (List.replicate (width - ds.length) '0' ++ ds)

def offsetText (minutes : Int) : String :=
  (if minutes < 0 then "-" else "+") ++ padded 2 (minutes.natAbs / 60) ++ ":" ++
    padded 2 (minutes.natAbs % 60)

/-- Date and time without the offset; a fraction is written only when there is one. -/
def localText (t : Timestamp) : String :=
  padded 4 t.year ++ "-" ++ padded 2 t.month ++ "-" ++ padded 2 t.day ++ "T" ++ padded 2 t.hour ++
    ":" ++ padded 2 t.minute ++ ":" ++ padded 2 t.second ++
    (if t.microsecond = 0 then "" else "." ++ padded 6 t.microsecond)

/-- The text that records are stored and compared by. -/
def storedText (t : Timestamp) : String :=
  t.localText ++ (match t.offset with
    | none => ""
    | some minutes => offsetText minutes)

/-- The text in documents: universal time has the mark `Z`. -/
def documentText (t : Timestamp) : String :=
  t.localText ++ (match t.offset with
    | none => ""
    | some minutes => if minutes = 0 then "Z" else offsetText minutes)

/-- Why a text is no date. -/
inductive DateFault where
  | tooShort
  | yearCharacter
  | monthCharacter
  | dayCharacter
  | separator
  | monthRange
  | dayRange
  | tooLong
  deriving DecidableEq, Repr

def DateFault.message : DateFault → String
  | .tooShort => "input is too short"
  | .yearCharacter => "invalid character in year"
  | .monthCharacter => "invalid character in month"
  | .dayCharacter => "invalid character in day"
  | .separator => "invalid date separator, expected \x60-\x60"
  | .monthRange => "month value is outside expected range of 1-12"
  | .dayRange => "day value is outside expected range"
  | .tooLong => "unexpected extra characters at the end of the input"

/-- Exactly `count` decimal digits at the front. -/
def digits? (count : Nat) (cs : List Char) : Option (Nat × List Char) :=
  let ds := cs.take count
  if ds.length = count ∧ ds.all Json.isDigit then some (Json.digitsValue ds, cs.drop count)
  else none

/-- A date at the front of a text that is long enough for one. -/
def readDate (cs : List Char) : Except DateFault (Timestamp × List Char) :=
  if cs.length < 10 then .error .tooShort
  else match digits? 4 cs with
    | none => .error .yearCharacter
    | some (year, rest) =>
      if rest.head? ≠ some '-' then .error .separator
      else match digits? 2 (rest.drop 1) with
        | none => .error .monthCharacter
        | some (month, rest) =>
          if rest.head? ≠ some '-' then .error .separator
          else match digits? 2 (rest.drop 1) with
            | none => .error .dayCharacter
            | some (day, rest) =>
              if monthLength year month = 0 then .error .monthRange
              else if day = 0 ∨ monthLength year month < day then .error .dayRange
              else .ok (⟨year, month, day, 0, 0, 0, 0, none⟩, rest)

/-- Digits of a fraction of a second: six count, and the rest is dropped. -/
def microseconds (ds : List Char) : Nat :=
  Json.digitsValue (ds.take 6) * Nat.pow 10 (6 - ds.length)

/-- Hours and minutes of an offset, with or without a colon between them. -/
def readOffset? (cs : List Char) : Option (Int × List Char) := do
  let (hours, rest) ← digits? 2 cs
  let (minutes, rest) ← digits? 2 (if rest.head? = some ':' then rest.drop 1 else rest)
  if minutes < 60 ∧ hours < 24 then some ((hours * 60 + minutes : Nat), rest) else none

/-- The offset that ends a time of day. -/
def readZone? : List Char → Option (Option Int)
  | [] => some none
  | ['Z'] => some (some 0)
  | ['z'] => some (some 0)
  | '+' :: cs => do
    let (minutes, rest) ← readOffset? cs
    if rest.isEmpty then some (some minutes) else none
  | '-' :: cs => do
    let (minutes, rest) ← readOffset? cs
    if rest.isEmpty then some (some (-minutes)) else none
  | _ => none

/-- Seconds and microseconds, if they are written. -/
def readSeconds? (cs : List Char) : Option ((Nat × Nat) × List Char) :=
  match cs with
  | ':' :: rest => do
    let (second, rest) ← digits? 2 rest
    if 60 ≤ second then none
    else match rest with
      | mark :: more =>
        if mark = '.' ∨ mark = ',' then
          let ds := more.takeWhile Json.isDigit
          if ds.isEmpty then none
          else some ((second, microseconds ds), more.dropWhile Json.isDigit)
        else some ((second, 0), rest)
      | [] => some ((second, 0), [])
  | _ => some ((0, 0), cs)

/-- The time of day after a date and its separator. -/
def readTime? (date : Timestamp) (cs : List Char) : Option Timestamp := do
  let (hour, rest) ← digits? 2 cs
  if rest.head? ≠ some ':' then none
  let (minute, rest) ← digits? 2 (rest.drop 1)
  if 24 ≤ hour ∨ 60 ≤ minute then none
  let ((second, microsecond), rest) ← readSeconds? rest
  let offset ← readZone? rest
  some { date with hour, minute, second, microsecond, offset }

def isSeparator (c : Char) : Bool := c == 'T' || c == 't' || c == ' ' || c == '_'

/-- A date by itself is its midnight. A text whose date is right and whose time is not counts as a
date with something behind it. -/
def read (text : String) : Except DateFault Timestamp :=
  match readDate text.toList with
  | .error fault => .error fault
  | .ok (date, []) => .ok date
  | .ok (date, mark :: rest) =>
    match if isSeparator mark then readTime? date rest else none with
    | some t => .ok t
    | none => .error .tooLong

end Timestamp

end ArchGraph
