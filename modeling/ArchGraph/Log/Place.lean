import ArchGraph.Json.Display
import ArchGraph.Json.Reader

/-!
The places of a message. A place starts with a percent sign; after it may stand the name of an
argument, flags, a width and a precision, and a letter ends it. A star in place of a width or a
precision takes it from the arguments.
-/

namespace ArchGraph.Log

/-- Why a message cannot be made. -/
inductive FormatFault where
  | tooFewArguments
  | tooManyArguments
  | needsMapping
  | noKey (key : String)
  | openKey
  | starNotWhole
  | notNumber (letter : Char) (kind : String)
  | notInteger (letter : Char) (kind : String)
  | notReal (kind : String)
  | notFinite (infinite : Bool)
  | tooLarge
  | notCharacter
  | noCharacter
  | unknownLetter (letter : Char) (index : Nat)
  | incomplete
  deriving DecidableEq, Repr

namespace FormatFault

/-- A letter outside the printable ASCII ones is shown as a question mark. -/
def shown (letter : Char) : Char := if ' ' ≤ letter ∧ letter ≤ '~' then letter else '?'

def message : FormatFault → String
  | .tooFewArguments => "not enough arguments for format string"
  | .tooManyArguments => "not all arguments converted during string formatting"
  | .needsMapping => "format requires a mapping"
  | .noKey key => Json.inQuotes key
  | .openKey => "incomplete format key"
  | .starNotWhole => "* wants int"
  | .notNumber letter kind =>
    "%" ++ String.singleton letter ++ " format: a real number is required, not " ++ kind
  | .notInteger letter kind =>
    "%" ++ String.singleton letter ++ " format: an integer is required, not " ++ kind
  | .notReal kind => "must be real number, not " ++ kind
  | .notFinite infinite =>
    "cannot convert float " ++ (if infinite then "infinity" else "NaN") ++ " to integer"
  | .tooLarge => "int too large to convert to float"
  | .notCharacter => "%c requires int or char"
  | .noCharacter => "%c arg not in range(0x110000)"
  | .unknownLetter letter index =>
    "unsupported format character \x27" ++ String.singleton (shown letter) ++ "\x27 (0x" ++
      String.ofList (Nat.toDigits 16 letter.toNat) ++ ") at index " ++ toString index
  | .incomplete => "incomplete format"

end FormatFault

/-- What fills the places. -/
inductive Arguments where
  /-- One after the other, and all of them. -/
  | inOrder (values : List Json)
  /-- By name. The next place takes the value named last, and before any is named all of them. -/
  | byName (entries : List (String × Json)) (next : Option Json)
  deriving Repr

namespace Arguments

def ofList : List Json → Arguments
  | [.obj (e :: es)] => .byName (e :: es) (some (.obj (e :: es)))
  | values => .inOrder values

def take : Arguments → Except FormatFault (Json × Arguments)
  | .inOrder (v :: rest) => .ok (v, .inOrder rest)
  | .byName entries (some v) => .ok (v, .byName entries none)
  | _ => .error .tooFewArguments

/-- The text up to the bracket that closes one opened before, and what follows it. -/
def enclosed : Nat → List Char → Option (List Char × List Char)
  | _, [] => none
  | 0, ')' :: rest => some ([], rest)
  | depth, c :: rest =>
    let inside := if c == '(' then depth + 1 else if c == ')' then depth - 1 else depth
    (enclosed inside rest).map (fun r => (c :: r.1, r.2))

/-- Turn to the argument that a place names, if it names one. -/
def select (args : Arguments) : List Char → Except FormatFault (Arguments × List Char)
  | '(' :: rest =>
    match args with
    | .inOrder _ => .error .needsMapping
    | .byName entries _ =>
      match enclosed 0 rest with
      | none => .error .openKey
      | some (name, rest) =>
        match entries.lookup (String.ofList name) with
        | none => .error (.noKey (String.ofList name))
        | some j => .ok (.byName entries (some j), rest)
  | cs => .ok (args, cs)

/-- Arguments in order have all to be taken. -/
def isSpent : Arguments → Bool
  | .inOrder (_ :: _) => false
  | _ => true

end Arguments

/-- How a place is to be filled. -/
structure Place where
  left : Bool
  zero : Bool
  plus : Bool
  blank : Bool
  alternate : Bool
  width : Nat
  precision : Option Nat
  deriving DecidableEq, Repr

namespace Place

def isFlag (c : Char) : Bool := c == '-' || c == '0' || c == '+' || c == ' ' || c == '#'

/-- The whole number that a value is. -/
def whole? : Json → Option Int
  | .bool b => some (if b then 1 else 0)
  | .int n => some n
  | _ => none

/-- A count: digits, none of them for zero, or a star that takes an argument. -/
def readCount (args : Arguments) :
    List Char → Except FormatFault (Int × Arguments × List Char)
  | '*' :: rest => do
    let (j, args) ← args.take
    match whole? j with
    | some n => return (n, args, rest)
    | none => throw .starNotWhole
  | cs =>
    let ds := cs.takeWhile Json.isDigit
    return ((Json.digitsValue ds : Int), args, cs.drop ds.length)

/-- Read what stands between the percent sign and the letter. A negative width turns to the left,
and a negative precision is none of the digits. -/
def read (args : Arguments) (cs : List Char) :
    Except FormatFault (Place × Arguments × List Char) := do
  let (args, cs) ← args.select cs
  let flags := cs.takeWhile isFlag
  let (width, args, cs) ← readCount args (cs.drop flags.length)
  let (precision, args, cs) ← match cs with
    | '.' :: rest => do
      let (n, args, rest) ← readCount args rest
      pure (some n.toNat, args, rest)
    | _ => pure (none, args, cs)
  let cs := match cs with
    | c :: rest => if c == 'h' || c == 'l' || c == 'L' then rest else cs
    | [] => []
  let place : Place :=
    { left := '-' ∈ flags || width < 0
      zero := '0' ∈ flags
      plus := '+' ∈ flags
      blank := ' ' ∈ flags
      alternate := '#' ∈ flags
      width := width.natAbs
      precision := precision }
  return (place, args, cs)

/-- Blanks up to the width. -/
def pad (p : Place) (cs : List Char) : List Char :=
  let fill := List.replicate (p.width - cs.length) ' '
  if p.left then cs ++ fill else fill ++ cs

/-- A text, no longer than the precision. -/
def padText (p : Place) (cs : List Char) : List Char := p.pad (p.precision.elim cs cs.take)

def sign (p : Place) (negative : Bool) : List Char :=
  if negative then ['-'] else if p.plus then ['+'] else if p.blank then [' '] else []

/-- A number after its sign and the mark of its base, with zeros up to the width if they are asked
for. -/
def padNumber (p : Place) (negative : Bool) (base digits : List Char) : List Char :=
  let front := p.sign negative ++ base
  if p.zero && !p.left then
    front ++ List.replicate (p.width - front.length - digits.length) '0' ++ digits
  else p.pad (front ++ digits)

/-- A whole number in a base, with as many digits as the precision at least. -/
def padWhole (p : Place) (base : Nat) (mark : List Char) (n : Int) : List Char :=
  let ds := Nat.toDigits base n.natAbs
  p.padNumber (n < 0) (if p.alternate then mark else [])
    (List.replicate (p.precision.getD 0 - ds.length) '0' ++ ds)

end Place

end ArchGraph.Log
