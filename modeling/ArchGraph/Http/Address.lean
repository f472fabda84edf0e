import ArchGraph.Text

/-!
The path of a request: percent signs followed by two hexadecimal digits stand for bytes, and bytes
are read as UTF-8, with a mark in place of what is not.
-/

namespace ArchGraph.Http

def hexValue? (c : Char) : Option Nat :=
  if '0' ≤ c ∧ c ≤ '9' then some (c.toNat - '0'.toNat)
  else if 'a' ≤ c ∧ c ≤ 'f' then some (c.toNat - 'a'.toNat + 10)
  else if 'A' ≤ c ∧ c ≤ 'F' then some (c.toNat - 'A'.toNat + 10)
  else none

/-- A character or a byte that was spelled out. -/
inductive PathUnit where
  | char (c : Char)
  | byte (n : Nat)
  deriving DecidableEq, Repr

def units : List Char → List PathUnit
  | '%' :: a :: b :: rest =>
    match hexValue? a, hexValue? b with
    | some high, some low => .byte (high * 16 + low) :: units rest
    | _, _ => .char '%' :: units (a :: b :: rest)
  | c :: rest => .char c :: units rest
  | [] => []

/-- The character in place of bytes that spell none. -/
def replacement : Char := Char.ofNat 0xFFFD

/-- What a byte begins: how many more the character has, what this one contributes, and the range of
the next one. The ranges leave out longer spellings of short characters, and surrogates. -/
def lead? (n : Nat) : Option (Nat × Nat × Nat × Nat) :=
  if n < 0x80 then some (0, n, 0x80, 0xBF)
  else if 0xC2 ≤ n ∧ n < 0xE0 then some (1, n - 0xC0, 0x80, 0xBF)
  else if n = 0xE0 then some (2, 0, 0xA0, 0xBF)
  else if n = 0xED then some (2, 0xD, 0x80, 0x9F)
  else if 0xE0 < n ∧ n < 0xF0 then some (2, n - 0xE0, 0x80, 0xBF)
  else if n = 0xF0 then some (3, 0, 0x90, 0xBF)
  else if 0xF0 < n ∧ n < 0xF4 then some (3, n - 0xF0, 0x80, 0xBF)
  else if n = 0xF4 then some (3, 4, 0x80, 0x8F)
  else none

/-- Take `count` bytes that continue a character, the first of them from a range, and give the
character. One mark stands for all the bytes of a character that breaks off. -/
def continued : Nat → Nat → Nat × Nat → List PathUnit → Char × List PathUnit
  | 0, value, _, rest => (Char.ofNat value, rest)
  | count + 1, value, range, .byte n :: rest =>
    if range.1 ≤ n ∧ n ≤ range.2 then
      continued count (value * 64 + (n - 0x80)) (0x80, 0xBF) rest
    else (replacement, .byte n :: rest)
  | _, _, _, rest => (replacement, rest)

/-- The characters that units spell. `fuel` bounds their number. -/
def spelled : Nat → List PathUnit → List Char
  | 0, _ => []
  | _, [] => []
  | fuel + 1, .char c :: rest => c :: spelled fuel rest
  | fuel + 1, .byte n :: rest =>
    match lead? n with
    | none => replacement :: spelled fuel rest
    | some (count, value, range) =>
      let (c, rest) := continued count value range rest
      c :: spelled fuel rest

def percentDecode (cs : List Char) : List Char :=
  let us := units cs
  spelled us.length us

/-- The path of a request without query and fragment. The sender decodes it and so does the
receiver, so a percent sign that was spelled out may still begin a byte. -/
def decodePath (path : String) : List Char :=
  percentDecode (percentDecode (Text.before '#' (Text.before '?' path.toList)))

end ArchGraph.Http
