import ArchGraph.Json.Value
import ArchGraph.Number.Shortest

/-!
Writing JSON text without blanks.
-/

namespace ArchGraph.Json

def numberSpelling : Binary64.Spelling := ⟨"Infinity", "NaN"⟩

def hexDigits (width n : Nat) : List Char :=
  let ds := Nat.toDigits 16 n
  List.replicate (width - ds.length) '0' ++ ds

def escaped (c : Char) : List Char :=
  if c == '"' then ['\\', '"']
  else if c == '\\' then ['\\', '\\']
  else if c.toNat < 0x20 then '\\' :: 'u' :: hexDigits 4 c.toNat
  else [c]

def quoted (s : String) : String := String.ofList ('"' :: s.toList.flatMap escaped ++ ['"'])

mutual

def write : Json → String
  | .null => "null"
  | .bool b => if b then "true" else "false"
  | .int n => toString n
  | .float x => x.render numberSpelling
  | .str s => quoted s
  | .arr items => "[" ++ ",".intercalate (writeItems items) ++ "]"
  | .obj entries => "\x7b" ++ ",".intercalate (writeEntries entries) ++ "\x7d"

def writeItems : List Json → List String
  | [] => []
  | item :: rest => write item :: writeItems rest

def writeEntries : List (String × Json) → List String
  | [] => []
  | (key, value) :: rest => (quoted key ++ ":" ++ write value) :: writeEntries rest

end

end ArchGraph.Json
