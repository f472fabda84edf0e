import ArchGraph.Json.Writer
import ArchGraph.Text.Hidden

/-!
Values as text inside names and messages: a string stands for itself, and inside a list or an object
it is quoted, with single quotes unless it holds one and no double quote.
-/

namespace ArchGraph.Json

/-- A character by its number, in as few digits as its range has. -/
def numbered (c : Char) : List Char :=
  if c.toNat < 0x100 then '\\' :: 'x' :: hexDigits 2 c.toNat
  else if c.toNat < 0x10000 then '\\' :: 'u' :: hexDigits 4 c.toNat
  else '\\' :: 'U' :: hexDigits 8 c.toNat

def spelled (quote c : Char) : List Char :=
  if c == quote || c == '\\' then ['\\', c]
  else if c == '\n' then ['\\', 'n']
  else if c == '\r' then ['\\', 'r']
  else if c == '\t' then ['\\', 't']
  else if Text.isHidden c then numbered c
  else [c]

def inQuotes (s : String) : String :=
  let quote := if '\x27' ∈ s.toList && !('"' ∈ s.toList) then '"' else '\x27'
  String.ofList (quote :: s.toList.flatMap (spelled quote) ++ [quote])

def displaySpelling : Binary64.Spelling := ⟨"inf", "nan"⟩

mutual

/-- The text of a value inside another. -/
def inner : Json → String
  | .null => "None"
  | .bool b => if b then "True" else "False"
  | .int n => toString n
  | .float x => x.render displaySpelling
  | .str s => inQuotes s
  | .arr items => "[" ++ ", ".intercalate (innerItems items) ++ "]"
  | .obj entries => "\x7b" ++ ", ".intercalate (innerEntries entries) ++ "\x7d"

def innerItems : List Json → List String
  | [] => []
  | item :: rest => inner item :: innerItems rest

def innerEntries : List (String × Json) → List String
  | [] => []
  | (key, value) :: rest => (inQuotes key ++ ": " ++ inner value) :: innerEntries rest

end

/-- The text of a value by itself. -/
def display : Json → String
  | .str s => s
  | value => inner value

/-- The word that messages have for the kind of a value. -/
def kindWord : Json → String
  | .null => "NoneType"
  | .bool _ => "bool"
  | .int _ => "int"
  | .float _ => "float"
  | .str _ => "str"
  | .arr _ => "list"
  | .obj _ => "dict"

end ArchGraph.Json
