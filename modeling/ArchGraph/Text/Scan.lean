/-!
Leftmost matches in a text. A rule looks at the head of a text and, on a match, gives what stands
for it and how many characters it covers; scanning applies it from left to right, each character
being read once.
-/

namespace ArchGraph.Text

/-- What a match stands for, and the number of characters it covers. -/
abbrev Rule (β : Type) := List Char → Option (β × Nat)

/-- `scanFrom rule keep n cs` skips `n` characters that an earlier match covered. -/
def scanFrom {β : Type} (rule : Rule β) (keep : Char → β) : Nat → List Char → List β
  | _, [] => []
  | n + 1, _ :: cs => scanFrom rule keep n cs
  | 0, c :: cs =>
    match rule (c :: cs) with
    | some (found, covered) => found :: scanFrom rule keep (covered - 1) cs
    | none => keep c :: scanFrom rule keep 0 cs

/-- The text as a list of matches and characters between them. -/
def scan {β : Type} (rule : Rule β) (keep : Char → β) (cs : List Char) : List β :=
  scanFrom rule keep 0 cs

/-- Put what a match stands for in its place. -/
def substitute (rule : Rule (List Char)) (cs : List Char) : List Char :=
  (scan rule (fun c => [c]) cs).flatten

/-- A match of one fixed, non-empty text. -/
def literally {β : Type} (text : List Char) (found : β) : Rule β :=
  fun cs => if text.isPrefixOf cs then some (found, text.length) else none

end ArchGraph.Text
