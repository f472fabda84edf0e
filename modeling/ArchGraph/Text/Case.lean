import ArchGraph.Text.CaseTable

/-!
Upper and lower case of a text. A character may change into several, and a capital sigma at the
end of a word gets the final form.
-/

namespace ArchGraph.Text

def inRanges (ranges : List (Nat × Nat)) (c : Char) : Bool :=
  ranges.any (fun r => r.1 ≤ c.toNat && c.toNat ≤ r.2)

def isCased (c : Char) : Bool := inRanges casedRanges c

def isCaseIgnorable (c : Char) : Bool := inRanges caseIgnorableRanges c

/-- The form of one character: a listed expansion, or a shift within a run, or the character. -/
def changeCase (special : List (Nat × List Nat)) (runs : List CaseRun) (c : Char) : List Char :=
  match special.lookup c.toNat with
  | some expansion => expansion.map Char.ofNat
  | none =>
    match runs.find? (·.covers c.toNat) with
    | some run => [Char.ofNat (c.toNat + run.delta).toNat]
    | none => [c]

def upper (cs : List Char) : List Char := cs.flatMap (changeCase upperSpecial upperRuns)

/-- A sigma is final when a letter stands before it and none after it, looking through the
characters that casing ignores. `before` runs backwards from the sigma. -/
def sigmaIsFinal (before after : List Char) : Bool :=
  (before.dropWhile isCaseIgnorable).head?.any isCased &&
    !(after.dropWhile isCaseIgnorable).head?.any isCased

def lowerAfter (before : List Char) : List Char → List Char
  | [] => []
  | c :: cs =>
    (if c == 'Σ' then [if sigmaIsFinal before cs then 'ς' else 'σ']
      else changeCase lowerSpecial lowerRuns c) ++ lowerAfter (c :: before) cs

def lower (cs : List Char) : List Char := lowerAfter [] cs

end ArchGraph.Text
