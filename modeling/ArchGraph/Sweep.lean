/-!
The loop that sweeps expired runs again and again. A sweep that breaks does not end it.
-/

namespace ArchGraph

/-- What one sweep came to. -/
inductive SweepOutcome where
  | swept (count : Int)
  | broke
  deriving DecidableEq, Repr

structure SweepLoop where
  outcomes : List SweepOutcome
  deriving DecidableEq, Repr

namespace SweepLoop

def begin : SweepLoop := ⟨[]⟩

/-- One more round, whatever the last one came to. -/
def round (l : SweepLoop) (outcome : SweepOutcome) : SweepLoop := ⟨l.outcomes ++ [outcome]⟩

def run (outcomes : List SweepOutcome) : SweepLoop := outcomes.foldl round begin

end SweepLoop

end ArchGraph
