import ArchGraph.Diff.Document
import ArchGraph.Fact.Document
import ArchGraph.Run

/-!
Runs and requests as documents.
-/

namespace ArchGraph

open Decoder

def Run.decode : Decoder Run := record fun o =>
  Run.mk <$> required "run_id" text o <*> required "project_id" text o <*>
    required "branch" text o <*> withDefault "base_branch" "main" text o <*>
    optional "change_ref" text o <*> withDefault "status" .pending Coded.decode o <*>
    optional "error_message" text o <*> required "created_at" timestamp o <*>
    optional "completed_at" timestamp o <*> required "expires_at" timestamp o <*>
    optional "diff" GraphDiff.decode o

def timestampJson (t : Timestamp) : Json := .str t.documentText

/-- A run without its diff. -/
def Run.entries (r : Run) : Entries :=
  [("run_id", .str r.id), ("project_id", .str r.projectId), ("branch", .str r.branch),
    ("base_branch", .str r.baseBranch), ("change_ref", .ofText? r.changeRef),
    ("status", Coded.toJson r.status), ("error_message", .ofText? r.errorMessage),
    ("created_at", timestampJson r.createdAt),
    ("completed_at", .ofOption timestampJson r.completedAt),
    ("expires_at", timestampJson r.expiresAt)]

def Run.toJson (r : Run) : Json :=
  .obj (r.entries ++ [("diff", .ofOption GraphDiff.toJson r.diff)])

/-- A run with the summary of its diff, if it has one. -/
def Run.toBriefJson (r : Run) : Json :=
  .obj (r.entries ++ r.diff.elim [] (fun d => [("summary", d.summary.toJson)]))

def RunRequest.decodeFields (o : Entries) : Checked RunRequest :=
  RunRequest.mk <$> required "branch" nonEmptyText o <*> withDefault "base_branch" "main" text o <*>
    optional "change_ref" text o <*> required "facts" FactSet.decode o

def RunRequest.decode : Decoder RunRequest := recordOf "CandidateRunRequest" decodeFields

def RunRequest.toJson (r : RunRequest) : Json :=
  .obj [("branch", .str r.branch), ("base_branch", .str r.baseBranch),
    ("change_ref", .ofText? r.changeRef), ("facts", r.facts.toJson)]

end ArchGraph
