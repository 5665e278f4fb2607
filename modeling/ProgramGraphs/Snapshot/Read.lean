import ProgramGraphs.Failure
import ProgramGraphs.Snapshot.Json
import ProgramGraphs.Snapshot.View

/-!
# Snapshots out of documents
-/

namespace ProgramGraphs.Snapshot

open Json (Document)

/-- The view of the snapshot that a document holds, when all references in it are good. -/
def ofDocument (document : Document) : Except Failure View :=
  match Json.Decode.document Snapshot.decoder document with
  | .error error => .error (.document (.text error))
  | .ok snapshot =>
    match snapshot.validate with
    | .error reference => .error (.snapshot (.dangling reference))
    | .ok view => .ok view

end ProgramGraphs.Snapshot
