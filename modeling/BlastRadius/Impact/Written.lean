import BlastRadius.Impact.Operation

/-!
The JSON form of answers.
-/

namespace BlastRadius

/-- An answer as JSON. The name of the run is shown in the report of a propagation. -/
def Answer.toJson (runId : String) : Answer → Json
  | node id => .obj [("id", id.toJson)]
  | added isNew => .obj [("created", .bool isNew)]
  | count size => .obj [("cleared", .num size)]
  | libraryUpsert answer => answer.toJson
  | link answer => answer.toJson
  | binding answer => answer.toJson
  | registration answer => answer.toJson
  | seed answer => answer.toJson
  | report answer => answer.toJson runId
  | summary answer => answer.toJson
  | nodes ids => NodeId.listToJson ids
  | radius answer => answer.toJson
  | library view => view.toJson
  | component view => view.toJson
  | texts answer => textsToJson answer
  | text answer => .str answer
  | removed answer => answer.toJson
  | done => .obj [("success", .bool true)]

end BlastRadius
