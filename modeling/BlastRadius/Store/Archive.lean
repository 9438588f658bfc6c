import BlastRadius.Store.Database
import BlastRadius.Text.Integer

/-!
The written form of the tables of a database, in which they are kept in a file: a line that says
what the file is, then the rows as JSON.
-/

namespace BlastRadius

open Json (Decoder RecordReader)

namespace NodeRow

/-- A row as an object. Its number is written as a text, since it may be negative. -/
def toJson (row : NodeRow) : Json :=
  .obj [("id", .str (toString row.id)), ("kind", .str row.kind),
    ("unique_key", row.uniqueKey.elim .null Json.str), ("node_json", .str row.json),
    ("marked", .bool row.marked)]

def decodeNumber : Decoder Int := fun draft => do
  let text ← Decoder.string draft
  match Text.integer? text with
  | some number => return number
  | none => throw .mismatch

def decode : Decoder NodeRow :=
  RecordReader.decode <|
    ((RecordReader.field "id" decodeNumber).and <|
      (RecordReader.field "kind" Decoder.string).and <|
      (RecordReader.nullableField "unique_key" Decoder.string).and <|
      (RecordReader.field "node_json" Decoder.string).and
      (RecordReader.field "marked" Decoder.bool)).map
        fun (id, kind, uniqueKey, json, marked) => { id, kind, uniqueKey, json, marked }

end NodeRow

namespace EdgeRow

def toJson (row : EdgeRow) : Json :=
  .obj [("source", row.source.toJson), ("relation", .str row.relation),
    ("target", row.target.toJson)]

def decode : Decoder EdgeRow :=
  RecordReader.decode <|
    ((RecordReader.field "source" NodeId.decode).and <|
      (RecordReader.field "relation" Decoder.string).and
      (RecordReader.field "target" NodeId.decode)).map
        fun (source, relation, target) => { source, relation, target }

end EdgeRow

namespace Tables

def toJson (tables : Tables) : Json :=
  .obj [("nodes", .arr (tables.nodes.map NodeRow.toJson)),
    ("edges", .arr (tables.edges.map EdgeRow.toJson))]

def decode : Decoder Tables :=
  RecordReader.decode <|
    ((RecordReader.field "nodes" (Decoder.list NodeRow.decode)).and
      (RecordReader.field "edges" (Decoder.list EdgeRow.decode))).map
        fun (nodes, edges) => { nodes, edges }

/-- The line that starts the file of a database. -/
def heading : String := "dependency graph, format 1\n"

/-- The text of the file of a database. -/
def toText (tables : Tables) : String := heading ++ tables.toJson.compact

/-- The tables that the text of a file holds. An empty file holds empty tables. -/
def ofText? (text : String) : Option Tables :=
  if text.isEmpty then some {}
  else if text.startsWith heading then
    (Json.decodeText decode (String.ofList (text.toList.drop heading.length))).toOption
  else none

end Tables

end BlastRadius
