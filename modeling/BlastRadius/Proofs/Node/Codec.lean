import BlastRadius.Node.Codec
import BlastRadius.Proofs.Json.Records

/-!
Nodes and keys are what their own texts decode to.
-/

namespace BlastRadius

open Json (Decoder RecordReader draft numeralOf)

theorem NodeId.decode_undoes : Decoder.Undoes decode toJson := by
  intro id
  rw [toJson, draft, decode, Decoder.natBelow, Json.natural_numeralOf]
  simp only [if_pos id.toNat_lt]
  exact congrArg Except.ok (ofNat_toNat id)

theorem NodeId.isSound_draft (id : NodeId) (depth : Nat) :
    (draft id.toJson).isSound depth = true := by
  rw [toJson, draft, Json.Draft.isSound]
  exact Json.inRange_numeralOf (Nat.lt_trans id.toNat_lt (by decide))

theorem NodeKind.ofName_name (kind : NodeKind) : ofName? kind.name = some kind := by
  cases kind <;> decide

theorem oneTextReader_reads {α : Type} (name : String) (build : String → α) (text : String) :
    (oneTextReader name build).Reads [(name, .str text)] (build text) :=
  (RecordReader.Reads.fieldWith (Decoder.Undoes.string text) name none none).map build

theorem endpointReader_reads {α : Type} (build : String → NodeId → α) (name : String)
    (owner : NodeId) : (endpointReader build).Reads
      [("name", .str name), ("component", owner.toJson)]
      (build name owner) :=
  .twoFields (Decoder.Undoes.string name) (NodeId.decode_undoes owner) (by decide) build

namespace Artifact

theorem reader_reads (artifact : Artifact) : reader.Reads artifact.members artifact :=
  .twoFields (Decoder.Undoes.string artifact.name) (Decoder.Undoes.string artifact.version)
    (by decide) Artifact.mk

theorem decode_undoes : Decoder.Undoes decode toJson := fun artifact => artifact.reader_reads.decode

end Artifact

namespace Node

theorem readerOf_reads (node : Node) : (readerOf node.kind).Reads node.members node := by
  cases node with
  | symbol identity => exact oneTextReader_reads "identity" symbol identity
  | library artifact => exact artifact.reader_reads.map library
  | component artifact => exact artifact.reader_reads.map component
  | asset artifact => exact artifact.reader_reads.map asset
  | endpoint name owner => exact endpointReader_reads endpoint name owner
  | vulnerability identity =>
      cases identity <;>
        exact (RecordReader.Reads.fieldWith (by rfl) "identity" (some none) none).map vulnerability
  | system name => exact oneTextReader_reads "name" system name
  | callGraphDependency => exact RecordReader.Reads.unit.map fun _ => callGraphDependency
  | binding => exact RecordReader.Reads.unit.map fun _ => binding
  | interComponentDependency => exact RecordReader.Reads.unit.map fun _ => interComponentDependency

theorem kind_not_mem_members (node : Node) : ∀ member ∈ node.members, member.1 ≠ "kind" := by
  cases node with
  | vulnerability identity => cases identity <;> simp [members]
  | _ => simp [members, Artifact.members]

theorem isSound_members (node : Node) :
    ∀ member ∈ node.members, (draft member.2).isSound 126 = true := by
  cases node with
  | vulnerability identity => cases identity <;> simp [members, draft, Json.Draft.isSound]
  | _ => simp [members, Artifact.members, draft, Json.Draft.isSound, NodeId.isSound_draft]

theorem decode_undoes : Decoder.Undoes decode toJson := fun node =>
  node.readerOf_reads.tagged (by rw [NodeKind.ofName_name]; rfl) node.kind_not_mem_members
    node.isSound_members

theorem ofText_toText (node : Node) : ofText node.toText = .ok node := decode_undoes.decodeText node

end Node

namespace NodeKey

theorem readerOf?_reads (key : NodeKey) :
    ∃ reader, readerOf? key.kind = some reader ∧ reader.Reads key.members key := by
  cases key with
  | symbol identity => exact ⟨_, rfl, oneTextReader_reads "identity" symbol identity⟩
  | library artifact => exact ⟨_, rfl, artifact.reader_reads.map library⟩
  | component artifact => exact ⟨_, rfl, artifact.reader_reads.map component⟩
  | asset artifact => exact ⟨_, rfl, artifact.reader_reads.map asset⟩
  | endpoint name owner => exact ⟨_, rfl, endpointReader_reads endpoint name owner⟩
  | vulnerability identity =>
      exact ⟨_, rfl, oneTextReader_reads "identity" vulnerability identity⟩
  | system name => exact ⟨_, rfl, oneTextReader_reads "name" system name⟩

theorem kind_not_mem_members (key : NodeKey) : ∀ member ∈ key.members, member.1 ≠ "kind" := by
  cases key <;> simp [members, Artifact.members]

theorem isSound_members (key : NodeKey) :
    ∀ member ∈ key.members, (draft member.2).isSound 126 = true := by
  cases key <;> simp [members, Artifact.members, draft, Json.Draft.isSound, NodeId.isSound_draft]

theorem decode_undoes : Decoder.Undoes decode toJson := by
  intro key
  obtain ⟨reader, known, reads⟩ := key.readerOf?_reads
  refine reads.tagged ?_ key.kind_not_mem_members key.isSound_members
  rw [NodeKind.ofName_name]
  exact known

end NodeKey

end BlastRadius
