import BlastRadius.Inventory.Fixture
import BlastRadius.Proofs.Node.Codec

/-!
A fixture is what its own text decodes to, as are all entries of its sections.
-/

namespace BlastRadius

open Json (Decoder Draft Flaw RecordReader draft membersDraft)

theorem textsToJson_undoes : Decoder.Undoes (Decoder.list Decoder.string) textsToJson :=
  Decoder.Undoes.string.list

theorem Artifact.nullable_undoes : Decoder.Undoes (Decoder.nullable Artifact.decode)
    fun artifact => artifact.elim .null Artifact.toJson :=
  Artifact.decode_undoes.nullable nofun

theorem EndpointRef.decode_undoes : Decoder.Undoes decode toJson := fun endpoint =>
  (RecordReader.Reads.twoFields (Artifact.decode_undoes endpoint.component)
    (Decoder.Undoes.string endpoint.name) (by decide) EndpointRef.mk).decode

theorem CallEntry.decode_undoes : Decoder.Undoes decode toJson := fun entry =>
  (RecordReader.Reads.twoFields (Decoder.Undoes.string entry.caller)
    (textsToJson_undoes entry.callees) (by decide) CallEntry.mk).decode

theorem HostingEntry.decode_undoes : Decoder.Undoes decode toJson := fun entry =>
  (RecordReader.Reads.twoFields (Artifact.decode_undoes entry.component)
    (Artifact.decode_undoes entry.asset) (by decide) HostingEntry.mk).decode

theorem ServesEntry.decode_undoes : Decoder.Undoes decode toJson := fun entry =>
  (RecordReader.Reads.twoFields (EndpointRef.decode_undoes entry.endpoint)
    (Decoder.Undoes.string entry.symbol) (by decide) ServesEntry.mk).decode

theorem NetworkEntry.decode_undoes : Decoder.Undoes decode toJson := fun entry =>
  (RecordReader.Reads.twoFields (EndpointRef.decode_undoes entry.caller)
    (EndpointRef.decode_undoes.list entry.callees) (by decide) NetworkEntry.mk).decode

theorem SystemEntry.decode_undoes : Decoder.Undoes decode toJson := fun entry =>
  (RecordReader.Reads.twoFields (Decoder.Undoes.string entry.name)
    (Artifact.decode_undoes.list entry.components) (by decide) SystemEntry.mk).decode

theorem VulnerabilityEntry.decode_undoes : Decoder.Undoes decode toJson := fun entry =>
  (RecordReader.Reads.twoFields (Decoder.Undoes.string.nullable nofun entry.identity)
    (Decoder.Undoes.string entry.symbol) (by decide) VulnerabilityEntry.mk).decode

theorem BindingRequest.decode_undoes : Decoder.Undoes decode toJson := by
  intro request
  have asset := RecordReader.Reads.fieldWith (Artifact.nullable_undoes request.asset) "asset"
    (some none) (some none)
  have component : ((decode.part "component").and (decode.part "asset")).Reads
      [("component", request.component.elim .null Artifact.toJson),
        ("asset", request.asset.elim .null Artifact.toJson)] (request.component, request.asset) :=
    .fieldWith_and (Artifact.nullable_undoes request.component) asset (by simp)
  have parts :
      ((decode.part "library").and ((decode.part "component").and (decode.part "asset"))).Reads
      request.members (request.library, request.component, request.asset) :=
    .fieldWith_and (Artifact.nullable_undoes request.library) component (by simp)
  exact (parts.map _).decode

namespace LibraryEntry

theorem takeMembers_eq (depth : Nat) {others : List (String × Json)} (symbols : List String)
    (named : ∀ member ∈ others, member.1 ≠ "symbols")
    (sound : ∀ member ∈ others, (draft member.2).isSound depth = true) :
    takeMembers depth symbolsReader.start
      (membersDraft (others ++ [("symbols", textsToJson symbols)])) =
        .ok (some symbols, membersDraft others) := by
  induction others with
  | nil =>
      have taken : symbolsReader.member symbolsReader.start "symbols"
          (draft (textsToJson symbols)) =
          .ok (some (some symbols)) := by
        simp [symbolsReader, RecordReader.fieldOr, RecordReader.fieldWith,
          textsToJson_undoes symbols, Functor.map, Except.map]
      rw [List.nil_append, Json.membersDraft_cons, takeMembers, taken]
      rfl
  | cons member rest ih =>
      obtain ⟨other, named⟩ := List.forall_mem_cons.mp named
      obtain ⟨whole, sound⟩ := List.forall_mem_cons.mp sound
      have passed : symbolsReader.member symbolsReader.start member.1 (draft member.2) = .ok none :=
        RecordReader.ignores_fieldWith other (Decoder.list Decoder.string) (some []) (some []) _ _
      rw [List.cons_append, Json.membersDraft_cons, Json.membersDraft_cons, takeMembers, passed]
      simp only [bind, Except.bind, whole, if_true, ih named sound]
      rfl

theorem decodeWithin_undoes (outer : Nat) : Decoder.Undoes (decodeWithin outer) toJson := by
  intro entry
  have named : ∀ member ∈ entry.library.members, member.1 ≠ "symbols" := by
      simp [Artifact.members]
  have sound (depth : Nat) : ∀ member ∈ entry.library.members,
      (draft member.2).isSound depth = true := by
    simp [Artifact.members, draft, Draft.isSound]
  have taken := takeMembers_eq (RecordReader.depthLimit - outer - 1) entry.symbols named (sound _)
  rw [toJson, draft, decodeWithin, taken]
  simp only [bind, Except.bind, if_true, entry.library.reader_reads.ofMembers]
  rfl

end LibraryEntry

namespace Fixture

theorem sectionReader_and {α β : Type} {decode : Decoder α} {encode : α → Json}
    (undoes : Decoder.Undoes decode encode) (name : String) (values : List α)
    {second : RecordReader β} {others : List (String × Json)} {b : β}
    (later : second.Reads others b)
    (apart : ∀ member ∈ others, member.1 ≠ name) :
    ((sectionReader name decode).and second).Reads ((name, .arr (values.map encode)) :: others)
      (values, b) :=
  RecordReader.Reads.fieldWith_and (undoes.list values) later apart

theorem decode_undoes : Decoder.Undoes decode toJson := by
  intro fixture
  have last := RecordReader.Reads.fieldWith
    (VulnerabilityEntry.decode_undoes.list fixture.vulnerabilities) "vulnerabilities" (some [])
    (some [])
  have systems := sectionReader_and SystemEntry.decode_undoes "systems" fixture.systems
      last (by simp)
  have bindings := sectionReader_and BindingRequest.decode_undoes "bindings"
      fixture.bindings systems
    (by simp)
  have network := sectionReader_and NetworkEntry.decode_undoes "network" fixture.network bindings
    (by simp)
  have serves := sectionReader_and ServesEntry.decode_undoes "serves" fixture.serves
      network (by simp)
  have endpoints := sectionReader_and EndpointRef.decode_undoes "endpoints" fixture.endpoints serves
    (by simp)
  have hosting := sectionReader_and HostingEntry.decode_undoes "hosting" fixture.hosting endpoints
    (by simp)
  have assets := sectionReader_and Artifact.decode_undoes "assets" fixture.assets hosting (by simp)
  have components := sectionReader_and Artifact.decode_undoes "components" fixture.components assets
    (by simp)
  have calls := sectionReader_and CallEntry.decode_undoes "calls" fixture.calls components (by simp)
  have libraries := sectionReader_and (LibraryEntry.decodeWithin_undoes 2) "libraries"
    fixture.libraries calls (by simp)
  have sections := sectionReader_and Decoder.Undoes.string "symbols" fixture.symbols
      libraries (by simp)
  exact (sections.map _).decode

end Fixture

end BlastRadius
