import BlastRadius.Proofs.Json.Reading

/-!
Decoders that undo an encoding. A reader of records restores what is written as the members of an
object if it takes the members in one after the other; this is so of fields, of records put together
from fields with other names, and of what is made from a record that is restored.
-/

namespace BlastRadius.Json

variable {α β : Type}

theorem membersDraft_cons (member : String × Json) (rest : List (String × Json)) :
    membersDraft (member :: rest) = (some member.1, draft member.2) :: membersDraft rest := by
  rw [membersDraft, memberDraft]

theorem membersDraft_eq (members : List (String × Json)) :
    membersDraft members = members.map fun member => (some member.1, draft member.2) := by
  induction members with
  | nil => rfl
  | cons member rest ih => rw [membersDraft_cons, ih, List.map_cons]

theorem itemsDraft_eq (items : List Json) : itemsDraft items = items.map draft := by
  induction items with
  | nil => rfl
  | cons item rest ih => rw [itemsDraft, ih, List.map_cons]

/-- What a decoder makes of the written form of a value is the value. -/
def Decoder.Undoes (decode : Decoder α) (encode : α → Json) : Prop :=
  ∀ value, decode (draft (encode value)) = .ok value

namespace Decoder.Undoes

variable {decode : Decoder α} {encode : α → Json}

theorem decodeText (undoes : decode.Undoes encode) (value : α) :
    Json.decodeText decode (encode value).compact = .ok value := by
  rw [Json.decodeText, read_compact]
  simp only [undoes value]
  rfl

theorem string : Decoder.string.Undoes .str := fun _ => rfl

theorem items (undoes : decode.Undoes encode) (values : List α) :
    Decoder.items decode (values.map fun value => draft (encode value)) = .ok values := by
  induction values with
  | nil => rfl
  | cons value values ih =>
      rw [List.map_cons, Decoder.items, undoes value, ih]
      rfl

theorem list (undoes : decode.Undoes encode) :
    (Decoder.list decode).Undoes fun values => .arr (values.map encode) := by
  intro values
  have read : Decoder.items decode (itemsDraft (values.map encode)) = .ok values := by
    rw [itemsDraft_eq, List.map_map]
    exact undoes.items values
  rw [draft, Decoder.list, read]
  rfl

/-- A value that may be absent is written as `null` then, so no other value may be. -/
theorem nullable (undoes : decode.Undoes encode)
    (given : ∀ value, draft (encode value) ≠ .null) :
    (Decoder.nullable decode).Undoes fun value => value.elim .null encode := by
  intro value
  cases value with
  | none => rfl
  | some value =>
      change Decoder.nullable decode (draft (encode value)) = _
      rw [Decoder.nullable, undoes value]
      · rfl
      · exact given value

end Decoder.Undoes

namespace RecordReader

/-- A reader takes members in, each as one of its fields. -/
inductive Takes (reader : RecordReader α) :
    reader.State → List (Option String × Draft) → reader.State → Prop where
  | nil (state : reader.State) : Takes reader state [] state
  | cons {state taken last : reader.State} {name : String} {value : Draft}
      {rest : List (Option String × Draft)}
      (first : reader.member state name value = .ok (some taken))
      (later : Takes reader taken rest last) : Takes reader state ((some name, value) :: rest) last

theorem Takes.members {reader : RecordReader α} {state last : reader.State}
    {given : List (Option String × Draft)} (takes : reader.Takes state given last) :
    reader.members state given = .ok last := by
  induction takes with
  | nil => rfl
  | cons first _ ih =>
      rw [RecordReader.members, first]
      exact ih

theorem Takes.append {reader : RecordReader α} {state between last : reader.State}
    {given others : List (Option String × Draft)} (takes : reader.Takes state given between)
    (later : reader.Takes between others last) : reader.Takes state (given ++ others) last := by
  induction takes with
  | nil => exact later
  | cons first _ ih => exact .cons first (ih later)

/-- A reader makes a value of the members of an object, all of which are its fields. -/
def Reads (reader : RecordReader α) (members : List (String × Json)) (value : α) : Prop :=
  ∃ last, reader.Takes reader.start (membersDraft members) last ∧
    reader.finish last = some value

theorem Reads.ofMembers {reader : RecordReader α} {members : List (String × Json)} {value : α}
    (reads : reader.Reads members value) :
    reader.ofMembers (membersDraft members) true = .ok value := by
  obtain ⟨last, takes, finished⟩ := reads
  rw [RecordReader.ofMembers, takes.members]
  simp only [bind, Except.bind, finished]
  rfl

theorem Reads.decode {reader : RecordReader α} {members : List (String × Json)} {value : α}
    (reads : reader.Reads members value) : reader.decode (draft (.obj members)) = .ok value :=
  reads.ofMembers

theorem Takes.map {reader : RecordReader α} {state last : reader.State}
    {given : List (Option String × Draft)} (takes : reader.Takes state given last)
    (f : α → β) :
    (reader.map f).Takes state given last := by
  induction takes with
  | nil state => exact @Takes.nil _ (reader.map f) state
  | cons first _ ih => exact @Takes.cons _ (reader.map f) _ _ _ _ _ _ first ih

theorem Reads.map {reader : RecordReader α} {members : List (String × Json)} {value : α}
    (reads : reader.Reads members value) (f : α → β) :
      (reader.map f).Reads members (f value) := by
  obtain ⟨last, takes, finished⟩ := reads
  exact ⟨last, takes.map f, congrArg (Option.map f) finished⟩

theorem Reads.unit : RecordReader.unit.Reads [] () := ⟨_, .nil _, rfl⟩

theorem Reads.fieldWith {decode : Decoder α} {value : α} {encoded : Json}
    (decoded : decode (draft encoded) = .ok value) (name : String) (absent short : Option α) :
    (RecordReader.fieldWith name decode absent short).Reads [(name, encoded)] value := by
  have first : (RecordReader.fieldWith name decode absent short).member none name (draft encoded) =
      .ok (some (some value)) := by
    simp [RecordReader.fieldWith, decoded, Functor.map, Except.map]
  exact ⟨some value, .cons first (.nil _), rfl⟩

/-- A name that is none of the fields. -/
def Ignores (reader : RecordReader α) (name : String) : Prop :=
  ∀ state value, reader.member state name value = .ok none

theorem ignores_fieldWith {name other : String} (ne : other ≠ name) (decode : Decoder α)
    (absent short : Option α) : (RecordReader.fieldWith name decode absent short).Ignores
      other := by
  intro state value
  simp [RecordReader.fieldWith, ne]

section And

variable {first : RecordReader α} {second : RecordReader β}

theorem Takes.inFirst {state last : first.State} {given : List (Option String × Draft)}
    (takes : first.Takes state given last) (other : second.State) :
    (first.and second).Takes (state, other) given (last, other) := by
  induction takes with
  | nil state => exact @Takes.nil _ (first.and second) (state, other)
  | cons taken _ ih =>
      refine @Takes.cons _ (first.and second) _ _ _ _ _ _ ?_ ih
      simp only [RecordReader.and, taken]
      rfl

theorem Takes.inSecond {state last : second.State} {given : List (Option String × Draft)}
    (takes : second.Takes state given last) (other : first.State)
    (apart : ∀ member ∈ given, ∀ name, member.1 = some name → first.Ignores name) :
    (first.and second).Takes (other, state) given (other, last) := by
  induction takes with
  | nil state => exact @Takes.nil _ (first.and second) (other, state)
  | cons taken _ ih =>
      obtain ⟨ignored, apart⟩ := List.forall_mem_cons.mp apart
      refine @Takes.cons _ (first.and second) _ _ _ _ _ _ ?_ (ih apart)
      simp only [RecordReader.and, ignored _ rfl _ _]
      simp only [bind, Except.bind, taken]
      rfl

theorem Reads.and {members others : List (String × Json)} {a : α} {b : β}
    (reads : first.Reads members a) (later : second.Reads others b)
    (apart : ∀ member ∈ others, first.Ignores member.1) :
    (first.and second).Reads (members ++ others) (a, b) := by
  obtain ⟨last, takes, finished⟩ := reads
  obtain ⟨last', takes', finished'⟩ := later
  refine ⟨(last, last'), ?_, ?_⟩
  · rw [membersDraft_eq, List.map_append, ← membersDraft_eq, ← membersDraft_eq]
    refine (takes.inFirst second.start).append
      (takes'.inSecond last fun member mem name named => ?_)
    rw [membersDraft_eq] at mem
    obtain ⟨other, listed, rfl⟩ := List.mem_map.mp mem
    obtain rfl := Option.some.inj named
    exact apart other listed
  · simp only [RecordReader.and, finished, finished']

theorem Reads.fieldWith_and {decode : Decoder α} {value : α} {encoded : Json} {name : String}
    {absent short : Option α} {others : List (String × Json)} {b : β}
    (decoded : decode (draft encoded) = .ok value) (later : second.Reads others b)
    (apart : ∀ member ∈ others, member.1 ≠ name) :
    ((RecordReader.fieldWith name decode absent short).and second).Reads ((name, encoded) :: others)
      (value, b) :=
  (Reads.fieldWith decoded name absent short).and later fun member mem =>
    ignores_fieldWith (apart member mem) decode absent short

theorem Reads.twoFields {γ : Type} {decode : Decoder α} {decode' : Decoder β} {a : α} {b : β}
    {encoded encoded' : Json} (decoded : decode (draft encoded) = .ok a)
    (decoded' : decode' (draft encoded') = .ok b) {name name' : String} (ne : name' ≠ name)
    {absent short : Option α} {absent' short' : Option β} (build : α → β → γ) :
    (((RecordReader.fieldWith name decode absent short).and
        (RecordReader.fieldWith name' decode' absent' short')).map fun (a, b) => build a b).Reads
      [(name, encoded), (name', encoded')] (build a b) :=
  (Reads.fieldWith_and decoded (Reads.fieldWith decoded' name' absent' short')
    (List.forall_mem_singleton.mpr ne)).map fun (a, b) => build a b

end And

theorem isSound_obj {depth : Nat} {members : List (String × Json)}
    (sound : ∀ member ∈ members, (draft member.2).isSound depth = true) :
    (draft (.obj members)).isSound (depth + 1) = true := by
  have each : Draft.membersSound depth (membersDraft members) = true := by
    induction members with
    | nil => rfl
    | cons member rest ih =>
        obtain ⟨here, later⟩ := List.forall_mem_cons.mp sound
        rw [membersDraft_cons, Draft.membersSound, Draft.memberSound, here, ih later]
        rfl
  rw [draft, Draft.isSound, Nat.add_sub_cancel, each]
  simp

/-- A record with its tag in front is decoded by the reader that the tag is for. -/
theorem Reads.tagged {variant? : String → Option (RecordReader α)} {reader : RecordReader α}
    {tag name : String} {members : List (String × Json)} {value : α}
    (known : variant? name = some reader) (reads : reader.Reads members value)
    (untagged : ∀ member ∈ members, member.1 ≠ tag)
    (sound : ∀ member ∈ members, (draft member.2).isSound 126 = true) :
    RecordReader.tagged tag variant? (draft (.obj ((tag, .str name) :: members))) = .ok value := by
  have whole : (draft (.obj ((tag, .str name) :: members))).isSound depthLimit = true :=
    isSound_obj (List.forall_mem_cons.mpr ⟨rfl, sound⟩)
  have others : ∀ member ∈ membersDraft members, member.1 ≠ some tag := by
    rw [membersDraft_eq, List.forall_mem_map]
    exact fun member mem same => untagged member mem (Option.some.inj same)
  have kept : (membersDraft members).filter (fun member => member.1 != some tag) =
      membersDraft members :=
    List.filter_eq_self.mpr fun member mem => by simpa using others member mem
  have noOther : (membersDraft members).filter (fun member => member.1 == some tag) = [] :=
    List.filter_eq_nil_iff.mpr fun member mem => by simpa using others member mem
  rw [draft, membersDraft_cons, draft] at whole ⊢
  simp [RecordReader.tagged, whole, kept, noOther, known, reads.ofMembers]

end RecordReader

end BlastRadius.Json
