import BlastRadius.Proofs.Inventory.Acceptance
import BlastRadius.Proofs.Parity.Queries
import BlastRadius.Proofs.Text.ByteOrder

/-!
What the structural queries list. Each lists the entities to which its own is related, in order and
once, although it reads them from nodes in the order of their identifiers.
-/

namespace BlastRadius

open Contents

/-- One text comes before another by its bytes in UTF-8. -/
def Text.Before (text other : String) : Prop := bytes text < bytes other

/-- One artifact comes before another by its name, or else by its version. -/
def Artifact.Before (a b : Artifact) : Prop :=
  Text.Before a.name b.name ∨ a.name = b.name ∧ Text.Before a.version b.version

/-- A list of exactly the elements of a set, each after those that come before it. -/
structure Lists {α : Type} (before : α → α → Prop) (l : List α) (elements : Set α) :
    Prop where
  ascending : l.Pairwise before
  mem {x : α} : x ∈ l ↔ x ∈ elements

theorem Text.before_iff {text other : String} : Text.Before text other ↔ text < other :=
  lt_iff_bytes.symm

theorem Artifact.before_of_le {a b : Artifact}
    (le : toLex (a.name, a.version) ≤ toLex (b.name, b.version))
    (other : a ≠ b) : a.Before b := by
  obtain ⟨name, version⟩ := a
  obtain ⟨name', version'⟩ := b
  rw [Prod.Lex.toLex_le_toLex] at le
  rw [Before, Text.before_iff, Text.before_iff]
  refine le.imp_right fun ⟨same, le⟩ => ⟨same, lt_of_le_of_ne le fun same' => other ?_⟩
  exact congrArg₂ Artifact.mk same same'

section Sorting

variable {texts : List String}

theorem pairwise_sortTexts (texts : List String) : (Query.sortTexts texts).Pairwise (· ≤ ·) :=
  pairwise_mergeSort not_lt_iff_le texts

theorem lists_sortTexts (nodup : texts.Nodup) :
    Lists Text.Before (Query.sortTexts texts) {text | text ∈ texts} where
  ascending := by
    have perm := List.mergeSort_perm texts fun a b => !decide (b < a)
    refine ((pairwise_sortTexts texts).and (perm.nodup_iff.mpr nodup)).imp fun ⟨le, other⟩ => ?_
    exact Text.before_iff.mpr (lt_of_le_of_ne le other)
  mem := (List.mergeSort_perm texts _).mem_iff

theorem lists_sortArtifacts {artifacts : List Artifact} (nodup : artifacts.Nodup) :
    Lists Artifact.Before (Artifact.sort artifacts) {artifact | artifact ∈ artifacts} where
  ascending := by
    have perm := List.mergeSort_perm artifacts Artifact.le
    have sorted := pairwise_mergeSort Artifact.le_iff artifacts
    exact (sorted.and (perm.nodup_iff.mpr nodup)).imp fun ⟨le, other⟩ =>
      Artifact.before_of_le le other
  mem := (List.mergeSort_perm artifacts _).mem_iff

theorem mem_withoutRepeats {text : String} :
    text ∈ Query.withoutRepeats texts ↔ text ∈ texts := by
  induction texts with
  | nil => exact Iff.rfl
  | cons first rest ih =>
      rw [List.mem_cons, ← ih, Query.withoutRepeats]
      split
      · rename_i none
        simp [none]
      · rename_i other others some
        rw [some]
        split
        · rename_i same
          rw [same, List.mem_cons, ← or_assoc, or_self]
        · exact List.mem_cons

theorem pairwise_withoutRepeats (sorted : texts.Pairwise (· ≤ ·)) :
    (Query.withoutRepeats texts).Pairwise (· < ·) := by
  induction texts with
  | nil => exact .nil
  | cons first rest ih =>
      obtain ⟨least, sorted⟩ := List.pairwise_cons.mp sorted
      have ascending := ih sorted
      have above {text : String} (mem : text ∈ Query.withoutRepeats rest) : first ≤ text :=
        least text (mem_withoutRepeats.mp mem)
      rw [Query.withoutRepeats]
      split
      · exact List.pairwise_singleton _ _
      · rename_i other others some
        rw [some] at ascending above
        split
        · exact ascending
        · rename_i different
          refine List.pairwise_cons.mpr ⟨fun text mem => ?_, ascending⟩
          have less := lt_of_le_of_ne (above List.mem_cons_self) different
          rcases List.mem_cons.mp mem with rfl | later
          · exact less
          · exact less.trans ((List.pairwise_cons.mp ascending).1 text later)

theorem lists_withoutRepeats (texts : List String) :
    Lists Text.Before (Query.withoutRepeats (Query.sortTexts texts)) {text | text ∈ texts} where
  ascending := (pairwise_withoutRepeats (pairwise_sortTexts texts)).imp Text.before_iff.mpr
  mem := mem_withoutRepeats.trans (List.mergeSort_perm texts _).mem_iff

end Sorting

namespace Contents

variable {c : Contents} {α : Type} {pick : Node → Option α} {ids : Set NodeId}

theorem mem_picked {value : α} : value ∈ c.picked pick (NodeId.listed ids) ↔
    ∃ x ∈ ids, ∃ node, c.node? x = some node ∧ pick node = some value := by
  simp only [picked, List.mem_flatMap, NodeId.mem_listed, Option.mem_toList,
    Option.bind_eq_some_iff]

theorem nodup_picked (distinct : ∀ x ∈ ids, ∀ y ∈ ids, ∀ node other value,
    c.node? x = some node →
    c.node? y = some other → pick node = some value → pick other = some value → x = y) :
    (c.picked pick (NodeId.listed ids)).Nodup := by
  rw [picked, List.nodup_flatMap]
  refine ⟨fun x _ => ?_, ?_⟩
  · cases (c.node? x).bind pick <;> simp
  · refine (NodeId.listed_nodup ids).imp_of_mem fun {x y} hx hy other => ?_
    rw [Function.onFun, List.disjoint_left]
    intro value first second
    rw [Option.mem_toList, Option.bind_eq_some_iff] at first second
    obtain ⟨node, found, picked⟩ := first
    obtain ⟨node', found', picked'⟩ := second
    exact other (distinct x (NodeId.mem_listed.mp hx) y (NodeId.mem_listed.mp hy) node node' value
      found found' picked picked')

end Contents

/-- The answer to a structural query lists what is known. -/
def Operation.Describes (known : Set Fact) : Operation → Except ImpactError Answer → Prop
  | library artifact, answer =>
      .present (.library artifact) ∉ known ∧
        answer = .error (.notFound .library (toString (NodeKey.library artifact))) ∨
      .present (.library artifact) ∈ known ∧ ∃ view, answer = .ok (.library view) ∧
        view.library = artifact ∧ Lists Text.Before view.symbols
          {identity | .related (.library artifact) .provides (.symbol identity) ∈ known}
  | component artifact, answer =>
      .present (.component artifact) ∉ known ∧
        answer = .error (.notFound .component (toString (NodeKey.component artifact))) ∨
      .present (.component artifact) ∈ known ∧ ∃ view, answer = .ok (.component view) ∧
        view.component = artifact ∧
        Lists Text.Before view.endpoints
          {name | .related (.endpoint ⟨artifact, name⟩) .exposes
            (.component artifact) ∈ known} ∧
        Lists Artifact.Before view.hosts
          {host | .related (.component artifact) .hostedBy (.asset host) ∈ known}
  | callees symbol, answer =>
      .present (.symbol symbol) ∉ known ∧ answer = .error (.notFound .symbol symbol) ∨
      .present (.symbol symbol) ∈ known ∧ ∃ texts, answer = .ok (.texts texts) ∧
        Lists Text.Before texts {callee | .calls .code (.symbol symbol) (.symbol callee) ∈ known}
  | _, _ => True

/-- Whether an operation asks what is related to an entity. -/
def Operation.structural : Operation → Bool
  | library _ | component _ | callees _ => true
  | _ => false

theorem Operation.describes_of_not_structural {known : Set Fact} {query : Operation}
    {answer : Except ImpactError Answer} (other : query.structural = false) :
    query.Describes known answer := by
  cases query <;> trivial

theorem leads_findAs {c : Contents} (valid : c.Valid) {e : Entity} {key : NodeKey}
    (own : e.key? = some key) (shown : String) :
    (.present e ∉ c.shown ∧
      Leads (ImpactProgram.findAs key shown).run c (.error (.notFound key.kind shown)) c) ∨
    (∃ x, c.Denotes x e ∧ Leads (ImpactProgram.findAs key shown).run c (.ok x) c) := by
  have look := Leads.ofStore (Reads.findNode (c := c) key)
  cases found : c.find? key with
  | some x =>
      rw [found] at look
      exact Or.inr ⟨x, (denotes_iff_keyed own).mpr (valid.find?_eq_some.mp found),
        look.bind (.pure x)⟩
  | none =>
      rw [found] at look
      refine Or.inl ⟨fun ⟨x, denotes⟩ => ?_, look.bind (.throw _)⟩
      exact Set.notMem_empty x (find?_eq_none.mp found ▸ (denotes_iff_keyed own).mp denotes)

namespace Contents.Regular

variable {c : Contents} {x : NodeId} (regular : c.Regular)
include regular

theorem lists_provided {artifact : Artifact} (denotes : c.Denotes x (.library artifact)) :
    Lists Text.Before
      (Query.sortTexts (c.picked Query.symbolOf (NodeId.listed (c.targets x .provides))))
      {identity | .related (.library artifact) .provides (.symbol identity) ∈ c.shown} := by
  have nodup : (c.picked Query.symbolOf (NodeId.listed (c.targets x .provides))).Nodup := by
    refine nodup_picked fun y _ z _ node other identity found found' picked picked' => ?_
    cases node <;> cases picked
    cases other <;> cases picked'
    exact regular.valid.node_unique rfl found found'
  obtain ⟨ascending, mem⟩ := lists_sortTexts nodup
  refine ⟨ascending, mem.trans (mem_picked.trans ⟨?_, ?_⟩)⟩
  · rintro ⟨y, edge, node, found, picked⟩
    cases node <;> cases picked
    exact ⟨x, y, denotes, found, edge⟩
  · rintro ⟨x', y, denotes', found, edge⟩
    obtain rfl := regular.valid.denotes_unique denotes' denotes
    exact ⟨y, edge, _, found, rfl⟩

theorem lists_exposed {artifact : Artifact} (denotes : c.Denotes x (.component artifact)) :
    Lists Text.Before
      (Query.sortTexts (c.picked Query.endpointOf (NodeId.listed (c.sources x .exposes))))
      {name | .related (.endpoint ⟨artifact, name⟩) .exposes (.component artifact) ∈
        c.shown} := by
  have nodup : (c.picked Query.endpointOf (NodeId.listed (c.sources x .exposes))).Nodup := by
    refine nodup_picked fun y edge z edge' node other name found found' picked picked' => ?_
    cases node <;> cases picked
    cases other <;> cases picked'
    obtain ⟨_, own⟩ := regular.owner y x edge
    obtain ⟨_, own'⟩ := regular.owner z x edge'
    cases found.symm.trans own
    cases found'.symm.trans own'
    exact regular.valid.node_unique rfl found found'
  obtain ⟨ascending, mem⟩ := lists_sortTexts nodup
  refine ⟨ascending, mem.trans (mem_picked.trans ⟨?_, ?_⟩)⟩
  · rintro ⟨y, edge, node, found, picked⟩
    cases node <;> cases picked
    obtain ⟨_, own⟩ := regular.owner y x edge
    cases found.symm.trans own
    exact ⟨y, x, ⟨x, denotes, found⟩, denotes, edge⟩
  · rintro ⟨y, x', ⟨owner, _, found⟩, denotes', edge⟩
    obtain rfl := regular.valid.denotes_unique denotes' denotes
    exact ⟨y, edge, _, found, rfl⟩

theorem lists_hosts {artifact : Artifact} (denotes : c.Denotes x (.component artifact)) :
    Lists Artifact.Before
      (Artifact.sort (c.picked Query.assetOf (NodeId.listed (c.targets x .hostedBy))))
      {host | .related (.component artifact) .hostedBy (.asset host) ∈ c.shown} := by
  have nodup : (c.picked Query.assetOf (NodeId.listed (c.targets x .hostedBy))).Nodup := by
    refine nodup_picked fun y _ z _ node other host found found' picked picked' => ?_
    cases node <;> cases picked
    cases other <;> cases picked'
    exact regular.valid.node_unique rfl found found'
  obtain ⟨ascending, mem⟩ := lists_sortArtifacts nodup
  refine ⟨ascending, mem.trans (mem_picked.trans ⟨?_, ?_⟩)⟩
  · rintro ⟨y, edge, node, found, picked⟩
    cases node <;> cases picked
    exact ⟨x, y, denotes, found, edge⟩
  · rintro ⟨x', y, denotes', found, edge⟩
    obtain rfl := regular.valid.denotes_unique denotes' denotes
    exact ⟨y, edge, _, found, rfl⟩

theorem lists_called {symbol : String} (denotes : c.Denotes x (.symbol symbol)) :
    Lists Text.Before (Query.withoutRepeats (Query.sortTexts (c.called x)))
      {callee | .calls .code (.symbol symbol) (.symbol callee) ∈ c.shown} := by
  obtain ⟨ascending, mem⟩ := lists_withoutRepeats (c.called x)
  refine ⟨ascending, mem.trans ⟨?_, ?_⟩⟩
  · rintro listed
    obtain ⟨record, calling, listed⟩ := List.mem_flatMap.mp listed
    obtain ⟨y, called, node, found, picked⟩ := mem_picked.mp listed
    cases node <;> cases picked
    obtain ⟨net, records, own⟩ := regular.valid.exists_records (NodeId.mem_listed.mp calling)
    cases net with
    | code => exact ⟨x, y, denotes, found, record, records.1, records.2, called⟩
    | network => cases ofKind_eq own denotes.ofKind
  · rintro ⟨x', y, denotes', found, record, own, calling, called⟩
    obtain rfl := regular.valid.denotes_unique denotes' denotes
    refine List.mem_flatMap.mpr ⟨record, NodeId.mem_listed.mpr calling, ?_⟩
    exact mem_picked.mpr ⟨y, called, _, found, rfl⟩

/-- The structural queries answer as the contents show. -/
theorem describes {query : Operation} (structural : query.structural = true) :
    ∃ answer, Leads query.perform.run c answer c ∧ query.Describes c.shown answer := by
  cases query with
  | library artifact =>
      rcases leads_findAs (e := .library artifact) regular.valid rfl
        (toString (NodeKey.library artifact))
        with ⟨missing, leads⟩ | ⟨x, denotes, leads⟩
      · exact ⟨_, leads.bind_error.map_error _, Or.inl ⟨missing, rfl⟩⟩
      · refine ⟨_, Leads.map _ (leads.bind (Leads.ofStore (x := ⟨x, artifact, Query.sortTexts
          (c.picked Query.symbolOf (NodeId.listed (c.targets x .provides))), c.isMarked x⟩) ?_)),
          Or.inr ⟨⟨x, denotes⟩, _, rfl, rfl, regular.lists_provided denotes⟩⟩
        refine (Reads.targets denotes.live .provides).bind
          (Reads.bind (reads_pickFrom fun y mem => ?_)
          ((Reads.isMarked denotes.live).bind (.pure _)))
        exact regular.valid.target_live (NodeId.mem_listed.mp mem)
  | component artifact =>
      rcases leads_findAs (e := .component artifact) regular.valid rfl
        (toString (NodeKey.component artifact)) with ⟨missing, leads⟩ | ⟨x, denotes, leads⟩
      · exact ⟨_, leads.bind_error.map_error _, Or.inl ⟨missing, rfl⟩⟩
      · refine ⟨_, Leads.map _ (leads.bind (Leads.ofStore (x := ⟨x, artifact, Query.sortTexts
          (c.picked Query.endpointOf (NodeId.listed (c.sources x .exposes))), Artifact.sort
          (c.picked Query.assetOf (NodeId.listed (c.targets x .hostedBy))), c.isMarked x⟩) ?_)),
          Or.inr ⟨⟨x, denotes⟩, _, rfl, rfl, regular.lists_exposed denotes,
            regular.lists_hosts denotes⟩⟩
        refine (Reads.sources denotes.live .exposes).bind
          (Reads.bind (reads_pickFrom fun y mem => ?_)
          ((Reads.targets denotes.live .hostedBy).bind (Reads.bind (reads_pickFrom fun y mem => ?_)
            ((Reads.isMarked denotes.live).bind (.pure _)))))
        · exact regular.valid.source_live (NodeId.mem_listed.mp mem)
        · exact regular.valid.target_live (NodeId.mem_listed.mp mem)
  | callees symbol =>
      rcases leads_findAs (e := .symbol symbol) regular.valid rfl symbol
        with ⟨missing, leads⟩ | ⟨x, denotes, leads⟩
      · exact ⟨_, leads.bind_error.map_error _, Or.inl ⟨missing, rfl⟩⟩
      · refine ⟨_, Leads.map _ (leads.bind (Leads.ofStore (x :=
          Query.withoutRepeats (Query.sortTexts (c.called x))) ?_)),
          Or.inr ⟨⟨x, denotes⟩, _, rfl, regular.lists_called denotes⟩⟩
        exact (Reads.sources denotes.live .caller).bind
          ((reads_called regular.valid x).bind (.pure _))
  | _ => cases structural

end Contents.Regular

end BlastRadius
