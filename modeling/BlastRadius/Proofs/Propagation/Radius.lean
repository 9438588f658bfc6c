import BlastRadius.Proofs.Store.Reading
import BlastRadius.Query.Radius

/-!
What the blast radius lists: every marked node, once, with its label and under its kind.
-/

namespace BlastRadius

variable {c : Contents}

/-- A radius lists the marked nodes of some contents. -/
structure Radius.Shows (radius : Radius) (c : Contents) : Prop where
  total : radius.total = c.marked.ncard
  /-- There is at most one group for a kind. -/
  kinds : (radius.groups.map KindGroup.kind).Nodup
  /-- No node is listed twice, in one group or in several. -/
  once : (radius.groups.flatMap fun group => group.nodes.map MarkedNode.id).Nodup
  group : ∀ group ∈ radius.groups, ∀ id,
    id ∈ group.nodes.map MarkedNode.id ↔ id ∈ c.marked ∩ c.ofKind group.kind
  listed : ∀ id ∈ c.marked, ∃ group ∈ radius.groups, id ∈ group.nodes.map MarkedNode.id
  labels : ∀ group ∈ radius.groups, ∀ node ∈ group.nodes,
    (c.node? node.id).map Node.label = some node.label

theorem Radius.total_eq_length (radius : Radius) : radius.total =
    (radius.groups.flatMap fun group => group.nodes.map MarkedNode.id).length := by
  obtain ⟨groups⟩ := radius
  induction groups with
  | nil => rfl
  | cons group rest ih =>
      rw [List.flatMap_cons, List.length_append, List.length_map, ← ih]
      rfl

namespace Contents

/-- The marked nodes of a kind with their labels. -/
noncomputable def group (c : Contents) (kind : NodeKind) : KindGroup :=
  ⟨kind, (NodeId.listed (c.marked ∩ c.ofKind kind)).map fun id =>
    ⟨id, ((c.node? id).map Node.label).getD ""⟩⟩

noncomputable def radius (c : Contents) : Radius :=
  ⟨(NodeKind.all.map c.group).filter fun group => !group.nodes.isEmpty⟩

theorem group_ids (c : Contents) (kind : NodeKind) :
    (c.group kind).nodes.map MarkedNode.id = NodeId.listed (c.marked ∩ c.ofKind kind) := by
  rw [group, List.map_map]
  exact List.map_id _

theorem mem_radius {group : KindGroup} : group ∈ c.radius.groups ↔
    group = c.group group.kind ∧ group.nodes ≠ [] := by
  rw [radius, List.mem_filter, List.mem_map, Bool.not_eq_true', List.isEmpty_eq_false_iff]
  refine and_congr_left fun _ =>
    ⟨?_, fun same => ⟨group.kind, NodeKind.mem_all _, same.symm⟩⟩
  rintro ⟨kind, _, rfl⟩
  rfl

theorem radius_kinds (c : Contents) : (c.radius.groups.map KindGroup.kind).Nodup := by
  have all : (NodeKind.all.map c.group).map KindGroup.kind = NodeKind.all := by
    rw [List.map_map]
    exact List.map_id _
  have sub : (c.radius.groups.map KindGroup.kind).Sublist
      ((NodeKind.all.map c.group).map KindGroup.kind) := List.filter_sublist.map KindGroup.kind
  rw [all] at sub
  exact sub.nodup (by decide)

theorem radius_once (c : Contents) :
    (c.radius.groups.flatMap fun group => group.nodes.map MarkedNode.id).Nodup := by
  refine List.nodup_flatMap.mpr ⟨fun group mem => ?_, ?_⟩
  · rw [(mem_radius.mp mem).1, group_ids]
    exact NodeId.listed_nodup _
  · refine (List.pairwise_map.mp c.radius_kinds).imp_of_mem fun {g g'} mem mem' other => ?_
    rw [Function.onFun, (mem_radius.mp mem).1, (mem_radius.mp mem').1, group_ids, group_ids]
    refine List.disjoint_left.mpr fun id first second => other ?_
    exact ofKind_eq (NodeId.mem_listed.mp first).2 (NodeId.mem_listed.mp second).2

theorem mem_radius_ids (valid : c.Valid) (id : NodeId) :
    (id ∈ c.radius.groups.flatMap fun group => group.nodes.map MarkedNode.id) ↔
      id ∈ c.marked := by
  rw [List.mem_flatMap]
  constructor
  · rintro ⟨group, mem, listed⟩
    rw [(mem_radius.mp mem).1, group_ids, NodeId.mem_listed] at listed
    exact listed.1
  · intro marked
    obtain ⟨node, found⟩ := valid.marked_live marked
    have listed : id ∈ (c.group node.kind).nodes.map MarkedNode.id := by
      rw [group_ids, NodeId.mem_listed]
      exact ⟨marked, node, found, rfl⟩
    refine ⟨c.group node.kind, mem_radius.mpr ⟨rfl, fun none => ?_⟩, listed⟩
    rw [none] at listed
    exact List.not_mem_nil listed

theorem Valid.radius_shows (valid : c.Valid) : c.radius.Shows c where
  total := c.radius.total_eq_length.trans
    (NodeId.length_eq_ncard c.radius_once (mem_radius_ids valid))
  kinds := c.radius_kinds
  once := c.radius_once
  group group mem id := by
    rw [(mem_radius.mp mem).1, group_ids, NodeId.mem_listed]
    rfl
  listed id marked := List.mem_flatMap.mp ((mem_radius_ids valid id).mpr marked)
  labels group mem node listed := by
    rw [(mem_radius.mp mem).1, Contents.group] at listed
    obtain ⟨id, mem, rfl⟩ := List.mem_map.mp listed
    obtain ⟨node, found⟩ := valid.marked_live (NodeId.mem_listed.mp mem).1
    simp [found]

end Contents

theorem reads_markedGroup (valid : c.Valid) (kind : NodeKind) :
    Reads (Query.markedGroup kind) c (c.group kind) := by
  refine (Reads.markedNodes kind).bind (Reads.bind (Reads.each fun id mem => ?_) (.pure _))
  obtain ⟨node, found⟩ := valid.marked_live (NodeId.mem_listed.mp mem).1
  rw [found]
  exact (Reads.getNode found).bind (.pure _)

theorem leads_radius (valid : c.Valid) : Leads Query.radius.run c (.ok c.radius) c :=
  (Leads.ofStore (Reads.each fun kind _ => reads_markedGroup valid kind)).bind (.pure _)

end BlastRadius
