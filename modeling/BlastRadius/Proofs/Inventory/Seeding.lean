import BlastRadius.Inventory.Vulnerability
import BlastRadius.Proofs.Store.Reading

/-!
The seed of a propagation: the least vulnerability with exactly the given identity, and the least
symbol that it threatens. Seeding leaves a mark on that symbol and no other.
-/

namespace BlastRadius

namespace Contents

/-- The vulnerabilities whose identity satisfies `p`. -/
def identified (c : Contents) (p : Option String → Bool) : Set NodeId :=
  {id | ∃ identity, c.node? id = some (.vulnerability identity) ∧ p identity = true}

/-- The vulnerabilities with exactly this identity, an empty one counting as none. -/
def vulnerabilities (c : Contents) (identity : Option String) : Set NodeId :=
  {id | c.node? id = some (.vulnerability (Inventory.normalized identity))}

theorem identified_beq (c : Contents) (identity : Option String) :
    (c.identified fun existing => existing == Inventory.normalized identity) =
      c.vulnerabilities identity := by
  ext id
  simp [identified, vulnerabilities]

theorem Valid.threatened {c : Contents} (valid : c.Valid) {v g : NodeId}
    (edge : g ∈ c.targets v .threatens) : g ∈ c.ofKind .symbol :=
  valid.target_kind (by decide) edge

end Contents

namespace Inventory

variable {c : Contents}

def identifies (p : Option String → Bool) (id : NodeId) : StoreProgram Bool := do
  match ← StoreProgram.call (.getNode id) with
  | .vulnerability identity => return p identity
  | _ => return false

theorem reads_findVulnerability (p : Option String → Bool) :
    Reads (findVulnerability p) c (NodeId.listed (c.identified p)).head? := by
  have matching (id : NodeId) (hid : id ∈ NodeId.listed (c.ofKind .vulnerability)) :
      ∃ b : Bool, Reads (identifies p id) c b ∧ (b = true ↔ id ∈ c.identified p) := by
    obtain ⟨node, found, kind⟩ := NodeId.mem_listed.mp hid
    cases node with
    | vulnerability identity =>
        refine ⟨p identity, (Reads.getNode found).bind (.pure _), ?_⟩
        simp [Contents.identified, found]
    | _ => cases kind
  classical
  refine (Reads.nodesOfKind .vulnerability).bind ?_
  have first := Reads.first? (g := fun id => decide (id ∈ c.identified p)) fun id hid => by
    obtain ⟨b, reads, iff⟩ := matching id hid
    rwa [show decide (id ∈ c.identified p) = b by rw [Bool.eq_iff_iff, decide_eq_true_iff, iff]]
  have same : {id ∈ c.ofKind .vulnerability | decide (id ∈ c.identified p) = true} =
      c.identified p := by
    ext id
    simp only [decide_eq_true_eq, Set.mem_ofPred_eq, and_iff_right_iff_imp]
    rintro ⟨identity, found, -⟩
    exact ⟨_, found, rfl⟩
  rwa [NodeId.find?_listed, same] at first

theorem leads_seed_notFound {identity : Option String} (none : c.vulnerabilities identity = ∅) :
    Leads (seed identity).run c
      (.error (.notFound .vulnerability ((normalized identity).getD Node.unidentified))) c := by
  refine (Leads.ofStore (reads_findVulnerability _)).bind ?_
  rw [Contents.identified_beq, none, NodeId.listed_eq_nil.mpr rfl]
  exact .throw _

theorem leads_seed_invalid {identity : Option String} {v : NodeId}
    (least : IsLeast (c.vulnerabilities identity) v) (none : c.targets v .threatens = ∅) :
    Leads (seed identity).run c (.error (.invalid s!"vulnerability {v} threatens no symbol"))
      c := by
  refine (Leads.ofStore (reads_findVulnerability _)).bind ?_
  rw [Contents.identified_beq, NodeId.head?_listed.mpr least]
  refine (Leads.ofStore (Reads.targets ⟨_, least.1⟩ .threatens)).bind ?_
  rw [none, NodeId.listed_eq_nil.mpr rfl]
  exact .throw _

theorem leads_seed (valid : c.Valid) {identity : Option String} {v g : NodeId}
    (leastV : IsLeast (c.vulnerabilities identity) v)
    (leastG : IsLeast (c.targets v .threatens) g) :
    Leads (seed identity).run c (.ok ⟨v, g, c.marked.ncard⟩) (c.unmarked.mark {g}) := by
  refine (Leads.ofStore (reads_findVulnerability _)).bind ?_
  rw [Contents.identified_beq, NodeId.head?_listed.mpr leastV]
  refine (Leads.ofStore (Reads.targets ⟨_, leastV.1⟩ .threatens)).bind ?_
  obtain ⟨rest, targets⟩ := List.head?_eq_some_iff.mp (NodeId.head?_listed.mpr leastG)
  rw [targets]
  have live : ∀ id ∈ [g], id ∈ c.unmarked.live := by
    intro id mem
    rw [List.mem_singleton.mp mem]
    exact valid.target_live leastG.1
  have marked := Leads.call (q := .markNodes [g]) (congrArg some (Contents.marking_of_live live))
  rw [show {id | id ∈ [g]} = ({g} : Set NodeId) by simp] at marked
  refine (Leads.ofStore (Leads.atomically ?_)).bind (.pure _)
  exact (Leads.call (q := .clearMarks) rfl).bind (marked.bind (f := fun _ => pure _) (.pure _))

end Inventory

end BlastRadius
