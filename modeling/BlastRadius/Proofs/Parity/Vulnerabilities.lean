import BlastRadius.Proofs.Inventory.Seeding
import BlastRadius.Proofs.Parity.Agreement
import BlastRadius.Proofs.Parity.Ingestion

/-!
The operations that register vulnerabilities and seed propagations do alike. An identity belongs to
one vulnerability, and that threatens one symbol, so there is nothing to pick by identifier.
-/

namespace BlastRadius

variable {c : Contents} {f : Renaming}

theorem Contents.rename_identified (p : Option String → Bool) :
    (c.rename f).identified p = f '' c.identified p := by
  ext id
  rw [Set.mem_image_equiv]
  refine exists_congr fun identity => and_congr_left fun _ => ?_
  rw [rename_node?_apply, Option.map_eq_some_iff]
  constructor
  · rintro ⟨node, found, same⟩
    rwa [← @Node.rename_injective f node (.vulnerability identity) same]
  · exact fun found => ⟨_, found, rfl⟩

theorem Contents.rename_vulnerabilities (identity : Option String) :
    (c.rename f).vulnerabilities identity = f '' c.vulnerabilities identity := by
  rw [← identified_beq, ← identified_beq, rename_identified]

namespace Alike

open Inventory

theorem findVulnerability (p : Option String → Bool) :
    Alike c f (Inventory.findVulnerability p) (Inventory.findVulnerability p) fun c₁ f₁ x y =>
      c₁ = c ∧ f₁ = f ∧ x.isSome = y.isSome ∧ (x = none → c.identified p = ∅) := by
  refine .reads fun _ _ => ?_
  have right := reads_findVulnerability (c := c.rename f) p
  rw [Contents.rename_identified] at right
  refine ⟨_, _, reads_findVulnerability p, right, ?_, ?_⟩
  · rw [Bool.eq_iff_iff, List.isSome_head?, List.isSome_head?, ne_eq, ne_eq,
      NodeId.listed_eq_nil, NodeId.listed_eq_nil, Set.image_eq_empty]
  · intro none
    rwa [List.head?_eq_none_iff, NodeId.listed_eq_nil] at none

theorem findNode (key : NodeKey) :
    Alike c f (StoreProgram.call (.findNode key)) (StoreProgram.call (.findNode (key.rename f)))
      fun c₁ f₁ x y => c₁ = c ∧ f₁ = f ∧ y = x.map f ∧ ∀ a, x = some a →
        a ∈ c.ofKind key.kind := by
  refine .reads fun tidy _ => ?_
  have right := Reads.findNode (c := c.rename f) (key.rename f)
  rw [tidy.valid.rename_find?] at right
  refine ⟨_, _, Reads.findNode key, right, rfl, fun a found => ?_⟩
  obtain ⟨node, known, own⟩ := tidy.valid.find?_eq_some.mp found
  exact ⟨node, known, (Node.kind_of_key? own).symm⟩

theorem markNode {kind : NodeKind} {a b : NodeId} (twin : Twin kind c f a b) :
    Alike c f (StoreProgram.call (.markNodes [a])) (StoreProgram.call (.markNodes [b]))
      fun c₁ f₁ x y => c₁ = c.mark {a} ∧ f₁ = f ∧ y = x := by
  obtain ⟨own, rfl⟩ := twin
  have live := Contents.ofKind_subset_live kind own
  have marking (c : Contents) (id : NodeId) (live : id ∈ c.live) :
      Leads (StoreProgram.call (.markNodes [id])).run c (.ok ({id} \ c.marked).ncard)
        (c.mark {id}) := by
    have set : {x | x ∈ [id]} = ({id} : Set NodeId) := by simp
    have existing : ∀ x ∈ [id], x ∈ c.live := fun x mem => List.mem_singleton.mp mem ▸ live
    rw [← set]
    exact Leads.call (q := .markNodes [id]) (congrArg some (Contents.marking_of_live existing))
  refine .leads fun tidy _ => ?_
  have right := marking (c.rename f) (f a)
    (Contents.rename_live ▸ Set.mem_image_of_mem f live)
  rw [Contents.rename_marked, ← Set.image_singleton, ← Contents.rename_mark,
    ← Set.image_sdiff f.injective, NodeId.ncard_image] at right
  exact ⟨_, _, _, marking c a live, right, tidy.mark (Set.singleton_subset_iff.mpr live),
    id, rfl, rfl, rfl⟩

theorem insertVulnerability {identity : Option String} {a b : NodeId}
    (symbol : Twin .symbol c f a b)
    (free : ∀ id, c.node? id ≠ some (.vulnerability identity)) :
    Alike c f (Inventory.insertVulnerability identity a) (Inventory.insertVulnerability identity b)
      fun _ f₁ x y => x.Agree f₁ y := by
  refine .ofTidy fun tidy => (markNode symbol).bind fun c₁ f₁ _ _ grown marked => ?_
  obtain ⟨rfl, rfl, _⟩ := marked
  have insertable : Insertable (c.mark {a}) (.vulnerability identity) := by
    refine ⟨fun key own => ?_, nofun, ?_⟩
    · refine Set.eq_empty_iff_forall_notMem.mpr fun id ⟨node, found, own'⟩ => ?_
      obtain ⟨identity, rfl, rfl⟩ := Option.map_eq_some_iff.mp own
      exact free id (found.trans (congrArg some (Node.eq_of_key? own')))
    · rintro _ ⟨⟩
      exact free
  refine (insertNode insertable).bind fun c₂ f₂ v v' grown' new => ?_
  obtain ⟨rfl, fresh, rfl⟩ := new
  have vulnerability : Twin .vulnerability ((c.mark {a}).insert v (.vulnerability identity)) f₂ v
      (f₂ v) := ⟨⟨_, Contents.insert_node?_self v _, rfl⟩, rfl⟩
  have symbol' := symbol.grown (grown.trans grown')
  have none : c.targets v .threatens = ∅ := Set.eq_empty_iff_forall_notMem.mpr fun t edge =>
    Contents.not_mem_live.mpr fresh (tidy.valid.source_live edge)
  refine (link .threatens vulnerability symbol' rfl nofun fun _ => none).bind
    fun c₃ f₃ _ _ grown'' _ => .pure ?_
  exact ⟨(vulnerability.grown grown'').2, (symbol'.grown grown'').2⟩

theorem createVulnerability (identity : Option String) (symbol : String) :
    Alike c f (Inventory.createVulnerability identity symbol)
      (Inventory.createVulnerability identity symbol) fun _ f₁ x y => x.Agree f₁ y := by
  refine Alike.bind (R := fun _ f₁ => Option.Rel fun x y => x.Agree f₁ y)
    (atomically ?_).ofStore fun c₁ f₁ x y _ related => ?_
  · refine (findVulnerability _).bind fun c₁ f₁ x y _ found => ?_
    obtain ⟨rfl, rfl, same, free⟩ := found
    rcases x with _ | v <;> rcases y with _ | v'
    · refine (findNode (.symbol symbol)).bind fun c₂ f₂ x y _ found => ?_
      obtain ⟨rfl, rfl, rfl, own⟩ := found
      cases x with
      | none => exact .pure .none
      | some a =>
          refine (insertVulnerability ⟨own a rfl, rfl⟩ fun id found => ?_).map
            fun _ _ _ _ _ agree => .some agree
          have matching : id ∈ c₂.identified
              (fun existing => identityMatches existing (normalized identity)) :=
            ⟨_, found, by cases normalized identity <;> simp [identityMatches]⟩
          exact absurd matching (free rfl ▸ Set.notMem_empty id)
    · exact absurd same Bool.false_ne_true
    · exact absurd same.symm Bool.false_ne_true
    · exact .pure (.some trivial)
  · cases related with
    | some agree => exact .pure agree
    | none => exact .throw _

theorem seed {identity : Option String}
    (threatening : ∀ v ∈ c.vulnerabilities identity, c.targets v .threatens ≠ ∅) :
    Alike c f (Inventory.seed identity) (Inventory.seed identity) fun c₁ f₁ x y =>
      Twin .vulnerability c₁ f₁ x.vulnerability y.vulnerability ∧
        Twin .symbol c₁ f₁ x.symbol y.symbol ∧ y.cleared = x.cleared := by
  refine .leads fun tidy valid => ?_
  have named := tidy.identities (normalized identity)
  rcases named.eq_empty_or_singleton with none | ⟨v, one⟩
  · have none' : (c.rename f).vulnerabilities identity = ∅ := by
      rw [Contents.rename_vulnerabilities, Contents.vulnerabilities, none, Set.image_empty]
    exact ⟨_, _, c, leads_seed_notFound none, leads_seed_notFound none', tidy, id, rfl⟩
  · have given : c.vulnerabilities identity = {v} := one
    have nonempty := threatening v (given ▸ rfl)
    obtain ⟨g, one⟩ := (tidy.threats v).eq_empty_or_singleton.resolve_left nonempty
    have left := leads_seed tidy.valid (given ▸ isLeast_singleton) (one ▸ isLeast_singleton)
    have leastV : IsLeast ((c.rename f).vulnerabilities identity) (f v) := by
      rw [Contents.rename_vulnerabilities, given, Set.image_singleton]
      exact isLeast_singleton
    have leastG : IsLeast ((c.rename f).targets (f v) .threatens) (f g) := by
      rw [Contents.rename_targets, one, Set.image_singleton]
      exact isLeast_singleton
    have right := leads_seed valid leastV leastG
    rw [Contents.rename_marked, NodeId.ncard_image, ← Set.image_singleton,
      ← Contents.rename_unmarked, ← Contents.rename_mark] at right
    have own : v ∈ c.ofKind .vulnerability :=
      ⟨_, (given ▸ rfl : v ∈ c.vulnerabilities identity), rfl⟩
    have symbol := tidy.valid.threatened (one ▸ rfl : g ∈ c.targets v .threatens)
    have live := Set.singleton_subset_iff.mpr (Contents.ofKind_subset_live _ symbol)
    exact ⟨_, _, _, left, right, tidy.unmarked.mark live, id, ⟨own, rfl⟩,
      ⟨symbol, rfl⟩, rfl⟩

end Alike

theorem leads_seeds_invalid (tidy : c.Tidy) {identity : Option String} {v : NodeId}
    (given : v ∈ c.vulnerabilities identity) (none : c.targets v .threatens = ∅) :
    Leads (Inventory.seed identity).run c
        (.error (.invalid s!"vulnerability {v} threatens no symbol")) c ∧
      Leads (Inventory.seed identity).run (c.rename f)
        (.error (.invalid s!"vulnerability {f v} threatens no symbol")) (c.rename f) := by
  have least {w : NodeId} {ids : Set NodeId} (mem : w ∈ ids) (one : ids.Subsingleton) :
      IsLeast ids w := ⟨mem, fun other mem' => (one mem mem').le⟩
  have one : (c.vulnerabilities identity).Subsingleton := tidy.identities _
  constructor
  · exact Inventory.leads_seed_invalid (least given one) none
  · refine Inventory.leads_seed_invalid (least ?_ ?_) ?_
    · rw [Contents.rename_vulnerabilities]
      exact Set.mem_image_of_mem f given
    · rw [Contents.rename_vulnerabilities]
      exact one.image f
    · rw [Contents.rename_targets, none, Set.image_empty]

end BlastRadius
