import BlastRadius.Graph.Mermaid
import BlastRadius.Proofs.Graph.Coherence
import BlastRadius.Text.Parts

/-!
What is read off a flowchart line by line. A double quote cannot end a label. A line feed in a label
is written as it is and breaks the line of its node, so a flowchart has one statement on each line
exactly if no label has a line feed.
-/

namespace BlastRadius.Mermaid

/-- The lines of a text. A line feed at its end only ends the last line. -/
def textLines (text : String) : List String :=
  let cut := Text.parts '\n' text.toList
  (if cut.getLast? = some [] then cut.dropLast else cut).map String.ofList

def lineFeeds (text : String) : Nat := text.toList.count '\n'

@[simp] theorem lineFeeds_append (a b : String) :
    lineFeeds (a ++ b) = lineFeeds a + lineFeeds b := by
  simp [lineFeeds]

theorem lineFeeds_eq_zero {text : String} : lineFeeds text = 0 ↔ '\n' ∉ text.toList :=
  List.count_eq_zero

section Parts

variable {α : Type} [DecidableEq α] (separator : α)

theorem parts_append (part rest : List α) :
    Text.parts separator (part ++ separator :: rest) =
      Text.parts separator part ++ Text.parts separator rest := by
  induction part with
  | nil => simp [Text.parts]
  | cons c part ih =>
      rw [List.cons_append, Text.parts, Text.parts, ih]
      rcases cut : Text.parts separator part with _ | ⟨first, others⟩
      · exact absurd cut (Text.parts_ne_nil separator part)
      · split <;> rfl

theorem length_parts (cs : List α) :
    (Text.parts separator cs).length = cs.count separator + 1 := by
  induction cs with
  | nil => rfl
  | cons c rest ih =>
      rw [Text.parts, List.count_cons]
      rcases cut : Text.parts separator rest with _ | ⟨first, others⟩
      · exact absurd cut (Text.parts_ne_nil separator rest)
      · rw [cut] at ih
        split <;> simp_all

theorem parts_eq_singleton {separator : α} {cs : List α} (whole : separator ∉ cs) :
    Text.parts separator cs = [cs] := by
  induction cs with
  | nil => rfl
  | cons c rest ih =>
      have other : c ≠ separator := fun same => whole (same ▸ List.mem_cons_self)
      rw [Text.parts, if_neg other, ih fun mem => whole (List.mem_cons_of_mem c mem)]

end Parts

/-- Texts that are written one after the other, a line feed after each. -/
def document (texts : List String) : String := String.join (texts.map (· ++ "\n"))

theorem parts_document (texts : List String) : Text.parts '\n' (document texts).toList =
    (texts.flatMap fun text => Text.parts '\n' text.toList) ++ [[]] := by
  induction texts with
  | nil => rfl
  | cons text texts ih =>
      have split : (document (text :: texts)).toList =
          text.toList ++ '\n' :: (document texts).toList := by
        simp [document]
      rw [split, parts_append, ih, List.flatMap_cons, List.append_assoc]

theorem textLines_document (texts : List String) : textLines (document texts) =
    texts.flatMap fun text => (Text.parts '\n' text.toList).map String.ofList := by
  simp [textLines, parts_document, List.map_flatMap]

theorem length_textLines_document (texts : List String) :
    (textLines (document texts)).length = texts.length + (texts.map lineFeeds).sum := by
  rw [textLines_document]
  induction texts with
  | nil => rfl
  | cons text texts ih =>
      have first : (Text.parts '\n' text.toList).length = lineFeeds text + 1 := length_parts '\n' _
      rw [List.flatMap_cons, List.length_append, ih, List.length_map, first, List.length_cons,
        List.map_cons, List.sum_cons]
      omega

theorem textLines_document_iff {texts : List String} :
    textLines (document texts) = texts ↔ ∀ text ∈ texts, lineFeeds text = 0 := by
  constructor
  · intro same text mem
    have length := congrArg List.length same
    rw [length_textLines_document] at length
    have none : (texts.map lineFeeds).sum = 0 := by omega
    exact List.sum_eq_zero_iff_forall_eq_nat.mp none _ (List.mem_map_of_mem mem)
  · intro whole
    have single (text : String) (mem : text ∈ texts) :
        (Text.parts '\n' text.toList).map String.ofList = [text] := by
      rw [parts_eq_singleton (lineFeeds_eq_zero.mp (whole text mem)), List.map_singleton,
        String.ofList_toList]
    rw [textLines_document, List.flatMap_congr single, List.flatMap_singleton']

theorem quote_not_mem_escaped (text : String) : '"' ∉ (escaped text).toList := by
  simp only [escaped, String.toList_join, List.mem_flatMap, List.mem_map]
  rintro ⟨written, ⟨c, -, rfl⟩, mem⟩
  split at mem
  case isTrue => exact absurd mem (by decide)
  case isFalse other => exact other (by simpa using mem : '"' = c).symm

theorem lineFeeds_escaped (text : String) : lineFeeds (escaped text) = lineFeeds text := by
  rw [escaped, lineFeeds, lineFeeds, String.toList_join]
  induction text.toList with
  | nil => rfl
  | cons c rest ih =>
      have same : (if c = '"' then "#quot;" else c.toString).toList.count '\n' =
          [c].count '\n' := by
        split
        case isTrue quote => subst quote; decide
        case isFalse => simp
      rw [List.map_cons, List.flatMap_cons, List.count_append, ih, same, ← List.count_append]
      rfl

theorem lineFeeds_nodeName (id : NodeId) : lineFeeds (nodeName id) = 0 := by
  rw [lineFeeds_eq_zero]
  have digits : '\n' ∉ Nat.toDigits 10 id.toNat := fun mem =>
    absurd (Nat.isDigit_of_mem_toDigits (by decide) (by decide) mem) (by decide)
  simpa [nodeName, toString, Nat.toList_repr] using digits

theorem lineFeeds_nodeLine (id : NodeId) (node : Node) :
    lineFeeds (nodeLine id node) = lineFeeds node.label := by
  have plain : lineFeeds "    " = 0 ∧ lineFeeds "[\"" = 0 ∧ lineFeeds "\"]" = 0 := by decide
  simp [nodeLine, lineFeeds_nodeName, lineFeeds_escaped, plain]

theorem lineFeeds_edgeLine (e : Edge) : lineFeeds (edgeLine e) = 0 := by
  have plain : lineFeeds "    " = 0 ∧ lineFeeds " -->|" = 0 ∧ lineFeeds "| " = 0 := by decide
  have name : lineFeeds e.relation.name = 0 := by cases e.relation <;> decide
  simp [edgeLine, lineFeeds_nodeName, name, plain]

theorem lineFeeds_intercalate {separator : String} (plain : lineFeeds separator = 0)
    {texts : List String} (whole : ∀ text ∈ texts, lineFeeds text = 0) :
    lineFeeds (separator.intercalate texts) = 0 := by
  induction texts with
  | nil => simp [lineFeeds]
  | cons text texts ih =>
      have first := whole text List.mem_cons_self
      have later := ih fun other mem => whole other (List.mem_cons_of_mem text mem)
      rcases texts with _ | ⟨next, rest⟩
      · simpa using first
      · simp [String.intercalate_cons_cons, first, plain, later]

theorem lineFeeds_classLines {ids : List NodeId} {line : String} (mem : line ∈ classLines ids) :
    lineFeeds line = 0 := by
  cases ids with
  | nil => cases mem
  | cons id ids =>
      have names : lineFeeds (",".intercalate ((id :: ids).map nodeName)) = 0 := by
        refine lineFeeds_intercalate (by decide) fun name mem => ?_
        obtain ⟨id, -, rfl⟩ := List.mem_map.mp mem
        exact lineFeeds_nodeName id
      have plain : lineFeeds "    class " = 0 ∧ lineFeeds " marked" = 0 := by decide
      rcases List.mem_pair.mp mem with rfl | rfl
      · decide
      · rw [lineFeeds_append, lineFeeds_append, names, plain.1, plain.2]

theorem classLines_eq (ids : List NodeId) : classLines ids =
    if ids = [] then [] else
      ["    classDef marked fill:#f66,stroke:#900,color:#fff",
        "    class " ++ ",".intercalate (ids.map nodeName) ++ " marked"] := by
  cases ids <;> rfl

variable {g : DependencyGraph}

/-- Only labels can break a line. -/
theorem lineFeeds_lines : (lines g).map lineFeeds =
    0 :: (g.nodes.map fun entry => lineFeeds entry.2.node.label) ++ g.edges.map (fun _ => 0) ++
      (classLines (g.idsWhere NodeRecord.marked)).map fun _ => 0 := by
  have header : lineFeeds "flowchart TD" = 0 := by decide
  have classes := List.map_congr_left (f := lineFeeds) (g := fun _ => 0)
    (l := classLines (g.idsWhere NodeRecord.marked)) fun line mem => lineFeeds_classLines mem
  simp [lines, header, classes, Function.comp_def, lineFeeds_nodeLine, lineFeeds_edgeLine]

/-- The statements of a flowchart come in the order of nodes and edges, no label has a double quote,
and each line feed in a label makes one line more than there are statements: the lines are the
statements exactly if no label has one. -/
theorem render_lines (reachable : g.Reachable) :
    let marked := (g.nodes.filter fun entry => entry.2.marked).map Prod.fst
    let statements := ["flowchart TD"] ++
      (g.nodes.map fun entry =>
        "    " ++ nodeName entry.1 ++ "[\"" ++ escaped entry.2.node.label ++ "\"]") ++
      (g.edges.map fun e =>
        "    " ++ nodeName e.source ++ " -->|" ++ e.relation.name ++ "| " ++ nodeName e.target) ++
      if marked = [] then [] else
        ["    classDef marked fill:#f66,stroke:#900,color:#fff",
          "    class " ++ ",".intercalate (marked.map nodeName) ++ " marked"]
    (g.nodes.map Prod.fst).Pairwise (· < ·) ∧
      (g.edges.Pairwise fun e f => e.before f = true) ∧
    (∀ entry ∈ g.nodes, '"' ∉ (escaped entry.2.node.label).toList) ∧
    (textLines (render g)).length =
      1 + g.nodes.length + g.edges.length + (if marked = [] then 0 else 2) +
        (g.nodes.map fun entry => lineFeeds entry.2.node.label).sum ∧
    (textLines (render g) = statements ↔
      ∀ entry ∈ g.nodes, '\n' ∉ entry.2.node.label.toList) := by
  intro marked statements
  have valid := reachable.accounted.toValid
  have stated : statements = lines g := by
    rw [lines, classLines_eq]
    rfl
  have written : render g = document statements := congrArg document stated.symm
  refine ⟨valid.ascending, ?_, fun entry _ => quote_not_mem_escaped _, ?_, ?_⟩
  · exact valid.ordered.imp fun before => (DependencyGraph.before_iff _ _).mpr before
  · have length : (lines g).length =
        1 + g.nodes.length + g.edges.length + if marked = [] then 0 else 2 := by
      rw [← stated]
      simp only [statements, List.length_append, List.length_map, apply_ite List.length]
      rfl
    rw [written, length_textLines_document, stated, lineFeeds_lines, length]
    simp
  · have breaks : (∀ text ∈ lines g, lineFeeds text = 0) ↔
        ∀ n ∈ (lines g).map lineFeeds, n = 0 := by
      rw [List.forall_mem_map]
    rw [written, textLines_document_iff, stated, breaks, lineFeeds_lines]
    simp only [List.cons_append, List.forall_mem_cons, List.forall_mem_append, List.forall_mem_map,
      lineFeeds_eq_zero, implies_true, true_and, and_true]

/-- A double quote in a name, and a mark. -/
theorem render_lines_of_quoted :
    let g := [DependencyGraph.Edit.add (.symbol "say \"hi\""), .mark [NodeId.ofNat 0]].foldl
      DependencyGraph.edited .empty
    g.Reachable ∧ textLines (render g) =
      ["flowchart TD", "    n0[\"Symbol: say #quot;hi#quot;\"]",
        "    classDef marked fill:#f66,stroke:#900,color:#fff", "    class n0 marked"] := by
  intro g
  have reachable : g.Reachable := by
    refine .edited (.mark [NodeId.ofNat 0]) nofun (.edited (.add (.symbol "say \"hi\"")) ?_ .empty)
    exact fun _ _ => ⟨NodeId.ofNat 0, by decide⟩
  have whole : ∀ entry ∈ g.nodes, '\n' ∉ entry.2.node.label.toList := by decide
  obtain ⟨-, -, -, -, lines⟩ := render_lines reachable
  exact ⟨reachable, lines.mpr whole⟩

/-- A line feed in a name makes two lines of one node, the second of which is what follows it. -/
theorem render_breaks_line :
    let g := DependencyGraph.empty.edited (.add (.symbol "a\nb"))
    g.Reachable ∧ g.nodes.length = 1 ∧ g.edges = [] ∧
      textLines (render g) = ["flowchart TD", "    n0[\"Symbol: a", "b\"]"] := by
  refine ⟨.edited (.add (.symbol "a\nb")) ?_ .empty, by decide, by decide, by decide⟩
  exact fun _ _ => ⟨NodeId.ofNat 0, by decide⟩

end BlastRadius.Mermaid
