import TinyLang.Proofs.Syntax.Recovery
import TinyLang.Proofs.Text.Quoting

namespace TinyLang

namespace Graph

variable {g g' : Graph} {node node' : Outline.Node} {edge edge' : Edge} {number depth : Nat}

def nodeRow (number : Nat) (node : Outline.Node) : List Char :=
  "    ".toList ++ ((toString number).toList ++ (" [ label = ".toList ++
    ((Text.quote node.label).toList ++ (" shape = ".toList ++ (node.shape.toList ++ " ]".toList)))))

def edgeRow (edge : Edge) : List Char :=
  "    ".toList ++ ((toString edge.source).toList ++ ' ' :: ("-> ".toList ++
    ((toString edge.target).toList ++ ' ' :: "[ ]".toList)))

theorem toList_nodeLine (number : Nat) (node : Outline.Node) :
    (nodeLine number node).toList = nodeRow number node ++ ['\n'] := by
  simp [nodeLine, nodeRow]

theorem toList_edgeLine (edge : Edge) : (edgeLine edge).toList = edgeRow edge ++ ['\n'] := by
  simp [edgeLine, edgeRow]

def dotRows (g : Graph) : List (List Char) :=
  "digraph \x7b".toList :: (g.nodes.mapIdx nodeRow ++ (g.edges.map edgeRow ++ ["\x7d".toList]))

theorem toList_dot (g : Graph) : g.dot.toList = Text.ofRows g.dotRows := by
  have hnodes : (String.join (g.nodes.mapIdx nodeLine)).toList =
      Text.ofRows (g.nodes.mapIdx nodeRow) := by
    simp only [String.toList_join, Text.ofRows, List.mapIdx_eq_zipIdx_map, List.flatMap_map,
      toList_nodeLine]
  have hedges : (String.join (g.edges.map edgeLine)).toList =
      Text.ofRows (g.edges.map edgeRow) := by
    simp only [String.toList_join, Text.ofRows, List.flatMap_map, toList_edgeLine]
  simp [dot, dotRows, hnodes, hedges]

theorem not_mem_nodeRow (number : Nat) (node : Outline.Node) : '\n' ∉ nodeRow number node := by
  have hnumber : '\n' ∉ (toString number).toList := Text.not_mem_toString rfl number
  have hlabel := Text.not_mem_quote node.label
  have hshape : '\n' ∉ node.shape.toList := by
    unfold Outline.Node.shape
    cases node.kind <;> decide
  simp only [nodeRow, List.mem_append]
  rintro (h | h | h | h | h | h | h)
  · exact absurd h (by decide)
  · exact hnumber h
  · exact absurd h (by decide)
  · exact hlabel h
  · exact absurd h (by decide)
  · exact hshape h
  · exact absurd h (by decide)

theorem not_mem_edgeRow (edge : Edge) : '\n' ∉ edgeRow edge := by
  have hsource : '\n' ∉ (toString edge.source).toList := Text.not_mem_toString rfl _
  have htarget : '\n' ∉ (toString edge.target).toList := Text.not_mem_toString rfl _
  simp only [edgeRow, List.mem_append, List.mem_cons]
  rintro (h | h | h | h | h | h | h)
  · exact absurd h (by decide)
  · exact hsource h
  · exact absurd h (by decide)
  · exact absurd h (by decide)
  · exact htarget h
  · exact absurd h (by decide)
  · exact absurd h (by decide)

theorem not_mem_dotRows (g : Graph) : ∀ row ∈ g.dotRows, '\n' ∉ row := by
  simp only [dotRows, List.forall_mem_cons, List.forall_mem_append, List.forall_mem_map]
  refine ⟨by decide, ?_, fun edge _ => not_mem_edgeRow edge, by decide, List.forall_mem_nil _⟩
  intro row hrow
  obtain ⟨number, hlt, rfl⟩ := List.mem_mapIdx.mp hrow
  exact not_mem_nodeRow number _

theorem label_eq_of_nodeRow (h : nodeRow number node = nodeRow number node') :
    node.label = node'.label := by
  simp only [nodeRow, List.append_cancel_left_eq] at h
  exact (Text.quote_append_inj h).1

theorem ends_eq_of_edgeRow (h : edgeRow edge = edgeRow edge') :
    edge.source = edge'.source ∧ edge.target = edge'.target := by
  simp only [edgeRow, List.append_cancel_left_eq] at h
  obtain ⟨hsource, hbehind⟩ := Text.toString_append_inj rfl h
  simp only [List.append_cancel_left_eq] at hbehind
  exact ⟨hsource, (Text.toString_append_inj rfl hbehind).1⟩

theorem map_label_eq_of_nodeRows (h : g.nodes.mapIdx nodeRow = g'.nodes.mapIdx nodeRow) :
    g.nodes.map (·.label) = g'.nodes.map (·.label) := by
  apply List.ext_getElem?
  intro number
  have hat := congrArg (·[number]?) h
  simp only [List.getElem?_mapIdx] at hat
  rw [List.getElem?_map, List.getElem?_map]
  cases hnode : g.nodes[number]? with
  | none =>
    rw [hnode, Option.map_none] at hat
    rw [Option.map_eq_none_iff.mp hat.symm, Option.map_none]
  | some node =>
    rw [hnode, Option.map_some] at hat
    obtain ⟨node', hnode', hrow⟩ := Option.map_eq_some_iff.mp hat.symm
    rw [hnode', Option.map_some, Option.map_some, label_eq_of_nodeRow hrow]

theorem exists_ends_of_edgeRows (h : g.edges.map edgeRow = g'.edges.map edgeRow) :
    ∀ edge ∈ g.edges, ∃ edge' ∈ g'.edges,
      edge'.source = edge.source ∧ edge'.target = edge.target := by
  intro edge hedge
  have hrow : edgeRow edge ∈ g'.edges.map edgeRow := h ▸ List.mem_map_of_mem hedge
  obtain ⟨edge', hedge', heq⟩ := List.mem_map.mp hrow
  exact ⟨edge', hedge', ends_eq_of_edgeRow heq⟩

/-- The lines of nodes are told from those of edges by their number, since in a tree there is one
node more than there are edges. -/
theorem rows_eq_of_dot (h : g.IsTree) (h' : g'.IsTree) (hdot : g.dot = g'.dot) :
    g.nodes.mapIdx nodeRow = g'.nodes.mapIdx nodeRow ∧
      g.edges.map edgeRow = g'.edges.map edgeRow := by
  have hrows : g.dotRows = g'.dotRows := by
    apply Text.ofRows_injective (not_mem_dotRows g) (not_mem_dotRows g')
    rw [← toList_dot, ← toList_dot, hdot]
  have hbehind := (List.cons.inj hrows).2
  -- All rows together are two for each node, so that both graphs have the same number of nodes.
  have hlength : (g.nodes.mapIdx nodeRow).length = (g'.nodes.mapIdx nodeRow).length := by
    have hsum := congrArg List.length hbehind
    have hedges := h.length_edges
    have hedges' := h'.length_edges
    simp only [List.length_append, List.length_mapIdx, List.length_map,
      List.length_singleton] at hsum ⊢
    omega
  obtain ⟨hnodes, hrest⟩ := List.append_inj hbehind hlength
  exact ⟨hnodes, List.append_cancel_right hrest⟩

/-- Depths depend on the ends of the edges only. -/
theorem Deep.of_ends (hends : ∀ edge ∈ g.edges, ∃ edge' ∈ g'.edges,
      edge'.source = edge.source ∧ edge'.target = edge.target) (h : g.Deep number depth) :
    g'.Deep number depth := by
  induction h with
  | root => exact .root
  | @child edge depth hedge hsource ih =>
    obtain ⟨edge', hedge', hsame, htarget⟩ := hends edge hedge
    rw [← hsame] at ih
    rw [← htarget]
    exact .child hedge' ih

end Graph

namespace Program

/-- Programs with the same digraph differ in their spans only. -/
theorem bare_eq_of_dot {program program' : Program} (h : program.dot = program'.dot) :
    program.bare = program'.bare := by
  have htree : program.graph.IsTree := program.outline.isTree_graph
  have htree' : program'.graph.IsTree := program'.outline.isTree_graph
  obtain ⟨hnodes, hedges⟩ := Graph.rows_eq_of_dot htree htree' h
  have hlabels := Graph.map_label_eq_of_nodeRows hnodes
  have hends := Graph.exists_ends_of_edgeRows hedges
  simp only [graph, Outline.graph, List.map_map] at hlabels
  apply bare_eq_of_seen
  apply List.ext_getElem?
  intro number
  have hat := congrArg (·[number]?) hlabels
  simp only [List.getElem?_map] at hat ⊢
  cases hentry : (program.outline.preorder 0)[number]? with
  | none =>
    rw [hentry, Option.map_none] at hat
    rw [Option.map_eq_none_iff.mp hat.symm, Option.map_none]
  | some entry =>
    rw [hentry, Option.map_some] at hat
    obtain ⟨entry', hentry', hlabel⟩ := Option.map_eq_some_iff.mp hat.symm
    have hdeep := (Outline.deep_graph hentry).of_ends hends
    have hdeep' := Outline.deep_graph hentry'
    have hdepth : entry.1 = entry'.1 := htree'.depth_unique hdeep hdeep'
    rw [hentry', Option.map_some, Option.map_some, Outline.seen, Outline.seen, hdepth]
    exact congrArg (fun label => some (entry'.1, label)) hlabel.symm

/-- A name with a quotation mark, a backslash and a line feed is read off a digraph. -/
theorem bare_eq_of_dot_of_quoted :
    let program : Program := ⟨[.loop [] (.name "\"\\\n" {}) {}, .read "é" {}]⟩
    let program' : Program := ⟨[.loop [] (.name "\"\\\n" {}) ⟨0, 6, ⟨1, 1⟩, ⟨1, 7⟩⟩, .read "é" {}]⟩
    program.dot = program'.dot ∧ program.bare = program'.bare := by
  intro program program'
  have hdot : program.dot = program'.dot := rfl
  exact ⟨hdot, bare_eq_of_dot hdot⟩

end Program

end TinyLang
