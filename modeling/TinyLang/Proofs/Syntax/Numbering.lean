import Mathlib.Logic.Relation
import TinyLang.Proofs.Syntax.Labels

namespace TinyLang

namespace Graph

variable (g : Graph)

def Leads (parent child : Nat) : Prop :=
  ∃ edge ∈ g.edges, edge.source = parent ∧ edge.target = child

def Above : Nat → Nat → Prop := Relation.ReflTransGen g.Leads

inductive Deep : Nat → Nat → Prop
  | root : Deep 0 0
  | child {edge : Edge} {depth : Nat} (hedge : edge ∈ g.edges) (hsource : Deep edge.source depth) :
      Deep edge.target (depth + 1)

def outgoing (parent : Nat) : List Edge := g.edges.filter (·.source = parent)

/-- The graph is a tree with the root 0, and its nodes are numbered in preorder. -/
structure IsTree : Prop where
  length_edges : g.edges.length + 1 = g.nodes.length
  target_eq : ∀ (index : Nat) (edge : Edge), g.edges[index]? = some edge → edge.target = index + 1
  source_lt : ∀ edge ∈ g.edges, edge.source < edge.target
  ordinal_eq : ∀ (index : Nat) (edge : Edge), g.edges[index]? = some edge →
    edge.ordinal = (g.edges.take index).countP (·.source = edge.source)
  ordinals_eq : ∀ parent : Nat,
    (g.outgoing parent).map Edge.ordinal = List.range (g.outgoing parent).length
  /-- The next node is below the last one, or below a node that the last one is below of. -/
  preorder : ∀ (index : Nat) (edge next : Edge), g.edges[index]? = some edge →
    g.edges[index + 1]? = some next → g.Above next.source edge.target

variable {g}

namespace IsTree

variable (h : g.IsTree) {edge edge' : Edge} {node depth depth' : Nat}
include h

theorem target_pos (hedge : edge ∈ g.edges) : 0 < edge.target := by
  have hlt := h.source_lt edge hedge
  omega

/-- Only one edge leads into a node. -/
theorem edge_unique (hedge : edge ∈ g.edges) (hedge' : edge' ∈ g.edges)
    (htarget : edge.target = edge'.target) : edge = edge' := by
  obtain ⟨index, hindex⟩ := List.mem_iff_getElem?.mp hedge
  obtain ⟨index', hindex'⟩ := List.mem_iff_getElem?.mp hedge'
  have hnumber := h.target_eq index edge hindex
  have hnumber' := h.target_eq index' edge' hindex'
  obtain rfl : index = index' := by omega
  exact Option.some.inj (hindex.symm.trans hindex')

theorem depth_unique (hdeep : g.Deep node depth) (hdeep' : g.Deep node depth') :
    depth = depth' := by
  induction hdeep generalizing depth' with
  | root =>
    generalize hzero : 0 = root at hdeep'
    cases hdeep' with
    | root => rfl
    | child hedge hsource =>
      have hpos := h.target_pos hedge
      omega
  | @child edge depth hedge hsource ih =>
    generalize htarget : edge.target = target at hdeep'
    cases hdeep' with
    | root =>
      have hpos := h.target_pos hedge
      omega
    | child hedge' hsource' =>
      obtain rfl := h.edge_unique hedge hedge' htarget
      rw [ih hsource']

end IsTree

/-- From one node on, each edge starts at the node where the one before it ended, or above it. -/
def Climbs (g : Graph) : Nat → List Edge → Prop
  | _, [] => True
  | current, edge :: rest => g.Above edge.source current ∧ Climbs g edge.target rest

theorem Climbs.above {current index : Nat} {edges : List Edge} {edge next : Edge}
    (h : g.Climbs current edges) (hedge : edges[index]? = some edge)
    (hnext : edges[index + 1]? = some next) : g.Above next.source edge.target := by
  induction edges generalizing current index with
  | nil => cases hedge
  | cons first rest ih =>
    cases index with
    | zero =>
      obtain rfl := Option.some.inj hedge
      cases rest with
      | nil => cases hnext
      | cons second rest =>
        obtain rfl := Option.some.inj hnext
        exact h.2.1
    | succ index => exact ih h.2 hedge hnext

/-- If the ordinals of the edges out of a node count from 0, each is the number of earlier edges. -/
theorem ordinal_eq_countP {edges : List Edge} {index : Nat} {edge : Edge} {parent count : Nat}
    (h : (edges.filter (·.source = parent)).map Edge.ordinal = List.range' 0 count)
    (hedge : edges[index]? = some edge) (hsource : edge.source = parent) :
    edge.ordinal = (edges.take index).countP (·.source = parent) := by
  have hsplit : edges = edges.take index ++ edge :: edges.drop (index + 1) := by
    obtain ⟨hlt, hvalue⟩ := List.getElem?_eq_some_iff.mp hedge
    rw [← hvalue, ← List.drop_eq_getElem_cons hlt, List.take_append_drop]
  have hfilter : edges.filter (·.source = parent) =
      (edges.take index).filter (·.source = parent) ++
        edge :: (edges.drop (index + 1)).filter (·.source = parent) := by
    apply (congrArg (List.filter _) hsplit).trans
    rw [List.filter_append, List.filter_cons_of_pos (by simpa using hsource)]
  have hat : ((edges.filter (·.source = parent)).map Edge.ordinal)[
      (edges.take index).countP (·.source = parent)]? = some edge.ordinal := by
    rw [hfilter, List.countP_eq_length_filter]
    simp
  rw [h] at hat
  obtain ⟨hlt, hvalue⟩ := List.getElem?_eq_some_iff.mp hat
  rw [List.getElem_range'] at hvalue
  omega

end Graph

namespace Outline

theorem size_pos (tree : Outline) : 0 < tree.size := by
  cases tree with
  | branch node children => exact Nat.succ_pos _

theorem length_preorder (depth : Nat) (tree : Outline) :
    (tree.preorder depth).length = tree.size := by
  rw [← length_nodes, ← map_node_preorder depth, List.length_map]

mutual

/-- The edges of a tree lead into its nodes but the root, in the order of their numbers. -/
theorem map_target_edges (root : Nat) (tree : Outline) :
    (tree.edges root).map Edge.target = List.range' (root + 1) (tree.size - 1) := by
  cases tree with
  | branch node children => exact map_target_edgesBelow root (root + 1) 0 children

theorem map_target_edgesBelow (parent first ordinal : Nat) (trees : List Outline) :
    (edgesBelow parent first ordinal trees).map Edge.target =
      List.range' first (sizeAll trees) := by
  cases trees with
  | nil => rfl
  | cons tree rest =>
    have hfirst := map_target_edges first tree
    have hrest := map_target_edgesBelow parent (first + tree.size) (ordinal + 1) rest
    obtain ⟨below, hbelow⟩ := Nat.exists_eq_succ_of_ne_zero (Nat.ne_of_gt tree.size_pos)
    -- The edge into the first tree makes up for its root, into which no edge inside of it leads.
    rw [edgesBelow, List.map_append, List.map_cons, hfirst, hrest, sizeAll, ← List.range'_append_1,
      hbelow, Nat.succ_eq_add_one, Nat.add_sub_cancel, List.range'_succ]

end

mutual

/-- Edges inside a tree start at its nodes and lead to greater numbers. -/
theorem source_of_mem_edges {root : Nat} {tree : Outline} {edge : Edge}
    (h : edge ∈ tree.edges root) :
    root ≤ edge.source ∧ edge.source < edge.target ∧ edge.target < root + tree.size := by
  cases tree with
  | branch node children =>
    have hbelow := source_of_mem_edgesBelow (Nat.lt_succ_self root) h
    simp only [size]
    omega

theorem source_of_mem_edgesBelow {parent first ordinal : Nat} {trees : List Outline} {edge : Edge}
    (hparent : parent < first) (h : edge ∈ edgesBelow parent first ordinal trees) :
    (edge.source = parent ∨ first ≤ edge.source) ∧ edge.source < edge.target ∧
      edge.target < first + sizeAll trees := by
  cases trees with
  | nil => cases h
  | cons tree rest =>
    have hpos := tree.size_pos
    simp only [sizeAll]
    rw [edgesBelow, List.cons_append, List.mem_cons, List.mem_append] at h
    rcases h with rfl | hfirst | hrest
    · exact ⟨.inl rfl, hparent, by show first < _; omega⟩
    · have hinside := source_of_mem_edges hfirst
      omega
    · have hlater := source_of_mem_edgesBelow (by omega) hrest
      omega

end

/-- No edge of a list starts at a node that its sources are not. -/
theorem filter_source_eq_nil {edges : List Edge} {node : Nat}
    (h : ∀ edge ∈ edges, edge.source ≠ node) : edges.filter (·.source = node) = [] := by
  apply List.filter_eq_nil_iff.mpr
  intro edge hedge
  simpa using h edge hedge

mutual

/-- The ordinals of the edges out of a node count from 0. -/
theorem exists_ordinals_edges (root node : Nat) (tree : Outline) : ∃ count,
    ((tree.edges root).filter (·.source = node)).map Edge.ordinal = List.range' 0 count := by
  cases tree with
  | branch label children =>
    have hbelow := exists_ordinals_edgesBelow root (root + 1) 0 node children
      (Nat.lt_succ_self root)
    rwa [ite_self] at hbelow

theorem exists_ordinals_edgesBelow (parent first ordinal node : Nat) (trees : List Outline)
    (hparent : parent < first) : ∃ count,
    ((edgesBelow parent first ordinal trees).filter (·.source = node)).map Edge.ordinal =
      List.range' (if node = parent then ordinal else 0) count := by
  cases trees with
  | nil => exact ⟨0, rfl⟩
  | cons tree rest =>
    have hpos := tree.size_pos
    obtain ⟨inner, hinner⟩ := exists_ordinals_edges first node tree
    obtain ⟨later, hlater⟩ := exists_ordinals_edgesBelow parent (first + tree.size) (ordinal + 1)
      node rest (by omega)
    rw [edgesBelow, List.filter_append, List.map_append, hlater]
    by_cases hnode : node = parent
    · subst hnode
      have hnone : (tree.edges first).filter (·.source = node) = [] := by
        apply filter_source_eq_nil
        intro edge hedge
        have hinside := source_of_mem_edges hedge
        omega
      refine ⟨later + 1, ?_⟩
      rw [List.filter_cons_of_pos (by simp), hnone, if_pos rfl, if_pos rfl, List.range'_succ]
      rfl
    · rw [List.filter_cons_of_neg (by simpa using Ne.symm hnode), hinner, if_neg hnode,
        if_neg hnode]
      by_cases hinside : first ≤ node ∧ node < first + tree.size
      · have hnone : (edgesBelow parent (first + tree.size) (ordinal + 1) rest).filter
            (·.source = node) = [] := by
          apply filter_source_eq_nil
          intro edge hedge
          have hbehind := source_of_mem_edgesBelow (by omega) hedge
          omega
        rw [hnone, if_neg hnode] at hlater
        exact ⟨inner, by rw [← hlater]; simp⟩
      · have hnone : (tree.edges first).filter (·.source = node) = [] := by
          apply filter_source_eq_nil
          intro edge hedge
          have hbelow := source_of_mem_edges hedge
          omega
        rw [hnone] at hinner
        exact ⟨later, by rw [← hinner]; simp⟩

end

section Graph

variable {g : Graph}

mutual

/-- Whatever comes after a tree may start at its root or above it. -/
theorem climbs_edges {root : Nat} {tree : Outline} {more : List Edge}
    (hedges : ∀ edge ∈ tree.edges root, edge ∈ g.edges)
    (hmore : ∀ current, g.Above root current → g.Climbs current more) :
    g.Climbs root (tree.edges root ++ more) := by
  cases tree with
  | branch node children => exact climbs_edgesBelow hedges .refl hmore

theorem climbs_edgesBelow {parent first ordinal current : Nat} {trees : List Outline}
    {more : List Edge} (hedges : ∀ edge ∈ edgesBelow parent first ordinal trees, edge ∈ g.edges)
    (hcurrent : g.Above parent current)
    (hmore : ∀ current, g.Above parent current → g.Climbs current more) :
    g.Climbs current (edgesBelow parent first ordinal trees ++ more) := by
  cases trees with
  | nil => exact hmore current hcurrent
  | cons tree rest =>
    rw [edgesBelow, List.cons_append, List.forall_mem_cons, List.forall_mem_append] at hedges
    obtain ⟨hinto, hfirst, hrest⟩ := hedges
    have hleads : g.Leads parent first := ⟨_, hinto, rfl, rfl⟩
    -- The edge behind the first tree starts at the parent or above it, and so above the last node.
    rw [edgesBelow, List.cons_append, List.cons_append, List.append_assoc]
    refine ⟨hcurrent, climbs_edges hfirst fun later hlater => ?_⟩
    exact climbs_edgesBelow hrest (.head hleads hlater) hmore

end

mutual

/-- The depths in an outline are those in the graph. -/
theorem deep_preorder {root depth : Nat} {tree : Outline}
    (hedges : ∀ edge ∈ tree.edges root, edge ∈ g.edges) (hroot : g.Deep root depth) :
    ∀ entry ∈ (tree.preorder depth).zipIdx root, g.Deep entry.2 entry.1.1 := by
  cases tree with
  | branch node children =>
    rw [preorder, List.zipIdx_cons, List.forall_mem_cons]
    exact ⟨hroot, deep_preorderAll hedges hroot⟩

theorem deep_preorderAll {parent first ordinal depth : Nat} {trees : List Outline}
    (hedges : ∀ edge ∈ edgesBelow parent first ordinal trees, edge ∈ g.edges)
    (hparent : g.Deep parent depth) :
    ∀ entry ∈ (preorderAll (depth + 1) trees).zipIdx first, g.Deep entry.2 entry.1.1 := by
  cases trees with
  | nil => exact List.forall_mem_nil _
  | cons tree rest =>
    rw [edgesBelow, List.cons_append, List.forall_mem_cons, List.forall_mem_append] at hedges
    obtain ⟨hinto, hfirst, hrest⟩ := hedges
    have hdeep : g.Deep first (depth + 1) := .child hinto hparent
    rw [preorderAll, List.zipIdx_append, List.forall_mem_append, length_preorder]
    exact ⟨deep_preorder hfirst hdeep, deep_preorderAll hrest hparent⟩

end

end Graph

theorem node_mem_of_mem_preorder {tree : Outline} {depth : Nat} {entry : Nat × Outline}
    (h : entry ∈ tree.preorder depth) : entry.2.node ∈ tree.nodes := by
  rw [← map_node_preorder depth]
  exact List.mem_map.mpr ⟨entry, h, rfl⟩

theorem isTree_graph (tree : Outline) : tree.graph.IsTree where
  length_edges := by
    have hlength := congrArg List.length (tree.map_target_edges 0)
    have hpos := tree.size_pos
    rw [List.length_map, List.length_range'] at hlength
    simp only [graph, List.length_map, length_preorder]
    omega
  target_eq index edge hedge := by
    have htarget := congrArg (·[index]?) (tree.map_target_edges 0)
    have hat : (tree.edges 0)[index]? = some edge := hedge
    simp only [List.getElem?_map, hat, Option.map_some] at htarget
    obtain ⟨hlt, hvalue⟩ := List.getElem?_eq_some_iff.mp htarget.symm
    rw [List.getElem_range'] at hvalue
    omega
  source_lt edge hedge := (source_of_mem_edges hedge).2.1
  ordinal_eq index edge hedge := by
    obtain ⟨count, hcount⟩ := exists_ordinals_edges 0 edge.source tree
    exact Graph.ordinal_eq_countP hcount hedge rfl
  ordinals_eq parent := by
    obtain ⟨count, hcount⟩ := exists_ordinals_edges 0 parent tree
    have hlength := congrArg List.length hcount
    rw [List.length_map, List.length_range'] at hlength
    rw [List.range_eq_range']
    exact hcount.trans (congrArg (List.range' 0) hlength.symm)
  preorder index edge next hedge hnext := by
    have hclimbs : tree.graph.Climbs 0 (tree.edges 0 ++ []) :=
      climbs_edges (fun _ h => h) fun _ _ => trivial
    rw [List.append_nil] at hclimbs
    exact hclimbs.above hedge hnext

/-- The number and the depth of a subtree are those of its root in the graph. -/
theorem deep_graph {tree : Outline} {number depth : Nat} {sub : Outline}
    (h : (tree.preorder 0)[number]? = some (depth, sub)) : tree.graph.Deep number depth := by
  have hall := @deep_preorder tree.graph 0 0 tree (fun _ h => h) .root
  exact hall ((depth, sub), number) (List.mk_mem_zipIdx_iff_getElem?.mpr h)

def row (indent : Nat) (entry : Nat × Outline) : List Char :=
  List.replicate (entry.1 * indent) ' ' ++ entry.2.node.label.toList

theorem toList_drawLines (indent : Nat) (entries : List (Nat × Outline)) :
    (drawLines indent entries).toList = Text.ofRows (entries.map (row indent)) := by
  induction entries with
  | nil => rfl
  | cons entry entries ih =>
    rw [drawLines_cons, String.toList_append, ih, List.map_cons, Text.ofRows_cons]
    simp [drawLine, row]

theorem toList_draw (indent : Nat) (tree : Outline) :
    (tree.draw indent).toList = Text.ofRows ((tree.preorder 0).map (row indent)) :=
  toList_drawLines indent (tree.preorder 0)

end Outline

namespace Program

/-- The text of a drawing holds its rows and nothing else. -/
theorem pieces_draw {program : Program} (h : ∀ name ∈ program.allNames, '\n' ∉ name.toList)
    (indent : Nat) :
    Text.pieces '\n' (program.draw indent).toList =
      (program.outline.preorder 0).map (Outline.row indent) ++ [[]] := by
  have hrows : ∀ row ∈ (program.outline.preorder 0).map (Outline.row indent), '\n' ∉ row := by
    intro row hrow hmem
    obtain ⟨entry, hentry, rfl⟩ := List.mem_map.mp hrow
    have hnode := Outline.node_mem_of_mem_preorder hentry
    rcases List.mem_append.mp hmem with hblank | hlabel
    · exact absurd (List.eq_of_mem_replicate hblank) (by decide)
    · exact (program.labelled_outline _ hnode).not_mem_newline h hlabel
  rw [draw, Outline.toList_draw, Text.pieces_ofRows hrows]

/-- The graph that a walk makes is a tree of which node 0 is the program. What a walk draws has one
row for each node, in the order of the numbers: the label behind an indent that grows with the depth
in the graph. -/
theorem graph_and_drawing (program : Program) :
    Graph.ofWalk program = program.graph ∧ program.graph.IsTree ∧
      program.graph.nodes.head? = some ⟨.program, "program", none⟩ ∧
      ∀ indent, Drawing.ofWalk indent program = program.draw indent ∧
        ((∀ name ∈ program.allNames, '\n' ∉ name.toList) → ∃ rows,
          Text.pieces '\n' (program.draw indent).toList = rows ++ [[]] ∧
            rows.length = program.graph.nodes.length ∧
            ∀ number node, program.graph.nodes[number]? = some node → ∃ depth,
              (∀ depth', program.graph.Deep number depth' ↔ depth' = depth) ∧
                rows[number]? =
                  some (List.replicate (indent * depth) ' ' ++ node.label.toList)) := by
  have htree : program.graph.IsTree := program.outline.isTree_graph
  refine ⟨Graph.ofWalk_eq program, htree, rfl, fun indent => ⟨Drawing.ofWalk_eq indent program, ?_⟩⟩
  intro hnames
  refine ⟨_, pieces_draw hnames indent, ?_, ?_⟩
  · simp [graph, Outline.graph]
  · intro number node hnode
    have hat : ((program.outline.preorder 0).map fun entry => entry.2.node)[number]? = some node :=
      hnode
    rw [List.getElem?_map] at hat
    obtain ⟨⟨depth, sub⟩, hentry, rfl⟩ := Option.map_eq_some_iff.mp hat
    have hdeep : program.graph.Deep number depth := Outline.deep_graph hentry
    refine ⟨depth, fun depth' => ⟨fun h => htree.depth_unique h hdeep, fun h => h ▸ hdeep⟩, ?_⟩
    rw [List.getElem?_map, hentry, Nat.mul_comm]
    rfl

/-- The statement in the branch is node 5, behind the condition and the sequence that it is in. -/
theorem graph_and_drawing_of_conditional :
    let program : Program := ⟨[.conditional (.name "x" {}) [.read "y" {}] {}]⟩
    (∀ name ∈ program.allNames, '\n' ∉ name.toList) ∧ ∃ rows,
      Text.pieces '\n' (program.draw 3).toList = rows ++ [[]] ∧ rows.length = 6 ∧
        ∃ depth, program.graph.Deep 5 depth ∧
          rows[5]? = some (List.replicate (3 * depth) ' ' ++ "read (y)".toList) := by
  intro program
  have hnames : ∀ name ∈ program.allNames, '\n' ∉ name.toList := by decide
  obtain ⟨-, -, -, hdrawing⟩ := graph_and_drawing program
  obtain ⟨rows, hpieces, hlength, hrow⟩ := (hdrawing 3).2 hnames
  obtain ⟨depth, hdepth, hat⟩ := hrow 5 ⟨.input, "read (y)", some {}⟩ rfl
  exact ⟨hnames, rows, hpieces, hlength, depth, (hdepth depth).mpr rfl, hat⟩

end Program

end TinyLang
