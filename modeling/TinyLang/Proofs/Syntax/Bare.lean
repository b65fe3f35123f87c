import TinyLang.Syntax.Outline
import TinyLang.Syntax.Graph

namespace TinyLang

namespace Expr

@[simp] def bare : Expr → Expr
  | binary op left right _ => binary op left.bare right.bare {}
  | constant value _ => constant value {}
  | name text _ => name text {}

@[simp] def spans : Expr → List Span
  | binary _ left right span => span :: (left.spans ++ right.spans)
  | constant _ span => [span]
  | name _ span => [span]

/-- The text of an expression does not show its spans. -/
theorem text_bare (e : Expr) : e.bare.text = e.text := by
  induction e with
  | binary op left right span hleft hright => rw [bare, text, text, hleft, hright]
  | constant value span => rfl
  | name text span => rfl

end Expr

namespace Stmt

mutual

@[simp] def bare : Stmt → Stmt
  | conditional condition branch _ => conditional condition.bare (bareAll branch) {}
  | loop body condition _ => loop (bareAll body) condition.bare {}
  | assign target value _ => assign target value.bare {}
  | read target _ => read target {}
  | write value _ => write value.bare {}

@[simp] def bareAll : List Stmt → List Stmt
  | [] => []
  | s :: rest => s.bare :: bareAll rest

end

mutual

@[simp] def spans : Stmt → List Span
  | conditional condition branch span => span :: (condition.spans ++ spansAll branch)
  | loop body condition span => span :: (spansAll body ++ condition.spans)
  | assign _ value span => span :: value.spans
  | read _ span => [span]
  | write value span => span :: value.spans

@[simp] def spansAll : List Stmt → List Span
  | [] => []
  | s :: rest => s.spans ++ spansAll rest

end

end Stmt

namespace Program

@[simp] def bare (program : Program) : Program := ⟨Stmt.bareAll program.body⟩

@[simp] def spans (program : Program) : List Span := Stmt.spansAll program.body

end Program

/-! Nothing of a program is lost in its bare form and its spans. Below a node the spans of several
trees follow each other, and the bare forms tell where those of one tree end. -/

theorem Expr.eq_of_bare_of_spans {e e' : Expr} {later later' : List Span}
    (hbare : e.bare = e'.bare) (hspans : e.spans ++ later = e'.spans ++ later') :
    e = e' ∧ later = later' := by
  induction e generalizing e' later later' with
  | binary op left right span hleft hright =>
    cases e' with
    | binary op' left' right' span' =>
      simp only [bare, Expr.binary.injEq, and_true] at hbare
      simp only [spans, List.cons_append, List.append_assoc, List.cons.injEq] at hspans
      obtain ⟨rfl, hrest⟩ := hleft hbare.2.1 hspans.2
      obtain ⟨rfl, rfl⟩ := hright hbare.2.2 hrest
      simp [hbare.1, hspans.1]
    | _ => simp at hbare
  | constant value span => cases e' <;> simp_all
  | name text span => cases e' <;> simp_all

namespace Stmt

mutual

theorem eq_of_bare_of_spans {s s' : Stmt} {later later' : List Span} (hbare : s.bare = s'.bare)
    (hspans : s.spans ++ later = s'.spans ++ later') : s = s' ∧ later = later' := by
  cases s with
  | conditional condition branch span =>
    cases s' with
    | conditional condition' branch' span' =>
      simp only [bare, conditional.injEq, and_true] at hbare
      simp only [spans, List.cons_append, List.append_assoc, List.cons.injEq] at hspans
      obtain ⟨rfl, hrest⟩ := Expr.eq_of_bare_of_spans hbare.1 hspans.2
      obtain ⟨rfl, rfl⟩ := eq_of_bareAll_of_spansAll hbare.2 hrest
      simp [hspans.1]
    | _ => simp at hbare
  | loop body condition span =>
    cases s' with
    | loop body' condition' span' =>
      simp only [bare, loop.injEq, and_true] at hbare
      simp only [spans, List.cons_append, List.append_assoc, List.cons.injEq] at hspans
      obtain ⟨rfl, hrest⟩ := eq_of_bareAll_of_spansAll hbare.1 hspans.2
      obtain ⟨rfl, rfl⟩ := Expr.eq_of_bare_of_spans hbare.2 hrest
      simp [hspans.1]
    | _ => simp at hbare
  | assign target value span =>
    cases s' with
    | assign target' value' span' =>
      simp only [bare, assign.injEq, and_true] at hbare
      simp only [spans, List.cons_append, List.cons.injEq] at hspans
      obtain ⟨rfl, rfl⟩ := Expr.eq_of_bare_of_spans hbare.2 hspans.2
      simp [hbare.1, hspans.1]
    | _ => simp at hbare
  | read target span => cases s' <;> simp_all
  | write value span =>
    cases s' with
    | write value' span' =>
      simp only [bare, write.injEq, and_true] at hbare
      simp only [spans, List.cons_append, List.cons.injEq] at hspans
      obtain ⟨rfl, rfl⟩ := Expr.eq_of_bare_of_spans hbare hspans.2
      simp [hspans.1]
    | _ => simp at hbare

theorem eq_of_bareAll_of_spansAll {body body' : List Stmt} {later later' : List Span}
    (hbare : bareAll body = bareAll body')
    (hspans : spansAll body ++ later = spansAll body' ++ later') :
    body = body' ∧ later = later' := by
  cases body with
  | nil => cases body' <;> simp_all
  | cons s rest =>
    cases body' with
    | nil => simp at hbare
    | cons s' rest' =>
      simp only [bareAll, List.cons.injEq] at hbare
      simp only [spansAll, List.append_assoc] at hspans
      obtain ⟨rfl, hrest⟩ := eq_of_bare_of_spans hbare.1 hspans
      obtain ⟨rfl, rfl⟩ := eq_of_bareAll_of_spansAll hbare.2 hrest
      exact ⟨rfl, rfl⟩

end

end Stmt

theorem Program.eq_of_bare_of_spans {program program' : Program}
    (hbare : program.bare = program'.bare) (hspans : program.spans = program'.spans) :
    program = program' := by
  have hbody : Stmt.bareAll program.body = Stmt.bareAll program'.body := Program.mk.inj hbare
  have happend : Stmt.spansAll program.body ++ [] = Stmt.spansAll program'.body ++ [] :=
    congrArg (· ++ []) hspans
  obtain ⟨heq, -⟩ := Stmt.eq_of_bareAll_of_spansAll hbody happend
  exact congrArg Program.mk heq

namespace Outline

def Node.bare (node : Node) : Node := { node with span := node.span.map fun _ => {} }

mutual

@[simp] def bare : Outline → Outline
  | branch node children => branch node.bare (bareAll children)

@[simp] def bareAll : List Outline → List Outline
  | [] => []
  | tree :: rest => tree.bare :: bareAll rest

end

theorem node_bare (tree : Outline) : tree.bare.node = tree.node.bare := by
  cases tree
  rfl

mutual

theorem preorder_bare (depth : Nat) (tree : Outline) :
    tree.bare.preorder depth = (tree.preorder depth).map fun (depth, sub) => (depth, sub.bare) := by
  cases tree with
  | branch node children => simp [preorder, preorderAll_bare]

theorem preorderAll_bare (depth : Nat) (trees : List Outline) :
    preorderAll depth (bareAll trees) =
      (preorderAll depth trees).map fun (depth, sub) => (depth, sub.bare) := by
  cases trees with
  | nil => rfl
  | cons tree rest => simp [preorderAll, preorder_bare, preorderAll_bare]

end

mutual

theorem size_bare (tree : Outline) : tree.bare.size = tree.size := by
  cases tree with
  | branch node children => simp [size, sizeAll_bare]

theorem sizeAll_bare (trees : List Outline) : sizeAll (bareAll trees) = sizeAll trees := by
  cases trees with
  | nil => rfl
  | cons tree rest => simp [sizeAll, size_bare, sizeAll_bare]

end

mutual

theorem edges_bare (root : Nat) (tree : Outline) : edges root tree.bare = edges root tree := by
  cases tree with
  | branch node children => simp [edges, edgesBelow_bare]

theorem edgesBelow_bare (parent first ordinal : Nat) (trees : List Outline) :
    edgesBelow parent first ordinal (bareAll trees) = edgesBelow parent first ordinal trees := by
  cases trees with
  | nil => rfl
  | cons tree rest => simp [edgesBelow, edges_bare, size_bare, edgesBelow_bare]

end

/-- A drawing shows labels only. -/
theorem draw_bare (indent : Nat) (tree : Outline) : tree.bare.draw indent = tree.draw indent := by
  rw [draw, draw, preorder_bare, List.map_map]
  refine congrArg String.join (List.map_congr_left fun entry _ => ?_)
  have hlabel : entry.2.bare.node.label = entry.2.node.label := by
    rw [node_bare]
    rfl
  exact congrArg (drawLine indent entry.1) hlabel

/-- A digraph shows labels and shapes only. -/
theorem dot_graph_bare (tree : Outline) : tree.bare.graph.dot = tree.graph.dot := by
  have hnodes : tree.bare.graph.nodes = tree.graph.nodes.map Node.bare := by
    simp only [graph, preorder_bare, List.map_map]
    exact List.map_congr_left fun entry _ => node_bare entry.2
  have hedges : tree.bare.graph.edges = tree.graph.edges := edges_bare 0 tree
  have hlines : (tree.graph.nodes.map Node.bare).mapIdx Graph.nodeLine =
      tree.graph.nodes.mapIdx Graph.nodeLine := by
    rw [List.mapIdx_eq_iff]
    intro number
    rw [List.getElem?_mapIdx, List.getElem?_map, Option.map_map]
    rfl
  rw [Graph.dot, Graph.dot, hnodes, hedges, hlines]

end Outline

theorem Expr.outline_bare (e : Expr) : e.bare.outline = e.outline.bare := by
  induction e with
  | binary op left right span hleft hright => simp [outline, hleft, hright, Outline.Node.bare]
  | constant value span => simp [outline, Outline.Node.bare]
  | name text span => simp [outline, Outline.Node.bare]

namespace Stmt

mutual

theorem outline_bare (s : Stmt) : s.bare.outline = s.outline.bare := by
  cases s with
  | conditional condition branch span =>
    simp [outline, Expr.outline_bare, outlines_bareAll, Outline.Node.bare]
  | loop body condition span =>
    simp [outline, Expr.outline_bare, outlines_bareAll, Outline.Node.bare]
  | assign target value span => simp [outline, Expr.outline_bare, Outline.Node.bare]
  | read target span => simp [outline, Outline.Node.bare]
  | write value span => simp [outline, Expr.outline_bare, Outline.Node.bare]

theorem outlines_bareAll (body : List Stmt) :
    outlines (bareAll body) = Outline.bareAll (outlines body) := by
  cases body with
  | nil => rfl
  | cons s rest => simp [outlines, outline_bare, outlines_bareAll]

end

end Stmt

namespace Program

theorem outline_bare (program : Program) : program.bare.outline = program.outline.bare := by
  simp [outline, bodyOutline, Stmt.outlines_bareAll, Outline.Node.bare]

variable {program program' : Program}

/-- Programs that differ in spans only are drawn alike. -/
theorem draw_eq_of_bare_eq (h : program.bare = program'.bare) (indent : Nat) :
    program.draw indent = program'.draw indent := by
  rw [draw, draw, ← Outline.draw_bare, ← outline_bare, h, outline_bare, Outline.draw_bare]

theorem dot_eq_of_bare_eq (h : program.bare = program'.bare) : program.dot = program'.dot := by
  rw [dot, dot, graph, graph, ← Outline.dot_graph_bare, ← outline_bare, h, outline_bare,
    Outline.dot_graph_bare]

end Program

end TinyLang
