import TinyLang.Syntax.Outline
import TinyLang.Syntax.Graph
import TinyLang.Syntax.Walk

/-!
A visitor that makes a graph remembers the nodes it is below, each with the number of its children so
far. One that draws remembers only how deep it is.
-/
namespace TinyLang

section Walk

variable {m : Type → Type} [Monad m] (act : Outline.Node → m Unit → m Unit)

/-- Acts at every node of the outline, once. The second visit of a statement and the first one of an
expression are passed through. -/
def Visitor.atNodes : Visitor m := fun visit below =>
  match visit with
  | .program program => act program.outline.node below
  | .sequence _ => act ⟨.sequence, "sequence", none⟩ below
  | .statement s => act s.outline.node below
  | .expressionForm e => act e.outline.node below
  | .statementForm _ | .expression _ => below

namespace Outline

mutual

def visit : Outline → m Unit
  | branch node children => act node (visitAll children)

def visitAll : List Outline → m Unit
  | [] => pure ()
  | tree :: rest => do
    visit tree
    visitAll rest

end

end Outline

theorem Expr.walk_atNodes [LawfulMonad m] (e : Expr) :
    e.walk (Visitor.atNodes act) = e.outline.visit act := by
  induction e with
  | binary op left right span hleft hright =>
    rw [walk, hleft, hright]
    simp [Visitor.atNodes, outline, Outline.node, Outline.visit, Outline.visitAll]
  | constant value span => rfl
  | name text span => rfl

namespace Stmt

mutual

theorem walk_atNodes [LawfulMonad m] (s : Stmt) :
    s.walk (Visitor.atNodes act) = s.outline.visit act := by
  cases s with
  | conditional condition branch span =>
    rw [walk, condition.walk_atNodes, walkAll_atNodes branch]
    simp [Visitor.atNodes, outline, Outline.node, Outline.visit, Outline.visitAll]
  | loop body condition span =>
    rw [walk, condition.walk_atNodes, walkAll_atNodes body]
    simp [Visitor.atNodes, outline, Outline.node, Outline.visit, Outline.visitAll]
  | assign target value span =>
    rw [walk, value.walk_atNodes]
    simp [Visitor.atNodes, outline, Outline.node, Outline.visit, Outline.visitAll]
  | read target span => rfl
  | write value span =>
    rw [walk, value.walk_atNodes]
    simp [Visitor.atNodes, outline, Outline.node, Outline.visit, Outline.visitAll]

theorem walkAll_atNodes [LawfulMonad m] (body : List Stmt) :
    walkAll (Visitor.atNodes act) body = Outline.visitAll act (outlines body) := by
  cases body with
  | nil => simp [walkAll, outlines, Outline.visitAll]
  | cons s rest =>
    rw [walkAll, outlines, Outline.visitAll, walk_atNodes s, walkAll_atNodes rest]

end

end Stmt

/-- A walk that acts at the nodes goes through the outline. -/
theorem Program.walk_atNodes [LawfulMonad m] (program : Program) :
    program.walk (Visitor.atNodes act) = program.outline.visit act := by
  rw [walk, Stmt.walkAll_atNodes]
  simp [Visitor.atNodes, outline, bodyOutline, Outline.node, Outline.visit, Outline.visitAll]

end Walk

namespace Graph

structure Builder where
  nodes : List Outline.Node := []
  edges : List Edge := []
  /-- The nodes that the walk is below, innermost first, each with its number and the number of its
  children so far. -/
  parents : List (Nat × Nat) := []

namespace Builder

def enter (node : Outline.Node) (b : Builder) : Builder :=
  let index := b.nodes.length
  match b.parents with
  | [] => { nodes := b.nodes ++ [node], edges := b.edges, parents := [(index, 0)] }
  | (parent, children) :: outer =>
    { nodes := b.nodes ++ [node]
      edges := b.edges ++ [⟨parent, index, children⟩]
      parents := (index, 0) :: (parent, children + 1) :: outer }

def leave (b : Builder) : Builder := { b with parents := b.parents.tail }

def node (node : Outline.Node) (below : StateM Builder Unit) : StateM Builder Unit := do
  modify (enter node)
  below
  modify leave

end Builder

def ofWalk (program : Program) : Graph :=
  let b := (program.walk (Visitor.atNodes Builder.node) |>.run {}).2
  ⟨b.nodes, b.edges⟩

end Graph

namespace Outline

mutual

def nodes : Outline → List Node
  | branch node children => node :: nodesAll children

def nodesAll : List Outline → List Node
  | [] => []
  | tree :: rest => nodes tree ++ nodesAll rest

end

mutual

theorem length_nodes (tree : Outline) : tree.nodes.length = tree.size := by
  cases tree with
  | branch node children => simp [nodes, size, length_nodesAll]

theorem length_nodesAll (trees : List Outline) : (nodesAll trees).length = sizeAll trees := by
  cases trees with
  | nil => rfl
  | cons tree rest => simp [nodesAll, sizeAll, length_nodes, length_nodesAll]

end

mutual

theorem map_node_preorder (depth : Nat) (tree : Outline) :
    (tree.preorder depth).map (fun (_, sub) => sub.node) = tree.nodes := by
  cases tree with
  | branch node children =>
    rw [preorder, nodes, List.map_cons, map_node_preorderAll]
    rfl

theorem map_node_preorderAll (depth : Nat) (trees : List Outline) :
    (preorderAll depth trees).map (fun (_, sub) => sub.node) = nodesAll trees := by
  cases trees with
  | nil => rfl
  | cons tree rest => simp [preorderAll, nodesAll, map_node_preorder, map_node_preorderAll]

end

open TinyLang.Graph

mutual

/-- Below a parent a tree is added with its nodes and with an edge that leads into it, and the
parent has one child more. -/
theorem run_visit_node (tree : Outline) (ns : List Node) (es : List Edge) (parent children : Nat)
    (outer : List (Nat × Nat)) :
    (tree.visit Builder.node).run ⟨ns, es, (parent, children) :: outer⟩ =
      ((), ⟨ns ++ tree.nodes,
        es ++ (⟨parent, ns.length, children⟩ :: tree.edges ns.length),
        (parent, children + 1) :: outer⟩) := by
  cases tree with
  | branch node trees =>
    have hbelow := run_visitAll_node trees (ns ++ [node]) (es ++ [⟨parent, ns.length, children⟩])
      ns.length 0 ((parent, children + 1) :: outer)
    have hrun : ((branch node trees).visit Builder.node).run ⟨ns, es, (parent, children) :: outer⟩ =
        ((), Builder.leave ((visitAll Builder.node trees).run
          ⟨ns ++ [node], es ++ [⟨parent, ns.length, children⟩],
            (ns.length, 0) :: (parent, children + 1) :: outer⟩).2) := rfl
    rw [hrun, hbelow]
    simp [Builder.leave, nodes, edges]

theorem run_visitAll_node (trees : List Outline) (ns : List Node) (es : List Edge)
    (parent children : Nat) (outer : List (Nat × Nat)) :
    (visitAll Builder.node trees).run ⟨ns, es, (parent, children) :: outer⟩ =
      ((), ⟨ns ++ nodesAll trees, es ++ edgesBelow parent ns.length children trees,
        (parent, children + trees.length) :: outer⟩) := by
  cases trees with
  | nil =>
    rw [nodesAll, edgesBelow, List.append_nil, List.append_nil]
    rfl
  | cons tree rest =>
    have hfirst := run_visit_node tree ns es parent children outer
    have hrest := run_visitAll_node rest (ns ++ tree.nodes)
      (es ++ (⟨parent, ns.length, children⟩ :: tree.edges ns.length)) parent (children + 1) outer
    have hrun : (visitAll Builder.node (tree :: rest)).run ⟨ns, es, (parent, children) :: outer⟩ =
        (visitAll Builder.node rest).run
          ((tree.visit Builder.node).run ⟨ns, es, (parent, children) :: outer⟩).2 := rfl
    rw [hrun, hfirst, hrest]
    simp only [nodesAll, edgesBelow, List.length_append, length_nodes, List.append_assoc,
      List.length_cons, List.cons_append]
    rw [Nat.add_assoc, Nat.add_comm 1]

end

end Outline

/-- A walk makes the graph of the outline. -/
theorem Graph.ofWalk_eq (program : Program) : ofWalk program = program.graph := by
  have hbelow := Outline.run_visitAll_node [program.bodyOutline] [⟨.program, "program", none⟩] []
    0 0 []
  have hrun : (program.outline.visit Builder.node).run {} =
      ((), Builder.leave ((Outline.visitAll Builder.node [program.bodyOutline]).run
        ⟨[⟨.program, "program", none⟩], [], [(0, 0)]⟩).2) := rfl
  have hnodes : program.graph.nodes = program.outline.nodes := Outline.map_node_preorder 0 _
  have hedges : program.graph.edges = program.outline.edges 0 := rfl
  have heq : program.graph = ⟨program.graph.nodes, program.graph.edges⟩ := rfl
  rw [ofWalk, Program.walk_atNodes, hrun, hbelow, heq, hnodes, hedges]
  rfl

structure Drawing where
  text : String := ""
  depth : Nat := 0

namespace Drawing

def node (indent : Nat) (node : Outline.Node) (below : StateM Drawing Unit) :
    StateM Drawing Unit := do
  modify fun d => { d with text := d.text ++ Outline.drawLine indent d.depth node.label }
  modify fun d => { d with depth := d.depth + 1 }
  below
  modify fun d => { d with depth := d.depth - 1 }

def ofWalk (indent : Nat) (program : Program) : String :=
  (program.walk (Visitor.atNodes (node indent)) |>.run {}).2.text

end Drawing

namespace Outline

def drawLines (indent : Nat) (entries : List (Nat × Outline)) : String :=
  String.join (entries.map fun (depth, sub) => drawLine indent depth sub.node.label)

theorem drawLines_cons (indent depth : Nat) (tree : Outline) (entries : List (Nat × Outline)) :
    drawLines indent ((depth, tree) :: entries) =
      drawLine indent depth tree.node.label ++ drawLines indent entries := by
  simp [drawLines]

theorem drawLines_append (indent : Nat) (entries entries' : List (Nat × Outline)) :
    drawLines indent (entries ++ entries') =
      drawLines indent entries ++ drawLines indent entries' := by
  simp [drawLines, String.join_append]

mutual

/-- A tree is drawn at the depth of the walk, which comes back to it. -/
theorem run_visit_drawing (indent : Nat) (tree : Outline) (text : String) (depth : Nat) :
    (tree.visit (Drawing.node indent)).run ⟨text, depth⟩ =
      ((), ⟨text ++ drawLines indent (tree.preorder depth), depth⟩) := by
  cases tree with
  | branch node trees =>
    have hbelow := run_visitAll_drawing indent trees (text ++ drawLine indent depth node.label)
      (depth + 1)
    have hrun : ((branch node trees).visit (Drawing.node indent)).run ⟨text, depth⟩ =
        let d := ((visitAll (Drawing.node indent) trees).run
          ⟨text ++ drawLine indent depth node.label, depth + 1⟩).2
        ((), { d with depth := d.depth - 1 }) := rfl
    rw [hrun, hbelow, preorder, drawLines_cons, String.append_assoc]
    rfl

theorem run_visitAll_drawing (indent : Nat) (trees : List Outline) (text : String) (depth : Nat) :
    (visitAll (Drawing.node indent) trees).run ⟨text, depth⟩ =
      ((), ⟨text ++ drawLines indent (preorderAll depth trees), depth⟩) := by
  cases trees with
  | nil =>
    rw [preorderAll, drawLines, List.map_nil, String.join_nil, String.append_empty]
    rfl
  | cons tree rest =>
    have hfirst := run_visit_drawing indent tree text depth
    have hrest := run_visitAll_drawing indent rest
      (text ++ drawLines indent (tree.preorder depth)) depth
    have hrun : (visitAll (Drawing.node indent) (tree :: rest)).run ⟨text, depth⟩ =
        (visitAll (Drawing.node indent) rest).run
          ((tree.visit (Drawing.node indent)).run ⟨text, depth⟩).2 := rfl
    rw [hrun, hfirst, hrest, preorderAll, drawLines_append, String.append_assoc]

end

end Outline

/-- A walk draws the outline. -/
theorem Drawing.ofWalk_eq (indent : Nat) (program : Program) :
    ofWalk indent program = program.draw indent := by
  rw [ofWalk, Program.walk_atNodes, Outline.run_visit_drawing]
  exact String.empty_append

end TinyLang
