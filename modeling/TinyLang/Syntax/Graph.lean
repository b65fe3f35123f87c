import TinyLang.Journal
import TinyLang.Syntax.Outline
import TinyLang.Text.Quoted

/-!
A program as a directed graph, and the graph as a DOT digraph. Nodes are numbered in preorder and
the root is node 0. An edge leads from a parent to a child and says which of the children it is.
-/
namespace TinyLang

structure Edge where
  source : Nat
  target : Nat
  /-- The number of earlier children of the same parent. -/
  ordinal : Nat
deriving DecidableEq

structure Graph where
  nodes : List Outline.Node
  edges : List Edge
deriving DecidableEq

namespace Outline

mutual

def edges (root : Nat) : Outline → List Edge
  | branch _ children => edgesBelow root (root + 1) 0 children

/-- The edges from `parent` into trees that stand side by side, and those inside them. The first
tree has the number `first` and `ordinal` earlier siblings. -/
def edgesBelow (parent first ordinal : Nat) : List Outline → List Edge
  | [] => []
  | tree :: rest =>
    ⟨parent, first, ordinal⟩ :: edges first tree ++
      edgesBelow parent (first + tree.size) (ordinal + 1) rest

end

def graph (tree : Outline) : Graph :=
  ⟨(tree.preorder 0).map fun (_, sub) => sub.node, tree.edges 0⟩

def Node.shape (node : Node) : String :=
  if node.kind.isStatement then "box"
  else if node.kind.isExpression then "ellipse"
  else "plaintext"

end Outline

namespace Graph

def nodeLine (number : Nat) (node : Outline.Node) : String :=
  "    " ++ toString number ++ " [ label = " ++ Text.quote node.label ++ " shape = " ++ node.shape ++
    " ]\n"

def edgeLine (edge : Edge) : String :=
  "    " ++ toString edge.source ++ " -> " ++ toString edge.target ++ " [ ]\n"

def dot (graph : Graph) : String :=
  "digraph \x7b\n" ++ String.join (graph.nodes.mapIdx nodeLine) ++
    String.join (graph.edges.map edgeLine) ++ "\x7d\n"

def journal (graph : Graph) : List Journal.Entry :=
  [⟨.debug, .graph, s!"built syntax graph with {graph.nodes.length} nodes"⟩]

end Graph

namespace Program

def graph (program : Program) : Graph := program.outline.graph

def dot (program : Program) : String := program.graph.dot

end Program

end TinyLang
