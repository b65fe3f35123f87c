import TinyLang.Proofs.Syntax.Numbering

/-!
A tree of labels ends where the next node is not deeper than its root. A drawing shows depths as
indents, and labels do not begin with blanks.
-/
namespace TinyLang

namespace Outline

def seen (entry : Nat × Outline) : Nat × String := (entry.1, entry.2.node.label)

def NextAtMost (depth : Nat) (rest : List (Nat × String)) : Prop :=
  ∀ entry ∈ rest.head?, entry.1 ≤ depth

theorem nextAtMost_seen_preorderAll {depth : Nat} {trees : List Outline}
    {rest : List (Nat × String)} (h : NextAtMost depth rest) :
    NextAtMost depth ((preorderAll depth trees).map seen ++ rest) := by
  cases trees with
  | nil => exact h
  | cons tree trees =>
    cases tree with
    | branch node children =>
      intro entry hentry
      obtain rfl := Option.some.inj hentry
      exact Nat.le_refl depth

mutual

/-- A tree is known from its nodes, and they end where the next node is not deeper than its root. -/
theorem skeleton_append_inj {tree tree' : Outline} {depth : Nat} {rest rest' : List (Nat × String)}
    (hrest : NextAtMost depth rest) (hrest' : NextAtMost depth rest')
    (h : (tree.preorder depth).map seen ++ rest = (tree'.preorder depth).map seen ++ rest') :
    tree.skeleton = tree'.skeleton ∧ rest = rest' := by
  cases tree with
  | branch node children =>
    cases tree' with
    | branch node' children' =>
      simp only [preorder, List.map_cons, List.cons_append, List.cons.injEq] at h
      have hlabel : node.label = node'.label := (Prod.mk.inj h.1).2
      obtain ⟨hchildren, heq⟩ := skeletons_append_inj
        (fun entry hentry => Nat.lt_succ_of_le (hrest entry hentry))
        (fun entry hentry => Nat.lt_succ_of_le (hrest' entry hentry)) h.2
      exact ⟨by rw [skeleton, skeleton, hlabel, hchildren], heq⟩

theorem skeletons_append_inj {trees trees' : List Outline} {depth : Nat}
    {rest rest' : List (Nat × String)} (hrest : ∀ entry ∈ rest.head?, entry.1 < depth)
    (hrest' : ∀ entry ∈ rest'.head?, entry.1 < depth)
    (h : (preorderAll depth trees).map seen ++ rest =
      (preorderAll depth trees').map seen ++ rest') :
    skeletons trees = skeletons trees' ∧ rest = rest' := by
  have hle : NextAtMost depth rest := fun entry hentry => Nat.le_of_lt (hrest entry hentry)
  have hle' : NextAtMost depth rest' := fun entry hentry => Nat.le_of_lt (hrest' entry hentry)
  cases trees with
  | nil =>
    cases trees' with
    | nil => exact ⟨rfl, h⟩
    | cons tree' later' =>
      -- What follows would begin with a node that is as deep as the trees.
      cases tree' with
      | branch node' children' =>
        have hhead := hrest (depth, node'.label) (by rw [show rest = _ from h]; rfl)
        exact absurd hhead (Nat.lt_irrefl depth)
  | cons tree later =>
    cases trees' with
    | nil =>
      cases tree with
      | branch node children =>
        have hhead := hrest' (depth, node.label) (by rw [show rest' = _ from h.symm]; rfl)
        exact absurd hhead (Nat.lt_irrefl depth)
    | cons tree' later' =>
      simp only [preorderAll, List.map_append, List.append_assoc] at h
      obtain ⟨htree, hmore⟩ := skeleton_append_inj (nextAtMost_seen_preorderAll hle)
        (nextAtMost_seen_preorderAll hle') h
      obtain ⟨hlater, heq⟩ := skeletons_append_inj hrest hrest' hmore
      exact ⟨by rw [skeletons, skeletons, htree, hlater], heq⟩

end

/-- Reads a row: the depth from the number of blanks, and the label behind them. -/
def readRow (indent : Nat) (row : List Char) : Nat × String :=
  ((row.takeWhile (· = ' ')).length / indent, String.ofList (row.dropWhile (· = ' ')))

/-- A row is read as what it shows, unless the label has blanks of its own in front. -/
theorem readRow_row {indent : Nat} {entry : Nat × Outline} (hindent : 1 ≤ indent)
    (hlabel : ∃ c ∈ entry.2.node.label.toList.head?, c ≠ ' ') :
    readRow indent (row indent entry) = seen entry := by
  obtain ⟨c, hhead, hblank⟩ := hlabel
  obtain ⟨rest, htext⟩ : ∃ rest, entry.2.node.label.toList = c :: rest := by
    cases hlist : entry.2.node.label.toList with
    | nil => simp [hlist] at hhead
    | cons d rest =>
      simp only [hlist, List.head?_cons, Option.mem_def, Option.some.injEq] at hhead
      exact ⟨rest, by rw [hhead]⟩
  have hblanks : ∀ d ∈ List.replicate (entry.1 * indent) ' ', decide (d = ' ') = true := by
    intro d hd
    exact decide_eq_true (List.eq_of_mem_replicate hd)
  have htake : (row indent entry).takeWhile (· = ' ') = List.replicate (entry.1 * indent) ' ' := by
    rw [row, List.takeWhile_append_of_pos hblanks, htext,
      List.takeWhile_cons_of_neg (by simpa using hblank), List.append_nil]
  have hdrop : (row indent entry).dropWhile (· = ' ') = entry.2.node.label.toList := by
    rw [row, List.dropWhile_append_of_pos hblanks, htext,
      List.dropWhile_cons_of_neg (by simpa using hblank)]
  rw [readRow, htake, hdrop, List.length_replicate, Nat.mul_div_cancel _ hindent,
    String.ofList_toList, seen]

end Outline

namespace Program

variable {program program' : Program}

/-- A program is known from the depths and the labels of its nodes, but for its spans. -/
theorem bare_eq_of_seen (h : (program.outline.preorder 0).map Outline.seen =
    (program'.outline.preorder 0).map Outline.seen) : program.bare = program'.bare := by
  have hnone : Outline.NextAtMost 0 [] := fun _ hentry => by cases hentry
  apply bare_eq_of_skeleton
  apply (Outline.skeleton_append_inj hnone hnone ?_).1
  rw [List.append_nil, List.append_nil, h]

theorem map_readRow_row (program : Program) {indent : Nat} (hindent : 1 ≤ indent) :
    ((program.outline.preorder 0).map (Outline.row indent)).map (Outline.readRow indent) =
      (program.outline.preorder 0).map Outline.seen := by
  rw [List.map_map]
  apply List.map_congr_left
  intro entry hentry
  have hnode := Outline.node_mem_of_mem_preorder hentry
  exact Outline.readRow_row hindent (program.labelled_outline _ hnode).exists_head

/-- Programs with the same drawing differ in their spans only, if levels are indented at all and the
names stand on one line. -/
theorem bare_eq_of_draw {indent : Nat} (hindent : 1 ≤ indent)
    (hnames : ∀ name ∈ program.allNames, '\n' ∉ name.toList)
    (hnames' : ∀ name ∈ program'.allNames, '\n' ∉ name.toList)
    (h : program.draw indent = program'.draw indent) : program.bare = program'.bare := by
  have hpieces := congrArg (fun text => Text.pieces '\n' text.toList) h
  simp only [pieces_draw hnames, pieces_draw hnames'] at hpieces
  have hrows := List.append_cancel_right hpieces
  apply bare_eq_of_seen
  rw [← map_readRow_row program hindent, hrows, map_readRow_row program' hindent]

/-- An empty branch, a negative constant and a name with blanks at its ends are read off a
drawing. -/
theorem bare_eq_of_draw_of_conditional :
    let program : Program := ⟨[.conditional (.constant (-1) {}) [] {}, .read " x " {}]⟩
    let program' : Program :=
      ⟨[.conditional (.constant (-1) {}) [] ⟨0, 2, ⟨1, 1⟩, ⟨1, 3⟩⟩, .read " x " {}]⟩
    program.draw 1 = program'.draw 1 ∧ program.bare = program'.bare := by
  intro program program'
  have hdraw : program.draw 1 = program'.draw 1 := rfl
  exact ⟨hdraw, bare_eq_of_draw (Nat.le_refl 1) (by decide) (by decide) hdraw⟩

end Program

end TinyLang
