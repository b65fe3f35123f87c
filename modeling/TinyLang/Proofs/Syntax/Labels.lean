import TinyLang.Proofs.Syntax.Bare
import TinyLang.Proofs.Syntax.Building
import TinyLang.Proofs.Text.Rows

/-! A tree of labels says everything about a program but its spans. -/
namespace TinyLang

def Expr.allNames : Expr → List String
  | binary _ left right _ => left.allNames ++ right.allNames
  | constant _ _ => []
  | name text _ => [text]

namespace Stmt

mutual

def allNames : Stmt → List String
  | conditional condition branch _ => condition.allNames ++ allNamesIn branch
  | loop body condition _ => allNamesIn body ++ condition.allNames
  | assign target value _ => target :: value.allNames
  | read target _ => [target]
  | write value _ => value.allNames

def allNamesIn : List Stmt → List String
  | [] => []
  | s :: rest => s.allNames ++ allNamesIn rest

end

end Stmt

def Program.allNames (program : Program) : List String := Stmt.allNamesIn program.body

/-- The labels of nodes in programs with the given names. -/
inductive IsLabel (names : List String) : String → Prop
  | keyword {text : String} (h : text ∈ ["program", "sequence", "if", "repeat", "write"]) :
    IsLabel names text
  | operation (op : Operator) : IsLabel names ("op (" ++ toString op.symbol ++ ")")
  | constant (value : Int) : IsLabel names ("const (" ++ toString value ++ ")")
  | named {keyword name : String} (hkeyword : keyword ∈ ["id (", "assign (", "read ("])
    (hname : name ∈ names) : IsLabel names (keyword ++ name ++ ")")

namespace IsLabel

variable {names : List String} {label : String}

theorem not_mem_newline (h : IsLabel names label) (hnames : ∀ name ∈ names, '\n' ∉ name.toList) :
    '\n' ∉ label.toList := by
  cases h with
  | keyword hkeyword =>
    have hall : ∀ text ∈ ["program", "sequence", "if", "repeat", "write"], '\n' ∉ text.toList := by
      decide
    exact hall label hkeyword
  | operation op => cases op <;> decide
  | constant value =>
    have hnumber : '\n' ∉ (toString value).toList := Text.not_mem_int_toString rfl rfl value
    simpa using hnumber
  | @named keyword name hkeyword hname =>
    have hall : ∀ text ∈ ["id (", "assign (", "read ("], '\n' ∉ text.toList := by decide
    have htext := hall keyword hkeyword
    have hfeed := hnames name hname
    simp [htext, hfeed]

/-- A label does not begin with a blank. -/
theorem exists_head (h : IsLabel names label) : ∃ c ∈ label.toList.head?, c ≠ ' ' := by
  cases h with
  | keyword hkeyword =>
    have hall : ∀ text ∈ ["program", "sequence", "if", "repeat", "write"],
        ∃ c ∈ text.toList.head?, c ≠ ' ' := by simp
    exact hall label hkeyword
  | operation op => exact ⟨'o', by simp, by decide⟩
  | constant value => exact ⟨'c', by simp, by decide⟩
  | @named keyword name hkeyword hname =>
    have hall : ∀ text ∈ ["id (", "assign (", "read ("], ∃ c ∈ text.toList.head?, c ≠ ' ' := by
      simp
    obtain ⟨c, hc, hblank⟩ := hall keyword hkeyword
    rw [Option.mem_def] at hc
    exact ⟨c, by simp [hc], hblank⟩

end IsLabel

section Nodes

variable {names : List String}

def Outline.Labelled (names : List String) (nodes : List Outline.Node) : Prop :=
  ∀ node ∈ nodes, IsLabel names node.label

theorem Expr.labelled_outline {e : Expr} (h : ∀ name ∈ e.allNames, name ∈ names) :
    Outline.Labelled names e.outline.nodes := by
  induction e with
  | binary op left right span hleft hright =>
    rw [allNames, List.forall_mem_append] at h
    simp only [Outline.Labelled, outline, Outline.nodes, Outline.nodesAll, List.append_nil,
      List.forall_mem_cons, List.forall_mem_append]
    exact ⟨.operation op, hleft h.1, hright h.2⟩
  | constant value span =>
    rw [outline, Outline.nodes, Outline.nodesAll, Outline.Labelled, List.forall_mem_singleton]
    exact .constant value.toInt
  | name text span =>
    rw [outline, Outline.nodes, Outline.nodesAll, Outline.Labelled, List.forall_mem_singleton]
    exact .named (by decide) (h text (List.mem_singleton_self text))

namespace Stmt

mutual

theorem labelled_outline {s : Stmt} (h : ∀ name ∈ s.allNames, name ∈ names) :
    Outline.Labelled names s.outline.nodes := by
  cases s with
  | conditional condition branch span =>
    rw [allNames, List.forall_mem_append] at h
    have hcondition := Expr.labelled_outline h.1
    have hbranch := labelled_outlines h.2
    simp only [Outline.Labelled, outline, Outline.nodes, Outline.nodesAll, List.append_nil,
      List.forall_mem_cons, List.forall_mem_append]
    exact ⟨.keyword (by decide), hcondition, .keyword (by decide), hbranch⟩
  | loop body condition span =>
    rw [allNames, List.forall_mem_append] at h
    have hbody := labelled_outlines h.1
    have hcondition := Expr.labelled_outline h.2
    simp only [Outline.Labelled, outline, Outline.nodes, Outline.nodesAll, List.append_nil,
      List.cons_append, List.forall_mem_cons, List.forall_mem_append]
    exact ⟨.keyword (by decide), .keyword (by decide), hbody, hcondition⟩
  | assign target value span =>
    rw [allNames, List.forall_mem_cons] at h
    have hvalue := Expr.labelled_outline h.2
    simp only [Outline.Labelled, outline, Outline.nodes, Outline.nodesAll, List.append_nil,
      List.forall_mem_cons]
    exact ⟨.named (by decide) h.1, hvalue⟩
  | read target span =>
    rw [allNames, List.forall_mem_singleton] at h
    rw [outline, Outline.nodes, Outline.nodesAll, Outline.Labelled, List.forall_mem_singleton]
    exact .named (by decide) h
  | write value span =>
    rw [allNames] at h
    have hvalue := Expr.labelled_outline h
    simp only [Outline.Labelled, outline, Outline.nodes, Outline.nodesAll, List.append_nil,
      List.forall_mem_cons]
    exact ⟨.keyword (by decide), hvalue⟩

theorem labelled_outlines {body : List Stmt} (h : ∀ name ∈ allNamesIn body, name ∈ names) :
    Outline.Labelled names (Outline.nodesAll (outlines body)) := by
  cases body with
  | nil => exact List.forall_mem_nil _
  | cons s rest =>
    rw [allNamesIn, List.forall_mem_append] at h
    rw [outlines, Outline.nodesAll, Outline.Labelled, List.forall_mem_append]
    exact ⟨labelled_outline h.1, labelled_outlines h.2⟩

end

end Stmt

theorem Program.labelled_outline (program : Program) :
    Outline.Labelled program.allNames program.outline.nodes := by
  have hbody := Stmt.labelled_outlines fun name (h : name ∈ Stmt.allNamesIn program.body) => h
  simp only [Outline.Labelled, outline, bodyOutline, Outline.nodes, Outline.nodesAll,
    List.append_nil, List.forall_mem_cons]
  exact ⟨.keyword (by decide), .keyword (by decide), hbody⟩

end Nodes

inductive Skeleton where
  | branch (label : String) (below : List Skeleton)

namespace Outline

mutual

def skeleton : Outline → Skeleton
  | branch node children => .branch node.label (skeletons children)

def skeletons : List Outline → List Skeleton
  | [] => []
  | tree :: rest => skeleton tree :: skeletons rest

end

theorem label_eq_of_skeleton {tree tree' : Outline} (h : tree.skeleton = tree'.skeleton) :
    tree.node.label = tree'.node.label := by
  cases tree with
  | branch node children =>
    cases tree' with
    | branch node' children' => exact (Skeleton.branch.inj h).1

end Outline

/-- Operators have different signs. -/
theorem Operator.eq_of_sign {op op' : Operator} (h : toString op.symbol = toString op'.symbol) :
    op = op' := by
  revert h
  cases op <;> cases op' <;> decide

theorem Expr.bare_eq_of_skeleton {e e' : Expr} (h : e.outline.skeleton = e'.outline.skeleton) :
    e.bare = e'.bare := by
  induction e generalizing e' with
  | binary op left right span hleft hright =>
    have hlabel := congrArg String.toList (Outline.label_eq_of_skeleton h)
    cases e' with
    | binary op' left' right' span' =>
      simp only [outline, Outline.skeleton, Outline.skeletons, Skeleton.branch.injEq,
        List.cons.injEq, and_true] at h
      obtain ⟨hop, hchild, hchild'⟩ := h
      have hsign : toString op.symbol = toString op'.symbol := by simpa using hop
      rw [bare, bare, Operator.eq_of_sign hsign, hleft hchild, hright hchild']
    | _ => simp [outline, Outline.node] at hlabel
  | constant value span =>
    have hlabel := congrArg String.toList (Outline.label_eq_of_skeleton h)
    cases e' with
    | constant value' span' =>
      simp only [outline, Outline.skeleton, Skeleton.branch.injEq] at h
      have hnumber : toString value.toInt = toString value'.toInt := by simpa using h.1
      rw [bare, bare, Int64.toInt_inj.mp (Text.int_toString_injective hnumber)]
    | _ => simp [outline, Outline.node] at hlabel
  | name text span =>
    have hlabel := congrArg String.toList (Outline.label_eq_of_skeleton h)
    cases e' with
    | name text' span' =>
      simp only [outline, Outline.skeleton, Skeleton.branch.injEq] at h
      have htext : text = text' := by simpa using h.1
      rw [bare, bare, htext]
    | _ => simp [outline, Outline.node] at hlabel

namespace Stmt

mutual

theorem bare_eq_of_skeleton {s s' : Stmt} (h : s.outline.skeleton = s'.outline.skeleton) :
    s.bare = s'.bare := by
  have hlabel := congrArg String.toList (Outline.label_eq_of_skeleton h)
  cases s with
  | conditional condition branch span =>
    cases s' with
    | conditional condition' branch' span' =>
      simp only [outline, Outline.skeleton, Outline.skeletons, Skeleton.branch.injEq,
        List.cons.injEq, and_true, true_and] at h
      rw [bare, bare, Expr.bare_eq_of_skeleton h.1, bareAll_eq_of_skeletons h.2]
    | _ => simp [outline, Outline.node] at hlabel
  | loop body condition span =>
    cases s' with
    | loop body' condition' span' =>
      simp only [outline, Outline.skeleton, Outline.skeletons, Skeleton.branch.injEq,
        List.cons.injEq, and_true, true_and] at h
      rw [bare, bare, bareAll_eq_of_skeletons h.1, Expr.bare_eq_of_skeleton h.2]
    | _ => simp [outline, Outline.node] at hlabel
  | assign target value span =>
    cases s' with
    | assign target' value' span' =>
      simp only [outline, Outline.skeleton, Outline.skeletons, Skeleton.branch.injEq,
        List.cons.injEq, and_true] at h
      have htarget : target = target' := by simpa using h.1
      rw [bare, bare, htarget, Expr.bare_eq_of_skeleton h.2]
    | _ => simp [outline, Outline.node] at hlabel
  | read target span =>
    cases s' with
    | read target' span' =>
      simp only [outline, Outline.skeleton, Skeleton.branch.injEq] at h
      have htarget : target = target' := by simpa using h.1
      rw [bare, bare, htarget]
    | _ => simp [outline, Outline.node] at hlabel
  | write value span =>
    cases s' with
    | write value' span' =>
      simp only [outline, Outline.skeleton, Outline.skeletons, Skeleton.branch.injEq,
        List.cons.injEq, and_true, true_and] at h
      rw [bare, bare, Expr.bare_eq_of_skeleton h]
    | _ => simp [outline, Outline.node] at hlabel

theorem bareAll_eq_of_skeletons {body body' : List Stmt}
    (h : Outline.skeletons (outlines body) = Outline.skeletons (outlines body')) :
    bareAll body = bareAll body' := by
  cases body with
  | nil =>
    cases body' with
    | nil => rfl
    | cons s' rest' => cases h
  | cons s rest =>
    cases body' with
    | nil => cases h
    | cons s' rest' =>
      simp only [outlines, Outline.skeletons, List.cons.injEq] at h
      rw [bareAll, bareAll, bare_eq_of_skeleton h.1, bareAll_eq_of_skeletons h.2]

end

end Stmt

/-- A program is known from its labels, but for its spans. -/
theorem Program.bare_eq_of_skeleton {program program' : Program}
    (h : program.outline.skeleton = program'.outline.skeleton) : program.bare = program'.bare := by
  simp only [outline, bodyOutline, Outline.skeleton, Outline.skeletons, Skeleton.branch.injEq,
    List.cons.injEq, and_true, true_and] at h
  exact congrArg Program.mk (Stmt.bareAll_eq_of_skeletons h)

end TinyLang
