import TinyLang.Proofs.Syntax.Building

namespace TinyLang

inductive Tour where
  | branch (visit : Visit) (below : List Tour)

/-- A visit with the visits that it is below, the innermost first. -/
structure Stop where
  above : List Visit
  visit : Visit

namespace Tour

section Run

variable {m : Type → Type} [Monad m] (visitor : Visitor m)

mutual

def run : Tour → m Unit
  | branch visit below => visitor visit (runAll below)

def runAll : List Tour → m Unit
  | [] => pure ()
  | tour :: rest => do
    run tour
    runAll rest

end

end Run

mutual

def stops (above : List Visit) : Tour → List Stop
  | branch visit below => ⟨above, visit⟩ :: stopsAll (visit :: above) below

def stopsAll (above : List Visit) : List Tour → List Stop
  | [] => []
  | tour :: rest => stops above tour ++ stopsAll above rest

end

end Tour

def Expr.visited (e : Expr) (below : List Tour) : Tour :=
  .branch (.expression e) [.branch (.expressionForm e) below]

def Expr.tour : Expr → Tour
  | binary op left right span => (binary op left right span).visited [left.tour, right.tour]
  | constant value span => (constant value span).visited []
  | name text span => (name text span).visited []

namespace Stmt

def visited (s : Stmt) (below : List Tour) : Tour :=
  .branch (.statement s) [.branch (.statementForm s) below]

mutual

def tour : Stmt → Tour
  | conditional condition branch span =>
    (conditional condition branch span).visited
      [condition.tour, .branch (.sequence branch) (tours branch)]
  | loop body condition span =>
    (loop body condition span).visited [.branch (.sequence body) (tours body), condition.tour]
  | assign target value span => (assign target value span).visited [value.tour]
  | read target span => (read target span).visited []
  | write value span => (write value span).visited [value.tour]

def tours : List Stmt → List Tour
  | [] => []
  | s :: rest => s.tour :: tours rest

end

end Stmt

namespace Program

def tour (program : Program) : Tour :=
  .branch (.program program) [.branch (.sequence program.body) (Stmt.tours program.body)]

def stops (program : Program) : List Stop := program.tour.stops []

end Program

section Run

variable {m : Type → Type} [Monad m] (visitor : Visitor m)

theorem Expr.walk_eq_run [LawfulMonad m] (e : Expr) : e.walk visitor = e.tour.run visitor := by
  induction e with
  | binary op left right span hleft hright =>
    rw [walk, hleft, hright]
    simp [tour, visited, Tour.run, Tour.runAll]
  | constant value span => simp [walk, tour, visited, Tour.run, Tour.runAll]
  | name text span => simp [walk, tour, visited, Tour.run, Tour.runAll]

namespace Stmt

mutual

theorem walk_eq_run [LawfulMonad m] (s : Stmt) : s.walk visitor = s.tour.run visitor := by
  cases s with
  | conditional condition branch span =>
    rw [walk, condition.walk_eq_run, walkAll_eq_runAll branch]
    simp [tour, visited, Tour.run, Tour.runAll]
  | loop body condition span =>
    rw [walk, condition.walk_eq_run, walkAll_eq_runAll body]
    simp [tour, visited, Tour.run, Tour.runAll]
  | assign target value span =>
    rw [walk, value.walk_eq_run]
    simp [tour, visited, Tour.run, Tour.runAll]
  | read target span => simp [walk, tour, visited, Tour.run, Tour.runAll]
  | write value span =>
    rw [walk, value.walk_eq_run]
    simp [tour, visited, Tour.run, Tour.runAll]

theorem walkAll_eq_runAll [LawfulMonad m] (body : List Stmt) :
    walkAll visitor body = Tour.runAll visitor (tours body) := by
  cases body with
  | nil => rw [walkAll, tours, Tour.runAll]
  | cons s rest => rw [walkAll, tours, Tour.runAll, walk_eq_run s, walkAll_eq_runAll rest]

end

end Stmt

theorem Program.walk_eq_run [LawfulMonad m] (program : Program) :
    program.walk visitor = program.tour.run visitor := by
  rw [walk, Stmt.walkAll_eq_runAll]
  simp [tour, Tour.run, Tour.runAll]

end Run

def Stop.isReached (closed : Visit → Bool) (stop : Stop) : Bool :=
  stop.above.all fun visit => !closed visit

section Acting

variable {m : Type → Type} [Monad m] (act : Visit → m Unit) (closed : Visit → Bool)

def Visitor.acting : Visitor m := fun visit below => do
  act visit
  unless closed visit do below

namespace Tour

mutual

theorem suffix_above {above : List Visit} {tour : Tour} {stop : Stop}
    (h : stop ∈ tour.stops above) : above <:+ stop.above := by
  cases tour with
  | branch visit below =>
    rcases List.mem_cons.mp h with rfl | hbelow
    · exact List.suffix_refl above
    · exact (List.suffix_cons visit above).trans (suffix_above_of_all hbelow)

theorem suffix_above_of_all {above : List Visit} {tours : List Tour} {stop : Stop}
    (h : stop ∈ stopsAll above tours) : above <:+ stop.above := by
  cases tours with
  | nil => cases h
  | cons tour rest =>
    rcases List.mem_append.mp h with hfirst | hrest
    · exact suffix_above hfirst
    · exact suffix_above_of_all hrest

end

/-- Nothing below a closed visit is reached. -/
theorem filter_stopsAll_of_closed {visit : Visit} (h : closed visit = true) (above : List Visit)
    (below : List Tour) :
    (stopsAll (visit :: above) below).filter (Stop.isReached closed) = [] := by
  rw [List.filter_eq_nil_iff]
  intro stop hstop hreached
  have hopen := List.all_eq_true.mp hreached visit
    ((suffix_above_of_all hstop).subset List.mem_cons_self)
  simp [h] at hopen

mutual

/-- Below visits that are not closed, a visitor acts at every stop that is reached. -/
theorem run_acting [LawfulMonad m] {above : List Visit}
    (habove : (above.all fun visit => !closed visit) = true) (tour : Tour) :
    tour.run (Visitor.acting act closed) =
      forM ((tour.stops above).filter (Stop.isReached closed)) fun stop => act stop.visit := by
  -- On the tour. Below a closed visit the filter drops all, otherwise one more visit is open above.
  cases tour with
  | branch visit below =>
    have hfirst : Stop.isReached closed ⟨above, visit⟩ = true := habove
    rw [run, Visitor.acting, stops, List.filter_cons_of_pos hfirst, List.forM_cons]
    cases hclosed : closed visit with
    | true => rw [filter_stopsAll_of_closed closed hclosed]; rfl
    | false =>
      have hbelow : ((visit :: above).all fun visit => !closed visit) = true := by
        rw [List.all_cons, hclosed, habove]
        rfl
      rw [runAll_acting hbelow below]
      rfl

theorem runAll_acting [LawfulMonad m] {above : List Visit}
    (habove : (above.all fun visit => !closed visit) = true) (tours : List Tour) :
    runAll (Visitor.acting act closed) tours =
      forM ((stopsAll above tours).filter (Stop.isReached closed)) fun stop => act stop.visit := by
  cases tours with
  | nil => rfl
  | cons tour rest =>
    rw [runAll, stopsAll, List.filter_append, List.forM_append, run_acting habove tour,
      runAll_acting habove rest]

end

end Tour

end Acting

namespace Visit

def log (limit : Option Nat) (visit : Visit) : EStateM Nat (List String) Unit := do
  modify (visit.name :: ·)
  let count := (← get).length
  if limit.any (· ≤ count) then throw count

theorem run_log (limit : Option Nat) (visit : Visit) (found : List String) :
    (visit.log limit).run found =
      if limit.any (· ≤ found.length + 1) then .error (found.length + 1) (visit.name :: found)
      else .ok () (visit.name :: found) := by
  cases hlimit : limit.any (· ≤ found.length + 1) <;> simp [log, hlimit]

end Visit

theorem Visitor.logging_eq_acting (skip : List String) (limit : Option Nat) :
    logging skip limit = acting (Visit.log limit) fun visit => skip.contains visit.name := by
  funext visit below found
  change EStateM.run (logging skip limit visit below) found =
    EStateM.run (visit.log limit >>= fun _ => unless skip.contains visit.name do below) found
  rw [logging, EStateM.run_bind, EStateM.run_bind, Visit.run_log]
  cases hlimit : limit.any (· ≤ found.length + 1) <;> simp [hlimit]

namespace Stop

def names (stops : List Stop) : List String := stops.map (·.visit.name)

/-- Without a limit, all visits are logged. -/
theorem run_log_none (stops : List Stop) (found : List String) :
    (forM stops fun stop : Stop => stop.visit.log none).run found =
      .ok () ((names stops).reverse ++ found) := by
  induction stops generalizing found with
  | nil => rfl
  | cons stop stops ih =>
    rw [List.forM_cons, EStateM.run_bind, Visit.run_log, Option.any_none, if_neg (by decide)]
    simp [ih, names]

/-- With a limit, the log is cut off where it reaches the limit, but not before one visit. -/
theorem run_log_some (limit : Nat) (stops : List Stop) (found : List String) :
    (forM stops fun stop : Stop => stop.visit.log (some limit)).run found =
      if found.length + stops.length < max limit (found.length + 1) then
        .ok () ((names stops).reverse ++ found)
      else
        .error (max limit (found.length + 1)) <|
          ((names stops).take (max limit (found.length + 1) - found.length)).reverse ++ found := by
  induction stops generalizing found with
  | nil =>
    have hempty : found.length + ([] : List Stop).length < max limit (found.length + 1) := by
      rw [List.length_nil]
      omega
    rw [if_pos hempty]
    rfl
  | cons stop stops ih =>
    rw [List.forM_cons, EStateM.run_bind, Visit.run_log, Option.any_some]
    by_cases hlimit : limit ≤ found.length + 1
    · rw [Nat.max_eq_right hlimit, if_pos (decide_eq_true hlimit), if_neg (by simp)]
      simp [names]
    · have hmax : max limit (found.length + 1) = limit := by omega
      have hnext : max limit ((stop.visit.name :: found).length + 1) = limit := by
        rw [List.length_cons]
        omega
      obtain ⟨left, hleft⟩ : ∃ left, limit - found.length = left + 1 :=
        ⟨limit - found.length - 1, by omega⟩
      have hcount : limit - (stop.visit.name :: found).length = left := by
        rw [List.length_cons]
        omega
      rw [if_neg (by simp [hlimit])]
      simp only [ih, hnext, hmax, hleft, hcount]
      simp [names, Nat.add_assoc, Nat.add_comm 1]

end Stop

def Visit.node : Visit → Outline.Node
  | program p => p.outline.node
  | sequence _ => ⟨.sequence, "sequence", none⟩
  | statement s | statementForm s => s.outline.node
  | expression e | expressionForm e => e.outline.node

def Outline.Kind.visits : Kind → List String
  | program => ["program"]
  | sequence => ["stmt_sequence"]
  | conditional => ["stmt", "if_stmt"]
  | loop => ["stmt", "repeat_stmt"]
  | assignment => ["stmt", "assign_stmt"]
  | input => ["stmt", "read_stmt"]
  | output => ["stmt", "write_stmt"]
  | operation => ["expr", "op_expr"]
  | constant => ["expr", "const_expr"]
  | name => ["expr", "id_expr"]

def Stop.mark (stop : Stop) : Outline.Node × String := (stop.visit.node, stop.visit.name)

def Outline.Node.marks (node : Node) : List (Node × String) :=
  node.kind.visits.map fun name => (node, name)

section Marks

open Tour Outline

theorem Expr.marks_visited (above : List Visit) (e : Expr) (below : List Tour) :
    ((e.visited below).stops above).map Stop.mark = e.outline.node.marks ++
      (stopsAll (.expressionForm e :: .expression e :: above) below).map Stop.mark := by
  have hnode : e.outline.node.marks =
      [(e.outline.node, "expr"), (e.outline.node, (Visit.expressionForm e).name)] := by
    cases e <;> rfl
  simp [hnode, visited, stops, stopsAll, Stop.mark, Visit.node, Visit.name]

theorem Expr.marks_tour (above : List Visit) (e : Expr) :
    (e.tour.stops above).map Stop.mark = e.outline.nodes.flatMap Node.marks := by
  induction e generalizing above with
  | binary op left right span hleft hright =>
    rw [tour, marks_visited]
    simp [outline, Outline.node, nodes, nodesAll, stopsAll, hleft, hright]
  | constant value span => rfl
  | name text span => rfl

namespace Stmt

theorem marks_visited (above : List Visit) (s : Stmt) (below : List Tour) :
    ((s.visited below).stops above).map Stop.mark = s.outline.node.marks ++
      (stopsAll (.statementForm s :: .statement s :: above) below).map Stop.mark := by
  have hnode : s.outline.node.marks =
      [(s.outline.node, "stmt"), (s.outline.node, (Visit.statementForm s).name)] := by
    cases s <;> rfl
  simp [hnode, visited, stops, stopsAll, Stop.mark, Visit.node, Visit.name]

mutual

theorem marks_tour (above : List Visit) (s : Stmt) :
    (s.tour.stops above).map Stop.mark = s.outline.nodes.flatMap Node.marks := by
  cases s with
  | conditional condition branch span =>
    rw [tour, marks_visited]
    simp [outline, Outline.node, nodes, nodesAll, stopsAll, condition.marks_tour,
      marks_sequence branch]
  | loop body condition span =>
    rw [tour, marks_visited]
    simp [outline, Outline.node, nodes, nodesAll, stopsAll, condition.marks_tour,
      marks_sequence body]
  | assign target value span =>
    rw [tour, marks_visited]
    simp [outline, Outline.node, nodes, nodesAll, stopsAll, value.marks_tour]
  | read target span => rfl
  | write value span =>
    rw [tour, marks_visited]
    simp [outline, Outline.node, nodes, nodesAll, stopsAll, value.marks_tour]

theorem marks_sequence (body : List Stmt) (above : List Visit) :
    ((Tour.branch (.sequence body) (tours body)).stops above).map Stop.mark =
      (Outline.branch ⟨.sequence, "sequence", none⟩ (outlines body)).nodes.flatMap Node.marks := by
  rw [stops, nodes, List.map_cons, List.flatMap_cons, marks_tours]
  rfl

theorem marks_tours (above : List Visit) (body : List Stmt) :
    (stopsAll above (tours body)).map Stop.mark =
      (nodesAll (outlines body)).flatMap Node.marks := by
  cases body with
  | nil => rfl
  | cons s rest =>
    rw [tours, outlines, stopsAll, nodesAll, List.map_append, List.flatMap_append, marks_tour _ s,
      marks_tours _ rest]

end

end Stmt

/-- A walk visits every node of the outline, once and in preorder. -/
theorem Program.marks_stops (program : Program) :
    program.stops.map Stop.mark = program.outline.nodes.flatMap Node.marks := by
  have hbody := Stmt.marks_sequence program.body [.program program]
  have hnodes : program.outline.nodes = program.outline.node :: program.bodyOutline.nodes := by
    simp [outline, nodes, nodesAll, Outline.node]
  rw [stops, tour, Tour.stops, stopsAll, stopsAll, List.append_nil, List.map_cons, hbody, hnodes,
    List.flatMap_cons]
  rfl

end Marks

namespace Program

variable (program : Program) (skip : List String)

def log : List String :=
  Stop.names (program.stops.filter (Stop.isReached fun visit => skip.contains visit.name))

theorem walk_logging (limit : Option Nat) :
    program.walk (Visitor.logging skip limit) =
      forM (program.stops.filter (Stop.isReached fun visit => skip.contains visit.name))
        fun stop : Stop => stop.visit.log limit := by
  rw [walk_eq_run, Visitor.logging_eq_acting]
  exact Tour.run_acting (Visit.log limit) _ rfl program.tour

/-- Not even the root is left out of a log. -/
theorem length_log_pos : 0 < (program.log skip).length := by
  simp [log, Stop.names, stops, tour, Tour.stops, Stop.isReached]

/-- A walk that goes everywhere visits every node of the outline once, in preorder. Without what is
below some names, just the visits below these are missing, and a walk that fails has made the same
visits up to there. -/
theorem visits_eq_log (program : Program) :
    program.stops.map Stop.mark = program.outline.nodes.flatMap Outline.Node.marks ∧
    program.visits [] none = (Stop.names program.stops, none) ∧
    ∀ skip, program.visits skip none = (program.log skip, none) ∧
      ∀ limit, program.visits skip (some limit) =
        if (program.log skip).length < limit then (program.log skip, none)
        else ((program.log skip).take (max limit 1), some (max limit 1)) := by
  have hnone (skip : List String) : program.visits skip none = (program.log skip, none) := by
    rw [visits, walk_logging, Stop.run_log_none]
    simp [log]
  have hfull : program.log [] = Stop.names program.stops := by
    rw [log, List.filter_eq_self.mpr]
    intro stop _
    simp [Stop.isReached]
  refine ⟨program.marks_stops, ?_, fun skip => ⟨hnone skip, fun limit => ?_⟩⟩
  · rw [hnone, hfull]
  · -- There is always a first visit, so that a limit of 0 is one of 1.
    have hpos := program.length_log_pos skip
    have hlength : (program.stops.filter
        (Stop.isReached fun visit => skip.contains visit.name)).length =
          (program.log skip).length := by
      rw [log, Stop.names, List.length_map]
    rw [visits, walk_logging, Stop.run_log_some, hlength, List.length_nil, Nat.zero_add,
      Nat.zero_add, Nat.sub_zero]
    by_cases hlimit : (program.log skip).length < limit
    · have hmax : (program.log skip).length < max limit 1 := by omega
      rw [if_pos hlimit, if_pos hmax]
      simp [log]
    · have hmax : ¬ (program.log skip).length < max limit 1 := by omega
      rw [if_neg hlimit, if_neg hmax]
      simp [log]

end Program

end TinyLang
