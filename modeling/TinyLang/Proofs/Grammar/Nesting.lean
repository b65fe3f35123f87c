import TinyLang.Proofs.Grammar.Cutoff

namespace TinyLang

namespace ParseEvent

def settle (unfinished : List Rule) : ParseEvent → Option (List Rule)
  | started rule _ => some (rule :: unfinished)
  | finished rule =>
    match unfinished with
    | [] => none
    | innermost :: outer => if innermost = rule then some outer else none
  | consumed _ | failed _ | parsed _ => some unfinished

def settled (record : List ParseEvent) (unfinished : List Rule) : Option (List Rule) :=
  record.foldlM settle unfinished

/-- The rules that a record starts and does not finish, outermost first. There is no answer if it
finishes a rule that is not the innermost unfinished one. -/
def unfinished? (record : List ParseEvent) : Option (List Rule) :=
  (settled record []).map List.reverse

def token? : ParseEvent → Option Token
  | consumed token => some token
  | _ => none

def consumedIn (record : List ParseEvent) : List Token := record.filterMap token?

def isMark : ParseEvent → Bool
  | started _ _ | finished _ => true
  | _ => false

/-- Every rule that is started is finished after all rules that are started inside of it. -/
inductive Nested : List ParseEvent → Prop
  | nil : Nested []
  | other {event : ParseEvent} {rest : List ParseEvent} (hevent : event.isMark = false)
      (hrest : Nested rest) : Nested (event :: rest)
  | rule {rule : Rule} {next : Option Token} {body rest : List ParseEvent} (hbody : Nested body)
      (hrest : Nested rest) : Nested (started rule next :: (body ++ finished rule :: rest))

/-- The error is raised for want of a level, at the entry of a rule that is started or at that of an
operation, which begins with its sign. -/
inductive TooDeepAt (record : List ParseEvent) (error : SyntaxError) : Rule → Prop
  | rule {front : List ParseEvent} {limit : Nat} {rule : Rule} {next : Option Token}
      (hcause : error.cause = .nestingTooDeep limit)
      (hrecord : record = front ++ [started rule next, failed error]) : TooDeepAt record error rule
  | operation {front : List ParseEvent} {limit : Nat} {token : Token}
      (hcause : error.cause = .nestingTooDeep limit)
      (hsign : token.kind.isSign [.plus, .minus, .times, .divide] = true)
      (hrecord : record = front ++ [consumed token, failed error]) :
      TooDeepAt record error .operation

variable {front back record : List ParseEvent} {unfinished : List Rule} {error : SyntaxError}
  {rule : Rule}

theorem settled_append (front back : List ParseEvent) (unfinished : List Rule) :
    settled (front ++ back) unfinished = (settled front unfinished).bind (settled back) :=
  List.foldlM_append

theorem settled_cons (event : ParseEvent) (rest : List ParseEvent) (unfinished : List Rule) :
    settled (event :: rest) unfinished = (settle unfinished event).bind (settled rest) :=
  List.foldlM_cons

theorem settle_of_not_mark {event : ParseEvent} (h : event.isMark = false)
    (unfinished : List Rule) : settle unfinished event = some unfinished := by
  cases event <;> first | rfl | cases h

theorem settle_finished (rule : Rule) (unfinished : List Rule) :
    settle (rule :: unfinished) (finished rule) = some unfinished :=
  if_pos rfl

theorem consumedIn_append (front back : List ParseEvent) :
    consumedIn (front ++ back) = consumedIn front ++ consumedIn back :=
  List.filterMap_append

namespace Nested

theorem single {event : ParseEvent} (h : event.isMark = false) : Nested [event] := .other h .nil

theorem append (hfront : Nested front) (hback : Nested back) : Nested (front ++ back) := by
  induction hfront with
  | nil => exact hback
  | other hevent _ ih => exact .other hevent ih
  | rule hbody _ _ ih =>
    rw [List.cons_append, List.append_assoc]
    exact .rule hbody ih

/-- A nested record leaves nothing unfinished. -/
theorem settled_eq (h : Nested record) (unfinished : List Rule) :
    settled record unfinished = some unfinished := by
  induction h generalizing unfinished with
  | nil => rfl
  | other hevent _ ih =>
    rw [settled_cons, settle_of_not_mark hevent, Option.bind_some, ih]
  | @rule rule next _ _ _ _ ihbody ihrest =>
    have hstarted : settle unfinished (started rule next) = some (rule :: unfinished) := rfl
    rw [settled_cons, hstarted, Option.bind_some, settled_append, ihbody, Option.bind_some,
      settled_cons, settle_finished, Option.bind_some, ihrest]

end Nested

/-- The record finishes the rules, innermost first, and is nested before and after each end. -/
def Closes : List Rule → List ParseEvent → Prop
  | [], record => Nested record
  | rule :: outer, record =>
    ∃ body rest, record = body ++ finished rule :: rest ∧ Nested body ∧ Closes outer rest

theorem Closes.after (hback : Closes unfinished back) (hfront : Nested front) :
    Closes unfinished (front ++ back) := by
  cases unfinished with
  | nil => exact hfront.append hback
  | cons rule outer =>
    obtain ⟨body, rest, rfl, hbody, hrest⟩ := hback
    exact ⟨front ++ body, rest, (List.append_assoc _ _ _).symm, hfront.append hbody, hrest⟩

theorem closes_of_settled (h : settled record unfinished = some []) : Closes unfinished record := by
  -- The record is read with any rules unfinished before it, for a start adds one.
  induction record generalizing unfinished with
  | nil =>
    cases h
    exact .nil
  | cons event rest ih =>
    rw [settled_cons] at h
    cases event with
    | started rule next =>
      obtain ⟨body, rest, rfl, hbody, hrest⟩ := ih h
      have hrule : Nested (started rule next :: (body ++ [finished rule])) := .rule hbody .nil
      simpa using hrest.after hrule
    | finished rule =>
      cases unfinished with
      | nil => cases h
      | cons innermost outer =>
        by_cases hsame : innermost = rule
        · subst hsame
          rw [settle_finished] at h
          exact ⟨[], rest, rfl, .nil, ih h⟩
        · rw [settle, if_neg hsame] at h
          cases h
    | consumed token => exact (ih h).after (.single rfl)
    | failed error => exact (ih h).after (.single rfl)
    | parsed count => exact (ih h).after (.single rfl)

/-- A record is nested if all its rules are finished in turn. -/
theorem unfinished?_eq_nil_iff : unfinished? record = some [] ↔ Nested record := by
  constructor
  · intro h
    have hsettled : settled record [] = some [] := by
      simpa [unfinished?] using h
    exact closes_of_settled hsettled
  · intro h
    rw [unfinished?, h.settled_eq]
    rfl

theorem TooDeepAt.after (h : TooDeepAt back error rule) (front : List ParseEvent) :
    TooDeepAt (front ++ back) error rule := by
  cases h with
  | rule hcause hrecord =>
    rw [hrecord, ← List.append_assoc]
    exact .rule hcause rfl
  | operation hcause hsign hrecord =>
    rw [hrecord, ← List.append_assoc]
    exact .operation hcause hsign rfl

theorem TooDeepAt.exists_cause_eq (h : TooDeepAt record error rule) :
    ∃ limit, error.cause = .nestingTooDeep limit := by
  cases h with
  | rule hcause => exact ⟨_, hcause⟩
  | operation hcause => exact ⟨_, hcause⟩

/-- The event before the error tells what there was no level for. -/
theorem TooDeepAt.rule_eq {rule' : Rule} (h : TooDeepAt record error rule)
    (h' : TooDeepAt record error rule') : rule = rule' := by
  have hlast {front front' : List ParseEvent} {event event' : ParseEvent}
      (hrecord : record = front ++ [event, failed error])
      (hrecord' : record = front' ++ [event', failed error]) : event = event' :=
    (List.cons.inj (List.append_inj_right' (hrecord.symm.trans hrecord') rfl)).1
  cases h with
  | rule _ hrecord =>
    cases h' with
    | rule _ hrecord' => exact (started.inj (hlast hrecord hrecord')).1
    | operation _ _ hrecord' => cases hlast hrecord hrecord'
  | operation _ _ hrecord =>
    cases h' with
    | rule _ hrecord' => cases hlast hrecord hrecord'
    | operation => rfl

end ParseEvent

namespace Parser

open ParseEvent

namespace State

structure Recorded (s : State) (record : List ParseEvent) (t : State) : Prop where
  events_eq : t.events = record.reverse ++ s.events
  moved : s.Moved (consumedIn record) t

variable {s t u : State} {front back : List ParseEvent}

theorem Recorded.trans (h : s.Recorded front t) (h' : t.Recorded back u) :
    s.Recorded (front ++ back) u where
  events_eq := by rw [h'.events_eq, h.events_eq, List.reverse_append, List.append_assoc]
  moved := by
    rw [consumedIn_append]
    exact h.moved.trans h'.moved

theorem Recorded.refl (s : State) : s.Recorded [] s := ⟨rfl, .refl s⟩

theorem recorded_report (s : State) {event : ParseEvent} (h : event.token? = none) :
    s.Recorded [event] (s.report event) := by
  refine ⟨rfl, ?_⟩
  have hnone : consumedIn [event] = [] := List.filterMap_cons_none h
  rw [hnone]
  exact .still rfl rfl

theorem recorded_advance {token : Token} {rest : List Token} (h : s.ahead = token :: rest)
    (hend : token.isEnd = false) : s.Recorded [.consumed token] (s.advance token rest) :=
  ⟨rfl, moved_advance h hend⟩

theorem recorded_pushed (s : State) (rule : Rule) : s.Recorded [] (s.pushed rule) :=
  ⟨rfl, s.moved_pushed rule⟩

theorem recorded_popped (s : State) : s.Recorded [] s.popped := ⟨rfl, s.moved_popped⟩

theorem recorded_entered (s : State) (rule : Rule) :
    s.Recorded [.started rule s.ahead.head?] (s.entered rule) :=
  ⟨rfl, s.moved_entered rule⟩

theorem recorded_exited (s : State) (rule : Rule) : s.Recorded [.finished rule] (s.exited rule) :=
  ⟨rfl, s.moved_exited rule⟩

end State

variable {α β : Type} {s t u : State} {e : SyntaxError}

inductive Raised (record : List ParseEvent) (e : SyntaxError) : List Rule → Prop
  | fault (hcause : ∀ limit, e.cause ≠ .nestingTooDeep limit) : Raised record e []
  | rule {rule : Rule} (h : TooDeepAt record e rule) (hrule : rule ≠ .operation) :
      Raised record e [rule]

theorem Raised.after {back : List ParseEvent} {further : List Rule} (h : Raised back e further)
    (front : List ParseEvent) : Raised (front ++ back) e further := by
  cases h with
  | fault hcause => exact .fault hcause
  | rule h hrule => exact .rule (h.after front) hrule

theorem Raised.eq_nil {record : List ParseEvent} {further : List Rule} (h : Raised record e further)
    (hcause : ∀ limit, e.cause ≠ .nestingTooDeep limit) : further = [] := by
  cases h with
  | fault => rfl
  | rule h =>
    obtain ⟨limit, hlimit⟩ := h.exists_cause_eq
    exact (hcause limit hlimit).elim

theorem Raised.exists_eq {record : List ParseEvent} {further : List Rule}
    (h : Raised record e further) {limit : Nat} (hcause : e.cause = .nestingTooDeep limit) :
    ∃ rule, TooDeepAt record e rule ∧ rule ≠ .operation ∧ further = [rule] := by
  cases h with
  | fault hne => exact (hne limit hcause).elim
  | rule h hrule => exact ⟨_, h, hrule, rfl⟩

/-- A run from `s` fails inside of the rules `inner`. Of these and of `further` ones, all that are
recorded at all are left unfinished by the record. -/
structure Breaks (s : State) (record : List ParseEvent) (inner further : List Rule)
    (e : SyntaxError) (t : State) : Prop where
  recorded : s.Recorded record t
  stack_eq : e.stack = s.stack.reverse ++ inner
  settled_eq (unfinished : List Rule) : settled record unfinished =
    some ((inner.filter (· ≠ .operation) ++ further).reverse ++ unfinished)
  raised : Raised record e further

namespace Breaks

variable {front back record : List ParseEvent} {inner further : List Rule}

/-- What was recorded before is nested and does not matter. -/
theorem after (h : Breaks t back inner further e u) (hfront : s.Recorded front t)
    (hstack : t.stack = s.stack) (hnested : Nested front) :
    Breaks s (front ++ back) inner further e u where
  recorded := hfront.trans h.recorded
  stack_eq := by rw [h.stack_eq, hstack]
  settled_eq unfinished := by
    rw [settled_append, hnested.settled_eq, Option.bind_some, h.settled_eq]
  raised := h.raised.after front

theorem entered {rule : Rule} (h : Breaks (s.entered rule) record inner further e t)
    (hrule : rule ≠ .operation) :
    Breaks s (.started rule s.ahead.head? :: record) (rule :: inner) further e t where
  recorded := (s.recorded_entered rule).trans h.recorded
  stack_eq := by
    rw [h.stack_eq, List.append_cons]
    exact congrArg (· ++ inner) List.reverse_cons
  settled_eq unfinished := by
    have hstarted : settle unfinished (.started rule s.ahead.head?) = some (rule :: unfinished) :=
      rfl
    have hkept : (rule :: inner).filter (· ≠ .operation) =
        rule :: inner.filter (· ≠ .operation) :=
      List.filter_cons_of_pos (by simpa using hrule)
    rw [settled_cons, hstarted, Option.bind_some, h.settled_eq, hkept, List.cons_append,
      List.reverse_cons, List.append_assoc, List.singleton_append]
  raised := h.raised.after [.started rule s.ahead.head?]

/-- An operation is entered without an event. -/
theorem operation (h : Breaks (s.pushed .operation) record inner further e t) :
    Breaks s record (.operation :: inner) further e t where
  recorded := (s.recorded_pushed .operation).trans h.recorded
  stack_eq := by
    rw [h.stack_eq, List.append_cons]
    exact congrArg (· ++ inner) List.reverse_cons
  settled_eq := h.settled_eq
  raised := h.raised

end Breaks

structure Tells (p : Parser α) : Prop where
  ok {s t : State} {a : α} (h : p.run s = .ok a t) :
    ∃ record, s.Recorded record t ∧ t.stack = s.stack ∧ Nested record
  error {s t : State} {e : SyntaxError} (h : p.run s = .error e t) :
    ∃ record inner further, Breaks s record inner further e t

namespace Tells

variable {p : Parser α} {f : α → Parser β} {rule : Rule}

theorem pure (a : α) : Tells (Pure.pure a : Parser α) where
  ok {s t a} h := by
    cases h
    exact ⟨[], .refl s, rfl, .nil⟩
  error h := nomatch h

theorem bind_of_ok (hp : Tells p) (hf : ∀ {s a t}, p.run s = .ok a t → Tells (f a)) :
    Tells (p >>= f) where
  ok h := by
    obtain ⟨a, t, h₁, h₂⟩ := run_bind_eq_ok h
    obtain ⟨front, hfront, hstack, hnested⟩ := hp.ok h₁
    obtain ⟨back, hback, hstack', hnested'⟩ := (hf h₁).ok h₂
    exact ⟨front ++ back, hfront.trans hback, hstack'.trans hstack, hnested.append hnested'⟩
  error h := by
    rcases run_bind_eq_error h with h₁ | ⟨a, t, h₁, h₂⟩
    · exact hp.error h₁
    · obtain ⟨front, hfront, hstack, hnested⟩ := hp.ok h₁
      obtain ⟨back, inner, further, hbreaks⟩ := (hf h₁).error h₂
      exact ⟨front ++ back, inner, further, hbreaks.after hfront hstack hnested⟩

theorem bind (hp : Tells p) (hf : ∀ a, Tells (f a)) : Tells (p >>= f) :=
  hp.bind_of_ok fun {_ a _} _ => hf a

theorem get : Tells (get : Parser State) where
  ok {s t a} h := by
    cases h
    exact ⟨[], .refl s, rfl, .nil⟩
  error h := nomatch h

theorem parsed (statements : Nat) : Tells (report (.parsed statements)) where
  ok {s t a} h := by
    cases h
    exact ⟨_, s.recorded_report rfl, rfl, .single rfl⟩
  error h := nomatch h

theorem kind : Tells kind := bind get fun s => pure s.kind

theorem failAt (location : Span) {cause : SyntaxError.Cause}
    (hcause : ∀ limit, cause ≠ .nestingTooDeep limit) :
    Tells (Parser.failAt location cause : Parser α) where
  ok h := nomatch h
  error {s t e} h := by
    cases h
    exact ⟨_, [], [],
      { recorded := s.recorded_report rfl
        stack_eq := (List.append_nil _).symm
        settled_eq := fun _ => rfl
        raised := .fault hcause }⟩

theorem unexpected {cause : Token → SyntaxError.Cause}
    (hcause : ∀ found limit, cause found ≠ .nestingTooDeep limit) :
    Tells (Parser.unexpected cause : Parser α) := by
  refine bind get fun s => bind get fun _ => failAt _ fun limit => ?_
  split
  · exact (SyntaxError.Cause.blamesKind_ofUnknown _).2 limit
  · exact hcause _ limit

theorem accept? (wanted : Token.Kind → Bool) : Tells (Parser.accept? wanted) where
  ok {s t next} hrun := by
    cases next with
    | none =>
      obtain rfl := run_accept?_eq_none hrun
      exact ⟨[], .refl t, rfl, .nil⟩
    | some token =>
      obtain ⟨rest, hahead, hend, -, rfl⟩ := run_accept?_eq_some hrun
      exact ⟨_, State.recorded_advance hahead hend, rfl, .single rfl⟩
  error hrun := (run_accept?_ne_error _ _ _ _ hrun).elim

theorem expect (wanted : Token.Kind) : Tells (Parser.expect wanted) := by
  refine bind (accept? _) fun next => ?_
  cases next with
  | none => exact unexpected fun _ _ => nofun
  | some token => exact pure token

theorem operator? (wanted : List Operator) : Tells (Parser.operator? wanted) := by
  refine bind (accept? _) fun next => ?_
  cases next <;> exact pure _

theorem number : Tells number := by
  refine bind (expect _) fun token => ?_
  split
  · exact pure _
  · exact failAt _ fun _ => nofun

theorem name : Tells name := bind (expect _) fun _ => pure _

theorem ending (body : List Stmt) : Tells (ending body) := by
  refine bind kind fun _ => ?_
  split
  · exact pure _
  · exact bind (unexpected fun _ _ => nofun) fun _ => pure _

theorem followers (config : ParserConfig) {statement : Parser Stmt} (h : Tells statement)
    (rounds : Nat) : Tells (Parser.followers config statement rounds) := by
  induction rounds with
  | zero => exact pure []
  | succ rounds ih =>
    refine bind (accept? _) fun next => ?_
    cases next with
    | none => exact pure []
    | some token =>
      refine bind kind fun kind => ?_
      split
      · exact pure []
      · exact bind h fun first => bind ih fun rest => pure (first :: rest)

/-- A rule starts and finishes around what is recorded inside of it. -/
theorem parsing (hrule : rule ≠ .operation) (hp : Tells p) : Tells (Parser.parsing rule p) where
  ok {s t a} h := by
    obtain ⟨u, hbody, rfl⟩ := run_parsing_eq_ok h
    obtain ⟨record, hrecorded, hstack, hnested⟩ := hp.ok hbody
    have hfinished := hrecorded.trans (u.recorded_exited rule)
    refine ⟨_, (s.recorded_entered rule).trans hfinished, ?_, .rule hnested .nil⟩
    change u.stack.tail = s.stack
    rw [hstack]
    rfl
  error {s t e} h := by
    obtain ⟨record, inner, further, hbreaks⟩ := hp.error (run_parsing_eq_error h)
    exact ⟨_, _, further, hbreaks.entered hrule⟩

/-- An operation is left without an event too. -/
theorem operation (hp : Tells p) : Tells (inside .operation p) where
  ok {s t a} h := by
    obtain ⟨u, hbody, rfl⟩ := run_inside_eq_ok h
    obtain ⟨record, hrecorded, hstack, hnested⟩ := hp.ok hbody
    have hleft := (s.recorded_pushed .operation).trans (hrecorded.trans u.recorded_popped)
    refine ⟨record, by simpa using hleft, ?_, hnested⟩
    change u.stack.tail = s.stack
    rw [hstack]
    rfl
  error h := by
    obtain ⟨record, inner, further, hbreaks⟩ := hp.error (run_inside_eq_error h)
    exact ⟨record, _, further, hbreaks.operation⟩

/-- A rule that is refused is started, but it is not entered. -/
theorem refuse (limit : Nat) (hrule : rule ≠ .operation) :
    Tells (Parser.refuse limit rule : Parser α) where
  ok h := nomatch h
  error {s t e} h := by
    refine ⟨[.started rule s.ahead.head?, .failed e], [], [rule], ?_⟩
    have hstarted : s.Recorded [.started rule s.ahead.head?] _ := s.recorded_report rfl
    cases h
    exact
      { recorded := hstarted.trans (State.recorded_report _ rfl)
        stack_eq := (List.append_nil _).symm
        settled_eq := fun _ => rfl
        raised := .rule (.rule rfl (List.nil_append _).symm) hrule }

end Tells

variable (config : ParserConfig)

/-- The records of all rules tell what the rules have done, with a given number of levels to nest.
The links of a chain are only parsed after an operand, which needs a level itself. -/
structure Telling (depth : Nat) : Prop where
  sequence : Tells (sequence config depth)
  statement : Tells (statement config depth)
  conditional : Tells (conditional config depth)
  loop : Tells (loop config depth)
  assign : Tells (assign config depth)
  read : Tells (read config depth)
  write : Tells (write config depth)
  comparison : Tells (comparison config depth)
  chain (level : Precedence) : Tells (chain config level depth)
  links (level : Precedence) (left : Expr) (hdepth : 0 < depth) :
    Tells (links config level depth left)
  factor : Tells (factor config depth)

variable {config} {depth : Nat}

theorem pos_of_run_operand {level : Precedence} {a : Expr}
    (hrun : (operand config level depth).run s = .ok a t) : 0 < depth := by
  cases depth with
  | zero => cases level <;> cases hrun
  | succ depth => exact Nat.succ_pos depth

namespace Telling

theorem operand (h : Telling config depth) (level : Precedence) :
    Tells (operand config level depth) := by
  cases level with
  | sum => exact h.chain .product
  | product => exact h.factor

theorem form (h : Telling config depth) (first : Token.Kind) : Tells (form config first depth) := by
  unfold Parser.form
  split
  · exact h.conditional
  · exact h.loop
  · exact h.assign
  · exact h.read
  · exact h.write
  · exact .unexpected fun _ _ => nofun

theorem factorForm (h : Telling config depth) (first : Token.Kind) :
    Tells (factorForm config first depth) := by
  unfold Parser.factorForm
  split
  · exact .bind (.expect _) fun _ => .bind h.comparison fun inner => .bind (.expect _) fun _ =>
      .pure inner
  · exact .number
  · exact .name
  · exact .unexpected fun _ _ => nofun

/-- After an operand there is a level left for the operation of the next link. -/
theorem operand_bind (h : Telling config depth) (level : Precedence) (left : Expr → Expr) :
    Tells (Parser.operand config level depth >>= fun right =>
      Parser.links config level depth (left right)) :=
  .bind_of_ok (h.operand level) fun hrun => h.links level _ (pos_of_run_operand hrun)

theorem links_succ (h : Telling config depth) (level : Precedence) (left : Expr) :
    Tells (Parser.links config level (depth + 1) left) := by
  rw [links_eq]
  refine .bind (.operator? _) fun next => ?_
  cases next with
  | none => exact .pure left
  | some sign => exact .operation (h.operand_bind level _)

end Telling

theorem telling_zero (config : ParserConfig) : Telling config 0 where
  sequence := .refuse _ (by decide)
  statement := .refuse _ (by decide)
  conditional := .refuse _ (by decide)
  loop := .refuse _ (by decide)
  assign := .refuse _ (by decide)
  read := .refuse _ (by decide)
  write := .refuse _ (by decide)
  comparison := .refuse _ (by decide)
  chain level := by
    rw [chain_zero]
    exact .refuse _ (chainRule_ne_operation level)
  links _ _ hdepth := (Nat.lt_irrefl 0 hdepth).elim
  factor := .refuse _ (by decide)

theorem telling_succ (h : Telling config depth) : Telling config (depth + 1) where
  sequence := by
    rw [Parser.sequence]
    exact .parsing (by decide) <| .bind h.statement fun first => .bind .get fun s =>
      .bind (.followers config h.statement _) fun rest => .pure (first :: rest)
  statement := by
    rw [statement_succ]
    exact .parsing (by decide) (.bind .kind h.form)
  conditional := by
    rw [Parser.conditional]
    exact .parsing (by decide) <| .bind (.expect _) fun _ => .bind h.comparison fun _ =>
      .bind (.expect _) fun _ => .bind h.sequence fun _ => .bind (.expect _) fun _ => .pure _
  loop := by
    rw [Parser.loop]
    exact .parsing (by decide) <| .bind (.expect _) fun _ => .bind h.sequence fun _ =>
      .bind (.expect _) fun _ => .bind h.comparison fun _ => .pure _
  assign := by
    rw [Parser.assign]
    exact .parsing (by decide) <| .bind (.expect _) fun _ => .bind (.expect _) fun _ =>
      .bind h.comparison fun _ => .pure _
  read := by
    rw [Parser.read]
    exact .parsing (by decide) <| .bind (.expect _) fun _ => .bind (.expect _) fun _ => .pure _
  write := by
    rw [Parser.write]
    exact .parsing (by decide) <| .bind (.expect _) fun _ => .bind h.comparison fun _ => .pure _
  comparison := by
    rw [Parser.comparison]
    refine .parsing (by decide) <| .bind (h.chain .sum) fun left => ?_
    refine .bind (.operator? _) fun next => ?_
    cases next with
    | none => exact .pure left
    | some sign => exact .bind (h.chain .sum) fun _ => .pure _
  chain level := by
    rw [chain_succ]
    exact .parsing (chainRule_ne_operation level) (h.operand_bind level id)
  links level left _ := h.links_succ level left
  factor := by
    rw [factor_succ]
    exact .parsing (by decide) (.bind .kind h.factorForm)

theorem telling (config : ParserConfig) (depth : Nat) : Telling config depth := by
  induction depth with
  | zero => exact telling_zero config
  | succ depth h => exact telling_succ h

theorem tells_program (config : ParserConfig) : Tells (program config) := by
  cases hdepth : config.maxDepth with
  | zero =>
    rw [program_zero config hdepth]
    exact .refuse _ (by decide)
  | succ depth =>
    rw [program_succ config hdepth]
    have hbody : Tells (sequence config depth >>= ending) :=
      .bind (telling config depth).sequence .ending
    exact .bind (.parsing (by decide) hbody) fun _ => .bind (.parsed _) fun _ => .pure _

end Parser

namespace Program

open TinyLang.Parser ParseEvent

variable {config : ParserConfig} {tokens : List Token}

/-- The record of a run from the beginning is all that the run has recorded. -/
theorem trace_of_recorded {record : List ParseEvent}
    (h : State.Recorded { ahead := tokens } record
      (final ((program config).run { ahead := tokens }))) : (trace config tokens).2 = record := by
  rw [events_trace, h.events_eq, List.append_nil, List.reverse_reverse]

theorem nested_of_parse {program : Program} (h : parse config tokens = .ok program) :
    Nested (trace config tokens).2 ∧
      consumedIn (trace config tokens).2 = Token.beforeEnd tokens := by
  obtain ⟨t, hrun⟩ := parse_eq_ok_iff.mp h
  obtain ⟨record, hrecorded, -, hnested⟩ := (tells_program config).ok hrun
  obtain ⟨_, _, u, -, -, -, hend, rfl⟩ := run_program_eq_ok hrun
  have htrace : (trace config tokens).2 = record := by
    apply trace_of_recorded
    rwa [hrun]
  rw [htrace]
  exact ⟨hnested, (hrecorded.moved.beforeEnd_eq hend).symm⟩

theorem breaks_of_parse {error : SyntaxError} (h : parse config tokens = .error error) :
    ∃ further t,
      Breaks { ahead := tokens } (trace config tokens).2 error.stack further error t := by
  obtain ⟨t, hrun⟩ := parse_eq_error_iff.mp h
  obtain ⟨record, inner, further, hbreaks⟩ := (tells_program config).error hrun
  have htrace : (trace config tokens).2 = record := by
    apply trace_of_recorded
    rw [hrun]
    exact hbreaks.recorded
  have hstack : error.stack = inner := hbreaks.stack_eq
  rw [htrace, hstack]
  exact ⟨further, t, hbreaks⟩

/-- There is always a level for an operation, since there was one for the operand before it. -/
theorem ne_operation_of_tooDeepAt {error : SyntaxError} {rule : Rule}
    (h : parse config tokens = .error error)
    (hrule : TooDeepAt (trace config tokens).2 error rule) : rule ≠ .operation := by
  obtain ⟨further, t, hbreaks⟩ := breaks_of_parse h
  obtain ⟨limit, hcause⟩ := hrule.exists_cause_eq
  obtain ⟨refused, hrefused, hne, -⟩ := hbreaks.raised.exists_eq hcause
  rwa [hrule.rule_eq hrefused]

/-- The record describes the parse. If it succeeds, the rules are nested, and the tokens before the
end of the input are consumed. If it fails, the consumed tokens come first, and the rules that are
left unfinished are those of the error, except for operations. When there was no level for one more
rule, that one is unfinished too, unless it is an operation itself. -/
theorem record_of_parse (config : ParserConfig) (tokens : List Token) :
    (∀ program, parse config tokens = .ok program →
      Nested (trace config tokens).2 ∧
        consumedIn (trace config tokens).2 = Token.beforeEnd tokens) ∧
    (∀ error, parse config tokens = .error error →
      consumedIn (trace config tokens).2 <+: tokens ∧
      ((∀ limit, error.cause ≠ .nestingTooDeep limit) →
        unfinished? (trace config tokens).2 = some (error.stack.filter (· ≠ .operation))) ∧
      (∀ limit, error.cause = .nestingTooDeep limit →
        ∃ rule, TooDeepAt (trace config tokens).2 error rule) ∧
      (∀ rule, TooDeepAt (trace config tokens).2 error rule →
        unfinished? (trace config tokens).2 =
          some ((error.stack ++ [rule]).filter (· ≠ .operation)))) := by
  refine ⟨fun program h => nested_of_parse h, fun error h => ?_⟩
  obtain ⟨further, t, hbreaks⟩ := breaks_of_parse h
  have hunfinished : unfinished? (trace config tokens).2 =
      some (error.stack.filter (· ≠ .operation) ++ further) := by
    rw [unfinished?, hbreaks.settled_eq, Option.map_some, List.append_nil, List.reverse_reverse]
  refine ⟨⟨t.ahead, hbreaks.recorded.moved.ahead_eq.symm⟩, fun hcause => ?_, fun limit hcause => ?_,
    fun rule hrule => ?_⟩
  · rw [hunfinished, hbreaks.raised.eq_nil hcause, List.append_nil]
  · obtain ⟨rule, hrule, -⟩ := hbreaks.raised.exists_eq hcause
    exact ⟨rule, hrule⟩
  · obtain ⟨limit, hcause⟩ := hrule.exists_cause_eq
    obtain ⟨refused, hrefused, hne, rfl⟩ := hbreaks.raised.exists_eq hcause
    have hkept : [refused].filter (· ≠ .operation) = [refused] :=
      List.filter_cons_of_pos (by simpa using hne)
    rw [hunfinished, hrule.rule_eq hrefused, List.filter_append, hkept]

/-- The record of `write x - y - z` with room for it, and with eight levels, where the factor `y` is
refused inside of an operation; and that of `write` alone, where an expression is missing. -/
theorem record_of_parse_of_differences :
    (parse ⟨10, false⟩ differences.tokens = .ok differences.tree ∧
      Nested (trace ⟨10, false⟩ differences.tokens).2 ∧
      consumedIn (trace ⟨10, false⟩ differences.tokens).2 = differences.tokens) ∧
    (∃ error rule, parse ⟨8, false⟩ differences.tokens = .error error ∧
      error.stack = [.program, .sequence, .statement, .write, .comparison, .sum, .operation,
        .product] ∧
      TooDeepAt (trace ⟨8, false⟩ differences.tokens).2 error rule ∧
      unfinished? (trace ⟨8, false⟩ differences.tokens).2 =
        some ((error.stack ++ [rule]).filter (· ≠ .operation))) ∧
    ∃ error, parse ⟨8, false⟩ [⟨.keyword .writeWord, "write", {}⟩] = .error error ∧
      unfinished? (trace ⟨8, false⟩ [⟨.keyword .writeWord, "write", {}⟩]).2 =
        some (error.stack.filter (· ≠ .operation)) := by
  have hten : parse ⟨10, false⟩ differences.tokens = .ok differences.tree := rfl
  have hsmall : ∃ error, parse ⟨8, false⟩ differences.tokens = .error error ∧
      error.cause = .nestingTooDeep 8 ∧ error.stack = [.program, .sequence, .statement, .write,
        .comparison, .sum, .operation, .product] := ⟨_, rfl, rfl, rfl⟩
  refine ⟨⟨hten, (record_of_parse _ _).1 _ hten⟩, ?_, ?_⟩
  · obtain ⟨error, herror, hcause, hstack⟩ := hsmall
    obtain ⟨-, -, hexists, hunfinished⟩ := (record_of_parse _ _).2 error herror
    obtain ⟨rule, hrule⟩ := hexists 8 hcause
    exact ⟨error, rule, herror, hstack, hrule, hunfinished rule hrule⟩
  · exact ⟨_, rfl, ((record_of_parse _ _).2 _ rfl).2.1 nofun⟩

end Program

end TinyLang
