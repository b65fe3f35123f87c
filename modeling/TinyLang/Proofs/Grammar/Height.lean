import TinyLang.Proofs.Grammar.Completeness
import TinyLang.Proofs.Grammar.Soundness
import TinyLang.Proofs.Grammar.Viability

/-!
How high the tree of a parsed program may be. The levels of a parse bound its height, but they are
not such a bound themselves: the first operand of a chain is parsed, and its levels are free again,
before the operations are counted that are put on top of it. Comparisons in brackets at the head of
two chains can be nested, so that every four levels allow a chain more.
-/
namespace TinyLang

@[simp] def Expr.height : Expr → Nat
  | binary _ left right _ => 1 + max left.height right.height
  | constant _ _ => 1
  | name _ _ => 1

theorem Expr.height_pos (e : Expr) : 0 < e.height := by
  cases e with
  | binary _ _ _ _ => exact Nat.lt_add_right _ Nat.one_pos
  | constant _ _ => exact Nat.one_pos
  | name _ _ => exact Nat.one_pos

namespace Stmt

mutual

/-- The number of nodes on the longest path down a statement. A sequence of statements is a node. -/
def height : Stmt → Nat
  | conditional condition branch _ => 1 + max condition.height (1 + heightAll branch)
  | loop body condition _ => 1 + max (1 + heightAll body) condition.height
  | assign _ value _ => 1 + value.height
  | read _ _ => 1
  | write value _ => 1 + value.height

def heightAll : List Stmt → Nat
  | [] => 0
  | s :: rest => max s.height (heightAll rest)

end

end Stmt

def Program.height (program : Program) : Nat := 1 + Stmt.heightAll program.body

/-- The greatest height of a comparison that needs no more than the given levels. It comes from four
levels less: in brackets, below as many products as there is room for, below as many sums, and below
one comparison. -/
def Expr.tallest : Nat → Nat
  | levels + 4 => 2 * levels + 1 + max 1 (tallest levels)
  | _ => 0

namespace Expr

theorem tallest_add_four (levels : Nat) :
    tallest (levels + 4) = 2 * levels + 1 + max 1 (tallest levels) := rfl

theorem tallest_of_lt {levels : Nat} (h : levels < 4) : tallest levels = 0 :=
  tallest.eq_2 levels fun _ _ => by omega

theorem tallest_le_succ (levels : Nat) : tallest levels ≤ tallest (levels + 1) := by
  induction levels using tallest.induct with
  | case1 levels ih =>
    change tallest (levels + 4) ≤ tallest (levels + 1 + 4)
    rw [tallest_add_four, tallest_add_four]
    omega
  | case2 levels hfew =>
    have hzero : tallest levels = 0 := tallest.eq_2 levels hfew
    rw [hzero]
    exact Nat.zero_le _

theorem tallest_mono {m n : Nat} (h : m ≤ n) : tallest m ≤ tallest n := by
  induction h with
  | refl => exact Nat.le_refl _
  | step _ ih => exact Nat.le_trans ih (tallest_le_succ _)

/-- One level more allows for a product and a sum more. -/
theorem two_add_tallest_le_succ (levels : Nat) :
    2 + tallest (levels + 4) ≤ tallest (levels + 5) := by
  have h := tallest_le_succ levels
  change 2 + tallest (levels + 4) ≤ tallest (levels + 1 + 4)
  rw [tallest_add_four, tallest_add_four]
  omega

/-- Two levels of the tree are always cheaper than three levels to nest. -/
theorem two_add_tallest_le {levels : Nat} (h : 4 ≤ levels) :
    2 + tallest (levels - 3) ≤ tallest levels := by
  obtain ⟨more, rfl⟩ := Nat.exists_eq_add_of_le' h
  -- With three levels less there may be too few for a comparison.
  by_cases hmore : more < 3
  · rw [tallest_of_lt (by omega), tallest_add_four]
    omega
  · obtain ⟨rest, rfl⟩ := Nat.exists_eq_add_of_le' (Nat.le_of_not_lt hmore)
    calc
      2 + tallest (rest + 4) ≤ tallest (rest + 5) := two_add_tallest_le_succ rest
      _ ≤ tallest (rest + 3 + 4) := tallest_mono (by omega)

end Expr

example : Expr.tallest 252 = 15688 := by decide +kernel

@[simp] def Symbol.least : Symbol → Nat
  | program => 4
  | sequence => 3
  | followers => 0
  | statement => 2
  | comparison => 4
  | chain .sum => 3
  | chain .product => 2
  | links _ => 0
  | factor => 1

namespace Precedence

def operandBound : Precedence → Nat → Nat
  | sum, levels => max 1 (Expr.tallest (levels - 2)) + (levels - 2)
  | product, levels => max 1 (Expr.tallest (levels - 1))

/-- A bound on the height of a chain. The first operand has almost all the levels, and yet all
operations are on top of it. -/
def chainBound (level : Precedence) (levels : Nat) : Nat :=
  level.operandBound (levels - 1) + (levels - 1 - level.operand.least)

theorem operandBound_mono (level : Precedence) {m n : Nat} (h : m ≤ n) :
    level.operandBound m ≤ level.operandBound n := by
  cases level with
  | sum =>
    have hmono : Expr.tallest (m - 2) ≤ Expr.tallest (n - 2) := Expr.tallest_mono (by omega)
    simp only [operandBound]
    omega
  | product =>
    have hmono : Expr.tallest (m - 1) ≤ Expr.tallest (n - 1) := Expr.tallest_mono (by omega)
    simp only [operandBound]
    omega

/-- A comparison of two sums is one level above them, in the tree and in need. -/
theorem chainBound_sum_lt {levels : Nat} (h : 3 ≤ levels) :
    chainBound .sum levels < Expr.tallest (levels + 1) := by
  obtain ⟨more, rfl⟩ := Nat.exists_eq_add_of_le' h
  change _ < Expr.tallest (more + 4)
  rw [Expr.tallest_add_four]
  simp only [chainBound, operandBound, operand, Symbol.least]
  rw [show more + 3 - 1 - 2 = more by omega]
  omega

end Precedence

namespace Derivation

variable {trailing : Bool} {symbol : Symbol}

theorem least_le_need (D : Derivation trailing symbol) : symbol.least ≤ D.need := by
  induction D with
  | chain level first rest hfirst _ =>
    cases level <;> simp only [need, Symbol.least, Precedence.operand] at hfirst ⊢ <;> omega
  | _ =>
    simp only [need, Symbol.least] at *
    omega

/-- The bound on the tree of each symbol by the levels that it needs. Links stand on top of any tree
that is at least as high as their operands. -/
def Bounded : (symbol : Symbol) → Derivation trailing symbol → Prop
  | .program, D => ∀ levels, D.need ≤ levels + 4 → D.tree.height ≤ 2 + Expr.tallest levels
  | .sequence, D => ∀ levels, D.need ≤ levels + 3 →
      Stmt.heightAll D.tree ≤ 1 + Expr.tallest levels
  | .followers, D => ∀ levels, D.need ≤ levels + 2 →
      Stmt.heightAll D.tree ≤ 1 + Expr.tallest levels
  | .statement, D => ∀ levels, D.need ≤ levels + 2 → Stmt.height D.tree ≤ 1 + Expr.tallest levels
  | .comparison, D => ∀ levels, D.need ≤ levels → Expr.height D.tree ≤ Expr.tallest levels
  | .chain level, D => Expr.height D.tree ≤ level.chainBound D.need
  | .links level, D => ∀ (left : Expr) (bound : Nat), left.height ≤ bound →
      level.operandBound (D.need - 1) ≤ bound →
      Expr.height (D.tree left) ≤ bound + (D.need - level.operand.least)
  | .factor, D => Expr.height D.tree ≤ Precedence.operandBound .product D.need

theorem Bounded.operand {level : Precedence} {D : Derivation trailing level.operand}
    (h : Bounded level.operand D) :
    (level.operandTree D.tree).height ≤ level.operandBound D.need := by
  cases level with
  | sum => exact h
  | product => exact h

/-- A sequence inside of a statement is no higher than a condition beside it may be. -/
theorem bounded_block {B : Derivation trailing .sequence} (hB : Bounded .sequence B)
    (levels : Nat) (hneed : B.need ≤ levels) (hlevels : 4 ≤ levels) :
    1 + Stmt.heightAll B.tree ≤ Expr.tallest levels := by
  have hbody := hB (levels - 3) (by omega)
  have hblock := Expr.two_add_tallest_le hlevels
  omega

theorem bounded_conditional {ifWord : Token.OfKind (.keyword .ifWord)}
    {C : Derivation trailing .comparison} {thenWord : Token.OfKind (.keyword .thenWord)}
    {B : Derivation trailing .sequence} {endWord : Token.OfKind (.keyword .endWord)}
    (hC : Bounded .comparison C) (hB : Bounded .sequence B) :
    Bounded .statement (.conditional ifWord C thenWord B endWord) := by
  intro levels hneed
  simp only [need] at hneed
  have hleast : 4 ≤ C.need := C.least_le_need
  have hcondition := hC levels (by omega)
  have hbranch := bounded_block hB levels (by omega) (by omega)
  exact Nat.add_le_add_left (Nat.max_le.mpr ⟨hcondition, hbranch⟩) 1

theorem bounded_loop {repeatWord : Token.OfKind (.keyword .repeatWord)}
    {B : Derivation trailing .sequence} {untilWord : Token.OfKind (.keyword .untilWord)}
    {C : Derivation trailing .comparison} (hB : Bounded .sequence B) (hC : Bounded .comparison C) :
    Bounded .statement (.loop repeatWord B untilWord C) := by
  intro levels hneed
  simp only [need] at hneed
  have hleast : 4 ≤ C.need := C.least_le_need
  have hcondition := hC levels (by omega)
  have hbody := bounded_block hB levels (by omega) (by omega)
  exact Nat.add_le_add_left (Nat.max_le.mpr ⟨hbody, hcondition⟩) 1

theorem bounded_followers {R : Derivation trailing .followers}
    {F : Derivation trailing .statement} (hF : Bounded .statement F) (hR : Bounded .followers R)
    {levels : Nat} (hneed : max F.need R.need ≤ levels + 2) :
    max (Stmt.height F.tree) (Stmt.heightAll R.tree) ≤ 1 + Expr.tallest levels :=
  Nat.max_le.mpr ⟨hF levels (by omega), hR levels (by omega)⟩

/-- The two sides of a comparison are sums, each with a level less. -/
theorem bounded_compared {L : Derivation trailing (.chain .sum)} (hL : Bounded (.chain .sum) L)
    (levels : Nat) (hneed : 1 + L.need ≤ levels) : 1 + Expr.height L.tree ≤ Expr.tallest levels := by
  have hleast : 3 ≤ L.need := L.least_le_need
  calc
    1 + Expr.height L.tree ≤ 1 + Precedence.chainBound .sum L.need := Nat.add_le_add_left hL 1
    _ ≤ Expr.tallest (L.need + 1) := by
      rw [Nat.add_comm]
      exact Precedence.chainBound_sum_lt hleast
    _ ≤ Expr.tallest levels := Expr.tallest_mono (by omega)

theorem bounded_chain (level : Precedence) {F : Derivation trailing level.operand}
    {R : Derivation trailing (.links level)} (hF : Bounded level.operand F)
    (hR : Bounded (.links level) R) : Bounded (.chain level) (.chain level F R) := by
  have hfirst : (level.operandTree F.tree).height ≤ level.operandBound (max F.need R.need) :=
    calc
      _ ≤ level.operandBound F.need := hF.operand
      _ ≤ level.operandBound (max F.need R.need) := level.operandBound_mono (Nat.le_max_left _ _)
  have hrest : level.operandBound (R.need - 1) ≤ level.operandBound (max F.need R.need) :=
    level.operandBound_mono (by omega)
  have h := hR _ _ hfirst hrest
  simp only [Bounded, tree, need, Precedence.chainBound, Nat.add_sub_cancel_left]
  omega

theorem bounded_link (level : Precedence) {sign : Token.Sign level.operators}
    {O : Derivation trailing level.operand} {R : Derivation trailing (.links level)}
    (hO : Bounded level.operand O) (hR : Bounded (.links level) R) :
    Bounded (.links level) (.link level sign O R) := by
  intro left bound hleft hbound
  have hleast : level.operand.least ≤ O.need := O.least_le_need
  simp only [need, Nat.add_sub_cancel_left] at hbound
  have hoperand : (level.operandTree O.tree).height ≤ bound :=
    calc
      _ ≤ level.operandBound O.need := hO.operand
      _ ≤ level.operandBound (max O.need R.need) := level.operandBound_mono (Nat.le_max_left _ _)
      _ ≤ bound := hbound
  have hrest : level.operandBound (R.need - 1) ≤ bound + 1 :=
    calc
      _ ≤ level.operandBound (max O.need R.need) := level.operandBound_mono (by omega)
      _ ≤ bound + 1 := Nat.le_succ_of_le hbound
  have hbinary : (Expr.binary sign.op left (level.operandTree O.tree) sign.token.span).height ≤
      bound + 1 := by
    simp only [Expr.height]
    omega
  have h := hR _ _ hbinary hrest
  simp only [tree, need]
  omega

theorem bounded (D : Derivation trailing symbol) : Bounded symbol D := by
  -- On the derivation. The levels of a statement are shared by its parts, so that the bound is for
  -- any number of levels that is enough.
  induction D with
  | program B hB =>
    intro levels hneed
    simp only [need] at hneed
    have hbody := hB levels (by omega)
    simp only [tree, Program.height]
    omega
  | sequence F R hF hR =>
    intro levels hneed
    simp only [need] at hneed
    exact bounded_followers hF hR (by omega)
  | done => exact fun _ _ => Nat.zero_le _
  | doneAfter _ _ => exact fun _ _ => Nat.zero_le _
  | next _ F R hF hR => exact fun levels hneed => bounded_followers hF hR hneed
  | conditional _ _ _ _ _ hC hB => exact bounded_conditional hC hB
  | loop _ _ _ _ hB hC => exact bounded_loop hB hC
  | assign _ _ V hV | write _ V hV =>
    intro levels hneed
    simp only [need] at hneed
    exact Nat.add_le_add_left (hV levels (by omega)) 1
  | read _ _ => exact fun _ _ => Nat.le_add_right 1 _
  | single L hL =>
    intro levels hneed
    exact Nat.le_trans (Nat.le_add_left _ 1) (bounded_compared hL levels hneed)
  | compared L _ R hL hR =>
    intro levels hneed
    simp only [need] at hneed
    have hleft := bounded_compared hL levels (by omega)
    have hright := bounded_compared hR levels (by omega)
    simp only [tree, Expr.height]
    omega
  | chain level _ _ hF hR => exact bounded_chain level hF hR
  | stop level => exact fun left bound hleft _ => Nat.le_add_right_of_le hleft
  | link level _ _ _ hO hR => exact bounded_link level hO hR
  | brackets _ I _ hI =>
    have hinner := hI I.need (Nat.le_refl _)
    simp only [Bounded, tree, need, Precedence.operandBound, Nat.add_sub_cancel_left]
    omega
  | number _ _ _ => exact Nat.le_max_left 1 _
  | name _ => exact Nat.le_max_left 1 _

def lessSign : Token.Sign [.less, .equal] := ⟨.less, ⟨.operator .less, "<", {}⟩, rfl, by decide⟩

end Derivation

def Precedence.sign : (level : Precedence) → Token.Sign level.operators
  | .sum => ⟨.plus, ⟨.operator .plus, "+", {}⟩, rfl, by decide⟩
  | .product => ⟨.times, ⟨.operator .times, "*", {}⟩, rfl, by decide⟩

namespace Derivation

variable {trailing : Bool}

def manyLinks (level : Precedence) : Nat → Derivation trailing (.links level)
  | 0 => stop level
  | count + 1 => link level level.sign (shortestOperand level) (manyLinks level count)

theorem need_shortestOperand (level : Precedence) :
    (shortestOperand level : Derivation trailing level.operand).need = level.operand.least := by
  cases level <;> rfl

theorem height_shortestOperand (level : Precedence) :
    (level.operandTree (shortestOperand level : Derivation trailing _).tree).height = 1 := by
  cases level <;> rfl

theorem need_manyLinks_le (level : Precedence) (count : Nat) :
    (manyLinks level count : Derivation trailing _).need ≤ level.operand.least + count := by
  induction count with
  | zero => exact Nat.zero_le _
  | succ count ih =>
    simp only [manyLinks, need, need_shortestOperand]
    omega

theorem height_manyLinks (level : Precedence) (count : Nat) (left : Expr) :
    Expr.height ((manyLinks level count : Derivation trailing (.links level)).tree left) =
      left.height + count := by
  induction count generalizing left with
  | zero => rfl
  | succ count ih =>
    have hpos := left.height_pos
    simp only [manyLinks, tree]
    rw [ih, Expr.height, height_shortestOperand]
    omega

def tower (count : Nat) (first : Derivation trailing .factor) : Derivation trailing .comparison :=
  compared
    (chain .sum (chain .product first (manyLinks .product count)) (manyLinks .sum count)) lessSign
    (chain .sum (shortestOperand .sum) (stop .sum))

theorem need_tower (count : Nat) (first : Derivation trailing .factor) :
    (tower count first).need =
      1 + max (1 + max (1 + max first.need (manyLinks .product count : Derivation trailing _).need)
        (manyLinks .sum count : Derivation trailing _).need) 3 := rfl

theorem need_tower_le {count : Nat} {first : Derivation trailing .factor}
    (h : first.need ≤ count + 1) : (tower count first).need ≤ count + 4 := by
  have hproducts : (manyLinks .product count : Derivation trailing _).need ≤ 1 + count :=
    need_manyLinks_le .product count
  have hsums : (manyLinks .sum count : Derivation trailing _).need ≤ 2 + count :=
    need_manyLinks_le .sum count
  rw [need_tower]
  omega

theorem height_tower (count : Nat) (first : Derivation trailing .factor) :
    Expr.height (tower count first).tree = 1 + 2 * count + Expr.height first.tree := by
  let products : Derivation trailing (.links .product) := manyLinks .product count
  let sums : Derivation trailing (.links .sum) := manyLinks .sum count
  have hpos := Expr.height_pos first.tree
  have hproducts : Expr.height (products.tree first.tree) = Expr.height first.tree + count :=
    height_manyLinks .product count first.tree
  have hsums : Expr.height (sums.tree (products.tree first.tree)) =
      Expr.height first.tree + count + count := by
    rw [← hproducts]
    exact height_manyLinks .sum count _
  change 1 + max (Expr.height (sums.tree (products.tree first.tree))) 1 = _
  omega

def tallestComparison : Nat → Derivation trailing .comparison
  | levels + 8 => tower (levels + 4)
      (brackets (Token.sample _) (tallestComparison (levels + 4)) (Token.sample _))
  | levels => tower (levels - 4) shortestFactor

theorem need_tallestComparison_le {levels : Nat} (h : 4 ≤ levels) :
    (tallestComparison levels : Derivation trailing _).need ≤ levels := by
  induction levels using tallestComparison.induct with
  | case1 levels ih =>
    have hinner := ih (Nat.le_add_left 4 levels)
    rw [tallestComparison]
    refine @need_tower_le _ (levels + 4) _ ?_
    simp only [need]
    omega
  | case2 levels hfew =>
    rw [tallestComparison.eq_2 levels hfew]
    have htower : (tower (levels - 4) shortestFactor : Derivation trailing _).need ≤
        levels - 4 + 4 := need_tower_le (Nat.le_add_left 1 _)
    omega

theorem height_tallestComparison {levels : Nat} (h : 4 ≤ levels) :
    Expr.height (tallestComparison levels : Derivation trailing _).tree = Expr.tallest levels := by
  induction levels using tallestComparison.induct with
  | case1 levels ih =>
    have hinner := ih (Nat.le_add_left 4 levels)
    have hpos := Expr.height_pos (tallestComparison (levels + 4) : Derivation trailing _).tree
    rw [tallestComparison, height_tower]
    change _ + Expr.height (tallestComparison (levels + 4)).tree = Expr.tallest (levels + 4 + 4)
    rw [Expr.tallest_add_four (levels + 4), hinner] at *
    omega
  | case2 levels hfew =>
    obtain ⟨more, rfl⟩ := Nat.exists_eq_add_of_le' h
    have hzero : Expr.tallest more = 0 :=
      Expr.tallest.eq_2 more fun rest hrest => hfew rest (by omega)
    rw [tallestComparison.eq_2 _ hfew, height_tower, Expr.tallest_add_four, hzero]
    change _ + 1 = _
    omega

end Derivation

namespace Program

open TinyLang.Parser TinyLang.Derivation

variable (config : ParserConfig)

def tallest (levels : Nat) : Nat := 2 + Expr.tallest (levels - 4)

/-- A program is not higher than the tallest one, and not parsed at all with less than four levels. -/
theorem height_le_tallest {tokens : List Token} {program : Program}
    (h : parse config tokens = .ok program) :
    4 ≤ config.maxDepth ∧ program.height ≤ tallest config.maxDepth := by
  obtain ⟨D, -, rfl, hneed⟩ := derived_of_parse h
  have hleast : 4 ≤ D.need := D.least_le_need
  exact ⟨Nat.le_trans hleast hneed, D.bounded (config.maxDepth - 4) (by omega)⟩

theorem exists_height_eq_tallest (h : 4 ≤ config.maxDepth) :
    ∃ tokens program, parse config tokens = .ok program ∧
      program.height = tallest config.maxDepth := by
  have hparse (D : Derivation config.trailingSemicolon .program) (hneed : D.need ≤ config.maxDepth)
      (hheight : Program.height D.tree = tallest config.maxDepth) :
      ∃ tokens program, parse config tokens = .ok program ∧
        program.height = tallest config.maxDepth :=
    ⟨D.tokens, D.tree, (parse_of_derivation D D.beforeEnd_tokens.symm).1 hneed, hheight⟩
  -- A comparison needs four levels, below the four of a program, a sequence and a statement.
  by_cases hfew : config.maxDepth < 8
  · refine hparse (.program shortestSequence) h ?_
    rw [tallest, Expr.tallest_of_lt (by omega)]
    rfl
  · have hlevels : 4 ≤ config.maxDepth - 4 := by omega
    let value : Derivation config.trailingSemicolon .comparison :=
      tallestComparison (config.maxDepth - 4)
    have hvalue : value.need ≤ config.maxDepth - 4 := need_tallestComparison_le hlevels
    refine hparse (.program (.sequence (.write (Token.sample _) value) .done)) ?_ ?_
    · simp only [need]
      omega
    · calc
        1 + max (1 + Expr.height value.tree) 0 = 2 + Expr.height value.tree := by omega
        _ = tallest config.maxDepth := by rw [tallest, ← height_tallestComparison hlevels]

/-- From twelve levels on, the tallest program is too high. -/
theorem lt_tallest {levels : Nat} (h : 12 ≤ levels) : levels < tallest levels := by
  induction h with
  | refl => decide
  | @step levels hle ih =>
    obtain ⟨more, rfl⟩ := Nat.exists_eq_add_of_le' hle
    have hstep : 2 + Expr.tallest (more + 8) ≤ Expr.tallest (more + 9) :=
      Expr.two_add_tallest_le_succ (more + 4)
    change more + 12 < 2 + Expr.tallest (more + 8) at ih
    change more + 13 < 2 + Expr.tallest (more + 9)
    omega

theorem tallest_le {levels : Nat} (h : 4 ≤ levels) (hfew : levels ≤ 11) :
    tallest levels ≤ levels := by
  have hall : ∀ n ≤ 11, 4 ≤ n → tallest n ≤ n := by decide
  exact hall levels hfew h

theorem height_le_maxDepth_iff :
    (∀ tokens program, parse config tokens = .ok program → program.height ≤ config.maxDepth) ↔
      config.maxDepth ≤ 11 := by
  constructor
  · intro hall
    by_cases hmany : 12 ≤ config.maxDepth
    · obtain ⟨tokens, program, hparse, hheight⟩ := exists_height_eq_tallest config (by omega)
      have hle := hall tokens program hparse
      have hlt := lt_tallest hmany
      omega
    · omega
  · intro hfew tokens program hparse
    obtain ⟨hleast, hheight⟩ := height_le_tallest config hparse
    exact Nat.le_trans hheight (tallest_le hleast hfew)

/-- The tokens of one parse break the bound if their derivation is higher than the levels that it
needs, and than all others there are. -/
theorem maxDepth_lt_height_iff (tokens : List Token) :
    (∃ program, parse config tokens = .ok program ∧ config.maxDepth < program.height) ↔
      ∃ D : Derivation config.trailingSemicolon .program, D.tokens = Token.beforeEnd tokens ∧
        D.need ≤ config.maxDepth ∧ config.maxDepth < Program.height D.tree := by
  constructor
  · rintro ⟨program, hparse, hheight⟩
    obtain ⟨D, htokens, rfl, hneed⟩ := derived_of_parse hparse
    exact ⟨D, htokens, hneed, hheight⟩
  · rintro ⟨D, htokens, hneed, hheight⟩
    exact ⟨D.tree, (parse_of_derivation D htokens).1 hneed, hheight⟩

/-- The levels do not bound the height of a parsed program. The true bound is greater from twelve
levels on, and there is a program as high. Below twelve levels it does no harm. -/
theorem height_of_parse :
    ((∀ tokens program, parse config tokens = .ok program → program.height ≤ config.maxDepth) ↔
      config.maxDepth ≤ 11) ∧
    (∀ tokens, (∃ program, parse config tokens = .ok program ∧ config.maxDepth < program.height) ↔
      ∃ D : Derivation config.trailingSemicolon .program, D.tokens = Token.beforeEnd tokens ∧
        D.need ≤ config.maxDepth ∧ config.maxDepth < Program.height D.tree) ∧
    (∀ tokens program, parse config tokens = .ok program →
      program.height ≤ tallest config.maxDepth) ∧
    (4 ≤ config.maxDepth → ∃ tokens program, parse config tokens = .ok program ∧
      program.height = tallest config.maxDepth) :=
  ⟨height_le_maxDepth_iff config, maxDepth_lt_height_iff config,
    fun _ _ hparse => (height_le_tallest config hparse).2, exists_height_eq_tallest config⟩

/-- With twelve levels `write (1 < 1) * 1 * 1 * 1 * 1 + 1 + 1 + 1 + 1 < 1` is parsed, and it is
thirteen nodes high. -/
theorem height_of_brackets :
    ((parse ⟨12, false⟩ [⟨.keyword .writeWord, "write", {}⟩, ⟨.openBracket, "(", {}⟩,
      ⟨.number, "1", {}⟩, ⟨.operator .less, "<", {}⟩, ⟨.number, "1", {}⟩, ⟨.closeBracket, ")", {}⟩,
      ⟨.operator .times, "*", {}⟩, ⟨.number, "1", {}⟩, ⟨.operator .times, "*", {}⟩,
      ⟨.number, "1", {}⟩, ⟨.operator .times, "*", {}⟩, ⟨.number, "1", {}⟩,
      ⟨.operator .times, "*", {}⟩, ⟨.number, "1", {}⟩, ⟨.operator .plus, "+", {}⟩,
      ⟨.number, "1", {}⟩, ⟨.operator .plus, "+", {}⟩, ⟨.number, "1", {}⟩,
      ⟨.operator .plus, "+", {}⟩, ⟨.number, "1", {}⟩, ⟨.operator .plus, "+", {}⟩,
      ⟨.number, "1", {}⟩, ⟨.operator .less, "<", {}⟩, ⟨.number, "1", {}⟩,
      ⟨.endOfInput, "", {}⟩]).toOption.map height) = some 13 := by
  decide +kernel

end Program

end TinyLang
