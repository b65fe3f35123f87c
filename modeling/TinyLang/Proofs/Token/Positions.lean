import Mathlib.Data.List.DropRight
import Mathlib.Logic.Function.Iterate
import TinyLang.Proofs.Token.Tiling

namespace TinyLang

namespace Position

def lastLine (text : List Char) : List Char := text.rtakeWhile (· ≠ '\n')

def counted (text : List Char) : Position := ⟨1 + text.count '\n', 1 + (lastLine text).length⟩

def at? (source : List Char) (offset : Nat) : Option Position :=
  (Text.splitBytes? offset source).map fun (front, _) => counted front

theorem at?_append (front back : List Char) :
    at? (front ++ back) (Text.byteLength front) = some (counted front) := by
  rw [at?, Text.splitBytes?_append]
  rfl

/-- One more character moves the counted position as a scan does. -/
theorem next_counted (text : List Char) (c : Char) :
    (counted text).next c = counted (text ++ [c]) := by
  by_cases hc : c = '\n'
  · subst hc
    have hline : lastLine (text ++ ['\n']) = [] := List.rtakeWhile_concat_neg _ _ _ (by simp)
    simp [next, counted, hline, Nat.add_assoc]
  · have hline : lastLine (text ++ [c]) = lastLine text ++ [c] :=
      List.rtakeWhile_concat_pos _ _ _ (by simp [hc])
    simp [next, counted, hline, hc, Nat.add_assoc]

/-- Carrying a position along a text from its start comes to the same as counting. -/
theorem advance_first (text : List Char) : first.advance text = counted text := by
  -- From the end, since it is the last character that decides about the column.
  induction text using List.reverseRecOn with
  | nil => rfl
  | append_singleton text c ih =>
    rw [advance_append, ih]
    exact next_counted text c

/-- Within a line only the column moves on. -/
theorem advance_of_not_mem {text : List Char} (h : '\n' ∉ text) (p : Position) :
    p.advance text = ⟨p.line, p.column + text.length⟩ := by
  induction text generalizing p with
  | nil => rfl
  | cons c text ih =>
    have hc : c ≠ '\n' := (List.ne_of_not_mem_cons h).symm
    have hrest := ih (List.not_mem_of_not_mem_cons h) (p.next c)
    have hnext : p.next c = ⟨p.line, p.column + 1⟩ := if_neg hc
    calc p.advance (c :: text) = (p.next c).advance text := rfl
      _ = ⟨p.line, p.column + 1 + text.length⟩ := by rw [hrest, hnext]
      _ = ⟨p.line, p.column + (c :: text).length⟩ := by
        rw [List.length_cons, Nat.add_assoc, Nat.add_comm 1]

end Position

namespace Scanner

def step (scan : Scanner) : Scanner := scan.next?.elim scan Prod.snd

def HasPassed (scan : Scanner) (front rest : List Char) : Prop :=
  scan = { behind scan.source front rest with finished := scan.finished } ∧
    front ++ rest = scan.source.toList

theorem hasPassed_ofSource (source : String) : (ofSource source).HasPassed [] source.toList :=
  ⟨rfl, rfl⟩

/-- A call passes a gap, a token and what is dropped after it. -/
theorem HasPassed.step {scan : Scanner} {front rest : List Char} (h : scan.HasPassed front rest) :
    ∃ front' rest', scan.step.HasPassed front' rest' ∧ scan.step.source = scan.source := by
  obtain ⟨hscan, hsource⟩ := h
  cases hfinished : scan.finished with
  | true =>
    have hstep : scan.step = scan := by
      rw [Scanner.step, next?, if_pos hfinished]
      rfl
    rw [hstep]
    exact ⟨front, rest, ⟨hscan, hsource⟩, rfl⟩
  | false =>
    obtain ⟨gap, kind, lexeme, after, hgap, hmatches, rfl⟩ := Chunk.exists_matches rest
    have hbehind : scan = behind scan.source front (gap ++ (lexeme ++ after)) := by
      rw [hfinished] at hscan
      exact hscan
    have hnext := @next?_of_matches scan.source front _ _ _ _ hgap hmatches
    rw [← hbehind] at hnext
    have hcut : (Cut.ofMatch kind lexeme after).dropped ++ (Cut.ofMatch kind lexeme after).rest =
        after := by
      rw [Cut.ofMatch]
      split <;> simp
    rw [Scanner.step, hnext]
    refine ⟨_, _, ⟨rfl, ?_⟩, rfl⟩
    calc front ++ (gap ++ (lexeme ++ (Cut.ofMatch kind lexeme after).dropped)) ++
          (Cut.ofMatch kind lexeme after).rest
        = front ++ (gap ++ (lexeme ++ ((Cut.ofMatch kind lexeme after).dropped ++
          (Cut.ofMatch kind lexeme after).rest))) := by simp only [List.append_assoc]
      _ = front ++ (gap ++ (lexeme ++ after)) := by rw [hcut]
      _ = scan.source.toList := hsource

/-- After any number of calls some front of the source has been passed. -/
theorem exists_hasPassed (source : String) (calls : Nat) : ∃ front rest,
    (step^[calls] (ofSource source)).HasPassed front rest ∧
      (step^[calls] (ofSource source)).source = source := by
  induction calls with
  | zero => exact ⟨[], source.toList, hasPassed_ofSource source, rfl⟩
  | succ calls ih =>
    obtain ⟨front, rest, hpassed, hsource⟩ := ih
    obtain ⟨front', rest', hpassed', hsource'⟩ := hpassed.step
    rw [Function.iterate_succ_apply']
    exact ⟨front', rest', hpassed', hsource'.trans hsource⟩

theorem HasPassed.position_eq {scan : Scanner} {front rest : List Char}
    (h : scan.HasPassed front rest) :
    Position.at? scan.source.toList scan.offset = some scan.position := by
  obtain ⟨hscan, hsource⟩ := h
  have hoffset : scan.offset = Text.byteLength front := congrArg Scanner.offset hscan
  have hposition : scan.position = Position.first.advance front := congrArg Scanner.position hscan
  rw [← hsource, hoffset, hposition, Position.advance_first]
  exact Position.at?_append front rest

end Scanner

/-- A token stands on one line, from the position of its first byte to the one directly behind its
last byte. -/
structure Token.Placed (source : List Char) (token : Token) : Prop where
  start_eq : Position.at? source token.span.offset = some token.span.start
  stop_eq : Position.at? source token.endOffset = some token.span.stop
  not_newline : '\n' ∉ token.lexeme.toList
  stop_line : token.span.stop.line = token.span.start.line
  stop_column : token.span.stop.column = token.span.start.column + token.lexeme.toList.length

theorem Scans.placed {front rest : List Char} {tokens : List Token} (h : Scans front rest tokens) :
    ∀ token ∈ tokens, token.Placed (front ++ rest) := by
  intro token htoken
  have hblank := h.not_isBlank token htoken
  obtain ⟨before, lexeme, after, hsource, heq, -⟩ := h.exists_behind token htoken
  rw [heq, Token.behind_lexeme, String.toList_ofList] at hblank
  have hnewline : '\n' ∉ lexeme := fun hmem => absurd (hblank '\n' hmem) (by decide)
  have hstop : (Position.first.advance before).advance lexeme =
      ⟨(Position.first.advance before).line, (Position.first.advance before).column + lexeme.length⟩ :=
    Position.advance_of_not_mem hnewline _
  have hline := congrArg Position.line hstop
  have hcolumn := congrArg Position.column hstop
  have hwhole : (Position.first.advance before).advance lexeme =
      Position.counted (before ++ lexeme) := by
    rw [← Position.advance_append, Position.advance_first]
  rw [heq, ← hsource]
  exact
    { start_eq := by
        rw [Token.behind_offset, Position.at?_append]
        exact congrArg some (Position.advance_first before).symm
      stop_eq := by
        rw [Token.behind_endOffset, ← List.append_assoc, Position.at?_append]
        exact congrArg some hwhole.symm
      not_newline := by rwa [Token.behind_lexeme, String.toList_ofList]
      stop_line := hline
      stop_column := by
        rw [Token.behind_lexeme, String.toList_ofList]
        exact hcolumn }

/-- Lines and columns agree with offsets: those of a scan after any number of calls, and those at
both ends of every token. -/
theorem positions_tokenize (source : String) :
    (∀ calls : Nat, Position.at? source.toList (Scanner.step^[calls] (.ofSource source)).offset =
      some (Scanner.step^[calls] (.ofSource source)).position) ∧
    ∀ token ∈ tokenize source, token.Placed source.toList := by
  constructor
  · intro calls
    obtain ⟨front, rest, hpassed, hsource⟩ := Scanner.exists_hasPassed source calls
    have hposition := hpassed.position_eq
    rwa [hsource] at hposition
  · exact (scans_tokenize source).placed

/-- A comment over two lines, with a character of two bytes in it, stands before the name. -/
theorem positions_of_comment :
    ⟨.identifier, "x", ⟨6, 1, ⟨2, 3⟩, ⟨2, 4⟩⟩⟩ ∈ tokenize "\x7bé\n\x7d x" ∧
      Token.Placed "\x7bé\n\x7d x".toList ⟨.identifier, "x", ⟨6, 1, ⟨2, 3⟩, ⟨2, 4⟩⟩⟩ := by
  have hmem : ⟨.identifier, "x", ⟨6, 1, ⟨2, 3⟩, ⟨2, 4⟩⟩⟩ ∈ tokenize "\x7bé\n\x7d x" := by
    decide +kernel
  exact ⟨hmem, (positions_tokenize "\x7bé\n\x7d x").2 _ hmem⟩

end TinyLang
