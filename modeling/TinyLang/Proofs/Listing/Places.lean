import TinyLang.Listing

/-!
Where the tokens of a listing stand in it. Every token gets the number of its line, but its offset
counts one byte too few for every line before that a carriage return and a line feed end. So a token
stands at the start of its line if and only if there is no such line before and the line is there:
an end of input that is added behind an open last line lies outside of the text.
-/
namespace TinyLang

namespace Text

def Closed (text : List Char) : Prop := ∀ c ∈ text.getLast?, c = '\n'

def returns (text : List Char) : Nat :=
  (pieces '\n' text).dropLast.countP fun line => line.getLast? = some '\r'

theorem closed_nil : Closed [] := by simp [Closed]

theorem closed_append_iff {line rest : List Char} :
    Closed (line ++ '\n' :: rest) ↔ Closed rest := by
  cases hlast : rest.getLast? <;> simp [Closed, List.getLast?_cons, hlast]

theorem not_closed {text : List Char} (h : '\n' ∉ text) (hne : text ≠ []) : ¬ Closed text :=
  fun hclosed => h (hclosed _ (List.getLast?_eq_some_getLast hne) ▸ List.getLast_mem hne)

theorem returns_of_not_mem {text : List Char} (h : '\n' ∉ text) : returns text = 0 := by
  rw [returns, pieces_of_not_mem h]
  rfl

theorem returns_append {line : List Char} (h : '\n' ∉ line) (rest : List Char) :
    returns (line ++ '\n' :: rest) = returns rest + if line.getLast? = some '\r' then 1 else 0 := by
  rw [returns, returns, pieces_append h, List.dropLast_cons_of_ne_nil (pieces_ne_nil _ _),
    List.countP_cons]
  simp

theorem returns_le (front back : List Char) : returns front ≤ returns (front ++ back) := by
  induction front using pieces_induction '\n' with
  | last front h =>
    rw [returns_of_not_mem h]
    exact Nat.zero_le _
  | step line rest h ih =>
    rw [List.append_assoc, List.cons_append, returns_append h, returns_append h]
    exact Nat.add_le_add_right ih _

theorem byteLength_dropMark (line : List Char) :
    byteLength (dropMark '\r' line) + (if line.getLast? = some '\r' then 1 else 0) =
      byteLength line := by
  rw [dropMark]
  split
  · next h =>
    obtain ⟨front, rfl⟩ := List.getLast?_eq_some_iff.mp h
    rw [List.dropLast_concat, byteLength_append]
    rfl
  · rfl

theorem dropMark_prefix (line : List Char) : dropMark '\r' line <+: line := by
  rw [dropMark]
  split
  · exact List.dropLast_prefix line
  · exact List.prefix_refl line

/-- A closed front of a text is known by the number of its lines. -/
theorem eq_of_closed {front back front' back' : List Char} (h : front ++ back = front' ++ back')
    (hfront : Closed front) (hfront' : Closed front')
    (hcount : front.count '\n' = front'.count '\n') : front = front' := by
  have key {a b : List Char} (hclosed : Closed (a ++ b))
      (hcount : a.count '\n' = (a ++ b).count '\n') : b = [] := by
    refine Decidable.byContradiction fun hne => ?_
    rw [List.count_append, Nat.left_eq_add, List.count_eq_zero] at hcount
    have hlast := List.getLast?_eq_some_getLast hne
    rw [Closed, List.getLast?_append, hlast, Option.some_or, ← hlast] at hclosed
    exact not_closed hcount hne hclosed
  rcases List.append_eq_append_iff.mp h with ⟨middle, rfl, -⟩ | ⟨middle, rfl, -⟩
  · rw [key hfront' hcount, List.append_nil]
  · rw [key hfront hcount.symm, List.append_nil]

end Text

namespace Listing

def lineSpan (number offset : Nat) (lexeme : List Char) : Span :=
  ⟨offset, Text.byteLength lexeme, ⟨number, 1⟩, ⟨number, 1 + lexeme.length⟩⟩

structure OnLine (text : List Char) (number : Nat) (token : Token) : Prop where
  span_eq : token.span = lineSpan number token.span.offset token.lexeme.toList
  slice_eq : Text.slice? token.span.offset token.span.length text = some token.lexeme.toList
  line_start : ∃ front back, text = front ++ back ∧ Text.Closed front ∧
    front.count '\n' + 1 = number ∧ Text.byteLength front = token.span.offset

/-- What reading says of the place of a token in a text whose first line has the given number and
starts at the given byte. -/
inductive Place (number offset : Nat) (text : List Char) (token : Token) : Prop
  /-- The token begins a line of the text. Carriage returns that end lines before are not
  counted. -/
  | line {front back : List Char} (text_eq : text = front ++ (token.lexeme.toList ++ back))
      (closed : Text.Closed front)
      (span_eq : token.span =
        lineSpan (number + front.count '\n') token.span.offset token.lexeme.toList)
      (offset_eq : token.span.offset + Text.returns front = offset + Text.byteLength front)
  /-- The token ends an input whose last line is open, and is put on a line that is not there. -/
  | past (not_closed : ¬ Text.Closed text) (lexeme_eq : token.lexeme.toList = [])
      (span_eq : token.span = lineSpan (number + text.count '\n' + 1) token.span.offset [])
      (offset_eq : token.span.offset + Text.returns text = offset + Text.byteLength text + 1)

variable {number offset : Nat} {token : Token} {tokens : List Token}

/-- How a reading goes on after a line. -/
theorem of_readLines_cons {line : List Char} {rest : List (Option (List Char))}
    (h : readLines number offset (some line :: rest) = .ok tokens) :
    ∃ found, readLine number offset line = .ok found ∧
      (found.any Token.isEnd = true ∧ tokens = found.toList ∨
        found.any Token.isEnd = false ∧ ∃ later,
          readLines (number + 1) (offset + Text.byteLength line + 1) rest = .ok later ∧
            tokens = found.toList ++ later) := by
  rw [readLines] at h
  cases hline : readLine number offset line with
  | error error =>
    rw [hline] at h
    cases h
  | ok found =>
    refine ⟨found, rfl, ?_⟩
    rw [hline] at h
    change (if found.any Token.isEnd = true then _ else _) = _ at h
    split at h
    · next hend =>
      cases h
      exact .inl ⟨hend, rfl⟩
    · next hend =>
      cases hrest : readLines (number + 1) (offset + Text.byteLength line + 1) rest with
      | error error =>
        rw [hrest] at h
        cases h
      | ok later =>
        rw [hrest] at h
        cases h
        exact .inr ⟨Bool.eq_false_iff.mpr hend, later, rfl, rfl⟩

/-- The lexeme of a token begins the line from which it is read, unless the token ends the input. -/
theorem of_readLine {line : List Char} (h : readLine number offset line = .ok (some token)) :
    token.lexeme.toList <+: line ∧ token.span = lineSpan number offset token.lexeme.toList ∧
      (token.isEnd = true → token.lexeme = "") := by
  have htrim : Text.trimReturns line <+: line := by
    rw [← List.reverse_suffix, Text.trimReturns, Text.dropEndWhile, List.reverse_reverse]
    exact List.dropWhile_suffix _
  simp only [readLine] at h
  split at h
  · cases h
  split at h
  · cases h
  next lexeme back hsplit =>
    have hlexeme : lexeme <+: line := by
      rw [(splitLastComma?_eq_some_iff.mp hsplit).1] at htrim
      exact (List.prefix_append _ _).trans htrim
    split at h
    · cases h
    · cases h
      exact ⟨List.nil_prefix, rfl, fun _ => rfl⟩
    · next hkind _ =>
      cases h
      refine ⟨by rwa [String.toList_ofList], by rw [String.toList_ofList]; rfl, fun hend => ?_⟩
      exact (hkind (of_decide_eq_true hend)).elim

theorem Place.of_line {line rest : List Char} (hline : '\n' ∉ line)
    (h : Place (number + 1) (offset + Text.byteLength (Text.dropMark '\r' line) + 1) rest token) :
    Place number offset (line ++ '\n' :: rest) token := by
  have hmark := Text.byteLength_dropMark line
  have hcount (front : List Char) :
      (line ++ '\n' :: front).count '\n' = front.count '\n' + 1 := by
    rw [List.count_append, List.count_cons_self, List.count_eq_zero.mpr hline, Nat.zero_add]
  have hbytes (front : List Char) : Text.byteLength (line ++ '\n' :: front) =
      Text.byteLength line + 1 + Text.byteLength front := by
    rw [Text.byteLength_append, Text.byteLength_cons, ← Nat.add_assoc]
    rfl
  cases h with
  | @line front back htext hclosed hspan hoffset =>
    have htext' : line ++ '\n' :: rest =
        line ++ '\n' :: front ++ (token.lexeme.toList ++ back) := by
      rw [htext, List.append_assoc, List.cons_append]
    refine .line htext' (Text.closed_append_iff.mpr hclosed) ?_ ?_
    · rwa [hcount, Nat.add_left_comm, Nat.add_comm]
    · rw [Text.returns_append hline, hbytes]
      omega
  | past hopen hlexeme hspan hoffset =>
    refine .past (mt Text.closed_append_iff.mp hopen) hlexeme ?_ ?_
    · rwa [hcount, ← Nat.add_assoc, Nat.add_right_comm number]
    · rw [Text.returns_append hline, hbytes]
      omega

theorem place_of_readLine {line back : List Char}
    (h : readLine number offset line = .ok (some token)) (hfront : line <+: back) :
    Place number offset back token := by
  obtain ⟨hlexeme, hspan, -⟩ := of_readLine h
  obtain ⟨rest, rfl⟩ := hlexeme.trans hfront
  have htext : token.lexeme.toList ++ rest = [] ++ (token.lexeme.toList ++ rest) := rfl
  exact .line htext Text.closed_nil (by rw [hspan]; rfl) (by rw [hspan]; rfl)

/-- Every token has a place in the text from which it is read. -/
theorem place_of_readLines {text : List Char}
    (h : readLines number offset ((Text.lines '\n' '\r' text).map some) = .ok tokens) :
    ∀ token ∈ tokens, Place number offset text token := by
  induction text using Text.pieces_induction '\n'
    generalizing number offset tokens with
  | last text hfeed =>
    rw [Text.lines_of_not_mem hfeed] at h
    split at h
    · next hnil =>
      cases h
      rw [List.forall_mem_singleton]
      have htext : text = [] ++ ((Token.endAt offset ⟨number, 1⟩).lexeme.toList ++ []) := hnil
      exact .line htext Text.closed_nil rfl rfl
    · next hne =>
      obtain ⟨found, hfound, hend⟩ := of_readLines_cons h
      have hfirst (token : Token) (hmem : token ∈ found.toList) :
          Place number offset text token := by
        rw [Option.mem_toList] at hmem
        exact place_of_readLine (hmem ▸ hfound) (List.prefix_refl text)
      rcases hend with ⟨-, rfl⟩ | ⟨-, later, hlater, rfl⟩
      · exact hfirst
      · cases hlater
        rw [List.forall_mem_append]
        refine ⟨hfirst, ?_⟩
        rw [List.forall_mem_singleton]
        refine .past (Text.not_closed hfeed hne) rfl ?_ ?_
        · rw [List.count_eq_zero.mpr hfeed]
          rfl
        · rw [Text.returns_of_not_mem hfeed]
          rfl
  | step line rest hfeed ih =>
    rw [Text.lines_append hfeed, List.map_cons] at h
    obtain ⟨found, hfound, hend⟩ := of_readLines_cons h
    have hfirst (token : Token) (hmem : token ∈ found.toList) :
        Place number offset (line ++ '\n' :: rest) token := by
      rw [Option.mem_toList] at hmem
      exact place_of_readLine (hmem ▸ hfound) ((Text.dropMark_prefix line).trans
        (List.prefix_append _ _))
    rcases hend with ⟨-, rfl⟩ | ⟨-, later, hlater, rfl⟩
    · exact hfirst
    · exact List.forall_mem_append.mpr
        ⟨hfirst, fun token hmem => (ih hlater token hmem).of_line hfeed⟩

/-- A token stands on its line if and only if the line is there and no line before is ended by a
carriage return and a line feed. -/
theorem Place.onLine_iff {text : List Char} (h : Place 1 0 text token) :
    OnLine text token.span.line token ↔ ∃ front back, text = front ++ back ∧ Text.Closed front ∧
      front.count '\n' + 1 = token.span.line ∧ Text.returns front = 0 := by
  cases h with
  | @line front back htext hclosed hspan hoffset =>
    have hline : token.span.line = front.count '\n' + 1 := by
      rw [hspan, Nat.add_comm]
      rfl
    constructor
    · intro h
      obtain ⟨front', back', htext', hclosed', hcount, hbytes⟩ := h.line_start
      obtain rfl : front' = front :=
        Text.eq_of_closed (htext'.symm.trans htext) hclosed' hclosed (by omega)
      exact ⟨front', back', htext', hclosed', hcount, by omega⟩
    · rintro ⟨front', back', htext', hclosed', hcount, hreturns⟩
      obtain rfl : front' = front :=
        Text.eq_of_closed (htext'.symm.trans htext) hclosed' hclosed (by omega)
      have hbytes : Text.byteLength front' = token.span.offset := by omega
      refine ⟨by rwa [hline, Nat.add_comm], ?_, front', back', htext', hclosed', hcount, hbytes⟩
      have hlength : token.span.length = Text.byteLength token.lexeme.toList := by
        rw [hspan]
        rfl
      rw [hlength, ← hbytes, htext]
      exact Text.slice?_append _ _ _
  | past hopen hlexeme hspan hoffset =>
    -- No closed front has as many lines as the whole text with its open line.
    have hno (front back : List Char) (htext : text = front ++ back)
        (hcount : front.count '\n' + 1 = token.span.line) : False := by
      have hline : token.span.line = text.count '\n' + 2 := by
        rw [hspan, Nat.add_comm 1]
        rfl
      rw [htext, List.count_append] at hline
      omega
    constructor
    · intro h
      obtain ⟨front, back, htext, -, hcount, -⟩ := h.line_start
      exact (hno front back htext hcount).elim
    · rintro ⟨front, back, htext, -, hcount, -⟩
      exact (hno front back htext hcount).elim

/-- In a closed text whose lines are ended by line feeds alone, every token stands on its line. -/
theorem Place.onLine {text : List Char} (h : Place 1 0 text token) (hclosed : Text.Closed text)
    (hreturns : Text.returns text = 0) : OnLine text token.span.line token := by
  refine h.onLine_iff.mpr ?_
  cases h with
  | @line front back htext hfront hspan _ =>
    have hle := Text.returns_le front (token.lexeme.toList ++ back)
    rw [← htext, hreturns] at hle
    refine ⟨front, token.lexeme.toList ++ back, htext, hfront, ?_, Nat.le_zero.mp hle⟩
    rw [hspan, Nat.add_comm]
    rfl
  | past hopen _ _ _ => exact absurd hclosed hopen

/-- What is read from a text has places in it, and a token stands on its line if and only if the
line is there and no line before is ended by a carriage return and a line feed. -/
theorem onLine_iff_of_read {text : String} (h : read text = .ok tokens) (hmem : token ∈ tokens) :
    Place 1 0 text.toList token ∧
      (OnLine text.toList token.span.line token ↔
        ∃ front back, text.toList = front ++ back ∧ Text.Closed front ∧
          front.count '\n' + 1 = token.span.line ∧ Text.returns front = 0) :=
  have hplace := place_of_readLines h token hmem
  ⟨hplace, hplace.onLine_iff⟩

/-- The line feeds alone end the lines of this text, so each token stands on its line. The end of
the input is added behind the last line. -/
theorem onLine_iff_of_feeds :
    read "a,IDENTIFIER\n\nbc,IDENTIFIER\n" =
      .ok [⟨.identifier, "a", ⟨0, 1, ⟨1, 1⟩, ⟨1, 2⟩⟩⟩, ⟨.identifier, "bc", ⟨14, 2, ⟨3, 1⟩, ⟨3, 3⟩⟩⟩,
        .endAt 28 ⟨4, 1⟩] ∧
    OnLine "a,IDENTIFIER\n\nbc,IDENTIFIER\n".toList 3
      ⟨.identifier, "bc", ⟨14, 2, ⟨3, 1⟩, ⟨3, 3⟩⟩⟩ := by
  have hread : read "a,IDENTIFIER\n\nbc,IDENTIFIER\n" =
      .ok [⟨.identifier, "a", ⟨0, 1, ⟨1, 1⟩, ⟨1, 2⟩⟩⟩,
        ⟨.identifier, "bc", ⟨14, 2, ⟨3, 1⟩, ⟨3, 3⟩⟩⟩, .endAt 28 ⟨4, 1⟩] := rfl
  have hsecond := onLine_iff_of_read hread (List.mem_cons_of_mem _ List.mem_cons_self)
  refine ⟨hread, hsecond.2.mpr ?_⟩
  have hclosed : Text.Closed "a,IDENTIFIER\n\n".toList := by
    rintro _ ⟨⟩
    rfl
  exact ⟨"a,IDENTIFIER\n\n".toList, "bc,IDENTIFIER\n".toList, rfl, hclosed, rfl, rfl⟩

/-- The second line starts at the byte 14, and its token is put at the byte 13, where the first line
has its line feed. -/
theorem not_onLine_of_returns :
    read "x,IDENTIFIER\r\ny,IDENTIFIER\r\n,EOF\r\n" =
      .ok [⟨.identifier, "x", ⟨0, 1, ⟨1, 1⟩, ⟨1, 2⟩⟩⟩, ⟨.identifier, "y", ⟨13, 1, ⟨2, 1⟩, ⟨2, 2⟩⟩⟩,
        .endAt 26 ⟨3, 1⟩] ∧
    Text.slice? 13 1 "x,IDENTIFIER\r\ny,IDENTIFIER\r\n,EOF\r\n".toList = some ['\n'] ∧
    ¬ OnLine "x,IDENTIFIER\r\ny,IDENTIFIER\r\n,EOF\r\n".toList 2
      ⟨.identifier, "y", ⟨13, 1, ⟨2, 1⟩, ⟨2, 2⟩⟩⟩ := by
  have hslice : Text.slice? 13 1 "x,IDENTIFIER\r\ny,IDENTIFIER\r\n,EOF\r\n".toList =
      some ['\n'] := by decide +kernel
  refine ⟨rfl, hslice, fun h => ?_⟩
  exact absurd (hslice.symm.trans h.slice_eq) (by decide)

end Listing

end TinyLang
