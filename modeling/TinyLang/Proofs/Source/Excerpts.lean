import TinyLang.Proofs.Text.Rows
import TinyLang.Proofs.Token.Positions
import TinyLang.Source.Excerpt

namespace TinyLang

namespace Text

variable {text : List Char}

theorem byteLength_pos (h : text ≠ []) : 0 < byteLength text := by
  cases text with
  | nil => exact absurd rfl h
  | cons c rest =>
    have hsize := c.utf8Size_pos
    rw [byteLength_cons]
    omega

end Text

namespace Position

/-- What stands before a line feed is not on the last line. -/
theorem lastLine_append (front rest : List Char) :
    lastLine (front ++ '\n' :: rest) = lastLine rest := by
  have hreverse : (front ++ '\n' :: rest).reverse = rest.reverse ++ '\n' :: front.reverse := by
    simp
  rw [lastLine, List.rtakeWhile, hreverse, List.takeWhile_append]
  split
  · next hwhole =>
    rw [List.takeWhile_cons_of_neg (by decide), List.append_nil, lastLine, List.rtakeWhile,
      (List.takeWhile_prefix _).eq_of_length hwhole]
  · rfl

theorem lastLine_of_not_mem {text : List Char} (h : '\n' ∉ text) : lastLine text = text := by
  rw [lastLine, List.rtakeWhile_eq_self_iff]
  intro c hc
  apply decide_eq_true
  rintro rfl
  exact h hc

/-- The text is cut into pieces before the line on which the front ends, that line, and later
ones. -/
theorem exists_pieces_append (front back : List Char) : ∃ closed later,
    Text.pieces '\n' (front ++ back) =
      closed ++ (lastLine front ++ back.takeWhile (· ≠ '\n')) :: later ∧
        closed.length = front.count '\n' := by
  induction front using Text.pieces_induction '\n' with
  | last text hfeed =>
    have hline : '\n' ∉ text ++ back.takeWhile (· ≠ '\n') := by
      intro hmem
      rcases List.mem_append.mp hmem with htext | hback
      · exact hfeed htext
      · exact absurd (List.mem_takeWhile_imp hback) (by decide)
    have hback : back.takeWhile (· ≠ '\n') ++ back.dropWhile (· ≠ '\n') = back :=
      List.takeWhile_append_dropWhile
    have hcount : text.count '\n' = 0 := List.count_eq_zero.mpr hfeed
    rw [lastLine_of_not_mem hfeed, hcount]
    cases hrest : back.dropWhile (· ≠ '\n') with
    | nil =>
      rw [hrest, List.append_nil] at hback
      rw [hback] at hline ⊢
      exact ⟨[], [], Text.pieces_of_not_mem hline, rfl⟩
    | cons c rest =>
      have hhead := List.head?_dropWhile_not (· ≠ '\n') back
      rw [hrest] at hhead
      obtain rfl : c = '\n' := by simpa using hhead
      refine ⟨[], Text.pieces '\n' rest, ?_, rfl⟩
      rw [hrest] at hback
      calc Text.pieces '\n' (text ++ back)
          = Text.pieces '\n' ((text ++ back.takeWhile (· ≠ '\n')) ++ '\n' :: rest) := by
            rw [List.append_assoc, hback]
        _ = _ := Text.pieces_append hline rest
  | step closed rest hfeed ih =>
    obtain ⟨between, later, hpieces, hlength⟩ := ih
    refine ⟨closed :: between, later, ?_, ?_⟩
    · rw [List.append_assoc, List.cons_append, Text.pieces_append hfeed, hpieces,
        lastLine_append, List.cons_append]
    · rw [List.length_cons, hlength, List.count_append, List.count_eq_zero.mpr hfeed,
        List.count_cons_self, Nat.zero_add]

end Position

namespace SourceLine

def bytes : List (List Char) → Nat
  | [] => 0
  | line :: rest => Text.byteLength line + 1 + bytes rest

@[simp] theorem bytes_append (lines later : List (List Char)) :
    bytes (lines ++ later) = bytes lines + bytes later := by
  induction lines with
  | nil => rw [List.nil_append, bytes, Nat.zero_add]
  | cons line lines ih =>
    rw [List.cons_append, bytes, bytes, ih]
    omega

theorem enumerate_append (lines later : List (List Char)) (number offset : Nat) :
    enumerate number offset (lines ++ later) =
      enumerate number offset lines ++
        enumerate (number + lines.length) (offset + bytes lines) later := by
  induction lines generalizing number offset with
  | nil => rfl
  | cons line lines ih =>
    rw [List.cons_append, enumerate, enumerate, ih, List.cons_append, bytes, List.length_cons]
    congr 3 <;> omega

theorem number_of_mem_enumerate {lines : List (List Char)} {number offset : Nat}
    {entry : SourceLine} (h : entry ∈ enumerate number offset lines) :
    number ≤ entry.number ∧ entry.number < number + lines.length ∧ entry.column = 0 := by
  induction lines generalizing number offset with
  | nil => cases h
  | cons line lines ih =>
    rw [List.length_cons]
    rcases List.mem_cons.mp h with rfl | hlater
    · exact ⟨Nat.le_refl _, by show number < _; omega, rfl⟩
    · have hnumber := ih hlater
      omega

theorem exists_piece_of_mem_enumerate {lines : List (List Char)} {number offset : Nat}
    {entry : SourceLine} (h : entry ∈ enumerate number offset lines) :
    ∃ line ∈ lines, entry.text.toList = Text.trimReturns line := by
  induction lines generalizing number offset with
  | nil => cases h
  | cons line lines ih =>
    rcases List.mem_cons.mp h with rfl | hlater
    · exact ⟨line, List.mem_cons_self, String.toList_ofList⟩
    · obtain ⟨other, hother, htext⟩ := ih hlater
      exact ⟨other, List.mem_cons_of_mem _ hother, htext⟩

/-- What is shown of an entry of an excerpt is read back as a line. -/
theorem isLine_of_mem_excerpt {before after : Nat} {source : String} {span : Span}
    {entry : SourceLine} (h : entry ∈ excerpt before after source span) :
    Text.IsLine (Text.trimEnd entry.text.toList) := by
  have hall : ∀ line ∈ all source, Text.IsLine (Text.trimEnd line.text.toList) := by
    intro line hline
    obtain ⟨piece, hpiece, htext⟩ := exists_piece_of_mem_enumerate hline
    rw [htext, Text.trimEnd_trimReturns]
    exact .trimEnd hpiece
  have hmarked : ∀ line ∈ ((all source).filter fun line =>
        span.line - before ≤ line.number && line.number ≤ span.line + after).map
          fun line => if line.number = span.line then { line with column := span.column - 1 }
            else line,
      Text.IsLine (Text.trimEnd line.text.toList) := by
    rw [List.forall_mem_map]
    intro line hline
    split <;> exact hall line (List.mem_of_mem_filter hline)
  simp only [excerpt] at h
  split at h
  · exact hmarked entry h
  · rcases List.mem_append.mp h with hnear | hlast
    · exact hmarked entry hnear
    · have hempty : Text.IsLine (Text.trimEnd "".toList) := by decide
      rw [List.mem_singleton.mp hlast]
      exact hempty

/-- What is shown of a line of a text, counted from 1: all but the blanks at its end. -/
def shown (source : String) (number : Nat) : List Char :=
  Text.trimEnd ((Text.pieces '\n' source.toList)[number - 1]?.getD [])

theorem isLine_shown (source : String) (number : Nat) : Text.IsLine (shown source number) := by
  rw [shown]
  cases hpiece : (Text.pieces '\n' source.toList)[number - 1]? with
  | none => decide
  | some piece => exact .trimEnd (List.mem_of_getElem? hpiece)

/-- Where a front of the text ends, its last line is shown with what follows on the same line. -/
theorem shown_counted {source : String} {front back : List Char}
    (h : front ++ back = source.toList) :
    shown source (Position.counted front).line =
      Text.trimEnd (Position.lastLine front ++ back.takeWhile (· ≠ '\n')) := by
  obtain ⟨closed, later, hpieces, hlength⟩ := Position.exists_pieces_append front back
  have hindex : (Position.counted front).line - 1 = closed.length := by
    rw [hlength]
    exact Nat.add_sub_cancel_left 1 _
  rw [shown, hindex, ← h, hpieces, List.getElem?_append_right (Nat.le_refl _), Nat.sub_self]
  rfl

/-- The lines of a text are shown under their numbers. -/
theorem map_enumerate_shown {source : String} {front lines back : List (List Char)}
    (h : Text.pieces '\n' source.toList = front ++ (lines ++ back)) (offset : Nat) :
    (enumerate (front.length + 1) offset lines).map (fun entry =>
        (entry.number, Text.trimEnd entry.text.toList)) =
      (List.range' (front.length + 1) lines.length).map fun number =>
        (number, shown source number) := by
  induction lines generalizing front offset with
  | nil => rfl
  | cons line lines ih =>
    have hnext : Text.pieces '\n' source.toList = (front ++ [line]) ++ (lines ++ back) := by
      rw [h, List.append_assoc, List.cons_append, List.singleton_append]
    have hlater := ih hnext (offset + Text.byteLength line + 1)
    rw [List.length_append, List.length_singleton] at hlater
    have hline : shown source (front.length + 1) = Text.trimEnd line := by
      rw [shown, h, Nat.add_sub_cancel, List.getElem?_append_right (Nat.le_refl _), Nat.sub_self]
      rfl
    rw [enumerate, List.map_cons, hlater, List.length_cons, List.range'_succ, List.map_cons, hline,
      String.toList_ofList, Text.trimEnd_trimReturns]

end SourceLine

section Excerpt

variable {source : String} {span : Span} {before after : Nat}
  {front near later back : List (List Char)} {line : List Char}

/-- An excerpt consists of the line on which a span starts and the lines around it, cut out of the
lines of the text. -/
theorem excerpt_eq
    (hpieces : Text.pieces '\n' source.toList = front ++ (near ++ line :: (later ++ back)))
    (hline : span.line = front.length + near.length + 1)
    (hbefore : near.length = min before (front.length + near.length))
    (hafter : later.length = min after (later.length + back.length)) :
    excerpt before after source span =
      SourceLine.enumerate (front.length + 1) (SourceLine.bytes front) near ++
        ⟨span.line, span.column - 1, SourceLine.bytes (front ++ near),
          String.ofList (Text.trimReturns line)⟩ ::
            SourceLine.enumerate (span.line + 1)
              (SourceLine.bytes (front ++ near ++ [line])) later := by
  have hall : SourceLine.all source = SourceLine.enumerate 1 0 front ++
      (SourceLine.enumerate (front.length + 1) (SourceLine.bytes front) near ++
        ⟨span.line, 0, SourceLine.bytes (front ++ near), String.ofList (Text.trimReturns line)⟩ ::
          (SourceLine.enumerate (span.line + 1)
              (SourceLine.bytes (front ++ near ++ [line])) later ++
            SourceLine.enumerate (span.line + 1 + later.length)
              (SourceLine.bytes (front ++ near ++ [line] ++ later)) back)) := by
    have hnumber : 1 + front.length + near.length = span.line := by omega
    rw [SourceLine.all, hpieces, SourceLine.enumerate_append, SourceLine.enumerate_append,
      SourceLine.enumerate, SourceLine.enumerate_append, hnumber, Nat.zero_add,
      Nat.add_comm 1 front.length]
    simp [SourceLine.bytes, Nat.add_assoc]
  have hdrop (part : List SourceLine) (h : ∀ entry ∈ part,
      ¬ (span.line - before ≤ entry.number ∧ entry.number ≤ span.line + after)) :
      (part.filter fun entry =>
        span.line - before ≤ entry.number && entry.number ≤ span.line + after) = [] := by
    apply List.filter_eq_nil_iff.mpr
    intro entry hentry
    simpa using h entry hentry
  have hkeep (part : List SourceLine) (h : ∀ entry ∈ part,
      span.line - before ≤ entry.number ∧ entry.number ≤ span.line + after) :
      (part.filter fun entry =>
        span.line - before ≤ entry.number && entry.number ≤ span.line + after) = part := by
    apply List.filter_eq_self.mpr
    intro entry hentry
    simpa using h entry hentry
  have hsame (part : List SourceLine) (h : ∀ entry ∈ part, entry.number ≠ span.line) :
      (part.map fun entry =>
        if entry.number = span.line then { entry with column := span.column - 1 } else entry) =
          part := by
    apply (List.map_congr_left fun entry hentry => if_neg (h entry hentry)).trans
    exact List.map_id part
  have hfront := hdrop (SourceLine.enumerate 1 0 front) fun entry hentry => by
    have hnumber := SourceLine.number_of_mem_enumerate hentry
    omega
  have hnear := hkeep (SourceLine.enumerate (front.length + 1) (SourceLine.bytes front) near)
    fun entry hentry => by
      have hnumber := SourceLine.number_of_mem_enumerate hentry
      omega
  have hlater := hkeep (SourceLine.enumerate (span.line + 1)
      (SourceLine.bytes (front ++ near ++ [line])) later) fun entry hentry => by
    have hnumber := SourceLine.number_of_mem_enumerate hentry
    omega
  have hback := hdrop (SourceLine.enumerate (span.line + 1 + later.length)
      (SourceLine.bytes (front ++ near ++ [line] ++ later)) back) fun entry hentry => by
    have hnumber := SourceLine.number_of_mem_enumerate hentry
    omega
  have hnearSame := hsame (SourceLine.enumerate (front.length + 1) (SourceLine.bytes front) near)
    fun entry hentry => by
      have hnumber := SourceLine.number_of_mem_enumerate hentry
      omega
  have hlaterSame := hsame (SourceLine.enumerate (span.line + 1)
      (SourceLine.bytes (front ++ near ++ [line])) later) fun entry hentry => by
    have hnumber := SourceLine.number_of_mem_enumerate hentry
    omega
  simp only [excerpt]
  rw [hall, List.filter_append, List.filter_append, List.filter_cons_of_pos (by simp),
    List.filter_append, hfront, hnear, hlater, hback, List.nil_append, List.append_nil,
    List.map_append, List.map_cons, hnearSame, hlaterSame, if_pos rfl, if_pos (by simp)]

end Excerpt

end TinyLang
