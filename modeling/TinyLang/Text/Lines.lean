namespace TinyLang.Text

variable {α : Type} [DecidableEq α]

/-- The pieces between the occurrences of `separator`, in order. There is one more piece than there
are separators, so an empty text has one empty piece. -/
def pieces (separator : α) : List α → List (List α)
  | [] => [[]]
  | c :: rest =>
    if c = separator then [] :: pieces separator rest
    else match pieces separator rest with
      | [] => [[c]]
      | piece :: later => (c :: piece) :: later

theorem pieces_ne_nil (separator : α) (text : List α) : pieces separator text ≠ [] := by
  cases text with
  | nil => simp [pieces]
  | cons c rest =>
    rw [pieces]
    split
    · simp
    · split <;> simp

/-- The pieces with the separator between each two make up the text. -/
theorem intercalate_pieces (separator : α) (text : List α) :
    [separator].intercalate (pieces separator text) = text := by
  induction text with
  | nil => rfl
  | cons c rest ih =>
    rw [pieces]
    split
    · next h =>
      subst h
      cases hp : pieces c rest with
      | nil => exact absurd hp (pieces_ne_nil c rest)
      | cons piece later =>
        rw [hp] at ih
        simp [List.intercalate_cons_cons, ih]
    · cases hp : pieces separator rest with
      | nil => exact absurd hp (pieces_ne_nil separator rest)
      | cons piece later =>
        rw [hp] at ih
        cases later <;> simp_all [List.intercalate_cons_cons]

/-- No piece has a separator in it. -/
theorem not_mem_of_mem_pieces {separator : α} {text piece : List α}
    (h : piece ∈ pieces separator text) : separator ∉ piece := by
  induction text generalizing piece with
  | nil => simp_all [pieces]
  | cons c rest ih =>
    rw [pieces] at h
    split at h
    · rcases List.mem_cons.mp h with rfl | h
      · simp
      · exact ih h
    · next hc =>
      cases hp : pieces separator rest with
      | nil => exact absurd hp (pieces_ne_nil separator rest)
      | cons first later =>
        rw [hp] at h ih
        rcases List.mem_cons.mp h with rfl | h
        · have clean := ih (List.mem_cons_self ..)
          simp_all [eq_comm]
        · exact ih (List.mem_cons_of_mem _ h)

/-- What stands before the first separator is the first piece. -/
theorem pieces_append {separator : α} {front : List α} (h : separator ∉ front) (rest : List α) :
    pieces separator (front ++ separator :: rest) = front :: pieces separator rest := by
  induction front with
  | nil => rw [List.nil_append, pieces, if_pos rfl]
  | cons c front ih =>
    have hc := List.ne_of_not_mem_cons h
    rw [List.cons_append, pieces, if_neg hc.symm, ih (List.not_mem_of_not_mem_cons h)]

theorem pieces_of_not_mem {separator : α} {text : List α} (h : separator ∉ text) :
    pieces separator text = [text] := by
  induction text with
  | nil => rfl
  | cons c rest ih =>
    have hc := List.ne_of_not_mem_cons h
    rw [pieces, if_neg hc.symm, ih (List.not_mem_of_not_mem_cons h)]

/-- A text is a last piece, or a piece with a separator and more text after it. -/
@[elab_as_elim]
theorem pieces_induction (separator : α) {motive : List α → Prop}
    (last : ∀ text, separator ∉ text → motive text)
    (step : ∀ front rest, separator ∉ front → motive rest → motive (front ++ separator :: rest))
    (text : List α) : motive text := by
  suffices h : ∀ front, separator ∉ front → motive (front ++ text) from h [] (by simp)
  induction text with
  | nil => exact fun front hfront => (List.append_nil front).symm ▸ last front hfront
  | cons c rest ih =>
    intro front hfront
    by_cases hc : c = separator
    · subst hc
      exact step front rest hfront (ih [] (by simp))
    · have hnext := ih (front ++ [c]) (by simp [hfront, Ne.symm hc])
      rwa [List.append_assoc] at hnext

def dropMark (mark : α) (line : List α) : List α :=
  if line.getLast? = some mark then line.dropLast else line

/-- The lines of a text, each ended by `feed` or by `mark` and `feed`. What follows the last `feed`
is a line of its own unless it is empty, and keeps its closing `mark`. -/
def lines (feed mark : α) (text : List α) : List (List α) :=
  let all := pieces feed text
  let closed := all.dropLast.map (dropMark mark)
  match all.getLast? with
  | some (c :: rest) => closed ++ [c :: rest]
  | _ => closed

@[simp] theorem lines_nil (feed mark : α) : lines feed mark [] = [] := rfl

/-- What is not closed is a line if it is not empty. -/
theorem lines_of_not_mem {feed : α} {text : List α} (h : feed ∉ text) (mark : α) :
    lines feed mark text = if text = [] then [] else [text] := by
  rw [lines, pieces_of_not_mem h]
  cases text <;> rfl

/-- A closed line is the first line, and the others follow it. -/
theorem lines_append {feed : α} {line : List α} (h : feed ∉ line) (mark : α) (rest : List α) :
    lines feed mark (line ++ feed :: rest) = dropMark mark line :: lines feed mark rest := by
  obtain ⟨piece, later, hrest⟩ := List.exists_cons_of_ne_nil (pieces_ne_nil feed rest)
  rw [lines, lines, pieces_append h, hrest, List.dropLast_cons_of_ne_nil (List.cons_ne_nil _ _),
    List.getLast?_cons_cons, List.map_cons]
  split <;> rfl

/-- No line has a line feed in it. -/
theorem not_mem_of_mem_lines {feed mark : α} {text line : List α}
    (h : line ∈ lines feed mark text) : feed ∉ line := by
  induction text using pieces_induction feed with
  | last text hfeed =>
    rw [lines_of_not_mem hfeed] at h
    split at h
    · exact absurd h List.not_mem_nil
    · rwa [List.mem_singleton.mp h]
  | step front rest hfeed ih =>
    rw [lines_append hfeed] at h
    rcases List.mem_cons.mp h with rfl | h
    · rw [dropMark]
      split
      · exact fun hmem => hfeed (List.dropLast_subset _ hmem)
      · exact hfeed
    · exact ih h

end TinyLang.Text
