import Mathlib.Data.List.TakeWhile
import TinyLang.Text.Blank

namespace TinyLang.Text

variable {p q : Char → Bool} {front text : List Char}

/-- Nothing is dropped before a character that has not the property. -/
theorem dropEndWhile_append (h : ∀ c ∈ front.getLast?, p c = false) (back : List Char) :
    dropEndWhile p (front ++ back) = front ++ dropEndWhile p back := by
  have hfront := dropEndWhile_of_getLast? h
  rw [dropEndWhile, List.reverse_eq_iff] at hfront
  rw [dropEndWhile, dropEndWhile, List.reverse_append, List.dropWhile_append]
  split
  · next hempty =>
    rw [List.isEmpty_iff.mp hempty, hfront, List.reverse_reverse, List.reverse_nil,
      List.append_nil]
  · rw [List.reverse_append, List.reverse_reverse]

theorem dropEndWhile_dropEndWhile (h : ∀ c, q c = true → p c = true) (text : List Char) :
    dropEndWhile p (dropEndWhile q text) = dropEndWhile p text := by
  have hfront (text : List Char) : (text.dropWhile q).dropWhile p = text.dropWhile p := by
    induction text with
    | nil => rfl
    | cons c text ih =>
      cases hc : q c with
      | true =>
        rw [List.dropWhile_cons_of_pos hc, ih, List.dropWhile_cons_of_pos (h c hc)]
      | false =>
        rw [List.dropWhile_cons_of_neg (by simp [hc])]
  rw [dropEndWhile, dropEndWhile, List.reverse_reverse, hfront]
  rfl

/-- What is dropped from the end has the property, and what is left does not end with it. -/
theorem exists_dropEndWhile (p : Char → Bool) (text : List Char) : ∃ back,
    text = dropEndWhile p text ++ back ∧ (∀ c ∈ back, p c = true) ∧
      ∀ c ∈ (dropEndWhile p text).getLast?, p c = false := by
  refine ⟨(text.reverse.takeWhile p).reverse, ?_, ?_, ?_⟩
  · rw [dropEndWhile, ← List.reverse_append, List.takeWhile_append_dropWhile, List.reverse_reverse]
  · intro c hc
    exact List.mem_takeWhile_imp (List.mem_reverse.mp hc)
  · intro c hc
    rw [dropEndWhile, List.getLast?_reverse] at hc
    have hhead := List.head?_dropWhile_not p text.reverse
    rwa [Option.mem_def.mp hc] at hhead

theorem dropEndWhile_of_forall (h : ∀ c ∈ text, p c = true) : dropEndWhile p text = [] := by
  rw [dropEndWhile, List.reverse_eq_nil_iff, List.dropWhile_eq_nil_iff]
  exact fun c hc => h c (List.mem_reverse.mp hc)

/-- Carriage returns are blanks, so they need not be dropped first. -/
theorem trimEnd_trimReturns (text : List Char) : trimEnd (trimReturns text) = trimEnd text := by
  apply dropEndWhile_dropEndWhile
  intro c hc
  rw [beq_iff_eq.mp hc]
  decide

theorem mem_of_mem_trimEnd {c : Char} (h : c ∈ trimEnd text) : c ∈ text := by
  have hmem := (List.dropWhile_suffix isBlank).subset (List.mem_reverse.mp h)
  exact List.mem_reverse.mp hmem

def Blank (text : List Char) : Prop := ∀ c ∈ text, isBlank c = true

structure Trimmed (text : List Char) : Prop where
  head : ∀ c ∈ text.head?, isBlank c = false
  last : ∀ c ∈ text.getLast?, isBlank c = false

theorem Trimmed.of_forall (h : ∀ c ∈ text, isBlank c = false) : Trimmed text where
  head c hc := h c (List.mem_of_head? hc)
  last c hc := h c (List.mem_of_getLast? hc)

/-- The blanks around a trimmed text are dropped. -/
theorem trim_append {before after : List Char} (hbefore : Blank before) (h : Trimmed text)
    (hafter : Blank after) : trim (before ++ (text ++ after)) = text := by
  rw [trim, List.dropWhile_append_of_pos hbefore]
  cases text with
  | nil =>
    have hnothing : after.dropWhile isBlank = [] := List.dropWhile_eq_nil_iff.mpr hafter
    rw [List.nil_append, hnothing]
    rfl
  | cons c text =>
    have hfirst : isBlank c = false := h.head c rfl
    rw [List.cons_append, List.dropWhile_cons_of_neg (by simp [hfirst]), ← List.cons_append,
      trimEnd, dropEndWhile_append h.last, dropEndWhile_of_forall hafter, List.append_nil]

theorem exists_trim (text : List Char) : ∃ before after,
    text = before ++ (trim text ++ after) ∧ Blank before ∧ Trimmed (trim text) ∧ Blank after := by
  obtain ⟨after, htext, hafter, hlast⟩ := exists_dropEndWhile isBlank (text.dropWhile isBlank)
  refine ⟨text.takeWhile isBlank, after, ?_, fun c hc => List.mem_takeWhile_imp hc, ⟨?_, hlast⟩,
    hafter⟩
  · rw [trim, trimEnd, ← htext, List.takeWhile_append_dropWhile]
  · intro c hc
    have hfront : (text.dropWhile isBlank).head? = some c := by
      rw [htext, List.head?_append]
      exact congrArg (·.or after.head?) hc
    have hhead := List.head?_dropWhile_not isBlank text
    rwa [hfront] at hhead

end TinyLang.Text
