import TinyLang.Proofs.Text.Rows
import TinyLang.Text.Quoted

namespace TinyLang.Text

def shortEscapes : List (Char × Char) :=
  [('0', '\x00'), ('t', '\t'), ('r', '\r'), ('n', '\n'), ('"', '"'), ('\\', '\\')]

inductive Escaped : Char → List Char → Prop
  | plain {c : Char} (hbackslash : c ≠ '\\') (hquote : c ≠ '"') (hfeed : c ≠ '\n') : Escaped c [c]
  | short {c letter : Char} (h : (letter, c) ∈ shortEscapes) : Escaped c ['\\', letter]
  | code (c : Char) : Escaped c ('\\' :: 'u' :: '{' :: (Nat.toDigits 16 c.toNat ++ ['}']))

theorem escaped_escape (c : Char) : Escaped c (escape c) := by
  unfold escape
  split
  · exact .short (by decide)
  · exact .short (by decide)
  · exact .short (by decide)
  · exact .short (by decide)
  · exact .short (by decide)
  · exact .short (by decide)
  · split
    · exact .code c
    · apply Escaped.plain <;> assumption

/-- A digit is neither the brace that closes a code point nor a line feed. -/
theorem not_mem_toDigits_sixteen {c : Char} (hc : c ∈ ['}', '\n']) (n : Nat) :
    c ∉ Nat.toDigits 16 n := by
  intro hmem
  obtain ⟨digit, hdigit, rfl⟩ := exists_digitChar_of_mem_toDigits (by decide) hmem
  have hall : ∀ i < 16, i.digitChar ∉ ['}', '\n'] := by decide
  exact hall digit hdigit hc

namespace Escaped

variable {c d : Char} {text text' rest rest' : List Char}

theorem letter_ne (h : (d, c) ∈ shortEscapes) : d ≠ 'u' := by
  have hall : ∀ entry ∈ shortEscapes, entry.1 ≠ 'u' := by decide
  exact hall _ h

theorem eq_of_letter {letter : Char} (h : (letter, c) ∈ shortEscapes)
    (h' : (letter, d) ∈ shortEscapes) : c = d := by
  have hall : ∀ entry ∈ shortEscapes, ∀ other ∈ shortEscapes,
      entry.1 = other.1 → entry.2 = other.2 := by decide
  exact hall _ h _ h' rfl

/-- Code points end with the first closing brace. -/
theorem eq_of_code
    (h : Nat.toDigits 16 c.toNat ++ '}' :: rest = Nat.toDigits 16 d.toNat ++ '}' :: rest') :
    c = d ∧ rest = rest' := by
  have htake (e : Char) (tail : List Char) :
      (Nat.toDigits 16 e.toNat ++ '}' :: tail).takeWhile (· ≠ '}') = Nat.toDigits 16 e.toNat := by
    have hopen : ∀ x ∈ Nat.toDigits 16 e.toNat, decide (x ≠ '}') = true := by
      intro x hx
      apply decide_eq_true
      rintro rfl
      exact not_mem_toDigits_sixteen (by decide) _ hx
    rw [List.takeWhile_append_of_pos hopen, List.takeWhile_cons_of_neg (by decide), List.append_nil]
  have hdigits : Nat.toDigits 16 c.toNat = Nat.toDigits 16 d.toNat := by
    rw [← htake c rest, h, htake d rest']
  have hcode : c.toNat = d.toNat := toDigits_injective (by decide) (by decide) hdigits
  refine ⟨Char.toNat_inj.mp hcode, ?_⟩
  rw [hdigits, List.append_right_inj] at h
  exact (List.cons.inj h).2

/-- The way in which a character is written tells which one it is, whatever follows. -/
theorem append_inj (h : Escaped c text) (h' : Escaped d text')
    (heq : text ++ rest = text' ++ rest') : c = d ∧ rest = rest' := by
  cases h with
  | plain hbackslash hquote hfeed =>
    cases h' with
    | plain hbackslash' hquote' hfeed' => simpa using heq
    | short hletter => exact absurd (List.cons.inj heq).1 hbackslash
    | code => exact absurd (List.cons.inj heq).1 hbackslash
  | short hletter =>
    cases h' with
    | plain hbackslash' hquote' hfeed' => exact absurd (List.cons.inj heq).1.symm hbackslash'
    | short hletter' =>
      simp only [List.cons_append, List.nil_append, List.cons.injEq, true_and] at heq
      obtain ⟨rfl, hrest⟩ := heq
      exact ⟨eq_of_letter hletter hletter', hrest⟩
    | code =>
      simp only [List.cons_append, List.cons.injEq, true_and] at heq
      exact absurd heq.1 (letter_ne hletter)
  | code =>
    cases h' with
    | plain hbackslash' hquote' hfeed' => exact absurd (List.cons.inj heq).1.symm hbackslash'
    | short hletter =>
      simp only [List.cons_append, List.cons.injEq, true_and] at heq
      exact absurd heq.1.symm (letter_ne hletter)
    | code =>
      simp only [List.cons_append, List.append_assoc, List.cons.injEq, true_and,
        List.nil_append] at heq
      exact eq_of_code heq

/-- No character is written so that it begins with a quotation mark. -/
theorem ne_quote (h : Escaped c text) : text ++ rest ≠ '"' :: rest' := by
  intro heq
  cases h with
  | plain hbackslash hquote hfeed => exact hquote (List.cons.inj heq).1
  | short hletter => exact absurd (List.cons.inj heq).1 (by decide)
  | code => exact absurd (List.cons.inj heq).1 (by decide)

theorem not_mem_newline (h : Escaped c text) : '\n' ∉ text := by
  cases h with
  | plain hbackslash hquote hfeed => simpa using hfeed.symm
  | short hletter =>
    have hall : ∀ entry ∈ shortEscapes, entry.1 ≠ '\n' := by decide
    simpa using (hall _ hletter).symm
  | code =>
    have hdigits := not_mem_toDigits_sixteen (by decide : '\n' ∈ ['}', '\n']) c.toNat
    simpa using hdigits

end Escaped

theorem flatMap_escape_append_inj {text text' rest rest' : List Char}
    (h : text.flatMap escape ++ '"' :: rest = text'.flatMap escape ++ '"' :: rest') :
    text = text' ∧ rest = rest' := by
  induction text generalizing text' with
  | nil =>
    cases text' with
    | nil => simpa using h
    | cons d text' =>
      rw [List.flatMap_cons, List.append_assoc] at h
      exact absurd h.symm (escaped_escape d).ne_quote
  | cons c text ih =>
    cases text' with
    | nil =>
      rw [List.flatMap_cons, List.append_assoc] at h
      exact absurd h (escaped_escape c).ne_quote
    | cons d text' =>
      rw [List.flatMap_cons, List.flatMap_cons, List.append_assoc, List.append_assoc] at h
      obtain ⟨rfl, hlater⟩ := (escaped_escape c).append_inj (escaped_escape d) h
      obtain ⟨rfl, hrest⟩ := ih hlater
      exact ⟨rfl, hrest⟩

theorem toList_quote (text : String) :
    (quote text).toList = '"' :: (text.toList.flatMap escape ++ ['"']) :=
  String.toList_ofList

/-- A quoted text is read back, whatever follows it. -/
theorem quote_append_inj {text text' : String} {rest rest' : List Char}
    (h : (quote text).toList ++ rest = (quote text').toList ++ rest') :
    text = text' ∧ rest = rest' := by
  simp only [toList_quote, List.cons_append, List.append_assoc, List.nil_append,
    List.cons.injEq, true_and] at h
  obtain ⟨htext, hrest⟩ := flatMap_escape_append_inj h
  exact ⟨String.toList_inj.mp htext, hrest⟩

theorem not_mem_quote (text : String) : '\n' ∉ (quote text).toList := by
  rw [toList_quote]
  intro hmem
  rcases List.mem_cons.mp hmem with hopen | hmem
  · exact absurd hopen (by decide)
  rcases List.mem_append.mp hmem with hbody | hclose
  · obtain ⟨c, -, hc⟩ := List.mem_flatMap.mp hbody
    exact (escaped_escape c).not_mem_newline hc
  · exact absurd (List.mem_singleton.mp hclose) (by decide)

theorem isLine_quote (text : String) : IsLine (quote text).toList where
  not_mem := not_mem_quote text
  getLast?_ne := by
    rw [toList_quote, ← List.cons_append, List.getLast?_concat]
    decide

end TinyLang.Text
