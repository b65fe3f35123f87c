/-!
Recognition of a word, a number or a comment at the front of a text. Each is taken as far as it
goes, and only ASCII letters and digits count.
-/
namespace TinyLang.Recognize

inductive Wanted where
  | letter | digit
  | opening
  | closing
deriving DecidableEq

structure Mismatch where
  wanted : Wanted
  rest : List Char
deriving DecidableEq

def word (text : List Char) : Except Mismatch (List Char × List Char) :=
  match text with
  | c :: _ =>
    if c.isAlpha then .ok (text.takeWhile Char.isAlphanum, text.dropWhile Char.isAlphanum)
    else .error ⟨.letter, text⟩
  | [] => .error ⟨.letter, text⟩

def number (text : List Char) : Except Mismatch (List Char × List Char) :=
  match text with
  | c :: _ =>
    if c.isDigit then .ok (text.takeWhile Char.isDigit, text.dropWhile Char.isDigit)
    else .error ⟨.digit, text⟩
  | [] => .error ⟨.digit, text⟩

def throughBrace? : List Char → Option (List Char × List Char)
  | [] => none
  | c :: rest =>
    if c = '}' then some ([c], rest)
    else (throughBrace? rest).map fun (front, back) => (c :: front, back)

def comment (text : List Char) : Except Mismatch (List Char × List Char) :=
  match text with
  | '{' :: rest =>
    match throughBrace? rest with
    | some (body, back) => .ok ('{' :: body, back)
    | none => .error ⟨.closing, rest⟩
  | _ => .error ⟨.opening, text⟩

theorem throughBrace?_eq_append {text front back : List Char}
    (h : throughBrace? text = some (front, back)) : text = front ++ back := by
  induction text generalizing front with
  | nil => simp [throughBrace?] at h
  | cons c rest ih =>
    rw [throughBrace?] at h
    split at h
    · simp only [Option.some.injEq, Prod.mk.injEq] at h
      obtain ⟨rfl, rfl⟩ := h
      rfl
    · obtain ⟨⟨front', back'⟩, h', he⟩ := Option.map_eq_some_iff.mp h
      simp only [Prod.mk.injEq] at he
      obtain ⟨rfl, rfl⟩ := he
      rw [ih h', List.cons_append]

theorem word_append {text front rest : List Char} (h : (word text).toOption = some (front, rest)) :
    front ++ rest = text ∧ front ≠ [] := by
  fun_cases word text with
  | case1 c tail hc =>
    rw [word, if_pos hc] at h
    cases h
    refine ⟨List.takeWhile_append_dropWhile, ?_⟩
    rw [List.takeWhile_cons_of_pos (by simp [Char.isAlphanum, hc])]
    exact List.cons_ne_nil _ _
  | case2 c tail hc =>
    rw [word, if_neg hc] at h
    cases h
  | case3 => cases h

theorem number_append {text front rest : List Char}
    (h : (number text).toOption = some (front, rest)) : front ++ rest = text ∧ front ≠ [] := by
  fun_cases number text with
  | case1 c tail hc =>
    rw [number, if_pos hc] at h
    cases h
    refine ⟨List.takeWhile_append_dropWhile, ?_⟩
    rw [List.takeWhile_cons_of_pos hc]
    exact List.cons_ne_nil _ _
  | case2 c tail hc =>
    rw [number, if_neg hc] at h
    cases h
  | case3 => cases h

theorem comment_append {text front rest : List Char}
    (h : (comment text).toOption = some (front, rest)) : front ++ rest = text := by
  fun_cases comment text with
  | case1 tail body back hbody =>
    rw [comment, hbody] at h
    cases h
    rw [List.cons_append, ← throughBrace?_eq_append hbody]
  | case2 tail hbody =>
    rw [comment, hbody] at h
    cases h
  | case3 =>
    rw [comment] at h
    · cases h
    · assumption

end TinyLang.Recognize
