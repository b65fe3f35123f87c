import TinyLang.Text.Blank
import TinyLang.Token.Basic
import TinyLang.Token.Recognize

namespace TinyLang

def gapPiece? (text : List Char) : Option (List Char × List Char) :=
  match text.takeWhile Text.isBlank with
  | [] => (Recognize.comment text).toOption
  | c :: blanks => some (c :: blanks, text.dropWhile Text.isBlank)

/-- Splits off pieces of a gap for as long as there is one. A piece without a character is refused,
since it would come again and again. -/
def splitGap? (text : List Char) : Option (List Char × List Char) :=
  match gapPiece? text with
  | none => some ([], text)
  | some (piece, rest) =>
    if rest.length < text.length then
      (splitGap? rest).map fun (gap, back) => (piece ++ gap, back)
    else none
termination_by text.length

theorem gapPiece?_append {text piece rest : List Char} (h : gapPiece? text = some (piece, rest)) :
    piece ++ rest = text := by
  rw [gapPiece?] at h
  split at h
  · exact Recognize.comment_append h
  · next hblanks =>
    cases h
    rw [← hblanks, List.takeWhile_append_dropWhile]

theorem splitGap?_append {text gap back : List Char} (h : splitGap? text = some (gap, back)) :
    gap ++ back = text := by
  fun_induction splitGap? text generalizing gap with
  | case1 text _ =>
    cases h
    rfl
  | case2 text piece rest hpiece hlt ih =>
    obtain ⟨⟨gap', back'⟩, hrest, hcut⟩ := Option.map_eq_some_iff.mp h
    cases hcut
    rw [List.append_assoc, ih hrest, gapPiece?_append hpiece]
  | case3 text piece rest _ _ => cases h

structure Cut where
  kind : Token.Kind
  lexeme : List Char
  /-- What is thrown away after the token: the body of a comment that is never closed. -/
  dropped : List Char := []
  rest : List Char
deriving DecidableEq

namespace Cut

/-- The brace of a comment that is never closed, for a closed one would be part of a gap. -/
def unclosedComment : List Char → Option Cut
  | '{' :: body => some { kind := .unknown, lexeme := ['{'], dropped := body, rest := [] }
  | _ => none

def ending : List Char → Option Cut
  | [] => some { kind := .endOfInput, lexeme := [], rest := [] }
  | _ => none

def word (text : List Char) : Option Cut :=
  (Recognize.word text).toOption.map fun (front, rest) =>
    { kind := .ofWord front, lexeme := front, rest }

def number (text : List Char) : Option Cut :=
  (Recognize.number text).toOption.map fun (front, rest) =>
    { kind := .number, lexeme := front, rest }

def operator : List Char → Option Cut
  | ':' :: '=' :: rest => some { kind := .assign, lexeme := [':', '='], rest }
  | c :: rest => (Operator.ofSymbol? c).map fun op => { kind := .operator op, lexeme := [c], rest }
  | [] => none

def punctuation : List Char → Option Cut
  | ';' :: rest => some { kind := .semicolon, lexeme := [';'], rest }
  | '(' :: rest => some { kind := .openBracket, lexeme := ['('], rest }
  | ')' :: rest => some { kind := .closeBracket, lexeme := [')'], rest }
  | _ => none

def single : List Char → Option Cut
  | c :: rest => some { kind := .unknown, lexeme := [c], rest }
  | [] => none

def recognizers : List (List Char → Option Cut) :=
  [unclosedComment, ending, word, number, operator, punctuation, single]

def recognize? (text : List Char) : Option Cut := recognizers.findSome? (· text)

/-- What would be cut off if no recognizer applied: one character. -/
def oneCharacter : List Char → Cut
  | [] => { kind := .endOfInput, lexeme := [], rest := [] }
  | c :: rest => { kind := .unknown, lexeme := [c], rest }

structure Cuts (cut : Cut) (text : List Char) : Prop where
  append_eq : cut.lexeme ++ (cut.dropped ++ cut.rest) = text
  lexeme_ne_nil : cut.kind ≠ .endOfInput → cut.lexeme ≠ []

variable {text : List Char} {cut : Cut}

theorem cuts_unclosedComment (h : unclosedComment text = some cut) : cut.Cuts text := by
  unfold unclosedComment at h
  split at h <;> cases h
  exact ⟨by simp, nofun⟩

theorem cuts_ending (h : ending text = some cut) : cut.Cuts text := by
  unfold ending at h
  split at h <;> cases h
  exact ⟨rfl, fun h => absurd rfl h⟩

theorem cuts_word (h : word text = some cut) : cut.Cuts text := by
  obtain ⟨⟨front, rest⟩, hword, rfl⟩ := Option.map_eq_some_iff.mp h
  obtain ⟨happend, hne⟩ := Recognize.word_append hword
  exact ⟨happend, fun _ => hne⟩

theorem cuts_number (h : number text = some cut) : cut.Cuts text := by
  obtain ⟨⟨front, rest⟩, hnumber, rfl⟩ := Option.map_eq_some_iff.mp h
  obtain ⟨happend, hne⟩ := Recognize.number_append hnumber
  exact ⟨happend, fun _ => hne⟩

theorem cuts_operator (h : operator text = some cut) : cut.Cuts text := by
  unfold operator at h
  split at h
  · cases h
    exact ⟨rfl, nofun⟩
  · obtain ⟨op, -, rfl⟩ := Option.map_eq_some_iff.mp h
    exact ⟨rfl, nofun⟩
  · cases h

theorem cuts_punctuation (h : punctuation text = some cut) : cut.Cuts text := by
  unfold punctuation at h
  split at h <;> cases h <;> exact ⟨rfl, nofun⟩

theorem cuts_single (h : single text = some cut) : cut.Cuts text := by
  unfold single at h
  split at h <;> cases h
  exact ⟨rfl, nofun⟩

theorem cuts_recognize? (h : recognize? text = some cut) : cut.Cuts text := by
  obtain ⟨recognizer, hmem, h⟩ := List.exists_of_findSome?_eq_some h
  simp only [recognizers, List.mem_cons, List.not_mem_nil, or_false] at hmem
  rcases hmem with rfl | rfl | rfl | rfl | rfl | rfl | rfl
  · exact cuts_unclosedComment h
  · exact cuts_ending h
  · exact cuts_word h
  · exact cuts_number h
  · exact cuts_operator h
  · exact cuts_punctuation h
  · exact cuts_single h

theorem cuts_oneCharacter (text : List Char) : (oneCharacter text).Cuts text := by
  cases text with
  | nil => exact ⟨rfl, fun h => absurd rfl h⟩
  | cons c rest => exact ⟨rfl, nofun⟩

end Cut

structure Chunk extends Cut where
  gap : List Char
deriving DecidableEq

namespace Chunk

def recognize? (text : List Char) : Option Chunk := do
  let (gap, front) ← splitGap? text
  let cut ← Cut.recognize? front
  return { cut with gap }

def ofText (text : List Char) : Chunk :=
  (recognize? text).getD { Cut.oneCharacter text with gap := [] }

variable {text : List Char}

/-- Behind the gap the text is cut, and nothing of it is lost. -/
theorem exists_cuts (text : List Char) :
    ∃ front, (ofText text).gap ++ front = text ∧ (ofText text).toCut.Cuts front := by
  rw [ofText]
  cases h : recognize? text with
  | none => exact ⟨text, rfl, Cut.cuts_oneCharacter text⟩
  | some chunk =>
    obtain ⟨⟨gap, front⟩, hgap, h⟩ := Option.bind_eq_some_iff.mp h
    obtain ⟨cut, hcut, h⟩ := Option.bind_eq_some_iff.mp h
    cases h
    exact ⟨front, splitGap?_append hgap, Cut.cuts_recognize? hcut⟩

/-- Cutting off a token makes the text shorter. -/
theorem length_rest_lt (h : (ofText text).kind ≠ .endOfInput) :
    (ofText text).rest.length < text.length := by
  obtain ⟨front, hgap, hcuts⟩ := exists_cuts text
  have hwhole := congrArg List.length (hcuts.append_eq ▸ hgap)
  have hlexeme := List.length_pos_iff.mpr (hcuts.lexeme_ne_nil h)
  simp only [List.length_append] at hwhole
  omega

end Chunk

end TinyLang
