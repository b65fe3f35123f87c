import TinyLang.Proofs.Grammar.Relocation
import TinyLang.Proofs.Listing.RoundTrip
import TinyLang.Proofs.Token.Tiling

namespace TinyLang

def Token.LastAt (tokens : List Token) (index : Nat) (last : Token) : Prop :=
  tokens[index]? = some last ∧ last.isEnd = false ∧
    ∃ next, tokens[index + 1]? = some next ∧ next.isEnd = true

inductive SamePlace (scanned listed : List Token) : Span → Span → Prop
  /-- At the tokens of an index. In the listing that is the start of a line. A token that ends the
  input is the only one. -/
  | token {index : Nat} {token token' : Token} (h : scanned[index]? = some token)
      (h' : listed[index]? = some token') (hstart : token'.span.start = ⟨index + 1, 1⟩)
      (hend : token.isEnd = true → scanned = [token]) :
      SamePlace scanned listed token.span token'.span
  /-- At the end of the input, directly after the last token before it. -/
  | ending {index : Nat} {last last' : Token} (h : Token.LastAt scanned index last)
      (h' : Token.LastAt listed index last') :
      SamePlace scanned listed last.span.after last'.span.after

inductive Reparsed (scanned listed : List Token) :
    Except SyntaxError Program → Except SyntaxError Program → Prop
  | ok {program program' : Program} (hbare : program.bare = program'.bare)
      (hdraw : ∀ indent, program.draw indent = program'.draw indent)
      (hdot : program.dot = program'.dot) : Reparsed scanned listed (.ok program) (.ok program')
  | error {error error' : SyntaxError} (hcause : error.cause.bare = error'.cause.bare)
      (hstack : error.stack = error'.stack)
      (hplace : SamePlace scanned listed error.location error'.location) :
      Reparsed scanned listed (.error error) (.error error')

namespace Listing

/-- A reloaded token stands at the start of the line of its index. -/
theorem start_of_reloadedAll {tokens : List Token} {number offset index : Nat} {token : Token}
    (h : (reloadedAll number offset tokens)[index]? = some token) :
    token.span.start = ⟨number + index, 1⟩ := by
  induction tokens generalizing number offset index with
  | nil =>
    cases index with
    | zero =>
      cases h
      rfl
    | succ index => simp [reloadedAll] at h
  | cons first rest ih =>
    rw [reloadedAll] at h
    cases index with
    | zero =>
      rw [List.getElem?_cons_zero, reloaded] at h
      split at h <;> cases h <;> rfl
    | succ index =>
      rw [List.getElem?_cons_succ] at h
      split at h
      · simp at h
      · rw [ih h, Nat.add_assoc, Nat.add_comm 1]

variable {initial : List Token} {last : Token}

/-- Tokens with one end of the input are reloaded as they are, except for their places. -/
theorem bare_reloadedAll (hinitial : ∀ token ∈ initial, token.kind ≠ .endOfInput)
    (hlast : last.kind = .endOfInput ∧ last.lexeme = "") (number offset : Nat) :
    List.Forall₂ (fun token token' => token.bare = token'.bare) (initial ++ [last])
      (reloadedAll number offset (initial ++ [last])) := by
  have hend : last.isEnd = true := decide_eq_true hlast.1
  induction initial generalizing number offset with
  | nil =>
    rw [List.nil_append, reloadedAll, reloaded, if_pos hend, if_pos hend]
    exact .cons (Token.bare_eq_iff.mpr hlast) .nil
  | cons token initial ih =>
    obtain ⟨htoken, hinitial⟩ := List.forall_mem_cons.mp hinitial
    have hnotEnd : token.isEnd = false := decide_eq_false htoken
    rw [List.cons_append, reloadedAll, reloaded, if_neg (by simp [hnotEnd]),
      if_neg (by simp [hnotEnd])]
    exact .cons rfl (ih hinitial _ _)

end Listing

/-- The place of an error at an index is the same in a text and in its listing. -/
theorem samePlace_errorSpan {initial listed : List Token} {last : Token} {count : Nat}
    (hinitial : ∀ token ∈ initial, token.isEnd = false) (hlast : last.isEnd = true)
    (hsame : List.Forall₂ (fun token token' => token.bare = token'.bare) (initial ++ [last]) listed)
    (hstart : ∀ (index : Nat) (token' : Token), listed[index]? = some token' →
      token'.span.start = ⟨index + 1, 1⟩)
    (hcount : ∀ token ∈ (initial ++ [last]).take count, token.isEnd = false) :
    SamePlace (initial ++ [last]) listed (Token.errorSpan (initial ++ [last]) count)
      (Token.errorSpan listed count) := by
  have hle : count ≤ initial.length := by
    by_contra hlt
    rw [List.take_of_length_le (by simp; omega)] at hcount
    simpa [hlast] using hcount last (by simp)
  have hend : (initial ++ [last])[initial.length]? = some last := by simp
  obtain ⟨last', hend', hlastSame⟩ := exists_getElem?_of_forall₂ hsame hend
  rcases Nat.lt_or_eq_of_le hle with hlt | rfl
  · have htoken : (initial ++ [last])[count]? = some initial[count] := by
      rw [List.getElem?_append_left hlt, List.getElem?_eq_getElem hlt]
    obtain ⟨token', htoken', htokenSame⟩ := exists_getElem?_of_forall₂ hsame htoken
    have hnotEnd := hinitial _ (List.getElem_mem hlt)
    have hnotEnd' := (Token.isEnd_of_bare_eq htokenSame).symm.trans hnotEnd
    have hplace := SamePlace.token htoken htoken' (hstart _ _ htoken') (by simp [hnotEnd])
    simpa [Token.errorSpan, htoken, htoken', hnotEnd, hnotEnd'] using hplace
  · have hlast' := (Token.isEnd_of_bare_eq hlastSame).symm.trans hlast
    simp only [Token.errorSpan, hend, hend', hlast, hlast', if_true]
    cases hlength : initial.length with
    | zero =>
      obtain rfl := List.length_eq_zero_iff.mp hlength
      have hplace := SamePlace.token hend hend' (hstart _ _ hend') fun _ => rfl
      have hhead : listed.head? = some last' := by rw [List.head?_eq_getElem?, ← hend']; rfl
      simpa [Token.endSpan, hhead] using hplace
    | succ index =>
      have hlt : index < initial.length := by omega
      have htoken : (initial ++ [last])[index]? = some initial[index] := by
        rw [List.getElem?_append_left hlt, List.getElem?_eq_getElem hlt]
      obtain ⟨token', htoken', htokenSame⟩ := exists_getElem?_of_forall₂ hsame htoken
      have hnotEnd := hinitial _ (List.getElem_mem hlt)
      have hnotEnd' := (Token.isEnd_of_bare_eq htokenSame).symm.trans hnotEnd
      rw [hlength] at hend hend'
      have hplace : SamePlace _ listed _ _ :=
        .ending ⟨htoken, hnotEnd, last, hend, hlast⟩ ⟨htoken', hnotEnd', last', hend', hlast'⟩
      simpa [Token.endSpan, htoken, htoken'] using hplace

namespace Program

open TinyLang.Parser

/-- Whatever the text, its listing can be read, and parsing what was read agrees with parsing the
text. -/
theorem parse_listing (source : String) (config : ParserConfig) :
    ∃ tokens, Listing.read (Listing.write (tokenize source)) = .ok tokens ∧
      Reparsed (tokenize source) tokens (parse config (tokenize source)) (parse config tokens) := by
  have hscans := scans_tokenize source
  have hfeed : ∀ token ∈ tokenize source, '\n' ∉ token.lexeme.toList := by
    intro token htoken hmem
    exact absurd (hscans.not_isBlank token htoken '\n' hmem) (by decide)
  obtain ⟨initial, htokens, hinitial⟩ := hscans.exists_ending
  refine ⟨Listing.reloadedAll 1 0 (tokenize source), Listing.read_write hfeed, ?_⟩
  have hsame : List.Forall₂ (fun token token' => token.bare = token'.bare) (tokenize source)
      (Listing.reloadedAll 1 0 (tokenize source)) := by
    rw [htokens]
    exact Listing.bare_reloadedAll hinitial ⟨rfl, rfl⟩ 1 0
  have hstart (index : Nat) (token' : Token)
      (h : (Listing.reloadedAll 1 0 (tokenize source))[index]? = some token') :
      token'.span.start = ⟨index + 1, 1⟩ := by
    rw [Listing.start_of_reloadedAll h, Nat.add_comm]
  generalize Listing.reloadedAll 1 0 (tokenize source) = listed at hsame hstart
  have hparse := parse_twin (hsame.imp fun _ _ => Token.twin_of_bare_eq) config
  generalize parse config (tokenize source) = result at hparse
  generalize parse config listed = result' at hparse
  cases hparse with
  | ok h => exact .ok h.bare_eq (draw_eq_of_bare_eq h.bare_eq) (dot_eq_of_bare_eq h.bare_eq)
  | @error error error' count h =>
    refine .error ?_ h.stack_eq ?_
    · rw [← h.cause_eq, ← h.cause_eq']
      exact SyntaxError.Cause.bare_withFound (Token.bare_foundAt hsame count) error.cause
    · rw [h.location_eq, h.location_eq']
      have hcount := h.isEnd_eq
      rw [htokens] at hsame hcount ⊢
      exact samePlace_errorSpan (fun token hmem => decide_eq_false (hinitial token hmem)) rfl hsame
        hstart hcount

end Program

end TinyLang
