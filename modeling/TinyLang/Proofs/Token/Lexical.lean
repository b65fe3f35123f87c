import Mathlib.Data.List.TakeWhile
import TinyLang.Token.Chunk

/-!
The lexical rules of the language, without a scanner: what may stand between two tokens, and how a
token of each kind is spelled and followed. Every text has exactly one way to begin by these rules,
and it is the one in which the recognizers cut it.
-/
namespace TinyLang

inductive Gap : List Char → Prop
  | nil : Gap []
  | blank {c : Char} {gap : List Char} (hc : Text.isBlank c = true) (later : Gap gap) :
      Gap (c :: gap)
  | comment {body gap : List Char} (hbody : '}' ∉ body) (later : Gap gap) :
      Gap ('{' :: (body ++ '}' :: gap))

def Gapless : List Char → Prop
  | [] => True
  | c :: rest => Text.isBlank c = false ∧ (c = '{' → '}' ∉ rest)

def IsWord (lexeme after : List Char) : Prop :=
  (∃ c ∈ lexeme.head?, c.isAlpha = true) ∧ (∀ c ∈ lexeme, c.isAlphanum = true) ∧
    ∀ c ∈ after.head?, c.isAlphanum = false

def IsNumber (lexeme after : List Char) : Prop :=
  lexeme ≠ [] ∧ (∀ c ∈ lexeme, c.isDigit = true) ∧ ∀ c ∈ after.head?, c.isDigit = false

theorem IsWord.exists_cons {lexeme after : List Char} (h : IsWord lexeme after) :
    ∃ c tail, lexeme = c :: tail ∧ c.isAlpha = true := by
  obtain ⟨⟨c, hc, halpha⟩, -, -⟩ := h
  obtain ⟨tail, htail⟩ := List.head?_eq_some_iff.mp (Option.mem_def.mp hc)
  exact ⟨c, tail, htail, halpha⟩

theorem IsNumber.exists_cons {lexeme after : List Char} (h : IsNumber lexeme after) :
    ∃ c tail, lexeme = c :: tail ∧ c.isDigit = true := by
  obtain ⟨hne, hdigits, -⟩ := h
  obtain ⟨c, tail, htail⟩ := List.exists_cons_of_ne_nil hne
  exact ⟨c, tail, htail, hdigits c (htail ▸ List.mem_cons_self ..)⟩

/-- A character that starts no other token when the text `after` follows. -/
structure IsUnknown (c : Char) (after : List Char) : Prop where
  not_blank : Text.isBlank c = false
  not_alphanum : c.isAlphanum = false
  not_sign : c ∉ [';', '<', '=', '+', '-', '*', '/', '(', ')']
  colon : c = ':' → after.head? ≠ some '='
  brace : c = '{' → '}' ∉ after

/-- The brace of a comment that is never closed. -/
theorem IsUnknown.openBrace {after : List Char} (h : '}' ∉ after) : IsUnknown '{' after where
  not_blank := by decide
  not_alphanum := by decide
  not_sign := by decide
  colon := nofun
  brace _ := h

/-- How a token of a kind is spelled if the text `after` follows. Keywords are words in any mixture
of upper and lower case. -/
def Token.Kind.Matches (kind : Token.Kind) (lexeme after : List Char) : Prop :=
  match kind with
  | .keyword word => IsWord lexeme after ∧ lexeme.map Char.toLower = word.spelling.toList
  | .identifier =>
    IsWord lexeme after ∧ ∀ word : Keyword, lexeme.map Char.toLower ≠ word.spelling.toList
  | .number => IsNumber lexeme after
  | .operator op => lexeme = [op.symbol]
  | .assign => lexeme = [':', '=']
  | .semicolon => lexeme = [';']
  | .openBracket => lexeme = ['(']
  | .closeBracket => lexeme = [')']
  | .unknown => ∃ c, lexeme = [c] ∧ IsUnknown c after
  | .endOfInput => lexeme = [] ∧ after = []

theorem isAlpha_iff {c : Char} :
    c.isAlpha = true ↔ (65 ≤ c.toNat ∧ c.toNat ≤ 90) ∨ (97 ≤ c.toNat ∧ c.toNat ≤ 122) := by
  change (decide ('A'.val ≤ c.val ∧ c.val ≤ 'Z'.val) ||
    decide ('a'.val ≤ c.val) && decide (c.val ≤ 'z'.val)) = true ↔ _
  simp [UInt32.le_iff_toNat_le]

theorem isDigit_iff {c : Char} : c.isDigit = true ↔ 48 ≤ c.toNat ∧ c.toNat ≤ 57 := by
  simp [Char.isDigit, UInt32.le_iff_toNat_le]

theorem not_isBlank_of_isAlphanum {c : Char} (h : c.isAlphanum = true) :
    Text.isBlank c = false := by
  rw [Char.isAlphanum, Bool.or_eq_true, isAlpha_iff, isDigit_iff] at h
  simp [Text.isBlank]
  omega

theorem not_isAlpha_of_isDigit {c : Char} (h : c.isDigit = true) : c.isAlpha = false := by
  rw [isDigit_iff] at h
  rw [← Bool.not_eq_true, isAlpha_iff]
  omega

theorem gapless_of_isAlphanum {c : Char} (h : c.isAlphanum = true) (rest : List Char) :
    Gapless (c :: rest) := by
  refine ⟨not_isBlank_of_isAlphanum h, ?_⟩
  rintro rfl
  cases h

/-- A run of characters with a property is taken whole before one that has it not. -/
theorem takeWhile_append_of_head? {p : Char → Bool} {front back : List Char}
    (hfront : ∀ c ∈ front, p c = true) (hback : ∀ c ∈ back.head?, p c = false) :
    (front ++ back).takeWhile p = front ∧ (front ++ back).dropWhile p = back := by
  rw [List.takeWhile_append_of_pos hfront, List.dropWhile_append_of_pos hfront]
  cases back with
  | nil => simp
  | cons c back => simp [hback c rfl]

/-- The run ends before a character that has the property not. -/
theorem not_of_head?_dropWhile {p : Char → Bool} {text : List Char} :
    ∀ c ∈ (text.dropWhile p).head?, p c = false := by
  intro c hc
  have h := List.head?_dropWhile_not p text
  rwa [Option.mem_def.mp hc] at h

namespace Keyword

/-- The reserved words differ from each other, so the search finds the only one that is spelled. -/
theorem ofWord?_eq_some_iff {word : List Char} {keyword : Keyword} :
    ofWord? word = some keyword ↔ word.map Char.toLower = keyword.spelling.toList := by
  constructor
  · intro h
    have hspelled := List.find?_some h
    exact (beq_iff_eq.mp hspelled).symm
  · intro h
    rw [ofWord?, h]
    cases keyword <;> decide

theorem ofWord?_eq_none_iff {word : List Char} :
    ofWord? word = none ↔ ∀ keyword : Keyword, word.map Char.toLower ≠ keyword.spelling.toList := by
  rw [Option.eq_none_iff_forall_ne_some]
  exact forall_congr' fun keyword => not_congr ofWord?_eq_some_iff

end Keyword

namespace Recognize

theorem word_of_isWord {lexeme after : List Char} (h : IsWord lexeme after) :
    word (lexeme ++ after) = .ok (lexeme, after) := by
  obtain ⟨c, tail, rfl, halpha⟩ := h.exists_cons
  obtain ⟨htake, hdrop⟩ := takeWhile_append_of_head? h.2.1 h.2.2
  rw [List.cons_append] at htake hdrop ⊢
  rw [word, if_pos halpha, htake, hdrop]

theorem isWord_of_isAlpha {c : Char} (h : c.isAlpha = true) (rest : List Char) :
    IsWord ((c :: rest).takeWhile Char.isAlphanum) ((c :: rest).dropWhile Char.isAlphanum) := by
  refine ⟨⟨c, ?_, h⟩, fun d hd => List.mem_takeWhile_imp hd, not_of_head?_dropWhile⟩
  rw [List.takeWhile_cons_of_pos (by simp [Char.isAlphanum, h])]
  rfl

theorem number_of_isNumber {lexeme after : List Char} (h : IsNumber lexeme after) :
    number (lexeme ++ after) = .ok (lexeme, after) := by
  obtain ⟨c, tail, rfl, hdigit⟩ := h.exists_cons
  obtain ⟨htake, hdrop⟩ := takeWhile_append_of_head? h.2.1 h.2.2
  rw [List.cons_append] at htake hdrop ⊢
  rw [number, if_pos hdigit, htake, hdrop]

theorem isNumber_of_isDigit {c : Char} (h : c.isDigit = true) (rest : List Char) :
    IsNumber ((c :: rest).takeWhile Char.isDigit) ((c :: rest).dropWhile Char.isDigit) := by
  refine ⟨?_, fun d hd => List.mem_takeWhile_imp hd, not_of_head?_dropWhile⟩
  rw [List.takeWhile_cons_of_pos h]
  exact List.cons_ne_nil _ _

theorem throughBrace?_append {body : List Char} (h : '}' ∉ body) (rest : List Char) :
    throughBrace? (body ++ '}' :: rest) = some (body ++ ['}'], rest) := by
  induction body with
  | nil => rfl
  | cons c body ih =>
    have hc := List.ne_of_not_mem_cons h
    rw [List.cons_append, throughBrace?, if_neg hc.symm, ih (List.not_mem_of_not_mem_cons h)]
    rfl

theorem throughBrace?_eq_none {text : List Char} (h : '}' ∉ text) : throughBrace? text = none := by
  induction text with
  | nil => rfl
  | cons c rest ih =>
    have hc := List.ne_of_not_mem_cons h
    rw [throughBrace?, if_neg hc.symm, ih (List.not_mem_of_not_mem_cons h)]
    rfl

end Recognize

theorem gapPiece?_blank {c : Char} (hc : Text.isBlank c = true) (text : List Char) :
    gapPiece? (c :: text) =
      some (c :: text.takeWhile Text.isBlank, text.dropWhile Text.isBlank) := by
  rw [gapPiece?, List.takeWhile_cons_of_pos hc, List.dropWhile_cons_of_pos hc]

theorem gapPiece?_of_not_blank {c : Char} (hc : Text.isBlank c = false) (text : List Char) :
    gapPiece? (c :: text) = (Recognize.comment (c :: text)).toOption := by
  rw [gapPiece?, List.takeWhile_cons_of_neg (by simp [hc])]

theorem gapPiece?_of_gapless {text : List Char} (h : Gapless text) : gapPiece? text = none := by
  cases text with
  | nil => rfl
  | cons c rest =>
    obtain ⟨hblank, hbrace⟩ := h
    rw [gapPiece?_of_not_blank hblank]
    by_cases hc : c = '{'
    · subst hc
      rw [Recognize.comment, Recognize.throughBrace?_eq_none (hbrace rfl)]
      rfl
    · rw [Recognize.comment]
      · rfl
      · rintro rest' h
        exact hc (List.cons.inj h).1

/-- The loop over the pieces does not depend on where a run of blanks begins. -/
theorem splitGap?_blank {c : Char} {text gap front : List Char} (hc : Text.isBlank c = true)
    (h : splitGap? text = some (gap, front)) : splitGap? (c :: text) = some (c :: gap, front) := by
  have hlt : (text.dropWhile Text.isBlank).length < (c :: text).length :=
    Nat.lt_succ_of_le (List.length_dropWhile_le ..)
  rw [splitGap?, gapPiece?_blank hc]
  simp only [hlt, if_true]
  cases text with
  | nil =>
    rw [List.takeWhile_nil, List.dropWhile_nil, h]
    rfl
  | cons d text =>
    cases hd : Text.isBlank d with
    | false =>
      rw [List.takeWhile_cons_of_neg (by simp [hd]), List.dropWhile_cons_of_neg (by simp [hd]), h]
      rfl
    | true =>
      rw [splitGap?, gapPiece?_blank hd] at h
      rw [List.takeWhile_cons_of_pos hd, List.dropWhile_cons_of_pos hd]
      simp only at h
      split at h
      · obtain ⟨⟨gap', front'⟩, hrest, hgap⟩ := Option.map_eq_some_iff.mp h
        cases hgap
        rw [hrest]
        rfl
      · cases h

theorem splitGap?_comment {body text gap front : List Char} (hbody : '}' ∉ body)
    (h : splitGap? text = some (gap, front)) :
    splitGap? ('{' :: (body ++ '}' :: text)) = some ('{' :: (body ++ '}' :: gap), front) := by
  have hpiece : gapPiece? ('{' :: (body ++ '}' :: text)) = some ('{' :: (body ++ ['}']), text) := by
    rw [gapPiece?_of_not_blank (by decide), Recognize.comment, Recognize.throughBrace?_append hbody]
    rfl
  rw [splitGap?, hpiece]
  simp only
  rw [if_pos (by simp; omega), h]
  simp

/-- A gap is split off whole. -/
theorem Gap.splitGap?_eq {gap front : List Char} (hgap : Gap gap) (hfront : Gapless front) :
    splitGap? (gap ++ front) = some (gap, front) := by
  induction hgap with
  | nil => rw [List.nil_append, splitGap?, gapPiece?_of_gapless hfront]
  | blank hc later ih => exact splitGap?_blank hc ih
  | comment hbody later ih =>
    rw [List.cons_append, List.append_assoc, List.cons_append]
    exact splitGap?_comment hbody ih

/-- Every text begins with a gap that cannot go on. -/
theorem exists_gap (text : List Char) :
    ∃ gap front, Gap gap ∧ Gapless front ∧ gap ++ front = text := by
  induction hlength : text.length using Nat.strong_induction_on generalizing text with
  | _ length ih =>
    subst hlength
    cases text with
    | nil => exact ⟨[], [], .nil, trivial, rfl⟩
    | cons c rest =>
      cases hblank : Text.isBlank c with
      | true =>
        obtain ⟨gap, front, hgap, hfront, rfl⟩ := ih rest.length (by simp) rest rfl
        exact ⟨c :: gap, front, .blank hblank hgap, hfront, rfl⟩
      | false =>
        by_cases hbrace : c = '{' ∧ '}' ∈ rest
        · obtain ⟨rfl, hmem⟩ := hbrace
          obtain ⟨body, back, rfl, hbody⟩ := List.eq_append_cons_of_mem hmem
          obtain ⟨gap, front, hgap, hfront, rfl⟩ := ih back.length (by simp; omega) back rfl
          exact ⟨'{' :: (body ++ '}' :: gap), front, .comment hbody hgap, hfront, by simp⟩
        · exact ⟨[], c :: rest, .nil, ⟨hblank, fun hc hmem => hbrace ⟨hc, hmem⟩⟩, rfl⟩

namespace Token.Kind

variable {kind : Token.Kind} {lexeme after : List Char}

/-- In front of a token no gap goes on. -/
theorem Matches.gapless (h : kind.Matches lexeme after) : Gapless (lexeme ++ after) := by
  have hword (h : IsWord lexeme after) : Gapless (lexeme ++ after) := by
    obtain ⟨c, tail, rfl, halpha⟩ := h.exists_cons
    exact gapless_of_isAlphanum (by simp [Char.isAlphanum, halpha]) _
  cases kind with
  | keyword word => exact hword h.1
  | identifier => exact hword h.1
  | number =>
    obtain ⟨c, tail, rfl, hdigit⟩ := IsNumber.exists_cons h
    exact gapless_of_isAlphanum (by simp [Char.isAlphanum, hdigit]) _
  | operator op =>
    obtain rfl := h
    cases op <;> exact ⟨rfl, fun h => absurd h (by decide)⟩
  | unknown =>
    obtain ⟨c, rfl, hc⟩ := h
    exact ⟨hc.not_blank, hc.brace⟩
  | endOfInput =>
    obtain ⟨rfl, rfl⟩ := h
    trivial
  | _ =>
    obtain rfl := h
    exact ⟨rfl, fun h => absurd h (by decide)⟩

/-- Only the end of the input has no text. -/
theorem Matches.lexeme_ne_nil (h : kind.Matches lexeme after) (hkind : kind ≠ .endOfInput) :
    lexeme ≠ [] := by
  rintro rfl
  cases kind with
  | keyword word => simpa [IsWord] using h.1
  | identifier => simpa [IsWord] using h.1
  | number => exact h.1 rfl
  | operator op => cases h
  | unknown =>
    obtain ⟨c, hc, -⟩ := h
    cases hc
  | endOfInput => exact hkind rfl
  | _ => cases h

/-- There is no blank in a token. -/
theorem Matches.not_isBlank (h : kind.Matches lexeme after) :
    ∀ c ∈ lexeme, Text.isBlank c = false := by
  cases kind with
  | keyword word => exact fun c hc => not_isBlank_of_isAlphanum (h.1.2.1 c hc)
  | identifier => exact fun c hc => not_isBlank_of_isAlphanum (h.1.2.1 c hc)
  | number =>
    exact fun c hc => not_isBlank_of_isAlphanum (by simp [Char.isAlphanum, h.2.1 c hc])
  | operator op =>
    obtain rfl := h
    cases op <;> exact List.forall_mem_singleton.mpr rfl
  | unknown =>
    obtain ⟨c, rfl, hc⟩ := h
    simpa using hc.not_blank
  | endOfInput =>
    obtain ⟨rfl, rfl⟩ := h
    exact List.forall_mem_nil _
  | assign =>
    obtain rfl := h
    exact List.forall_mem_cons.mpr ⟨rfl, List.forall_mem_singleton.mpr rfl⟩
  | _ =>
    obtain rfl := h
    exact List.forall_mem_singleton.mpr rfl

/-- The brace of a comment that is never closed is the one token that begins with a brace. -/
theorem Matches.eq_unknown (h : kind.Matches ['{'] after) : kind = .unknown ∧ '}' ∉ after := by
  cases kind with
  | keyword word =>
    obtain ⟨⟨-, hword, -⟩, -⟩ := h
    exact absurd (hword '{' (by simp)) (by decide)
  | identifier =>
    obtain ⟨⟨-, hword, -⟩, -⟩ := h
    exact absurd (hword '{' (by simp)) (by decide)
  | number => exact absurd (h.2.1 '{' (by simp)) (by decide)
  | operator op => cases op <;> cases h
  | unknown =>
    obtain ⟨c, hc, hunknown⟩ := h
    cases hc
    exact ⟨rfl, hunknown.brace rfl⟩
  | endOfInput => cases h.1
  | _ => cases h

/-- Where no gap goes on, a token stands. -/
theorem exists_matches {front : List Char} (h : Gapless front) :
    ∃ kind lexeme after, Token.Kind.Matches kind lexeme after ∧ lexeme ++ after = front := by
  cases front with
  | nil => exact ⟨.endOfInput, [], [], ⟨rfl, rfl⟩, rfl⟩
  | cons c rest =>
    -- The first character tells what stands there, except for a colon.
    by_cases halpha : c.isAlpha = true
    · have hword := Recognize.isWord_of_isAlpha halpha rest
      have hfront := @List.takeWhile_append_dropWhile _ Char.isAlphanum (c :: rest)
      cases hkeyword : Keyword.ofWord? ((c :: rest).takeWhile Char.isAlphanum) with
      | some word =>
        exact ⟨.keyword word, _, _, ⟨hword, Keyword.ofWord?_eq_some_iff.mp hkeyword⟩, hfront⟩
      | none => exact ⟨.identifier, _, _, ⟨hword, Keyword.ofWord?_eq_none_iff.mp hkeyword⟩, hfront⟩
    by_cases hdigit : c.isDigit = true
    · exact ⟨.number, _, _, Recognize.isNumber_of_isDigit hdigit rest,
        List.takeWhile_append_dropWhile⟩
    by_cases hassign : c = ':' ∧ rest.head? = some '='
    · obtain ⟨rfl, hrest⟩ := hassign
      obtain ⟨after, rfl⟩ := List.head?_eq_some_iff.mp hrest
      exact ⟨.assign, [':', '='], after, rfl, rfl⟩
    by_cases hsign : c ∈ [';', '<', '=', '+', '-', '*', '/', '(', ')']
    · suffices ∃ kind : Token.Kind, kind.Matches [c] rest by
        obtain ⟨kind, hkind⟩ := this
        exact ⟨kind, [c], rest, hkind, rfl⟩
      simp only [List.mem_cons, List.not_mem_nil, or_false] at hsign
      rcases hsign with rfl | rfl | rfl | rfl | rfl | rfl | rfl | rfl | rfl
      exacts [⟨.semicolon, rfl⟩, ⟨.operator .less, rfl⟩, ⟨.operator .equal, rfl⟩,
        ⟨.operator .plus, rfl⟩, ⟨.operator .minus, rfl⟩, ⟨.operator .times, rfl⟩,
        ⟨.operator .divide, rfl⟩, ⟨.openBracket, rfl⟩, ⟨.closeBracket, rfl⟩]
    · exact ⟨.unknown, [c], rest, ⟨c, rfl,
        { not_blank := h.1
          not_alphanum := by simp [Char.isAlphanum, halpha, hdigit]
          not_sign := hsign
          colon := fun hc hrest => hassign ⟨hc, hrest⟩
          brace := h.2 }⟩, rfl⟩

end Token.Kind

namespace Cut

def ofMatch (kind : Token.Kind) (lexeme after : List Char) : Cut :=
  if lexeme = ['{'] then { kind, lexeme, dropped := after, rest := [] }
  else { kind, lexeme, rest := after }

section First

variable {c : Char} {rest : List Char} {lexeme after : List Char}

theorem recognize?_of_ne_brace (hc : c ≠ '{') : recognize? (c :: rest) =
    [word, number, operator, punctuation, single].findSome? (· (c :: rest)) := by
  have hopen : unclosedComment (c :: rest) = none := by
    rw [unclosedComment]
    rintro body h
    exact hc (List.cons.inj h).1
  simp [recognize?, recognizers, List.findSome?_cons, hopen, ending]

theorem recognize?_of_not_isAlpha (hc : c ≠ '{') (halpha : c.isAlpha = false) :
    recognize? (c :: rest) = [number, operator, punctuation, single].findSome? (· (c :: rest)) := by
  have hword : word (c :: rest) = none := by
    simp [word, Recognize.word, halpha]
    rfl
  rw [recognize?_of_ne_brace hc, List.findSome?_cons, hword]

theorem recognize?_of_not_isAlphanum (hc : c ≠ '{') (halphanum : c.isAlphanum = false) :
    recognize? (c :: rest) = [operator, punctuation, single].findSome? (· (c :: rest)) := by
  obtain ⟨halpha, hdigit⟩ : c.isAlpha = false ∧ c.isDigit = false := by
    simpa [Char.isAlphanum] using halphanum
  have hnumber : number (c :: rest) = none := by
    simp [number, Recognize.number, hdigit]
    rfl
  rw [recognize?_of_not_isAlpha hc halpha, List.findSome?_cons, hnumber]

theorem recognize?_word (h : IsWord lexeme after) :
    recognize? (lexeme ++ after) = some { kind := .ofWord lexeme, lexeme, rest := after } := by
  have hword : word (lexeme ++ after) = some { kind := .ofWord lexeme, lexeme, rest := after } := by
    rw [word, Recognize.word_of_isWord h]
    rfl
  obtain ⟨c, tail, rfl, halpha⟩ := h.exists_cons
  rw [List.cons_append] at hword ⊢
  rw [recognize?_of_ne_brace (by rintro rfl; cases halpha), List.findSome?_cons, hword]

theorem recognize?_number (h : IsNumber lexeme after) :
    recognize? (lexeme ++ after) = some { kind := .number, lexeme, rest := after } := by
  have hnumber : number (lexeme ++ after) = some { kind := .number, lexeme, rest := after } := by
    rw [number, Recognize.number_of_isNumber h]
    rfl
  obtain ⟨c, tail, rfl, hdigit⟩ := h.exists_cons
  rw [List.cons_append] at hnumber ⊢
  rw [recognize?_of_not_isAlpha (by rintro rfl; cases hdigit) (not_isAlpha_of_isDigit hdigit),
    List.findSome?_cons, hnumber]

theorem recognize?_unknown (hc : c ≠ '{') (h : IsUnknown c after) :
    recognize? (c :: after) = some { kind := .unknown, lexeme := [c], rest := after } := by
  have hsign := h.not_sign
  simp only [List.mem_cons, List.not_mem_nil, or_false, not_or] at hsign
  have hsymbol : Operator.ofSymbol? c = none := by
    rw [Operator.ofSymbol?, List.find?_eq_none]
    rintro op - hop
    obtain rfl := beq_iff_eq.mp hop
    cases op <;> simp [Operator.symbol] at hsign
  have hoperator : operator (c :: after) = none := by
    rw [operator, hsymbol]
    · rfl
    · rintro rest rfl rfl
      exact h.colon rfl rfl
  have hpunctuation : punctuation (c :: after) = none := by
    rw [punctuation] <;> rintro rest heq <;> obtain ⟨rfl, -⟩ := List.cons.inj heq <;> simp at hsign
  rw [recognize?_of_not_isAlphanum hc h.not_alphanum]
  simp only [List.findSome?_cons, hoperator, hpunctuation]
  rfl

end First

/-- The recognizers cut off what the lexical rules describe. -/
theorem recognize?_of_matches {kind : Token.Kind} {lexeme after : List Char}
    (h : kind.Matches lexeme after) :
    recognize? (lexeme ++ after) = some (ofMatch kind lexeme after) := by
  by_cases hbrace : lexeme = ['{']
  · subst hbrace
    obtain ⟨rfl, -⟩ := h.eq_unknown
    rfl
  rw [ofMatch, if_neg hbrace]
  cases kind with
  | keyword word =>
    rw [recognize?_word h.1, Token.Kind.ofWord, Keyword.ofWord?_eq_some_iff.mpr h.2]
  | identifier =>
    rw [recognize?_word h.1, Token.Kind.ofWord, Keyword.ofWord?_eq_none_iff.mpr h.2]
  | number => exact recognize?_number h
  | operator op =>
    obtain rfl := h
    cases op <;> rfl
  | unknown =>
    obtain ⟨c, rfl, hc⟩ := h
    exact recognize?_unknown (fun h => hbrace (h ▸ rfl)) hc
  | endOfInput =>
    obtain ⟨rfl, rfl⟩ := h
    rfl
  | _ =>
    obtain rfl := h
    rfl

end Cut

namespace Chunk

variable {kind : Token.Kind} {gap lexeme after : List Char}

/-- Every text begins with a gap and a token behind it. -/
theorem exists_matches (text : List Char) : ∃ gap kind lexeme after,
    Gap gap ∧ Token.Kind.Matches kind lexeme after ∧ gap ++ (lexeme ++ after) = text := by
  obtain ⟨gap, front, hgap, hfront, rfl⟩ := exists_gap text
  obtain ⟨kind, lexeme, after, hmatches, rfl⟩ := Token.Kind.exists_matches hfront
  exact ⟨gap, kind, lexeme, after, hgap, hmatches, rfl⟩

/-- Whatever gap and token the lexical rules find in front of a text, there it is cut. -/
theorem recognize?_of_matches (hgap : Gap gap) (hmatches : kind.Matches lexeme after) :
    recognize? (gap ++ (lexeme ++ after)) = some ⟨.ofMatch kind lexeme after, gap⟩ := by
  simp [recognize?, hgap.splitGap?_eq hmatches.gapless, Cut.recognize?_of_matches hmatches]

theorem ofText_of_matches (hgap : Gap gap) (hmatches : kind.Matches lexeme after) :
    ofText (gap ++ (lexeme ++ after)) = ⟨.ofMatch kind lexeme after, gap⟩ := by
  rw [ofText, recognize?_of_matches hgap hmatches, Option.getD_some]

/-- A token is recognized in every text. -/
theorem isSome_recognize? (text : List Char) : (recognize? text).isSome = true := by
  obtain ⟨gap, kind, lexeme, after, hgap, hmatches, rfl⟩ := exists_matches text
  rw [recognize?_of_matches hgap hmatches, Option.isSome_some]

end Chunk

end TinyLang
