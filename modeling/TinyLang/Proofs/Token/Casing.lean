import Mathlib.Data.List.Forall2
import TinyLang.Proofs.Token.Scanning

/-!
The lexical rules tell letters from other characters, but no letter from another, and keywords are
compared in lower case.
-/
namespace TinyLang

/-- Only the letters from `A` to `Z` are changed. -/
theorem toNat_toLower (c : Char) :
    c.toLower.toNat = if 65 ≤ c.toNat ∧ c.toNat ≤ 90 then c.toNat + 32 else c.toNat := by
  have hrange : (c.val ≥ 'A'.val ∧ c.val ≤ 'Z'.val) ↔ 65 ≤ c.toNat ∧ c.toNat ≤ 90 := by
    simp [UInt32.le_iff_toNat_le]
  delta Char.toLower
  by_cases h : c.val ≥ 'A'.val ∧ c.val ≤ 'Z'.val
  · have hupper := hrange.mp h
    rw [dif_pos h, if_pos hupper]
    change (c.val + 32).toNat = c.val.toNat + 32
    have hle : c.val.toNat ≤ 90 := hupper.2
    have hshift : (32 : UInt32).toNat = 32 := rfl
    rw [UInt32.toNat_add, hshift, Nat.mod_eq_of_lt (by omega)]
  · rw [dif_neg h, if_neg (mt hrange.mpr h)]

theorem toLower_of_not_isAlpha {c : Char} (h : c.isAlpha = false) : c.toLower = c := by
  rw [← Bool.not_eq_true, isAlpha_iff] at h
  rw [← Char.toNat_inj, toNat_toLower, if_neg (by omega)]

@[simp] theorem isAlpha_toLower (c : Char) : c.toLower.isAlpha = c.isAlpha := by
  rw [Bool.eq_iff_iff, isAlpha_iff, isAlpha_iff, toNat_toLower]
  split <;> omega

@[simp] theorem toLower_toLower (c : Char) : c.toLower.toLower = c.toLower := by
  rw [← Char.toNat_inj, toNat_toLower, if_neg]
  rw [toNat_toLower]
  split <;> omega

/-- What is the same for all letters does not depend on the case. -/
theorem apply_toLower {β : Type} (f : Char → β)
    (h : ∀ c d : Char, c.isAlpha = true → d.isAlpha = true → f c = f d) (c : Char) :
    f c.toLower = f c := by
  cases halpha : c.isAlpha with
  | true => exact h _ _ ((isAlpha_toLower c).trans halpha) halpha
  | false => rw [toLower_of_not_isAlpha halpha]

@[simp] theorem isDigit_toLower (c : Char) : c.toLower.isDigit = c.isDigit := by
  have hletter (d : Char) (hd : d.isAlpha = true) : d.isDigit = false := by
    cases hdigit : d.isDigit with
    | true => rw [not_isAlpha_of_isDigit hdigit] at hd; cases hd
    | false => rfl
  exact apply_toLower _ (fun c d hc hd => (hletter c hc).trans (hletter d hd).symm) c

@[simp] theorem isAlphanum_toLower (c : Char) : c.toLower.isAlphanum = c.isAlphanum := by
  rw [Char.isAlphanum, Char.isAlphanum, isAlpha_toLower, isDigit_toLower]

@[simp] theorem isBlank_toLower (c : Char) : Text.isBlank c.toLower = Text.isBlank c := by
  have hletter (d : Char) (hd : d.isAlpha = true) : Text.isBlank d = false :=
    not_isBlank_of_isAlphanum (by simp [Char.isAlphanum, hd])
  exact apply_toLower _ (fun c d hc hd => (hletter c hc).trans (hletter d hd).symm) c

@[simp] theorem utf8Size_toLower (c : Char) : c.toLower.utf8Size = c.utf8Size := by
  have hletter (d : Char) (hd : d.isAlpha = true) : d.utf8Size = 1 := by
    rw [isAlpha_iff] at hd
    rw [Char.utf8Size_eq_one_iff, UInt32.le_iff_toNat_le]
    have hcode : d.val.toNat = d.toNat := rfl
    have hlast : (127 : UInt32).toNat = 127 := rfl
    omega
  exact apply_toLower _ (fun c d hc hd => (hletter c hc).trans (hletter d hd).symm) c

/-- A character that is no letter is itself in lower case, and nothing else is in lower case. -/
theorem toLower_eq_iff {c d : Char} (hd : d.isAlpha = false) : c.toLower = d ↔ c = d := by
  constructor
  · rintro rfl
    exact (toLower_of_not_isAlpha ((isAlpha_toLower c).symm.trans hd)).symm
  · rintro rfl
    exact toLower_of_not_isAlpha hd

theorem mem_map_toLower {c : Char} (hc : c.isAlpha = false) {text : List Char} :
    c ∈ text.map Char.toLower ↔ c ∈ text := by
  rw [List.mem_map]
  constructor
  · rintro ⟨d, hd, heq⟩
    rwa [← (toLower_eq_iff hc).mp heq]
  · intro hmem
    exact ⟨c, hmem, toLower_of_not_isAlpha hc⟩

theorem map_toLower_eq_singleton {c : Char} (hc : c.isAlpha = false) {text : List Char} :
    text.map Char.toLower = [c] ↔ text = [c] := by
  rw [List.map_eq_singleton_iff]
  constructor
  · rintro ⟨d, rfl, hd⟩
    rw [(toLower_eq_iff hc).mp hd]
  · rintro rfl
    exact ⟨c, rfl, toLower_of_not_isAlpha hc⟩

theorem toList_toLower (text : String) : text.toLower.toList = text.toList.map Char.toLower :=
  String.toList_map

@[simp] theorem byteLength_map_toLower (text : List Char) :
    Text.byteLength (text.map Char.toLower) = Text.byteLength text := by
  induction text with
  | nil => rfl
  | cons c text ih => simp [ih]

@[simp] theorem advance_map_toLower (p : Position) (text : List Char) :
    p.advance (text.map Char.toLower) = p.advance text := by
  induction text generalizing p with
  | nil => rfl
  | cons c text ih =>
    have hnext : p.next c.toLower = p.next c := by
      simp only [Position.next, toLower_eq_iff (rfl : '\n'.isAlpha = false)]
    change (p.next c.toLower).advance (text.map Char.toLower) = (p.next c).advance text
    rw [hnext, ih]

def Token.lower (token : Token) : Token := { token with lexeme := token.lexeme.toLower }

@[simp] theorem Token.kind_lower (token : Token) : token.lower.kind = token.kind := rfl

@[simp] theorem Token.span_lower (token : Token) : token.lower.span = token.span := rfl

@[simp] theorem Token.isEnd_lower (token : Token) : token.lower.isEnd = token.isEnd := rfl

/-- Tokens of one kind at one place, with the same text but for the case of letters. -/
structure Token.Recased (token token' : Token) : Prop where
  kind_eq : token.kind = token'.kind
  span_eq : token.span = token'.span
  lexeme_eq : token.lexeme.toLower = token'.lexeme.toLower

theorem Token.forall₂_recased {tokens tokens' : List Token}
    (h : tokens.map lower = tokens'.map lower) : List.Forall₂ Recased tokens tokens' := by
  rw [← List.forall₂_eq_eq_eq, List.forall₂_map_left_iff, List.forall₂_map_right_iff] at h
  refine h.imp fun token token' heq => ?_
  have hkind : token.lower.kind = token'.lower.kind := congrArg kind heq
  have hspan : token.lower.span = token'.lower.span := congrArg span heq
  have hlexeme : token.lower.lexeme = token'.lower.lexeme := congrArg lexeme heq
  exact ⟨hkind, hspan, hlexeme⟩

theorem Token.lower_behind (front : List Char) (kind : Token.Kind) (lexeme : List Char) :
    (Token.behind front kind lexeme).lower =
      Token.behind (front.map Char.toLower) kind (lexeme.map Char.toLower) := by
  have htext : (String.ofList lexeme).toLower = String.ofList (lexeme.map Char.toLower) := by
    apply String.toList_inj.mp
    rw [toList_toLower, String.toList_ofList, String.toList_ofList]
  simp [lower, behind, Span.behind, htext]

theorem Gap.lower {gap : List Char} (h : Gap gap) : Gap (gap.map Char.toLower) := by
  induction h with
  | nil => exact .nil
  | blank hc _ ih => exact .blank ((isBlank_toLower _).trans hc) ih
  | comment hbody _ ih =>
    rw [List.map_cons, List.map_append, List.map_cons]
    exact .comment (mt (mem_map_toLower rfl).mp hbody) ih

theorem IsWord.lower {lexeme after : List Char} (h : IsWord lexeme after) :
    IsWord (lexeme.map Char.toLower) (after.map Char.toLower) := by
  obtain ⟨hhead, hword, hafter⟩ := h
  refine ⟨?_, ?_, ?_⟩
  · simpa using hhead
  · simpa using hword
  · simpa using hafter

theorem IsNumber.lower {lexeme after : List Char} (h : IsNumber lexeme after) :
    IsNumber (lexeme.map Char.toLower) (after.map Char.toLower) := by
  obtain ⟨hne, hdigits, hafter⟩ := h
  refine ⟨?_, ?_, ?_⟩
  · simpa using hne
  · simpa using hdigits
  · simpa using hafter

theorem IsUnknown.lower {c : Char} {after : List Char} (h : IsUnknown c after) :
    IsUnknown c (after.map Char.toLower) where
  not_blank := h.not_blank
  not_alphanum := h.not_alphanum
  not_sign := h.not_sign
  colon hc := by
    rw [List.head?_map]
    intro hhead
    obtain ⟨d, hd, heq⟩ := Option.map_eq_some_iff.mp hhead
    rw [(toLower_eq_iff rfl).mp heq] at hd
    exact h.colon hc hd
  brace hc := mt (mem_map_toLower rfl).mp (h.brace hc)

/-- A token is spelled in lower case as well, whatever the case of the text behind it. -/
theorem Token.Kind.Matches.lower {kind : Token.Kind} {lexeme after : List Char}
    (h : kind.Matches lexeme after) :
    kind.Matches (lexeme.map Char.toLower) (after.map Char.toLower) := by
  have hlower : (lexeme.map Char.toLower).map Char.toLower = lexeme.map Char.toLower := by
    simp
  cases kind with
  | keyword word => exact ⟨h.1.lower, hlower.trans h.2⟩
  | identifier => exact ⟨h.1.lower, fun word => hlower.symm ▸ h.2 word⟩
  | number => exact IsNumber.lower h
  | operator op =>
    obtain rfl := h
    cases op <;> rfl
  | unknown =>
    obtain ⟨c, rfl, hc⟩ := h
    have halpha : c.isAlpha = false := by
      have halphanum := hc.not_alphanum
      rw [Char.isAlphanum, Bool.or_eq_false_iff] at halphanum
      exact halphanum.1
    refine ⟨c, ?_, hc.lower⟩
    rw [List.map_singleton, toLower_of_not_isAlpha halpha]
  | endOfInput =>
    obtain ⟨rfl, rfl⟩ := h
    exact ⟨rfl, rfl⟩
  | _ =>
    obtain rfl := h
    rfl

theorem Scans.lower {front rest : List Char} {tokens : List Token} (h : Scans front rest tokens) :
    Scans (front.map Char.toLower) (rest.map Char.toLower) (tokens.map Token.lower) := by
  -- On the run of the scanner. Places are counted from the text in front, which keeps its length.
  induction h with
  | ending hgap =>
    simp only [List.map_cons, List.map_nil, Token.lower_behind, List.map_append]
    exact .ending hgap.lower
  | unclosed hgap hbody =>
    simp only [List.map_cons, List.map_nil, Token.lower_behind, List.map_append]
    exact .unclosed hgap.lower (mt (mem_map_toLower rfl).mp hbody)
  | @token front gap lexeme after kind tokens hgap hmatches hkind hbrace later ih =>
    have hbrace' : lexeme.map Char.toLower ≠ ['{'] :=
      mt (map_toLower_eq_singleton rfl).mp hbrace
    simp only [List.map_cons, Token.lower_behind, List.map_append] at ih ⊢
    exact .token hgap.lower hmatches.lower hkind hbrace' ih

/-- A source in lower case has the tokens of the source in lower case. -/
theorem tokenize_toLower (source : String) :
    tokenize source.toLower = (tokenize source).map Token.lower := by
  rw [tokenize_eq_iff, toList_toLower]
  exact (scans_tokenize source).lower

end TinyLang
