import TinyLang.Proofs.Grammar.Relocation
import TinyLang.Proofs.Grammar.Rendering
import TinyLang.Proofs.Token.Composition

namespace TinyLang

/-- The span is in the text, and its lines and columns are those of its bytes. -/
structure Span.Inside (source : String) (span : Span) : Prop where
  le : span.offset + span.length ≤ source.utf8ByteSize
  start_eq : Position.at? source.toList span.offset = some span.start
  stop_eq : Position.at? source.toList (span.offset + span.length) = some span.stop

/-- Only a byte of the text, or the one behind it, has a position. -/
theorem Position.le_of_at? {source : String} {offset : Nat} {p : Position}
    (h : at? source.toList offset = some p) : offset ≤ source.utf8ByteSize := by
  obtain ⟨⟨front, back⟩, hsplit, -⟩ := Option.map_eq_some_iff.mp h
  obtain ⟨hsource, hlength⟩ := Text.splitBytes?_eq_some_iff.mp hsplit
  rw [← Text.byteLength_toList, ← hsource, Text.byteLength_append]
  omega

theorem Token.Placed.inside {source : String} {token : Token} (h : token.Placed source.toList) :
    token.span.Inside source :=
  ⟨Position.le_of_at? h.stop_eq, h.start_eq, h.stop_eq⟩

theorem Span.Inside.after {source : String} {span : Span} (h : span.Inside source) :
    span.after.Inside source :=
  ⟨h.le, h.stop_eq, h.stop_eq⟩

/-- The end of the input covers no byte and is at the end of the text. -/
theorem Token.span_of_alone {source : String} {ending : Token} (h : tokenize source = [ending]) :
    ending.span = .point source.utf8ByteSize ending.span.start := by
  obtain ⟨initial, htokens, -⟩ := (scans_tokenize source).exists_ending
  have hlast := congrArg List.getLast? (h.symm.trans htokens)
  rw [List.getLast?_singleton, List.getLast?_concat, Option.some_inj] at hlast
  rw [hlast, ← Text.byteLength_toList]
  rfl

inductive SyntaxError.Anchored (source : String) (error : SyntaxError) : Prop
  | token {token : Token} (hmem : token ∈ tokenize source) (hopen : token.isEnd = false)
      (hlocation : error.location = token.span)
  /-- At no byte, directly behind the last token before the end of the input. -/
  | behind {initial : List Token} {last ending : Token}
      (htokens : tokenize source = initial ++ [last, ending]) (hopen : last.isEnd = false)
      (hending : ending.isEnd = true) (hlocation : error.location = last.span.after)
  /-- At no byte, at the end of a text that has no other token. -/
  | ending {ending : Token} (htokens : tokenize source = [ending]) (hending : ending.isEnd = true)
      (hlocation : error.location = .point source.utf8ByteSize ending.span.start)

namespace SyntaxError

variable {source : String} {error : SyntaxError}

theorem Located.anchored (h : error.Located (tokenize source)) : error.Anchored source := by
  have hscans := scans_tokenize source
  cases h with
  | token hmem hopen hlocation _ => exact .token hmem hopen hlocation
  | ending hopen hend hlocation =>
    have hcases := hscans.end_cases hopen hend
    obtain ⟨initial, htokens, hinitial⟩ := hscans.exists_ending
    have hinitialOpen : ∀ token ∈ initial, token.isEnd = false :=
      fun token htoken => decide_eq_false (hinitial token htoken)
    rw [htokens, Token.filter_open hinitialOpen rfl] at hcases
    rcases List.eq_nil_or_concat initial with rfl | ⟨initial, last, rfl⟩
    · obtain ⟨-, hspan⟩ | ⟨last, -, -, hlast, -⟩ := hcases
      · refine .ending htokens rfl (hlocation.trans ?_)
        rw [htokens, hspan, ← Text.byteLength_toList]
        rfl
      · cases hlast
    · rw [List.concat_eq_append] at htokens hcases hinitialOpen
      obtain ⟨hnone, -⟩ | ⟨last', -, -, hlast, hspan⟩ := hcases
      · simp at hnone
      · rw [List.getLast?_concat, Option.some_inj] at hlast
        subst hlast
        refine .behind (htokens.trans (List.append_assoc _ _ _)) ?_ rfl ?_
        · exact hinitialOpen last (by simp)
        · rw [hlocation, htokens, hspan]

/-- The place of an error lies in the text. -/
theorem Anchored.inside (h : error.Anchored source) : error.location.Inside source := by
  have hplaced := (positions_tokenize source).2
  cases h with
  | token hmem _ hlocation =>
    rw [hlocation]
    exact (hplaced _ hmem).inside
  | behind htokens _ _ hlocation =>
    rw [hlocation]
    exact (hplaced _ (by simp [htokens])).inside.after
  | @ending ending htokens hending hlocation =>
    have hspan : ending.span = .point source.utf8ByteSize ending.span.start :=
      Token.span_of_alone htokens
    rw [hlocation, ← hspan]
    exact (hplaced ending (by simp [htokens])).inside

structure SameButFound (error error' : SyntaxError) : Prop where
  cause_eq : error.cause.bare = error'.cause.bare
  location_eq : error.location = error'.location
  stack_eq : error.stack = error'.stack

end SyntaxError

namespace Program

open TinyLang.Parser

variable {source gap : String} {config : ParserConfig} {error : SyntaxError}

/-- Behind other tokens it does not matter where the end of the input is. -/
theorem parse_other_end {tokens : List Token} {last last' : Token} (hne : tokens ≠ [])
    (hopen : ∀ token ∈ tokens, token.isEnd = false) (hlast : last.isEnd = true)
    (hbare : last.bare = last'.bare) (h : parse config (tokens ++ [last]) = .error error) :
    ∃ error', parse config (tokens ++ [last']) = .error error' ∧ error.SameButFound error' := by
  have hlast' : last'.isEnd = true := (Token.isEnd_of_bare_eq hbare).symm.trans hlast
  have hback : Token.nextKind [last'] = .endOfInput := of_decide_eq_true hlast'
  obtain ⟨program, hparse, -⟩ | ⟨error₁, error', count, hparse, hparse', hcount, htwin⟩ :=
    parse_append_of_end hopen hlast [] hback config
  · cases h.symm.trans hparse
  · obtain rfl : error = error₁ := Except.error.inj (h.symm.trans hparse)
    refine ⟨error', hparse', ?_⟩
    have hfront : List.Forall₂ (fun token token' => token.bare = token'.bare) tokens tokens :=
      List.forall₂_same.mpr fun _ _ => rfl
    have hsame : List.Forall₂ (fun token token' => token.bare = token'.bare)
        (tokens ++ [last]) (tokens ++ [last']) :=
      List.rel_append hfront (.cons hbare .nil)
    have hspan : Token.errorSpan (tokens ++ [last]) count =
        Token.errorSpan (tokens ++ [last']) count := by
      rcases Nat.lt_or_eq_of_le hcount with hindex | rfl
      · rw [Token.errorSpan_append hindex, Token.errorSpan_append hindex]
      · rw [Token.errorSpan_end hlast, Token.errorSpan_end hlast', if_neg hne, if_neg hne]
    exact
      { cause_eq := by
          rw [← htwin.cause_eq, ← htwin.cause_eq']
          exact SyntaxError.Cause.bare_withFound (Token.bare_foundAt hsame count) error.cause
        location_eq := by rw [htwin.location_eq, htwin.location_eq', hspan]
        stack_eq := htwin.stack_eq }

/-- Blanks and comments at the end of a text only move the end of the input. -/
theorem tokenize_append_gap_nil (hclosed : ∀ token ∈ tokenize source, ¬ token.opensComment)
    (hgap : Gap gap.toList) : ∃ initial last last', tokenize source = initial ++ [last] ∧
      tokenize (source ++ gap) = initial ++ [last'] ∧
        (∀ token ∈ initial, token.isEnd = false) ∧ last.isEnd = true ∧ last.bare = last'.bare := by
  obtain ⟨initial, htokens, hinitial⟩ := (scans_tokenize source).exists_ending
  have hapart : Apart source gap "" := by
    refine .inr ⟨.behind source.toList .endOfInput [], ?_, ?_⟩
    · rw [String.append_empty, htokens]
      exact List.mem_append_right _ (List.mem_singleton_self _)
    · rw [Token.behind_endOffset, List.append_nil, Text.byteLength_toList]
  have hmoved := tokenize_of_apart hclosed hgap hapart
  have hnothing : tokenize "" = [.endAt 0 .first] := by decide +kernel
  rw [String.append_empty, hnothing, htokens, List.dropLast_concat] at hmoved
  have hnotEnd (token : Token) (htoken : token ∈ initial) : token.isEnd = false :=
    decide_eq_false (hinitial token htoken)
  exact ⟨initial, _, _, htokens, hmoved, hnotEnd, rfl, rfl⟩

/-- Every error of a text is at one of its tokens or directly behind the last one. So its place lies
in the text, and blanks and comments that are added to a text with some token do not move it. -/
theorem anchored_of_parse (h : parse config (tokenize source) = .error error) :
    error.Anchored source ∧ error.location.Inside source ∧
    ∀ gap : String, Gap gap.toList → (∀ token ∈ tokenize source, ¬ token.opensComment) →
      (∃ token ∈ tokenize source, token.isEnd = false) →
        ∃ error', parse config (tokenize (source ++ gap)) = .error error' ∧
          error.SameButFound error' := by
  have hanchored := (located_of_parse h).anchored
  refine ⟨hanchored, hanchored.inside, fun gap hgap hclosed ⟨token, hmem, htoken⟩ => ?_⟩
  obtain ⟨initial, last, last', htokens, htokens', hinitial, hlast, hbare⟩ :=
    tokenize_append_gap_nil hclosed hgap
  rw [htokens] at h hmem
  rw [htokens']
  refine parse_other_end ?_ hinitial hlast hbare h
  rintro rfl
  obtain rfl := List.mem_singleton.mp hmem
  rw [hlast] at htoken
  cases htoken

/-- The name is missing directly behind the keyword, whatever blanks and comments come after it. -/
theorem anchored_of_parse_of_read :
    ∃ error, parse {} (tokenize "\x7bé\x7d\nread ") = .error error ∧
      error.Anchored "\x7bé\x7d\nread " ∧ error.location.Inside "\x7bé\x7d\nread " ∧
      ∃ error', parse {} (tokenize ("\x7bé\x7d\nread " ++ "\x7b;\n\x7d\t")) = .error error' ∧
        error.SameButFound error' := by
  have htokens : tokenize "\x7bé\x7d\nread " =
      [⟨.keyword .readWord, "read", ⟨5, 4, ⟨2, 1⟩, ⟨2, 5⟩⟩⟩, .endAt 10 ⟨2, 6⟩] := by decide +kernel
  have hparse : parse {} (tokenize "\x7bé\x7d\nread ") =
      .error ⟨.expectedToken [.identifier] (.endAt 10 ⟨2, 6⟩), .point 9 ⟨2, 5⟩,
        [.program, .sequence, .statement, .read]⟩ := by
    rw [htokens]
    decide +kernel
  have hclosed : ∀ token ∈ tokenize "\x7bé\x7d\nread ", ¬ token.opensComment := by
    simp [htokens, Token.opensComment, Token.endAt]
  have hgap : Gap "\x7b;\n\x7d\t".toList :=
    @Gap.comment [';', '\n'] ['\t'] (by decide) (.blank (by decide) .nil)
  obtain ⟨hanchored, hinside, hsame⟩ := anchored_of_parse hparse
  refine ⟨_, hparse, hanchored, hinside, hsame _ hgap hclosed ?_⟩
  rw [htokens]
  exact ⟨_, List.mem_cons_self, rfl⟩

end Program

end TinyLang
