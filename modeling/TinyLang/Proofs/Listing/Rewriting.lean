import TinyLang.Proofs.Listing.Places
import TinyLang.Proofs.Listing.Reparsing
import TinyLang.Proofs.Text.Encoding

namespace TinyLang

namespace Listing

variable {number offset : Nat} {token : Token} {tokens : List Token}

structure Reloaded (tokens loaded : List Token) : Prop where
  bare_eq : loaded.map Token.bare =
    (Token.beforeEnd tokens).map Token.bare ++ [⟨.endOfInput, "", {}⟩]
  onLine (index : Nat) (token : Token) (h : loaded[index]? = some token) :
    OnLine (write tokens).toList (index + 1) token
  /-- An end of the input that is added stands behind the text. -/
  added (h : ∀ token ∈ tokens, token.isEnd = false) :
    loaded.getLast? = some (.endAt (write tokens).utf8ByteSize ⟨tokens.length + 1, 1⟩)

theorem bare_reloaded_of_end (number offset : Nat) {token : Token} (h : token.isEnd = true) :
    (reloaded number offset token).bare = ⟨.endOfInput, "", {}⟩ := by
  rw [reloaded, if_pos h]
  rfl

theorem bare_reloaded (number offset : Nat) {token : Token} (h : token.isEnd = false) :
    (reloaded number offset token).bare = token.bare := by
  rw [reloaded, if_neg (by simp [h])]
  rfl

theorem bare_reloadedAll_eq (tokens : List Token) (number offset : Nat) :
    (reloadedAll number offset tokens).map Token.bare =
      (Token.beforeEnd tokens).map Token.bare ++ [⟨.endOfInput, "", {}⟩] := by
  induction tokens generalizing number offset with
  | nil => rfl
  | cons token rest ih =>
    cases hend : token.isEnd with
    | true => simp [reloadedAll, Token.beforeEnd, hend, bare_reloaded_of_end]
    | false =>
      have hrest := ih (number + 1) (offset + Text.byteLength (writeLine token).toList)
      simpa [reloadedAll, Token.beforeEnd, hend, bare_reloaded] using hrest

theorem closed_write (tokens : List Token) : Text.Closed (write tokens).toList := by
  induction tokens with
  | nil => exact Text.closed_nil
  | cons token rest ih =>
    rw [toList_write_cons]
    exact Text.closed_append_iff.mpr ih

theorem returns_write (h : ∀ token ∈ tokens, '\n' ∉ token.lexeme.toList) :
    Text.returns (write tokens).toList = 0 := by
  induction tokens with
  | nil => rfl
  | cons token rest ih =>
    obtain ⟨htoken, hrest⟩ := List.forall_mem_cons.mp h
    have hlast : (lineText token).getLast? ≠ some '\r' :=
      fun hreturn => not_return_of_getLast? _ hreturn rfl
    rw [toList_write_cons, Text.returns_append (not_mem_lineText htoken), ih hrest, if_neg hlast]

theorem getLast?_reloadedAll (h : ∀ token ∈ tokens, token.isEnd = false) (number offset : Nat) :
    (reloadedAll number offset tokens).getLast? =
      some (.endAt (offset + (write tokens).utf8ByteSize) ⟨number + tokens.length, 1⟩) := by
  induction tokens generalizing number offset with
  | nil => rfl
  | cons token rest ih =>
    obtain ⟨htoken, hrest⟩ := List.forall_mem_cons.mp h
    rw [reloadedAll, if_neg (by simp [htoken]), List.getLast?_cons, ih hrest, Option.getD_some,
      List.length_cons, ← Text.byteLength_toList, ← Text.byteLength_toList, toList_write_cons,
      toList_writeLine]
    simp [Nat.add_assoc, Nat.add_comm 1]

/-- Reading the listing of tokens gives them back. -/
theorem reloaded_reloadedAll (h : ∀ token ∈ tokens, '\n' ∉ token.lexeme.toList) :
    Reloaded tokens (reloadedAll 1 0 tokens) where
  bare_eq := bare_reloadedAll_eq tokens 1 0
  onLine index token hget := by
    have hplace := place_of_readLines (read_write h) token (List.mem_of_getElem? hget)
    have hline : token.span.line = index + 1 := by
      rw [Span.line, start_of_reloadedAll hget, Nat.add_comm]
    rw [← hline]
    exact hplace.onLine (closed_write tokens) (returns_write h)
  added hend := by
    rw [getLast?_reloadedAll hend, Nat.zero_add, Nat.add_comm 1]

/-- What is read ends with the one end of the input, and no lexeme has a line feed. -/
theorem of_readLines {lines : List (Option (List Char))}
    (hlines : ∀ line, some line ∈ lines → '\n' ∉ line)
    (h : readLines number offset lines = .ok tokens) :
    (∀ token ∈ tokens, '\n' ∉ token.lexeme.toList) ∧
      tokens.map Token.bare =
        (Token.beforeEnd tokens).map Token.bare ++ [⟨.endOfInput, "", {}⟩] := by
  induction lines generalizing number offset tokens with
  | nil =>
    cases h
    exact ⟨by simp [Token.endAt], rfl⟩
  | cons line rest ih =>
    cases line with
    | none => cases h
    | some line =>
      have hline : '\n' ∉ line := hlines line List.mem_cons_self
      have hrest (text : List Char) (hmem : some text ∈ rest) : '\n' ∉ text :=
        hlines text (List.mem_cons_of_mem _ hmem)
      obtain ⟨found, hfound, hend⟩ := of_readLines_cons h
      cases found with
      | none =>
        rcases hend with ⟨hend, -⟩ | ⟨-, later, hlater, rfl⟩
        · cases hend
        · exact ih hrest hlater
      | some token =>
        obtain ⟨hlexeme, -, hempty⟩ := of_readLine hfound
        have hfeed : '\n' ∉ token.lexeme.toList := fun hmem => hline (hlexeme.subset hmem)
        rcases hend with ⟨hend, rfl⟩ | ⟨hend, later, hlater, rfl⟩
        · have hisEnd : token.isEnd = true := hend
          have hkind : token.kind = .endOfInput := of_decide_eq_true hisEnd
          have hbare : token.bare = ⟨.endOfInput, "", {}⟩ := by
            rw [Token.bare, hkind, hempty hisEnd]
          exact ⟨by simpa using hfeed, by simp [Token.beforeEnd, hisEnd, hbare]⟩
        · obtain ⟨hlater, hbare⟩ := ih hrest hlater
          have hisEnd : token.isEnd = false := hend
          refine ⟨List.forall_mem_cons.mpr ⟨hfeed, hlater⟩, ?_⟩
          simpa [Token.beforeEnd, hisEnd] using hbare

/-- What stands in the bytes of a text is read as from the text. -/
theorem readBytes_toUTF8 (text : String) : readBytes text.toUTF8 = read text := by
  have hlines : Text.lines 10 13 (Text.encode text.toList) =
      (Text.lines '\n' '\r' text.toList).map Text.encode :=
    @Text.lines_encode '\n' '\r' (by decide) (by decide) text.toList
  rw [readBytes, read, Text.toList_toUTF8, hlines, List.map_map]
  congr 1
  refine List.map_congr_left fun line _ => ?_
  have hline : String.fromUTF8? ⟨(Text.encode line).toArray⟩ = some (String.ofList line) := by
    rw [Text.fromUTF8?_eq_some_iff, String.toList_ofList]
  rw [Function.comp, hline, Option.map_some, String.toList_ofList]

theorem of_readBytes {bytes : ByteArray} (h : readBytes bytes = .ok tokens) :
    (∀ token ∈ tokens, '\n' ∉ token.lexeme.toList) ∧
      tokens.map Token.bare =
        (Token.beforeEnd tokens).map Token.bare ++ [⟨.endOfInput, "", {}⟩] := by
  refine of_readLines (fun text htext hfeed => ?_) h
  obtain ⟨line, hline, hdecoded⟩ := List.mem_map.mp htext
  obtain ⟨decoded, hutf8, rfl⟩ := Option.map_eq_some_iff.mp hdecoded
  have hencode := Text.fromUTF8?_eq_some_iff.mp hutf8
  have hbyte : '\n'.toUInt8 ∈ Text.encode decoded.toList :=
    (Text.mem_encode_iff (by decide)).mpr hfeed
  rw [hencode] at hbyte
  exact Text.not_mem_of_mem_lines hline hbyte

/-- The bytes of the listing of tokens without line feeds are read, and give the tokens back. So
what was once read from any bytes is the same, but for the places, when it is written and read
again. -/
theorem readBytes_write :
    (∀ tokens : List Token, (∀ token ∈ tokens, '\n' ∉ token.lexeme.toList) →
      ∃ loaded, readBytes (write tokens).toUTF8 = .ok loaded ∧ Reloaded tokens loaded) ∧
    ∀ (bytes : ByteArray) (first : List Token), readBytes bytes = .ok first →
      ∃ second, readBytes (write first).toUTF8 = .ok second ∧
        second.map Token.bare = first.map Token.bare := by
  have hwrite (tokens : List Token) (h : ∀ token ∈ tokens, '\n' ∉ token.lexeme.toList) :
      ∃ loaded, readBytes (write tokens).toUTF8 = .ok loaded ∧ Reloaded tokens loaded := by
    refine ⟨reloadedAll 1 0 tokens, ?_, reloaded_reloadedAll h⟩
    rw [readBytes_toUTF8, read_write h]
  refine ⟨hwrite, fun bytes first hfirst => ?_⟩
  obtain ⟨hfeed, hbare⟩ := of_readBytes hfirst
  obtain ⟨second, hsecond, hreloaded⟩ := hwrite first hfeed
  exact ⟨second, hsecond, hreloaded.bare_eq.trans hbare.symm⟩

/-- A comma, a carriage return and blanks in lexemes do no harm. The first tokens have no end of the
input, and the text has one in its middle. -/
theorem readBytes_write_of_comma :
    (∃ loaded,
      readBytes (write [⟨.unknown, ",\r", {}⟩, ⟨.identifier, " é ", {}⟩]).toUTF8 = .ok loaded ∧
        Reloaded [⟨.unknown, ",\r", {}⟩, ⟨.identifier, " é ", {}⟩] loaded) ∧
    ∃ first second, readBytes "\r\n,,, IDENTIFIER \r\nz,EOF\nq".toUTF8 = .ok first ∧
      readBytes (write first).toUTF8 = .ok second ∧
        second.map Token.bare = first.map Token.bare := by
  have hfirst : readBytes "\r\n,,, IDENTIFIER \r\nz,EOF\nq".toUTF8 =
      .ok [⟨.identifier, ",,", ⟨1, 2, ⟨2, 1⟩, ⟨2, 3⟩⟩⟩, .endAt 17 ⟨3, 1⟩] := by
    rw [readBytes_toUTF8]
    rfl
  obtain ⟨second, hsecond⟩ := readBytes_write.2 _ _ hfirst
  exact ⟨readBytes_write.1 _ (by decide), _, second, hfirst, hsecond⟩

end Listing

end TinyLang
