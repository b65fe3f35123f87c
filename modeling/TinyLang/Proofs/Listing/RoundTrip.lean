import TinyLang.Listing

namespace TinyLang

/-- In the names of kinds there is neither a blank nor a comma. -/
theorem Token.Kind.name_plain (kind : Token.Kind) :
    ∀ c ∈ kind.name.toList, Text.isBlank c = false ∧ c ≠ ',' := by
  have hall : kind.name.toList.all (fun c => !Text.isBlank c && c != ',') = true := by
    cases kind with
    | keyword word => cases word <;> rfl
    | operator op => cases op <;> rfl
    | _ => rfl
  simpa using hall

namespace Listing

def reloaded (number offset : Nat) (token : Token) : Token :=
  if token.isEnd then .endAt offset ⟨number, 1⟩
  else ⟨token.kind, token.lexeme, ⟨offset, Text.byteLength token.lexeme.toList, ⟨number, 1⟩,
    ⟨number, 1 + token.lexeme.toList.length⟩⟩⟩

def reloadedAll (number offset : Nat) : List Token → List Token
  | [] => [.endAt offset ⟨number, 1⟩]
  | token :: rest =>
    reloaded number offset token ::
      if token.isEnd then []
      else reloadedAll (number + 1) (offset + Text.byteLength (writeLine token).toList) rest

def lineText (token : Token) : List Char := token.lexeme.toList ++ ',' :: token.kind.name.toList

theorem toList_writeLine (token : Token) :
    (writeLine token).toList = lineText token ++ ['\n'] := by
  simp [writeLine, lineText]

/-- A line ends with the name of a kind, and so with no carriage return. -/
theorem not_return_of_getLast? {token : Token} : ∀ c ∈ (lineText token).getLast?, c ≠ '\r' := by
  rintro c hc rfl
  have hlast : (lineText token).getLast? = (',' :: token.kind.name.toList).getLast? := by
    rw [lineText, List.getLast?_append, List.getLast?_cons, Option.some_or]
  rw [hlast] at hc
  rcases List.mem_cons.mp (List.mem_of_getLast? hc) with hc | hc
  · cases hc
  · exact absurd (token.kind.name_plain _ hc).1 (by decide)

theorem not_mem_lineText {token : Token} (h : '\n' ∉ token.lexeme.toList) :
    '\n' ∉ lineText token := by
  intro hmem
  rcases List.mem_append.mp hmem with hmem | hmem
  · exact h hmem
  rcases List.mem_cons.mp hmem with hmem | hmem
  · cases hmem
  · exact absurd (token.kind.name_plain _ hmem).1 (by decide)

/-- A line is read as the token from which it was written. -/
theorem readLine_lineText (number offset : Nat) (token : Token) :
    readLine number offset (lineText token) = .ok (some (reloaded number offset token)) := by
  have htrim : Text.trimReturns (lineText token) = lineText token :=
    Text.dropEndWhile_of_getLast? fun c hc => by simpa using not_return_of_getLast? c hc
  have hblank : (lineText token).all Text.isBlank = false := by
    simp [lineText, show Text.isBlank ',' = false from rfl]
  have hsplit : splitLastComma? (lineText token) =
      some (token.lexeme.toList, token.kind.name.toList) :=
    splitLastComma?_append (fun h => (token.kind.name_plain _ h).2 rfl) _
  have hname : Text.trim token.kind.name.toList = token.kind.name.toList :=
    Text.trim_of_forall fun c hc => (token.kind.name_plain c hc).1
  rw [readLine, htrim, hblank, hsplit]
  simp only [hname, String.ofList_toList, Token.Kind.ofName?_name, reloaded, Token.isEnd,
    decide_eq_true_eq]
  obtain ⟨kind, lexeme, span⟩ := token
  cases kind <;> rfl

theorem readLines_of_end {number offset : Nat} {line : List Char} {token : Token}
    (h : readLine number offset line = .ok (some token)) (hend : token.isEnd = true)
    (rest : List (Option (List Char))) :
    readLines number offset (some line :: rest) = .ok [token] := by
  rw [readLines, h]
  change (if token.isEnd = true then _ else _) = _
  rw [if_pos hend]
  rfl

theorem readLines_of_not_end {number offset : Nat} {line : List Char} {token : Token}
    {rest : List (Option (List Char))} {later : List Token}
    (h : readLine number offset line = .ok (some token)) (hend : token.isEnd = false)
    (hrest : readLines (number + 1) (offset + Text.byteLength line + 1) rest = .ok later) :
    readLines number offset (some line :: rest) = .ok (token :: later) := by
  rw [readLines, h]
  change (if token.isEnd = true then _ else _) = _
  rw [if_neg (by simp [hend]), hrest]
  rfl

theorem isEnd_reloaded (number offset : Nat) (token : Token) :
    (reloaded number offset token).isEnd = token.isEnd := by
  rw [reloaded]
  split
  · next h => exact h.symm
  · rfl

theorem toList_write_cons (token : Token) (rest : List Token) :
    (write (token :: rest)).toList = lineText token ++ '\n' :: (write rest).toList := by
  rw [write, List.map_cons, String.join_cons, String.toList_append, toList_writeLine,
    List.append_assoc]
  rfl

theorem readLines_write {tokens : List Token}
    (h : ∀ token ∈ tokens, '\n' ∉ token.lexeme.toList) (number offset : Nat) :
    readLines number offset ((Text.lines '\n' '\r' (write tokens).toList).map some) =
      .ok (reloadedAll number offset tokens) := by
  induction tokens generalizing number offset with
  | nil => rfl
  | cons token rest ih =>
    obtain ⟨htoken, hrest⟩ := List.forall_mem_cons.mp h
    have hmark : Text.dropMark '\r' (lineText token) = lineText token :=
      if_neg fun hreturn => not_return_of_getLast? _ hreturn rfl
    rw [toList_write_cons, Text.lines_append (not_mem_lineText htoken), hmark, List.map_cons, reloadedAll]
    have hread := readLine_lineText number offset token
    have hreloaded := isEnd_reloaded number offset token
    cases hend : token.isEnd with
    | true => exact readLines_of_end hread (hreloaded.trans hend) _
    | false =>
      refine readLines_of_not_end hread (hreloaded.trans hend) ?_
      have hoffset : offset + Text.byteLength (lineText token) + 1 =
          offset + Text.byteLength (writeLine token).toList := by
        rw [toList_writeLine, Text.byteLength_append, Nat.add_assoc]
        rfl
      rw [hoffset]
      exact ih hrest _ _

/-- Reading a listing gives back the tokens from which it was written. -/
theorem read_write {tokens : List Token} (h : ∀ token ∈ tokens, '\n' ∉ token.lexeme.toList) :
    read (write tokens) = .ok (reloadedAll 1 0 tokens) :=
  readLines_write h 1 0

end Listing

end TinyLang
