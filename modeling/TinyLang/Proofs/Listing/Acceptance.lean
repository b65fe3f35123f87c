import TinyLang.Proofs.Grammar.Relocation
import TinyLang.Proofs.Listing.Places
import TinyLang.Proofs.Listing.RoundTrip
import TinyLang.Proofs.Text.Encoding
import TinyLang.Proofs.Text.Trimming

namespace TinyLang

namespace Listing

inductive Row where
  | notText
  | blank
  | noComma (text : String)
  | unknownKind (name : String)
  | token (kind : Token.Kind) (lexeme : String)
  | ending
deriving DecidableEq

namespace Row

/-- The shape of a line by its text. Behind the last comma stands the name of a kind, with blanks
around it. -/
inductive OfText : List Char → Row → Prop
  | blank {text : List Char} (h : Text.Blank text) : OfText text .blank
  | noComma {text : List Char} (hblank : ¬ Text.Blank text) (hcomma : ',' ∉ text) :
      OfText text (.noComma (String.ofList text))
  | unknownKind {lexeme before name after : List Char} (hbefore : Text.Blank before)
      (hafter : Text.Blank after) (hname : Text.Trimmed name) (hcomma : ',' ∉ name)
      (hunknown : ∀ kind : Token.Kind, kind.name.toList ≠ name) :
      OfText (lexeme ++ ',' :: (before ++ (name ++ after))) (.unknownKind (String.ofList name))
  | token {lexeme before after : List Char} {kind : Token.Kind} (hbefore : Text.Blank before)
      (hafter : Text.Blank after) (hkind : kind ≠ .endOfInput) :
      OfText (lexeme ++ ',' :: (before ++ (kind.name.toList ++ after)))
        (.token kind (String.ofList lexeme))
  /-- The lexeme of the end does not matter. -/
  | ending {lexeme before after : List Char} (hbefore : Text.Blank before)
      (hafter : Text.Blank after) :
      OfText (lexeme ++ ',' :: (before ++ (Token.Kind.endOfInput.name.toList ++ after))) .ending

inductive Of : List UInt8 → Row → Prop
  | notText {line : List UInt8} (h : ∀ text, Text.encode text ≠ line) : Of line .notText
  | text {text : List Char} {row : Row} (h : OfText text row) : Of (Text.encode text) row

def goesOn : Row → Bool
  | blank | token .. => true
  | _ => false

def token? : Row → Option Token
  | token kind lexeme => some ⟨kind, lexeme, {}⟩
  | _ => none

def error? (number : Nat) : Row → Option ListingError
  | notText => some .notText
  | noComma text => some (.malformedLine number text)
  | unknownKind name => some (.unknownKind number name)
  | _ => none

def ofChars (text : List Char) : Row :=
  if text.all Text.isBlank then .blank
  else
    match splitLastComma? text with
    | none => .noComma (String.ofList text)
    | some (lexeme, back) =>
      match Token.Kind.ofName? (String.ofList (Text.trim back)) with
      | none => .unknownKind (String.ofList (Text.trim back))
      | some .endOfInput => .ending
      | some kind => .token kind (String.ofList lexeme)

theorem not_mem_of_blank {text : List Char} (h : Text.Blank text) : ',' ∉ text :=
  fun hmem => absurd (h ',' hmem) (by decide)

theorem all_isBlank_iff {text : List Char} : text.all Text.isBlank = true ↔ Text.Blank text :=
  List.all_eq_true

/-- What stands behind the last comma is trimmed and looked up. -/
theorem ofChars_append {before name after : List Char} (hbefore : Text.Blank before)
    (hafter : Text.Blank after) (hname : Text.Trimmed name) (hcomma : ',' ∉ name)
    (lexeme : List Char) : ofChars (lexeme ++ ',' :: (before ++ (name ++ after))) =
      match Token.Kind.ofName? (String.ofList name) with
      | none => .unknownKind (String.ofList name)
      | some .endOfInput => .ending
      | some kind => .token kind (String.ofList lexeme) := by
  have hblank : ¬ (lexeme ++ ',' :: (before ++ (name ++ after))).all Text.isBlank = true := by
    rw [all_isBlank_iff]
    exact fun h => not_mem_of_blank h (by simp)
  have hback : ',' ∉ before ++ (name ++ after) :=
    List.not_mem_append (not_mem_of_blank hbefore)
      (List.not_mem_append hcomma (not_mem_of_blank hafter))
  rw [ofChars, if_neg hblank, splitLastComma?_append hback]
  simp only [Text.trim_append hbefore hname hafter]

theorem trimmed_name (kind : Token.Kind) : Text.Trimmed kind.name.toList :=
  .of_forall fun c hc => (kind.name_plain c hc).1

theorem comma_not_mem_name (kind : Token.Kind) : ',' ∉ kind.name.toList :=
  fun hmem => (kind.name_plain _ hmem).2 rfl

theorem OfText.ofChars_eq {text : List Char} {row : Row} (h : OfText text row) :
    ofChars text = row := by
  cases h with
  | blank h => rw [ofChars, if_pos (all_isBlank_iff.mpr h)]
  | noComma hblank hcomma =>
    rw [ofChars, if_neg (all_isBlank_iff.not.mpr hblank), splitLastComma?_eq_none_iff.mpr hcomma]
  | @unknownKind lexeme before name after hbefore hafter hname hcomma hunknown =>
    have hlookup : Token.Kind.ofName? (String.ofList name) = none := by
      rw [Token.Kind.ofName?, List.find?_eq_none]
      intro kind _ hkind
      refine hunknown kind ?_
      rw [beq_iff_eq.mp hkind, String.toList_ofList]
    rw [ofChars_append hbefore hafter hname hcomma, hlookup]
  | @token lexeme before after kind hbefore hafter hkind =>
    rw [ofChars_append hbefore hafter (trimmed_name kind) (comma_not_mem_name kind),
      String.ofList_toList, Token.Kind.ofName?_name]
    cases kind <;> first | rfl | exact absurd rfl hkind
  | ending hbefore hafter =>
    rw [ofChars_append hbefore hafter (trimmed_name _) (comma_not_mem_name _),
      String.ofList_toList, Token.Kind.ofName?_name]

theorem ofText_ofChars (text : List Char) : OfText text (ofChars text) := by
  by_cases hblank : Text.Blank text
  · rw [OfText.ofChars_eq (.blank hblank)]
    exact .blank hblank
  cases hsplit : splitLastComma? text with
  | none =>
    have hcomma := splitLastComma?_eq_none_iff.mp hsplit
    rw [OfText.ofChars_eq (.noComma hblank hcomma)]
    exact .noComma hblank hcomma
  | some parts =>
    obtain ⟨lexeme, back⟩ := parts
    obtain ⟨rfl, hcomma⟩ := splitLastComma?_eq_some_iff.mp hsplit
    obtain ⟨before, after, hback, hbefore, hname, hafter⟩ := Text.exists_trim back
    generalize Text.trim back = name at hback hname
    subst hback
    by_cases hknown : ∃ kind : Token.Kind, kind.name.toList = name
    · obtain ⟨kind, rfl⟩ := hknown
      by_cases hkind : kind = .endOfInput
      · subst hkind
        have hrow : OfText _ .ending := @OfText.ending lexeme before after hbefore hafter
        rwa [hrow.ofChars_eq]
      · have hrow := @OfText.token lexeme before after kind hbefore hafter hkind
        rwa [hrow.ofChars_eq]
    · have hname' : ',' ∉ name := fun hmem => hcomma (by simp [hmem])
      have hrow := @OfText.unknownKind lexeme before name after hbefore hafter hname hname'
        fun kind hkind => hknown ⟨kind, hkind⟩
      rwa [hrow.ofChars_eq]

def ofBytes (line : List UInt8) : Row := (Text.decode line).elim .notText ofChars

theorem Of.ofBytes_eq {line : List UInt8} {row : Row} (h : Of line row) : ofBytes line = row := by
  cases h with
  | notText h => rw [ofBytes, Text.decode_eq_none_iff.mpr h, Option.elim_none]
  | text h => rw [ofBytes, Text.decode_encode, Option.elim_some, h.ofChars_eq]

theorem of_ofBytes (line : List UInt8) : Of line (ofBytes line) := by
  cases hline : Text.decode line with
  | none =>
    rw [ofBytes, hline]
    exact .notText (Text.decode_eq_none_iff.mp hline)
  | some text =>
    obtain rfl := Text.decode_eq_some_iff.mp hline
    rw [ofBytes, hline]
    exact .text (ofText_ofChars text)

/-- Every line has exactly one shape. -/
theorem of_iff {line : List UInt8} {row : Row} : Of line row ↔ ofBytes line = row := by
  constructor
  · exact Of.ofBytes_eq
  · rintro rfl
    exact of_ofBytes line

theorem forall₂_of_iff {lines : List (List UInt8)} {rows : List Row} :
    List.Forall₂ Of lines rows ↔ lines.map ofBytes = rows := by
  have hof : Of = fun line row => ofBytes line = row := by
    funext line row
    exact propext of_iff
  rw [← List.forall₂_eq_eq_eq, List.forall₂_map_left_iff, hof]

/-- A token that is no end of the input, as the shape of a line says it. -/
theorem kind_ne_of_ofBytes {line : List UInt8} {kind : Token.Kind} {lexeme : String}
    (h : ofBytes line = .token kind lexeme) : kind ≠ .endOfInput := by
  have hrow := of_ofBytes line
  rw [h] at hrow
  cases hrow with
  | text htext =>
    cases htext with
    | token _ _ hkind => exact hkind

def reading (number offset : Nat) : Row → Except ListingError (Option Token)
  | notText => .error .notText
  | blank => .ok none
  | noComma text => .error (.malformedLine number text)
  | unknownKind name => .error (.unknownKind number name)
  | token kind lexeme => .ok (some ⟨kind, lexeme, lineSpan number offset lexeme.toList⟩)
  | ending => .ok (some (.endAt offset ⟨number, 1⟩))

theorem readLine_eq (number offset : Nat) (line : List Char) :
    readLine number offset line = (ofChars (Text.trimReturns line)).reading number offset := by
  rw [readLine, ofChars]
  by_cases hblank : (Text.trimReturns line).all Text.isBlank = true
  · simp only [if_pos hblank]
    rfl
  · simp only [if_neg hblank]
    cases splitLastComma? (Text.trimReturns line) with
    | none => rfl
    | some parts =>
      obtain ⟨lexeme, back⟩ := parts
      simp only
      cases Token.Kind.ofName? (String.ofList (Text.trim back)) with
      | none => rfl
      | some kind => cases kind <;> simp [reading, lineSpan]

end Row

def rawLines (bytes : List UInt8) : List (List UInt8) :=
  (Text.pieces 10 bytes).map (List.rdropWhile (· == 13))

def tokensOf (rows : List Row) : List Token :=
  (rows.takeWhile (· ≠ .ending)).filterMap Row.token? ++ [⟨.endOfInput, "", {}⟩]

/-- The error is that of the first line with which something is wrong. The first line of all has the
given number. -/
def FirstError (number : Nat) (rows : List Row) (error : ListingError) : Prop :=
  ∃ before bad after, rows = before ++ bad :: after ∧ (∀ row ∈ before, row.goesOn = true) ∧
    bad.error? (number + before.length) = some error

/-- What reading has to give for the shapes of lines of which the first has the given number. -/
structure Reads (number : Nat) (rows : List Row) (result : Except ListingError (List Token)) :
    Prop where
  ok_iff (found : List Token) : result.map (List.map Token.bare) = .ok found ↔
    (∀ row ∈ rows.takeWhile (· ≠ .ending), row.goesOn = true) ∧ tokensOf rows = found
  error_iff (error : ListingError) : result = .error error ↔ FirstError number rows error

variable {number offset : Nat} {row : Row} {rows : List Row} {problem : ListingError}

theorem Row.error?_of_goesOn (h : row.goesOn = true) (number : Nat) : row.error? number = none := by
  cases row <;> first | rfl | cases h

theorem Row.ne_ending_of_goesOn (h : row.goesOn = true) : row ≠ .ending := by
  rintro rfl
  cases h

theorem Row.of_error? (h : row.error? number = some problem) :
    row ≠ .ending ∧ row.goesOn = false := by
  cases row with
  | blank | token | ending => cases h
  | notText | noComma | unknownKind => exact ⟨by simp, rfl⟩

theorem not_firstError_nil : ¬ FirstError number [] problem := by
  rintro ⟨before, bad, after, hrows, -⟩
  exact List.append_ne_nil_of_right_ne_nil before (List.cons_ne_nil bad after) hrows.symm

theorem firstError_cons_iff : FirstError number (row :: rows) problem ↔
    row.error? number = some problem ∨
      row.goesOn = true ∧ FirstError (number + 1) rows problem := by
  constructor
  · rintro ⟨_ | ⟨first, before⟩, bad, after, hrows, hbefore, hbad⟩
    · cases hrows
      exact .inl hbad
    · cases hrows
      obtain ⟨hrow, hbefore⟩ := List.forall_mem_cons.mp hbefore
      rw [List.length_cons, Nat.add_comm before.length, ← Nat.add_assoc] at hbad
      exact .inr ⟨hrow, before, bad, after, rfl, hbefore, hbad⟩
  · rintro (hrow | ⟨hrow, before, bad, after, rfl, hbefore, hbad⟩)
    · exact ⟨[], row, rows, rfl, by simp, hrow⟩
    · refine ⟨row :: before, bad, after, rfl, List.forall_mem_cons.mpr ⟨hrow, hbefore⟩, ?_⟩
      rwa [List.length_cons, Nat.add_comm before.length, ← Nat.add_assoc]

theorem tokensOf_cons (h : row ≠ .ending) (rows : List Row) :
    tokensOf (row :: rows) = row.token?.toList ++ tokensOf rows := by
  rw [tokensOf, tokensOf, List.takeWhile_cons_of_pos (by simpa using h)]
  cases htoken : row.token? <;> simp [htoken]

theorem Reads.nil (number offset : Nat) (start : Position) :
    Reads number [] (.ok [.endAt offset start]) where
  ok_iff found := by simp [Except.map, Token.bare, Token.endAt, tokensOf]
  error_iff problem := by simp [not_firstError_nil]

theorem Reads.ending (number offset : Nat) (start : Position) (rows : List Row) :
    Reads number (.ending :: rows) (.ok [.endAt offset start]) where
  ok_iff found := by simp [Except.map, Token.bare, Token.endAt, tokensOf]
  error_iff problem := by simp [firstError_cons_iff, Row.error?, Row.goesOn]

theorem Reads.error (h : row.error? number = some problem) (rows : List Row) :
    Reads number (row :: rows) (.error problem) where
  ok_iff found := by simp [Except.map, Row.of_error? h]
  error_iff other := by simp [firstError_cons_iff, h, Row.of_error? h]

theorem Reads.cons {found : Option Token} {result : Except ListingError (List Token)}
    (hrow : row.goesOn = true) (hfound : found.map Token.bare = row.token?)
    (h : Reads (number + 1) rows result) :
    Reads number (row :: rows) (result.map (found.toList ++ ·)) where
  ok_iff tokens := by
    have hne := Row.ne_ending_of_goesOn hrow
    have hbare : found.toList.map Token.bare = row.token?.toList := by
      rw [← hfound]
      cases found <;> rfl
    rw [tokensOf_cons hne, List.takeWhile_cons_of_pos (by simpa using hne), List.forall_mem_cons,
      and_iff_right hrow]
    cases result with
    | error problem =>
      constructor
      · intro hok
        cases hok
      · rintro ⟨hgoesOn, -⟩
        cases (h.ok_iff _).mpr ⟨hgoesOn, rfl⟩
    | ok later =>
      obtain ⟨hgoesOn, htokens⟩ := (h.ok_iff _).mp rfl
      rw [and_iff_right hgoesOn, htokens]
      simp [Except.map, hbare]
  error_iff problem := by
    rw [firstError_cons_iff, Row.error?_of_goesOn hrow, ← h.error_iff]
    cases result <;> simp [Except.map, hrow]

namespace Row

def ofLine (line : List UInt8) : Row := ofBytes (line.rdropWhile (· == 13))

theorem reading_ofLine (number offset : Nat) (line : List UInt8) :
    (ofLine line).reading number offset =
      (Text.decode line).elim (.error .notText) (readLine number offset) := by
  rw [ofLine, ofBytes, Text.decode_rdropWhile]
  cases Text.decode line with
  | none => rfl
  | some text => exact (readLine_eq number offset text).symm

theorem reading_of_goesOn {line : List UInt8} (h : (ofLine line).goesOn = true)
    (number offset : Nat) : ∃ found, (ofLine line).reading number offset = .ok found ∧
      found.map Token.bare = (ofLine line).token? ∧ found.any Token.isEnd = false := by
  cases hrow : ofLine line with
  | blank => exact ⟨none, rfl, rfl, rfl⟩
  | token kind lexeme => exact ⟨_, rfl, rfl, by simp [Token.isEnd, kind_ne_of_ofBytes hrow]⟩
  | notText | noComma | unknownKind | ending =>
    rw [hrow] at h
    cases h

theorem reading_of_error? (h : row.error? number = some problem) (offset : Nat) :
    row.reading number offset = .error problem := by
  cases row <;> cases h <;> rfl

end Row

/-- Only the shape of the first line decides what is read from it and whether reading goes on. Where
the second line starts is of no interest here. -/
theorem readLines_cons (number offset : Nat) (line : List UInt8) :
    ∃ next, ∀ rest, readLines number offset (Text.decode line :: rest) =
      ((Row.ofLine line).reading number offset).bind fun found =>
        if found.any Token.isEnd then .ok found.toList
        else (readLines (number + 1) next rest).map (found.toList ++ ·) := by
  rw [Row.reading_ofLine]
  cases Text.decode line with
  | none => exact ⟨0, fun _ => rfl⟩
  | some text => exact ⟨offset + Text.byteLength text + 1, fun _ => rfl⟩

theorem reads_cons {line : List UInt8} {lines : List (Option (List Char))}
    (h : ∀ next, Reads (number + 1) rows (readLines (number + 1) next lines)) :
    Reads number (.ofLine line :: rows) (readLines number offset (Text.decode line :: lines)) := by
  obtain ⟨next, hcons⟩ := readLines_cons number offset line
  rw [hcons]
  cases hgoesOn : (Row.ofLine line).goesOn with
  | true =>
    obtain ⟨found, hfound, hbare, hend⟩ := Row.reading_of_goesOn hgoesOn number offset
    rw [hfound]
    change Reads number _ (if found.any Token.isEnd = true then _ else _)
    rw [if_neg (by simp [hend])]
    exact .cons hgoesOn hbare (h next)
  | false =>
    cases hproblem : (Row.ofLine line).error? number with
    | some problem =>
      rw [Row.reading_of_error? hproblem]
      exact .error hproblem rows
    | none =>
      cases hrow : Row.ofLine line with
      | ending => exact .ending number offset _ rows
      | _ => simp_all [Row.error?, Row.goesOn]

theorem ofLine_nil : Row.ofLine [] = .blank :=
  Row.Of.ofBytes_eq (.text (.blank (List.forall_mem_nil _)))

theorem ofLine_dropMark (line : List UInt8) :
    Row.ofLine (Text.dropMark 13 line) = .ofLine line := by
  rw [Row.ofLine, Row.ofLine, Text.rdropWhile_dropMark]

theorem map_ofBytes_rawLines (bytes : List UInt8) :
    (rawLines bytes).map Row.ofBytes = (Text.pieces 10 bytes).map Row.ofLine := by
  rw [rawLines, List.map_map]
  rfl

theorem reads_readLines (bytes : List UInt8) (number offset : Nat) :
    Reads number ((rawLines bytes).map .ofBytes)
      (readLines number offset ((Text.lines 10 13 bytes).map Text.decode)) := by
  rw [map_ofBytes_rawLines]
  induction bytes using Text.pieces_induction (10 : UInt8) generalizing number offset with
  | last bytes hfeed =>
    rw [Text.pieces_of_not_mem hfeed, Text.lines_of_not_mem hfeed]
    split
    · next h =>
      have hnone : (none : Option Token).map Token.bare = Row.blank.token? := rfl
      rw [h, List.map_singleton, ofLine_nil]
      exact Reads.cons rfl hnone (.nil (number + 1) offset ⟨number, 1⟩)
    · exact reads_cons fun next => .nil _ _ _
  | step line rest hfeed ih =>
    rw [Text.pieces_append hfeed, Text.lines_append hfeed, List.map_cons, List.map_cons,
      ← ofLine_dropMark]
    exact reads_cons fun next => ih _ next

theorem readLines_cons_congr {line : Option (List Char)} {rest rest' : List (Option (List Char))}
    (h : ∀ number offset, readLines number offset rest = readLines number offset rest')
    (number offset : Nat) :
    readLines number offset (line :: rest) = readLines number offset (line :: rest') := by
  cases line with
  | none => rfl
  | some line => simp only [readLines, h]

/-- What follows a line at which reading stops is not looked at. -/
theorem readLines_cons_of_not_goesOn {line : List UInt8} (h : (Row.ofLine line).goesOn = false)
    (number offset : Nat) (rest : List (Option (List Char))) :
    readLines number offset (Text.decode line :: rest) =
      ((Row.ofLine line).reading number offset).map Option.toList := by
  obtain ⟨next, hcons⟩ := readLines_cons number offset line
  rw [hcons]
  cases hrow : Row.ofLine line with
  | blank | token =>
    rw [hrow] at h
    cases h
  | notText | noComma | unknownKind | ending => rfl

theorem readLines_append {front : List UInt8}
    (h : ∃ row ∈ (rawLines front).map Row.ofBytes, row.goesOn = false) (rest : List UInt8)
    (number offset : Nat) :
    readLines number offset ((Text.lines 10 13 (front ++ 10 :: rest)).map Text.decode) =
      readLines number offset ((Text.lines 10 13 front).map Text.decode) := by
  rw [map_ofBytes_rawLines] at h
  induction front using Text.pieces_induction (10 : UInt8) generalizing number offset with
  | last front hfeed =>
    rw [Text.pieces_of_not_mem hfeed] at h
    obtain ⟨row, hrow, h⟩ := h
    obtain rfl := List.mem_singleton.mp hrow
    have hne : front ≠ [] := by
      rintro rfl
      rw [ofLine_nil] at h
      cases h
    rw [Text.lines_append hfeed, Text.lines_of_not_mem hfeed, if_neg hne, List.map_cons,
      List.map_singleton, readLines_cons_of_not_goesOn h,
      readLines_cons_of_not_goesOn (by rwa [ofLine_dropMark]), ofLine_dropMark]
  | step line front hfeed ih =>
    rw [Text.pieces_append hfeed, List.map_cons] at h
    obtain ⟨row, hrow, h⟩ := h
    rw [List.append_assoc, List.cons_append, Text.lines_append hfeed, Text.lines_append hfeed,
      List.map_cons, List.map_cons]
    rcases List.mem_cons.mp hrow with rfl | hrow
    · have hline : (Row.ofLine (Text.dropMark 13 line)).goesOn = false := by rwa [ofLine_dropMark]
      rw [readLines_cons_of_not_goesOn hline, readLines_cons_of_not_goesOn hline]
    · exact readLines_cons_congr (ih ⟨row, hrow, h⟩) number offset

/-- Each line has one shape, and the shapes decide whether bytes are a listing, of which tokens, and
what is wrong with them otherwise. What follows a line at which reading stops does not matter. -/
theorem readBytes_rows (bytes : ByteArray) : ∃ rows : List Row,
    (∀ rows', List.Forall₂ Row.Of (rawLines bytes.toList) rows' ↔ rows = rows') ∧
      Reads 1 rows (readBytes bytes) ∧
      ((∃ row ∈ rows, row.goesOn = false) →
        ∀ rest, readBytes (bytes.push 10 ++ rest) = readBytes bytes) := by
  refine ⟨(rawLines bytes.toList).map Row.ofBytes, fun rows' => Row.forall₂_of_iff,
    reads_readLines bytes.toList 1 0, fun hstop rest => ?_⟩
  have hbytes : (bytes.push 10 ++ rest).toList = bytes.toList ++ 10 :: rest.toList := by
    simp [Text.toList_eq]
  rw [readBytes, hbytes]
  exact readLines_append hstop rest.toList 1 0

/-- The third line of `x,NUMBER`, an empty line, `x` and a byte that is no text is the first with
which something is wrong. -/
example : readBytes ⟨#[120, 44, 78, 85, 77, 66, 69, 82, 10, 10, 120, 10, 255]⟩ =
    .error (.malformedLine 3 "x") := by decide +kernel

end Listing

end TinyLang
