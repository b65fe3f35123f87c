import Mathlib.Data.List.DropRight
import TinyLang.Text.Blank
import TinyLang.Text.Lines

namespace TinyLang.Text

def encode (text : List Char) : List UInt8 := text.flatMap String.utf8EncodeChar

@[simp] theorem encode_nil : encode [] = [] := rfl

@[simp] theorem encode_cons (c : Char) (text : List Char) :
    encode (c :: text) = String.utf8EncodeChar c ++ encode text := rfl

@[simp] theorem encode_append (front back : List Char) :
    encode (front ++ back) = encode front ++ encode back :=
  List.flatMap_append

theorem toList_eq (bytes : ByteArray) : bytes.toList = bytes.data.toList := by
  have hloop (index : Nat) (front : List UInt8) :
      ByteArray.toList.loop bytes index front = front.reverse ++ bytes.data.toList.drop index := by
    fun_induction ByteArray.toList.loop bytes index front with
    | case1 index front hlt ih =>
      have hindex : index < bytes.data.toList.length := by simpa using hlt
      rw [ih, List.drop_eq_getElem_cons hindex]
      simp [ByteArray.get!, hlt]
    | case2 index front hge =>
      rw [List.drop_eq_nil_of_le (by simpa using hge)]
      simp
  exact (hloop 0 []).trans (by simp)

theorem toList_toUTF8 (text : String) : text.toUTF8.toList = encode text.toList := by
  rw [toList_eq, String.toUTF8_eq_toByteArray, ← String.utf8Encode_toList, List.utf8Encode,
    List.toList_data_toByteArray]
  rfl

/-- A byte below 128 stands for the character of that code and for no other. -/
theorem toNat_of_mem_utf8EncodeChar {c : Char} {byte : UInt8} (h : byte ∈ String.utf8EncodeChar c)
    (hascii : byte.toNat < 128) : c.toNat = byte.toNat := by
  have hlarge (n k : Nat) (hk : 128 ≤ k) (hn : n + k < 256) : byte ≠ UInt8.ofNat (n + k) := by
    rintro rfl
    rw [UInt8.toNat_ofNat_of_lt' hn] at hascii
    omega
  revert h
  fun_cases String.utf8EncodeChar c with
  | case1 v hv =>
    intro h
    rw [List.mem_singleton] at h
    rw [h, UInt8.toNat_ofNat_of_lt' (show v < 256 by omega)]
    rfl
  | case2 v _ _ =>
    simp only [List.mem_cons, List.not_mem_nil, or_false]
    rintro (h | h) <;> exact absurd h (hlarge _ _ (by omega) (by omega))
  | case3 v _ _ _ =>
    simp only [List.mem_cons, List.not_mem_nil, or_false]
    rintro (h | h | h) <;> exact absurd h (hlarge _ _ (by omega) (by omega))
  | case4 v _ _ _ =>
    simp only [List.mem_cons, List.not_mem_nil, or_false]
    rintro (h | h | h | h) <;> exact absurd h (hlarge _ _ (by omega) (by omega))

theorem utf8EncodeChar_of_ascii {c : Char} (hascii : c.toNat < 128) :
    String.utf8EncodeChar c = [c.toUInt8] :=
  String.utf8EncodeChar_eq_singleton (Char.utf8Size_eq_one_iff.mpr (Nat.le_of_lt_succ hascii))

theorem encode_cons_of_ascii {c : Char} (hascii : c.toNat < 128) (text : List Char) :
    encode (c :: text) = c.toUInt8 :: encode text := by
  rw [encode_cons, utf8EncodeChar_of_ascii hascii, List.singleton_append]

theorem toNat_toUInt8 {c : Char} (hascii : c.toNat < 128) : c.toUInt8.toNat = c.toNat :=
  Nat.mod_eq_of_lt (by change c.toNat < 256; omega)

theorem eq_of_mem_utf8EncodeChar {c d : Char} (hascii : c.toNat < 128)
    (h : c.toUInt8 ∈ String.utf8EncodeChar d) : d = c := by
  have hbyte := toNat_of_mem_utf8EncodeChar h (by rwa [toNat_toUInt8 hascii])
  rw [toNat_toUInt8 hascii] at hbyte
  exact Char.toNat_inj.mp hbyte

theorem mem_encode_iff {c : Char} (hascii : c.toNat < 128) {text : List Char} :
    c.toUInt8 ∈ encode text ↔ c ∈ text := by
  constructor
  · intro h
    obtain ⟨d, hd, hc⟩ := List.mem_flatMap.mp h
    exact eq_of_mem_utf8EncodeChar hascii hc ▸ hd
  · intro h
    exact List.mem_flatMap.mpr ⟨c, h, by simp [utf8EncodeChar_of_ascii hascii]⟩

theorem encode_eq_nil_iff {text : List Char} : encode text = [] ↔ text = [] := by
  cases text <;> simp [String.utf8EncodeChar_ne_nil]

theorem getLast?_encode_iff {c : Char} (hascii : c.toNat < 128) {text : List Char} :
    (encode text).getLast? = some c.toUInt8 ↔ text.getLast? = some c := by
  rcases List.eq_nil_or_concat text with rfl | ⟨front, d, rfl⟩
  · simp
  · have hlast : (encode (front ++ [d])).getLast? = (String.utf8EncodeChar d).getLast? := by
      rw [encode_append, encode_cons, encode_nil, List.append_nil, List.getLast?_append,
        List.getLast?_eq_some_getLast String.utf8EncodeChar_ne_nil, Option.some_or]
    rw [List.concat_eq_append, hlast, List.getLast?_concat, Option.some_inj]
    constructor
    · intro h
      exact eq_of_mem_utf8EncodeChar hascii (List.mem_of_getLast? h)
    · rintro rfl
      rw [utf8EncodeChar_of_ascii hascii, List.getLast?_singleton]

theorem dropMark_encode {mark : Char} (hmark : mark.toNat < 128) (line : List Char) :
    dropMark mark.toUInt8 (encode line) = encode (dropMark mark line) := by
  by_cases h : line.getLast? = some mark
  · obtain ⟨front, rfl⟩ := List.getLast?_eq_some_iff.mp h
    rw [dropMark, dropMark, if_pos h, if_pos ((getLast?_encode_iff hmark).mpr h), encode_append,
      encode_cons_of_ascii hmark, encode_nil, List.dropLast_concat, List.dropLast_concat]
  · rw [dropMark, dropMark, if_neg h, if_neg (mt (getLast?_encode_iff hmark).mp h)]

theorem rdropWhile_dropMark {α : Type} [DecidableEq α] (mark : α) (line : List α) :
    (dropMark mark line).rdropWhile (· == mark) = line.rdropWhile (· == mark) := by
  rw [dropMark]
  split
  · next h =>
    obtain ⟨front, rfl⟩ := List.getLast?_eq_some_iff.mp h
    rw [List.dropLast_concat]
    exact (List.rdropWhile_concat_pos (· == mark) front mark (beq_self_eq_true mark)).symm
  · rfl

/-- A mark is dropped from the end of the bytes of a text as often as from the end of the text. -/
theorem rdropWhile_encode {mark : Char} (hmark : mark.toNat < 128) (text : List Char) :
    (encode text).rdropWhile (· == mark.toUInt8) = encode (dropEndWhile (· == mark) text) := by
  induction text using List.reverseRecOn with
  | nil => rfl
  | append_singleton text c ih =>
    by_cases hc : c = mark
    · subst hc
      have hdrop : dropEndWhile (· == c) (text ++ [c]) = dropEndWhile (· == c) text :=
        List.rdropWhile_concat_pos _ _ _ (beq_self_eq_true c)
      rw [hdrop, ← ih, encode_append, encode_cons_of_ascii hmark, encode_nil]
      exact List.rdropWhile_concat_pos _ _ _ (beq_self_eq_true _)
    · have hlast : (encode (text ++ [c])).getLast? ≠ some mark.toUInt8 := by
        rw [Ne, getLast?_encode_iff hmark, List.getLast?_concat, Option.some_inj]
        exact hc
      have hdrop : dropEndWhile (· == mark) (text ++ [c]) = text ++ [c] :=
        List.rdropWhile_concat_neg _ _ _ (by simpa using hc)
      rw [hdrop, List.rdropWhile_eq_self_iff]
      intro hne hbyte
      exact hlast ((List.getLast?_eq_some_getLast hne).trans (congrArg some (beq_iff_eq.mp hbyte)))

/-- The lines of the bytes of a text are the bytes of its lines. -/
theorem lines_encode {feed mark : Char} (hfeed : feed.toNat < 128) (hmark : mark.toNat < 128)
    (text : List Char) :
    lines feed.toUInt8 mark.toUInt8 (encode text) = (lines feed mark text).map encode := by
  induction text using pieces_induction feed with
  | last text h =>
    rw [lines_of_not_mem h, lines_of_not_mem (mt (mem_encode_iff hfeed).mp h)]
    simp only [encode_eq_nil_iff]
    split <;> rfl
  | step front rest h ih =>
    rw [encode_append, encode_cons_of_ascii hfeed, lines_append h,
      lines_append (mt (mem_encode_iff hfeed).mp h), ih, dropMark_encode hmark, List.map_cons]

theorem fromUTF8?_eq_some_iff_toUTF8 {bytes : ByteArray} {text : String} :
    String.fromUTF8? bytes = some text ↔ text.toUTF8 = bytes := by
  constructor
  · intro h
    obtain ⟨hvalid, htext⟩ := Option.dite_none_right_eq_some.mp h
    rw [← Option.some_inj.mp htext]
    rfl
  · rintro rfl
    exact dif_pos text.isValidUTF8

/-- Decoding undoes encoding, and nothing else can be decoded. -/
theorem fromUTF8?_eq_some_iff {bytes : List UInt8} {text : String} :
    String.fromUTF8? ⟨bytes.toArray⟩ = some text ↔ encode text.toList = bytes := by
  rw [fromUTF8?_eq_some_iff_toUTF8, ← toList_toUTF8, toList_eq]
  constructor
  · rintro h
    rw [h]
  · rintro rfl
    rfl

def decode (line : List UInt8) : Option (List Char) :=
  (String.fromUTF8? ⟨line.toArray⟩).map String.toList

theorem decode_eq_some_iff {line : List UInt8} {text : List Char} :
    decode line = some text ↔ encode text = line := by
  simp only [decode, Option.map_eq_some_iff, fromUTF8?_eq_some_iff]
  constructor
  · rintro ⟨string, hline, rfl⟩
    exact hline
  · rintro rfl
    exact ⟨String.ofList text, by rw [String.toList_ofList], String.toList_ofList⟩

theorem decode_eq_none_iff {line : List UInt8} :
    decode line = none ↔ ∀ text, encode text ≠ line := by
  simp only [Option.eq_none_iff_forall_ne_some, ne_eq, decode_eq_some_iff]

theorem decode_encode (text : List Char) : decode (encode text) = some text :=
  decode_eq_some_iff.mpr rfl

theorem exists_encode_of_rdropWhile {line : List UInt8} {text : List Char}
    (h : encode text = line.rdropWhile (· == 13)) : ∃ text, encode text = line := by
  induction line using List.reverseRecOn with
  | nil => exact ⟨[], rfl⟩
  | append_singleton line byte ih =>
    by_cases hbyte : byte = 13
    · subst hbyte
      rw [List.rdropWhile_concat_pos _ _ _ rfl] at h
      obtain ⟨front, rfl⟩ := ih h
      exact ⟨front ++ ['\r'], encode_append front ['\r']⟩
    · rw [List.rdropWhile_concat_neg _ _ _ (by simpa using hbyte)] at h
      exact ⟨text, h⟩

/-- Carriage returns can be dropped before the text is decoded. -/
theorem decode_rdropWhile (line : List UInt8) :
    decode (line.rdropWhile (· == 13)) = (decode line).map trimReturns := by
  cases hline : decode line with
  | some text =>
    rw [Option.map_some, decode_eq_some_iff, ← decode_eq_some_iff.mp hline]
    exact (@rdropWhile_encode '\r' (by decide) text).symm
  | none =>
    rw [Option.map_none, decode_eq_none_iff]
    intro text htext
    obtain ⟨text', htext'⟩ := exists_encode_of_rdropWhile htext
    exact decode_eq_none_iff.mp hline text' htext'

end TinyLang.Text
