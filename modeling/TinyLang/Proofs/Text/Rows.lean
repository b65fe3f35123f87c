import TinyLang.Proofs.Text.Trimming
import TinyLang.Text.Lines

namespace TinyLang.Text

def ofRows (rows : List (List Char)) : List Char := rows.flatMap (· ++ ['\n'])

@[simp] theorem ofRows_nil : ofRows [] = [] := rfl

@[simp] theorem ofRows_cons (row : List Char) (rows : List (List Char)) :
    ofRows (row :: rows) = row ++ '\n' :: ofRows rows := by
  simp [ofRows]

@[simp] theorem ofRows_append (rows rows' : List (List Char)) :
    ofRows (rows ++ rows') = ofRows rows ++ ofRows rows' := by
  simp [ofRows]

theorem ofRows_flatMap {α : Type} (f : α → List (List Char)) (entries : List α) :
    ofRows (entries.flatMap f) = entries.flatMap fun entry => ofRows (f entry) := by
  rw [ofRows, List.flatMap_assoc]
  rfl

/-- The rows are the pieces of the text between its line feeds. Behind the last one nothing is
left. -/
theorem pieces_ofRows {rows : List (List Char)} (h : ∀ row ∈ rows, '\n' ∉ row) :
    pieces '\n' (ofRows rows) = rows ++ [[]] := by
  induction rows with
  | nil => rfl
  | cons row rows ih =>
    rw [List.forall_mem_cons] at h
    rw [ofRows_cons, pieces_append h.1, ih h.2]
    rfl

theorem ofRows_injective {rows rows' : List (List Char)} (h : ∀ row ∈ rows, '\n' ∉ row)
    (h' : ∀ row ∈ rows', '\n' ∉ row) (heq : ofRows rows = ofRows rows') : rows = rows' := by
  have hpieces : rows ++ [[]] = rows' ++ [[]] := by
    rw [← pieces_ofRows h, ← pieces_ofRows h', heq]
  exact List.append_cancel_right hpieces

variable {b n m : Nat}

/-- The digits up to the base 16 differ from each other. -/
theorem digitChar_injective (hn : n < 16) (hm : m < 16) (h : n.digitChar = m.digitChar) :
    n = m := by
  have hall : ∀ i < 16, ∀ j < 16, i.digitChar = j.digitChar → i = j := by decide
  exact hall n hn m hm h

theorem exists_digitChar_of_mem_toDigits (hb : 1 < b) {c : Char} (h : c ∈ Nat.toDigits b n) :
    ∃ digit < b, c = digit.digitChar := by
  induction n using Nat.strongRecOn with
  | _ n ih =>
    rw [Nat.toDigits_eq_if hb] at h
    split at h
    · next hlt => exact ⟨n, hlt, List.mem_singleton.mp h⟩
    · next hle =>
      rcases List.mem_append.mp h with hfront | hlast
      · apply ih (n / b) ?_ hfront
        apply Nat.div_lt_self <;> omega
      · refine ⟨n % b, Nat.mod_lt n (by omega), List.mem_singleton.mp hlast⟩

/-- Different numbers have different digits. -/
theorem toDigits_injective (hb : 1 < b) (hb16 : b ≤ 16) (h : Nat.toDigits b n = Nat.toDigits b m) :
    n = m := by
  induction n using Nat.strongRecOn generalizing m with
  | _ n ih =>
    have hone (k : Nat) : ¬ k < b → 1 < (Nat.toDigits b k).length := by
      intro hk
      rw [Nat.toDigits_of_base_le hb (by omega), List.length_append, List.length_singleton]
      have hpos := @Nat.length_toDigits_pos b (k / b)
      omega
    have hlength := congrArg List.length h
    by_cases hn : n < b <;> by_cases hm : m < b
    · rw [Nat.toDigits_of_lt_base hn, Nat.toDigits_of_lt_base hm, List.singleton_inj] at h
      exact digitChar_injective (by omega) (by omega) h
    · have hlong := hone m hm
      rw [Nat.toDigits_of_lt_base hn, List.length_singleton] at hlength
      omega
    · have hlong := hone n hn
      rw [Nat.toDigits_of_lt_base hm, List.length_singleton] at hlength
      omega
    · have hbn : b ≤ n := by omega
      have hbm : b ≤ m := by omega
      rw [Nat.toDigits_of_base_le hb hbn, Nat.toDigits_of_base_le hb hbm] at h
      obtain ⟨hfront, hlast⟩ := List.append_inj' h rfl
      have hdiv : n / b = m / b := by
        apply ih (n / b) ?_ hfront
        apply Nat.div_lt_self <;> omega
      have hmod : n % b = m % b := by
        apply digitChar_injective ?_ ?_ (List.singleton_inj.mp hlast)
        · have hlt := Nat.mod_lt n (Nat.zero_lt_of_lt hb)
          omega
        · have hlt := Nat.mod_lt m (Nat.zero_lt_of_lt hb)
          omega
      calc n = b * (n / b) + n % b := (Nat.div_add_mod n b).symm
        _ = b * (m / b) + m % b := by rw [hdiv, hmod]
        _ = m := Nat.div_add_mod m b

theorem length_toDigits_mono (hb : 1 < b) (h : n ≤ m) :
    (Nat.toDigits b n).length ≤ (Nat.toDigits b m).length := by
  rw [Nat.length_toDigits_le_iff hb Nat.length_toDigits_pos]
  have hm : m < b ^ (Nat.toDigits b m).length :=
    (Nat.length_toDigits_le_iff hb Nat.length_toDigits_pos).mp (Nat.le_refl _)
  omega

@[simp] theorem toList_toString (n : Nat) : (toString n).toList = Nat.toDigits 10 n :=
  String.toList_ofList

theorem isDigit_of_mem_toString {c : Char} (h : c ∈ (toString n).toList) : c.isDigit = true := by
  rw [toList_toString] at h
  exact Nat.isDigit_of_mem_toDigits (by decide) (by decide) h

theorem not_mem_toString {c : Char} (hc : c.isDigit = false) (n : Nat) :
    c ∉ (toString n).toList := by
  intro h
  rw [isDigit_of_mem_toString h] at hc
  cases hc

theorem toString_injective (h : toString n = toString m) : n = m := by
  apply toDigits_injective (by decide : 1 < 10) (by decide)
  rw [← toList_toString, ← toList_toString, h]

/-- Behind a number, a character that is no digit tells where the number ends. -/
theorem toString_append_inj {c : Char} (hc : c.isDigit = false) {rest rest' : List Char}
    (h : (toString n).toList ++ c :: rest = (toString m).toList ++ c :: rest') :
    n = m ∧ rest = rest' := by
  have htake (k : Nat) (tail : List Char) :
      ((toString k).toList ++ c :: tail).takeWhile Char.isDigit = (toString k).toList := by
    rw [List.takeWhile_append_of_pos fun d hd => isDigit_of_mem_toString hd,
      List.takeWhile_cons_of_neg (by simp [hc]), List.append_nil]
  have hnumber : (toString n).toList = (toString m).toList := by
    rw [← htake n rest, h, htake m rest']
  refine ⟨toString_injective (String.toList_inj.mp hnumber), ?_⟩
  rw [hnumber, List.append_right_inj] at h
  exact (List.cons.inj h).2

/-- A number with a sign holds digits and the sign. -/
theorem not_mem_int_toString {c : Char} (hc : c.isDigit = false) (hsign : (c == '-') = false)
    (i : Int) : c ∉ (toString i).toList := by
  cases i with
  | ofNat k => exact not_mem_toString hc k
  | negSucc k =>
    have htext : toString (Int.negSucc k) = "-" ++ toString (k + 1) := rfl
    rw [htext, String.toList_append, List.mem_append]
    rintro (hmem | hmem)
    · simp_all
    · exact not_mem_toString hc _ hmem

theorem int_toString_injective {i j : Int} (h : toString i = toString j) : i = j := by
  have hsign (k l : Nat) : toString k ≠ "-" ++ toString l := by
    intro heq
    have hmem : '-' ∈ (toString k).toList := by simp [heq]
    exact not_mem_toString rfl k hmem
  cases i with
  | ofNat k =>
    cases j with
    | ofNat l => exact congrArg Int.ofNat (toString_injective h)
    | negSucc l => exact absurd h (hsign k (l + 1))
  | negSucc k =>
    cases j with
    | ofNat l => exact absurd h.symm (hsign l (k + 1))
    | negSucc l =>
      have hnumber : toString (k + 1) = toString (l + 1) := by
        have hlist : '-' :: (toString (k + 1)).toList = '-' :: (toString (l + 1)).toList := by
          have hwhole : "-" ++ toString (k + 1) = "-" ++ toString (l + 1) := h
          simpa using congrArg String.toList hwhole
        exact String.toList_inj.mp (List.cons.inj hlist).2
      have hsucc := toString_injective hnumber
      exact congrArg Int.negSucc (by omega)

/-- A row that is read back as a line: it has no line feed in it, and does not end with a carriage
return, which would be taken for a part of the line feed behind it. -/
structure IsLine (row : List Char) : Prop where
  not_mem : '\n' ∉ row
  getLast?_ne : row.getLast? ≠ some '\r'

instance : DecidablePred IsLine := fun row =>
  decidable_of_iff ('\n' ∉ row ∧ row.getLast? ≠ some '\r')
    ⟨fun h => ⟨h.1, h.2⟩, fun h => ⟨h.not_mem, h.getLast?_ne⟩⟩

namespace IsLine

variable {row front back : List Char}

theorem of_forall (h : ∀ c ∈ row, c ≠ '\n' ∧ c ≠ '\r') : IsLine row where
  not_mem hmem := (h _ hmem).1 rfl
  getLast?_ne hlast := (h _ (List.mem_of_getLast? hlast)).2 rfl

theorem append (hfront : IsLine front) (hback : IsLine back) : IsLine (front ++ back) where
  not_mem := List.not_mem_append hfront.not_mem hback.not_mem
  getLast?_ne := by
    have hne := hback.getLast?_ne
    rw [List.getLast?_append]
    cases hlast : back.getLast? with
    | none => exact hfront.getLast?_ne
    | some c => rwa [hlast] at hne

theorem toList_append {front back : String} (hfront : IsLine front.toList)
    (hback : IsLine back.toList) : IsLine (front ++ back).toList := by
  rw [String.toList_append]
  exact hfront.append hback

theorem intercalate {separator : List Char} {pieces : List (List Char)}
    (hseparator : IsLine separator) (hpieces : ∀ piece ∈ pieces, IsLine piece) :
    IsLine (separator.intercalate pieces) := by
  induction pieces with
  | nil => exact of_forall (by simp)
  | cons piece later ih =>
    rw [List.forall_mem_cons] at hpieces
    cases later with
    | nil =>
      rw [List.intercalate_singleton]
      exact hpieces.1
    | cons next later =>
      rw [List.intercalate_cons_cons]
      exact (hpieces.1.append hseparator).append (ih hpieces.2)

theorem replicate {c : Char} (hfeed : c ≠ '\n') (hmark : c ≠ '\r') (count : Nat) :
    IsLine (List.replicate count c) := by
  apply of_forall
  intro d hd
  rw [List.eq_of_mem_replicate hd]
  exact ⟨hfeed, hmark⟩

theorem toString (n : Nat) : IsLine (toString n).toList := by
  apply of_forall
  intro c hc
  have hdigit := isDigit_of_mem_toString hc
  constructor
  · rintro rfl
    exact absurd hdigit (by decide)
  · rintro rfl
    exact absurd hdigit (by decide)

/-- What is left of a piece of a text when the blanks are dropped from its end. -/
theorem trimEnd {text piece : List Char} (h : piece ∈ pieces '\n' text) :
    IsLine (Text.trimEnd piece) where
  not_mem hmem := not_mem_of_mem_pieces h (mem_of_mem_trimEnd hmem)
  getLast?_ne hlast := by
    obtain ⟨-, -, -, hblank⟩ := exists_dropEndWhile isBlank piece
    exact absurd (hblank _ hlast) (by decide)

end IsLine

/-- The rows are the lines of the text. -/
theorem lines_ofRows {rows : List (List Char)} (h : ∀ row ∈ rows, IsLine row) :
    lines '\n' '\r' (ofRows rows) = rows := by
  induction rows with
  | nil => rfl
  | cons row rows ih =>
    rw [List.forall_mem_cons] at h
    rw [ofRows_cons, lines_append h.1.not_mem, ih h.2, dropMark, if_neg h.1.getLast?_ne]

end TinyLang.Text
