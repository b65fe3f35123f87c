namespace TinyLang.Text

/-- The 25 characters with the Unicode property White_Space. -/
def isBlank (c : Char) : Bool :=
  let n := c.toNat
  (0x9 ≤ n && n ≤ 0xD) || n == 0x20 || n == 0x85 || n == 0xA0 || n == 0x1680 ||
    (0x2000 ≤ n && n ≤ 0x200A) || n == 0x2028 || n == 0x2029 || n == 0x202F || n == 0x205F ||
    n == 0x3000

/-- Core's notion of white space is the ASCII part of this one. -/
theorem isBlank_of_isWhitespace {c : Char} (h : c.isWhitespace = true) : isBlank c = true := by
  simp only [Char.isWhitespace, Bool.or_eq_true, decide_eq_true_eq] at h
  rcases h with ((rfl | rfl) | rfl) | rfl <;> decide

def dropEndWhile (p : Char → Bool) (text : List Char) : List Char :=
  (text.reverse.dropWhile p).reverse

def trimEnd (text : List Char) : List Char :=
  dropEndWhile isBlank text

def trim (text : List Char) : List Char :=
  trimEnd (text.dropWhile isBlank)

def trimReturns (text : List Char) : List Char :=
  dropEndWhile (· == '\r') text

/-- Nothing is dropped from an end that has not the property. -/
theorem dropEndWhile_of_getLast? {p : Char → Bool} {text : List Char}
    (h : ∀ c ∈ text.getLast?, p c = false) : dropEndWhile p text = text := by
  rw [dropEndWhile, List.reverse_eq_iff]
  rw [← List.head?_reverse] at h
  cases hreverse : text.reverse with
  | nil => rfl
  | cons c rest =>
    rw [hreverse] at h
    exact List.dropWhile_cons_of_neg (by simp [h c rfl])

/-- A text without blanks is not trimmed. -/
theorem trim_of_forall {text : List Char} (h : ∀ c ∈ text, isBlank c = false) :
    trim text = text := by
  have hfront : text.dropWhile isBlank = text := by
    cases text with
    | nil => rfl
    | cons c rest => exact List.dropWhile_cons_of_neg (by simp [h c])
  rw [trim, hfront]
  exact dropEndWhile_of_getLast? fun c hc => h c (List.mem_of_getLast? hc)

end TinyLang.Text
