namespace TinyLang.Text

def byteLength : List Char → Nat
  | [] => 0
  | c :: text => c.utf8Size + byteLength text

@[simp] theorem byteLength_nil : byteLength [] = 0 := rfl

@[simp] theorem byteLength_cons (c : Char) (text : List Char) :
    byteLength (c :: text) = c.utf8Size + byteLength text := rfl

@[simp] theorem byteLength_append (front back : List Char) :
    byteLength (front ++ back) = byteLength front + byteLength back := by
  induction front with
  | nil => simp
  | cons c front ih => rw [List.cons_append, byteLength_cons, byteLength_cons, ih, Nat.add_assoc]

/-- The same number, from the text as a string. -/
theorem utf8ByteSize_ofList (text : List Char) :
    (String.ofList text).utf8ByteSize = byteLength text := by
  induction text with
  | nil => rfl
  | cons c rest ih =>
    rw [byteLength_cons, ← ih, ← List.singleton_append, String.ofList_append,
      String.utf8ByteSize_append, ← String.singleton_eq_ofList, String.utf8ByteSize_singleton]

theorem byteLength_toList (text : String) : byteLength text.toList = text.utf8ByteSize := by
  rw [← utf8ByteSize_ofList, String.ofList_toList]

/-- Cuts a text after its first `count` bytes. There is no cut inside a character or past the
end. -/
def splitBytes? : Nat → List Char → Option (List Char × List Char)
  | 0, text => some ([], text)
  | _ + 1, [] => none
  | count + 1, c :: rest =>
    if c.utf8Size ≤ count + 1 then
      (splitBytes? (count + 1 - c.utf8Size) rest).map fun (front, back) => (c :: front, back)
    else none

def slice? (offset length : Nat) (text : List Char) : Option (List Char) := do
  let (_, rest) ← splitBytes? offset text
  let (middle, _) ← splitBytes? length rest
  return middle

theorem splitBytes?_append (front back : List Char) :
    splitBytes? (byteLength front) (front ++ back) = some (front, back) := by
  induction front with
  | nil => simp [splitBytes?]
  | cons c front ih =>
    obtain ⟨k, hk⟩ : ∃ k, c.utf8Size + byteLength front = k + 1 :=
      Nat.exists_eq_succ_of_ne_zero (by have := c.utf8Size_pos; omega)
    rw [byteLength_cons, hk, List.cons_append, splitBytes?, if_pos (by omega),
      show k + 1 - c.utf8Size = byteLength front by omega, ih]
    rfl

/-- A cut after some bytes leaves two parts of which the first has so many bytes. -/
theorem splitBytes?_eq_some_iff {count : Nat} {text front back : List Char} :
    splitBytes? count text = some (front, back) ↔
      front ++ back = text ∧ byteLength front = count := by
  constructor
  · intro h
    fun_induction splitBytes? count text generalizing front with
    | case1 text =>
      cases h
      exact ⟨rfl, rfl⟩
    | case2 count => cases h
    | case3 count c rest hfits ih =>
      obtain ⟨⟨front', back'⟩, hrest, hcut⟩ := Option.map_eq_some_iff.mp h
      cases hcut
      obtain ⟨rfl, hcount⟩ := ih hrest
      refine ⟨rfl, ?_⟩
      rw [byteLength_cons, hcount]
      omega
    | case4 count c rest _ => cases h
  · rintro ⟨rfl, rfl⟩
    exact splitBytes?_append front back

/-- Two cuts of one text at the same byte are the same cut. -/
theorem append_inj_of_byteLength {front front' back back' : List Char}
    (h : front ++ back = front' ++ back') (hlength : byteLength front = byteLength front') :
    front = front' ∧ back = back' := by
  have hcut := splitBytes?_append front back
  rw [h, hlength, splitBytes?_append] at hcut
  cases hcut
  exact ⟨rfl, rfl⟩

/-- A slice with known neighbours is what stands between them. -/
theorem slice?_append (front middle back : List Char) :
    slice? (byteLength front) (byteLength middle) (front ++ (middle ++ back)) = some middle := by
  simp [slice?, splitBytes?_append]

theorem slice?_eq_some_iff {offset length : Nat} {text middle : List Char} :
    slice? offset length text = some middle ↔
      ∃ front back, text = front ++ (middle ++ back) ∧ byteLength front = offset ∧
        byteLength middle = length := by
  constructor
  · intro h
    obtain ⟨⟨front, rest⟩, hfront, h⟩ := Option.bind_eq_some_iff.mp h
    obtain ⟨⟨middle', back⟩, hmiddle, h⟩ := Option.bind_eq_some_iff.mp h
    cases h
    obtain ⟨rfl, hoffset⟩ := splitBytes?_eq_some_iff.mp hfront
    obtain ⟨rfl, hlength⟩ := splitBytes?_eq_some_iff.mp hmiddle
    exact ⟨front, back, rfl, hoffset, hlength⟩
  · rintro ⟨front, back, rfl, rfl, rfl⟩
    exact slice?_append front middle back

end TinyLang.Text
