/-! # Texts and byte offsets

A text is the list of its characters.  A character is blank when Unicode counts it as white space;
`isBlank` is that class, and `trimStart` cuts the leading blanks of a text off. -/

namespace BlockLayout

/-- A text is the list of its characters. -/
abbrev Text := List Char

namespace Text

/-- The character has the property `White_Space` of Unicode. -/
def isBlank (c : Char) : Bool :=
  let n := c.toNat
  (9 ≤ n && n ≤ 13) || n == 0x20 || n == 0x85 || n == 0xA0 || n == 0x1680
    || (0x2000 ≤ n && n ≤ 0x200A) || n == 0x2028 || n == 0x2029 || n == 0x202F
    || n == 0x205F || n == 0x3000

/-- The text without its leading blanks. -/
def trimStart (t : Text) : Text := t.dropWhile isBlank

/-- The leading blanks of a text. -/
def leadingBlanks (t : Text) : Text := t.takeWhile isBlank

/-- No character of the text can be seen. -/
def isAllBlank (t : Text) : Bool := t.all isBlank

theorem leadingBlanks_append_trimStart (t : Text) : t.leadingBlanks ++ t.trimStart = t :=
  List.takeWhile_append_dropWhile

end Text

/-! ## Byte offsets

Offsets into a text count the bytes of its UTF-8 form.  `byteLength` is the size of a text in that
measure, and `cutAt?` cuts a text at an offset, when the offset falls between two characters. -/

namespace Text

/-- The number of bytes of a text in UTF-8. -/
def byteLength (t : Text) : Nat := t.foldl (fun n c => n + c.utf8Size) 0

/-- The text before and after a byte offset, if the offset falls between two characters. -/
def cutAt? : Nat → Text → Option (Text × Text)
  | 0, t => some ([], t)
  | _ + 1, [] => none
  | n + 1, c :: t =>
    if c.utf8Size ≤ n + 1 then
      (cutAt? (n + 1 - c.utf8Size) t).map fun (before, after) => (c :: before, after)
    else
      none

theorem foldl_byteLength (t : Text) (n : Nat) :
    t.foldl (fun n c => n + c.utf8Size) n = n + t.byteLength := by
  induction t generalizing n with
  | nil => rfl
  | cons c t ih => rw [byteLength, List.foldl_cons, List.foldl_cons, ih, ih (0 + _)]; omega

@[simp] theorem byteLength_nil : byteLength [] = 0 := rfl

@[simp] theorem byteLength_cons (c : Char) (t : Text) :
    byteLength (c :: t) = c.utf8Size + byteLength t := by
  rw [byteLength, List.foldl_cons, foldl_byteLength]; omega

@[simp] theorem byteLength_append (s t : Text) :
    byteLength (s ++ t) = byteLength s + byteLength t := by
  induction s with
  | nil => simp
  | cons c s ih => simp [ih]; omega

theorem byteLength_pos {t : Text} (h : t ≠ []) : 0 < t.byteLength := by
  obtain ⟨c, t, rfl⟩ := List.exists_cons_of_ne_nil h
  have := c.utf8Size_pos
  rw [byteLength_cons]
  omega

theorem eq_append_of_cutAt? {n : Nat} {t before after : Text}
    (h : t.cutAt? n = some (before, after)) : t = before ++ after ∧ before.byteLength = n := by
  fun_induction cutAt? n t generalizing before after with
  | case1 t => simp_all
  | case2 => simp at h
  | case3 n c t hc ih =>
    obtain ⟨⟨u, v⟩, huv, heq⟩ := Option.map_eq_some_iff.1 h
    obtain ⟨rfl, rfl⟩ := Prod.mk.inj heq
    obtain ⟨rfl, hn⟩ := ih huv
    exact ⟨rfl, by rw [byteLength_cons, hn]; omega⟩
  | case4 => simp at h

theorem cutAt?_append (before after : Text) :
    (before ++ after).cutAt? before.byteLength = some (before, after) := by
  induction before with
  | nil => simp [cutAt?]
  | cons c t ih =>
    have hc : 0 < c.utf8Size := c.utf8Size_pos
    obtain ⟨n, hn⟩ : ∃ n, byteLength (c :: t) = n + 1 := ⟨c.utf8Size + byteLength t - 1, by
      rw [byteLength_cons]; omega⟩
    rw [hn, List.cons_append, cutAt?, if_pos (by rw [byteLength_cons] at hn; omega)]
    have : n + 1 - c.utf8Size = byteLength t := by rw [byteLength_cons] at hn; omega
    rw [this, ih, Option.map_some]

end Text

end BlockLayout
