import BlockLayout.Proofs.Token.Branches

/-! # How far reading looks ahead

A break is a character that no number, no word and no run of operators goes on with.  In front of a
break these look no further: what the text before it starts with is what it starts with by itself
(`Number.length?_append`, `Word.leading_append`).  A comment or a string that ends looks no further than
its end (`commentExtent_append`, `stringExtent_append`).

The marks that comments and strings begin with are breaks.  So a token that ends before such a mark is
the same whatever follows the mark (`read_before_mark`). -/

namespace BlockLayout

/-- No number, no word and no run of operators goes on with the character. -/
def isBreak (c : Char) : Bool := !isWordChar c && !Mode.isOperatorChar c && c != '.'

/-- The text is empty or starts with a break. -/
def Text.StartsWithBreak (t : Text) : Prop := ∀ c ∈ t.head?, isBreak c = true

/-! ### Runs of characters -/

namespace Text

variable {p : Char → Bool} {rest : Text}

theorem takeWhile_append_of_stop (stop : ∀ c ∈ rest.head?, p c = false) (t : Text) :
    (t ++ rest).takeWhile p = t.takeWhile p := by
  induction t with
  | nil =>
      cases rest with
      | nil => rfl
      | cons c u => rw [List.nil_append, List.takeWhile_cons_of_neg (by simp [stop c rfl])]; rfl
  | cons c t ih =>
      rw [List.cons_append, List.takeWhile_cons, List.takeWhile_cons, ih]

theorem dropWhile_append_of_stop (stop : ∀ c ∈ rest.head?, p c = false) (t : Text) :
    (t ++ rest).dropWhile p = t.dropWhile p ++ rest := by
  have hsplit : t.takeWhile p ++ (t ++ rest).dropWhile p = t ++ rest := by
    rw [← takeWhile_append_of_stop stop t, List.takeWhile_append_dropWhile]
  have hsplit' : t.takeWhile p ++ (t.dropWhile p ++ rest) = t ++ rest := by
    rw [← List.append_assoc, List.takeWhile_append_dropWhile]
  exact List.append_cancel_left (hsplit.trans hsplit'.symm)

theorem isPrefix_append_iff {word : Text} (stop : ∀ c ∈ rest.head?, c ∉ word) (t : Text) :
    word <+: t ++ rest ↔ word <+: t := by
  constructor
  · intro h
    rcases List.prefix_or_prefix_of_prefix h (List.prefix_append t rest) with hword | ⟨u, rfl⟩
    · exact hword
    · cases u with
      | nil => simp
      | cons c u =>
          obtain ⟨v, rfl⟩ := (List.prefix_append_right_inj t).mp h
          exact absurd (by simp) (stop c rfl)
  · exact fun h => h.trans (List.prefix_append t rest)

theorem StartsWithBreak.stop {p : Char → Bool} (h : rest.StartsWithBreak)
    (other : ∀ c, isBreak c = true → p c = false) : ∀ c ∈ rest.head?, p c = false :=
  fun c hc => other c (h c hc)

end Text

theorem isWordChar_of_isBreak {c : Char} (h : isBreak c = true) : isWordChar c = false := by
  simp only [isBreak, Bool.and_eq_true, Bool.not_eq_true'] at h
  exact h.1.1

theorem isOperatorChar_of_isBreak {c : Char} (h : isBreak c = true) :
    Mode.isOperatorChar c = false := by
  simp only [isBreak, Bool.and_eq_true, Bool.not_eq_true'] at h
  exact h.1.2

theorem isDigit_of_isBreak {c : Char} (h : isBreak c = true) : c.isDigit = false := by
  have hword := isWordChar_of_isBreak h
  unfold isWordChar Char.isAlphanum at hword
  simp only [Bool.or_eq_false_iff] at hword
  exact hword.1.2

/-! ### Numbers -/

namespace Number

theorem mantissa_of_point {t u : Text} (h : t.dropWhile Char.isDigit = '.' :: u) :
    mantissa t = if digits t = [] ∧ digits u = [] then [] else digits t ++ '.' :: digits u := by
  unfold mantissa
  rw [h]
  cases digits t with
  | nil => simp
  | cons d ds => simp

theorem mantissa_of_no_point {t : Text} (h : ∀ u, t.dropWhile Char.isDigit ≠ '.' :: u) :
    mantissa t = digits t := by
  unfold mantissa
  split
  · rename_i heq
    exact absurd heq (h _)
  · rename_i hd _
    exact hd.symm
  · rename_i heq _
    exact absurd heq (h _)
  · rfl

variable {rest : Text} (brk : rest.StartsWithBreak) (t : Text)

include brk

theorem digits_append : digits (t ++ rest) = digits t :=
  Text.takeWhile_append_of_stop (brk.stop fun _ => isDigit_of_isBreak) t

theorem dropDigits_append :
    (t ++ rest).dropWhile Char.isDigit = t.dropWhile Char.isDigit ++ rest :=
  Text.dropWhile_append_of_stop (brk.stop fun _ => isDigit_of_isBreak) t

theorem mantissa_append : mantissa (t ++ rest) = mantissa t := by
  have hdrop := dropDigits_append brk t
  by_cases hpoint : ∃ u, t.dropWhile Char.isDigit = '.' :: u
  · obtain ⟨u, hu⟩ := hpoint
    rw [hu, List.cons_append] at hdrop
    rw [mantissa_of_point hu, mantissa_of_point hdrop, digits_append brk, digits_append brk]
  · have hnone := not_exists.mp hpoint
    rw [mantissa_of_no_point hnone, mantissa_of_no_point, digits_append brk]
    intro u hu
    rw [hdrop] at hu
    cases hw : t.dropWhile Char.isDigit with
    | nil =>
        rw [hw, List.nil_append] at hu
        exact absurd (brk '.' (by rw [hu]; rfl)) (by decide)
    | cons c v =>
        rw [hw, List.cons_append] at hu
        obtain ⟨rfl, -⟩ := List.cons.inj hu
        exact hnone v hw

theorem sign_append : sign (t ++ rest) = sign t := by
  cases t with
  | cons c u =>
      rw [List.cons_append]
      unfold sign
      split <;> simp_all
  | nil =>
      have hop : ∀ c ∈ rest.head?, Mode.isOperatorChar c = false :=
        brk.stop fun _ => isOperatorChar_of_isBreak
      rw [List.nil_append]
      unfold sign
      split
      · exact absurd (hop '+' rfl) (by decide)
      · exact absurd (hop '-' rfl) (by decide)
      · rfl

theorem exponent_append : exponent (t ++ rest) = exponent t := by
  cases t with
  | nil =>
      rw [List.nil_append]
      unfold exponent
      split
      · exact absurd (brk 'e' rfl) (by decide)
      · rfl
  | cons c u =>
      rw [List.cons_append]
      by_cases hc : c = 'e'
      · subst hc
        unfold exponent
        have hdrop : (u ++ rest).drop (sign u).length = u.drop (sign u).length ++ rest :=
          List.drop_append_of_le_length (isPrefix_sign u).length_le
        simp only [sign_append brk, hdrop, digits_append brk]
      · unfold exponent
        simp [hc]

theorem literal_append : literal (t ++ rest) = literal t := by
  have hdrop : (t ++ rest).drop (mantissa t).length = t.drop (mantissa t).length ++ rest :=
    List.drop_append_of_le_length (isPrefix_mantissa t).length_le
  unfold literal
  rw [mantissa_append brk]
  cases hm : mantissa t with
  | nil => rfl
  | cons c m =>
      rw [← hm]
      simp only [hm]
      rw [← hm, hdrop, exponent_append brk]

theorem length?_append : length? (t ++ rest) = length? t := by
  have hdrop : (t ++ rest).drop (literal t).length = t.drop (literal t).length ++ rest :=
    List.drop_append_of_le_length (isPrefix_literal t).length_le
  have hword : ∀ u : Text, (u ++ rest).head?.any isWordChar = u.head?.any isWordChar := by
    intro u
    cases u with
    | cons c u => rfl
    | nil =>
        cases hrest : rest.head? with
        | none => simp [hrest]
        | some c => simp [hrest, isWordChar_of_isBreak (brk c hrest)]
  unfold length?
  simp only [literal_append brk, hdrop, hword]

end Number

/-! ### Words and operators -/

theorem Word.leading_append {rest : Text} (brk : rest.StartsWithBreak) (t : Text) :
    leading (t ++ rest) = leading t :=
  Text.takeWhile_append_of_stop (brk.stop fun _ => isWordChar_of_isBreak) t

namespace Mode

section ordinary

variable {rest : Text} (brk : rest.StartsWithBreak) (before : Option Char) (t : Text)

include brk

theorem operators_append : (t ++ rest).takeWhile isOperatorChar = t.takeWhile isOperatorChar :=
  Text.takeWhile_append_of_stop (brk.stop fun _ => isOperatorChar_of_isBreak) t

theorem readNumber?_append : readNumber? before (t ++ rest) = readNumber? before t := by
  unfold readNumber?
  rw [Number.length?_append brk]

theorem readWord?_append : readWord? before (t ++ rest) = readWord? before t := by
  have hmarks : (notEqual.any isBreak) = false := by decide
  have hstop : ∀ c ∈ rest.head?, c ∉ notEqual := by
    intro c hc hmem
    exact List.any_eq_false.mp hmarks c hmem (brk c hc)
  have hequal : notEqual.isPrefixOf (t ++ rest) = notEqual.isPrefixOf t := by
    rw [Bool.eq_iff_iff, List.isPrefixOf_iff_prefix, List.isPrefixOf_iff_prefix]
    exact Text.isPrefix_append_iff hstop t
  unfold readWord? Word.leading?
  rw [hequal, Word.leading_append brk]

end ordinary

/-! ### What the first character decides -/

section first

variable (before : Option Char) {c : Char} (t : Text)

theorem readBase_of_isOperatorChar (op : isOperatorChar c = true) :
    readBase before (c :: t) =
      ⟨.operator, 1 + (t.takeWhile isOperatorChar).length, .base⟩ := by
  have hquote : c ≠ '"' := by
    rintro rfl
    exact absurd op (by decide)
  have hslash : c ≠ '/' := by
    rintro rfl
    exact absurd op (by decide)
  unfold readBase
  split
  · rename_i heq
    cases heq
  · rename_i heq
    exact absurd (List.cons.inj heq).1 hquote
  · rename_i heq
    exact absurd (List.cons.inj heq).1 hslash
  · rename_i heq
    exact absurd (List.cons.inj heq).1 hslash
  · rename_i heq
    exact absurd (List.cons.inj heq).1 hslash
  · rename_i heq
    obtain ⟨rfl, rfl⟩ := List.cons.inj heq
    rw [if_pos op]

theorem readBase_of_isOrdinary (ordinary : IsOrdinary c) :
    readBase before (c :: t) =
      ((readNumber? before (c :: t)).or (readWord? before (c :: t))).getD
        ⟨if isPunctuation c then .punctuation c else .plain, 1, .base⟩ := by
  obtain ⟨hquote, hslash, hop⟩ := ordinary
  unfold readBase
  split
  · rename_i heq
    cases heq
  · rename_i heq
    exact absurd (List.cons.inj heq).1 hquote
  · rename_i heq
    exact absurd (List.cons.inj heq).1 hslash
  · rename_i heq
    exact absurd (List.cons.inj heq).1 hslash
  · rename_i heq
    exact absurd (List.cons.inj heq).1 hslash
  · rename_i heq
    obtain ⟨rfl, rfl⟩ := List.cons.inj heq
    rw [if_neg (Bool.eq_false_iff.mp hop)]
    split
    · rename_i hsome
      rw [hsome, Option.getD_some]
    · rename_i hnone
      rw [hnone, Option.getD_none]

theorem readBase_of_slash (star : t.head? ≠ some '*') (slash : t.head? ≠ some '/') :
    readBase before ('/' :: t) = ⟨.operator, 1, .base⟩ := by
  unfold readBase
  split
  · rename_i heq
    cases heq
  · rename_i heq
    cases heq
  · rename_i heq
    obtain ⟨-, rfl⟩ := List.cons.inj heq
    exact absurd rfl star
  · rename_i heq
    obtain ⟨-, rfl⟩ := List.cons.inj heq
    exact absurd rfl slash
  · rfl
  · rename_i hslash heq
    exact absurd (List.cons.inj heq).1.symm hslash

/-- A token that is no string, no comment and no slash looks no further than a break. -/
theorem readBase_append (quote : c ≠ '"') (slash : c ≠ '/') {rest : Text}
    (brk : rest.StartsWithBreak) : readBase before (c :: t ++ rest) = readBase before (c :: t) := by
  rw [List.cons_append]
  cases op : isOperatorChar c with
  | true =>
      rw [readBase_of_isOperatorChar before _ op, readBase_of_isOperatorChar before _ op,
        operators_append brk]
  | false =>
      have hordinary : IsOrdinary c := ⟨quote, slash, op⟩
      rw [readBase_of_isOrdinary before _ hordinary, readBase_of_isOrdinary before _ hordinary,
        ← List.cons_append, readNumber?_append brk, readWord?_append brk]

end first

/-! ### Comments and strings that end -/

section ends

variable {u v : Text} (nonempty : v ≠ [])

include nonempty

theorem commentExtent_append {star : Bool}
    (short : (commentExtent star (u ++ v)).1 ≤ u.length) (v' : Text) :
    commentExtent star (u ++ v') = commentExtent star (u ++ v) := by
  induction u generalizing star with
  | nil =>
      have hpos := commentExtent_pos star nonempty
      rw [List.nil_append, List.length_nil] at short
      omega
  | cons c u ih =>
      rw [List.cons_append] at short ⊢
      rw [List.cons_append]
      unfold commentExtent at short ⊢
      by_cases hend : (star && c == '/') = true
      · rw [if_pos hend, if_pos hend]
      · rw [if_neg hend] at short ⊢
        rw [if_neg hend, ih (Nat.le_of_succ_le_succ short)]

theorem stringExtent_append {quote : Char} {escaped : Bool}
    (short : (stringExtent quote escaped (u ++ v)).1 ≤ u.length) (v' : Text) :
    stringExtent quote escaped (u ++ v') = stringExtent quote escaped (u ++ v) := by
  induction u generalizing escaped with
  | nil =>
      have hpos := stringExtent_pos quote escaped nonempty
      rw [List.nil_append, List.length_nil] at short
      omega
  | cons c u ih =>
      rw [List.cons_append] at short ⊢
      rw [List.cons_append]
      unfold stringExtent at short ⊢
      by_cases hend : (!escaped && c == quote) = true
      · rw [if_pos hend, if_pos hend]
      · rw [if_neg hend] at short ⊢
        rw [if_neg hend, ih (Nat.le_of_succ_le_succ short)]

theorem readComment_append {opened : Nat}
    (short : (readComment opened (u ++ v)).length ≤ opened + u.length) (v' : Text) :
    readComment opened (u ++ v') = readComment opened (u ++ v) := by
  unfold readComment at short ⊢
  rw [commentExtent_append nonempty (Nat.le_of_add_le_add_left short)]

theorem readString_append {quote : Char} {opened : Nat}
    (short : (readString quote opened (u ++ v)).length ≤ opened + u.length) (v' : Text) :
    readString quote opened (u ++ v') = readString quote opened (u ++ v) := by
  unfold readString at short ⊢
  rw [stringExtent_append nonempty (Nat.le_of_add_le_add_left short)]

end ends

/-! ### In front of a comment or a string -/

/-- The character begins a comment or a string. -/
def IsMark (c : Char) : Prop := c = '/' ∨ c = '"'

theorem IsMark.startsWithBreak {d : Char} (mark : IsMark d) (t : Text) :
    Text.StartsWithBreak (d :: t) := by
  intro c hc
  obtain rfl := Option.some.inj hc
  rcases mark with rfl | rfl <;> decide

variable {before : Option Char} {d : Char} {t : Text}

/-- A token of ordinary code that ends in front of a mark is the same whatever follows the mark. -/
theorem readBase_before_mark (mark : IsMark d) {c : Char} {u : Text}
    (short : (readBase before (c :: u ++ d :: t)).length ≤ (c :: u).length) (t' : Text) :
    readBase before (c :: u ++ d :: t') = readBase before (c :: u ++ d :: t) := by
  have hnonempty : d :: t ≠ [] := List.cons_ne_nil d t
  rw [List.cons_append] at short ⊢
  rw [List.cons_append]
  by_cases hquote : c = '"'
  · subst hquote
    refine readString_append hnonempty ?_ (d :: t')
    rw [Nat.add_comm]
    exact short
  by_cases hslash : c = '/'
  · subst hslash
    cases u with
    | nil =>
        rcases mark with rfl | rfl
        · -- two slashes take the rest of the line
          have hlong : t.length + 2 ≤ 1 := short
          omega
        · rw [List.nil_append, List.nil_append,
            readBase_of_slash before _ (by simp) (by simp),
            readBase_of_slash before _ (by simp) (by simp)]
    | cons e u =>
        rw [List.cons_append] at short ⊢
        rw [List.cons_append]
        by_cases hstar : e = '*'
        · subst hstar
          refine readComment_append hnonempty ?_ (d :: t')
          rw [Nat.add_comm]
          exact short
        by_cases hline : e = '/'
        · subst hline
          have hlong : (u ++ d :: t).length + 2 ≤ u.length + 2 := short
          rw [List.length_append, List.length_cons] at hlong
          omega
        · rw [readBase_of_slash before _ (by simpa using hstar) (by simpa using hline),
            readBase_of_slash before _ (by simpa using hstar) (by simpa using hline)]
  rw [← List.cons_append, ← List.cons_append,
    readBase_append before u hquote hslash (mark.startsWithBreak t'),
    readBase_append before u hquote hslash (mark.startsWithBreak t)]

/-- A token that ends in front of a mark is the same whatever follows the mark. -/
theorem read_before_mark (mark : IsMark d) {mode : Mode} {u : Text} (nonempty : u ≠ [])
    (short : (read mode before (u ++ d :: t)).length ≤ u.length) (t' : Text) :
    read mode before (u ++ d :: t') = read mode before (u ++ d :: t) := by
  have hrest : d :: t ≠ [] := List.cons_ne_nil d t
  cases mode with
  | base =>
      obtain ⟨c, u, rfl⟩ := List.exists_cons_of_ne_nil nonempty
      exact readBase_before_mark mark short t'
  | blockComment =>
      refine readComment_append hrest ?_ (d :: t')
      rw [Nat.zero_add]
      exact short
  | string quote =>
      refine readString_append hrest ?_ (d :: t')
      rw [Nat.zero_add]
      exact short

end Mode

end BlockLayout
