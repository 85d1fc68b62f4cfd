import BlockLayout.Proofs.Text.Pieces
import BlockLayout.Proofs.Token.Branches

/-! # Reserved words and separators

Where words may start, a reserved word is read as what it is reserved for, whatever follows it
(`readBase_of_reserved`): it starts with a word character that is no digit, so neither a number nor
a mark comes before it.
Conversely a token with the text and the style of a reserved word is that word, whole, where words
may start (`BaseReading.reserved`), and only a reserved word is read as a keyword
(`BaseReading.keyword`).

Every word that lines up with an opener is a closer or a divider, and no opener is one of them. -/

namespace BlockLayout

namespace Word

theorem mem_reserved {word : Text} {cls : TokenClass} (h : classOf? word = some cls) :
    (word, cls) ∈ reserved := by
  unfold classOf? at h
  obtain ⟨front, back, hsplit, -⟩ := List.lookup_eq_some_iff.mp h
  rw [hsplit]
  exact List.mem_append_right front List.mem_cons_self

theorem classOf?_of_mem {word : Text} {cls : TokenClass} (h : (word, cls) ∈ reserved) :
    classOf? word = some cls := by
  have hall : ∀ entry ∈ reserved, classOf? entry.1 = some entry.2 := by decide
  exact hall _ h

theorem isWord_of_mem {word : Text} {cls : TokenClass} (h : (word, cls) ∈ reserved) :
    ∀ c ∈ word, isWordChar c = true := by
  have hall : ∀ entry ∈ reserved, entry.1.all isWordChar = true := by decide
  exact List.all_eq_true.mp (hall _ h)

/-- What reserved words are shown as. -/
def styles : List (Option Style) :=
  [some .keyword, some .operator, some .atom, some .type, some .builtin]

theorem style?_of_mem {word : Text} {cls : TokenClass} (h : (word, cls) ∈ reserved) :
    cls.style? ∈ styles := by
  have hall : ∀ entry ∈ reserved, entry.2.style? ∈ styles := by decide
  exact hall _ h

theorem ne_of_classOf? {word : Text} {cls cls' : TokenClass} (h : classOf? word = some cls)
    (other : cls'.style? ∉ styles) : cls ≠ cls' := by
  rintro rfl
  exact other (style?_of_mem (mem_reserved h))

theorem not_string_or_comment {word : Text} {cls cls' : TokenClass} (h : (word, cls) ∈ reserved)
    (style : cls'.style? = cls.style?) : ¬ (cls' = .string ∨ cls' = .comment) := by
  have hstyle := style?_of_mem h
  rw [← style] at hstyle
  have hstring : TokenClass.string.style? ∉ styles := by decide
  have hcomment : TokenClass.comment.style? ∉ styles := by decide
  rintro (rfl | rfl)
  · exact hstring hstyle
  · exact hcomment hstyle

theorem leading_append_iff {word rest : Text} (isWord : ∀ c ∈ word, isWordChar c = true) :
    leading (word ++ rest) = word ↔ ∀ c ∈ rest.head?, isWordChar c = false := by
  unfold leading
  rw [List.takeWhile_append_of_pos isWord, List.append_right_eq_self]
  cases rest with
  | nil => simp
  | cons c t => simp [List.takeWhile_cons]

theorem head_reserved :
    ∀ entry ∈ reserved, entry.1.head?.all (fun c => isWordChar c && !c.isDigit) = true := by
  decide

theorem notEqual_not_reserved : classOf? "not".toList = none := by decide

/-- A reserved word starts with a word character that is no digit. -/
theorem head_of_reserved {c : Char} {t : Text} {cls : TokenClass}
    (h : classOf? (leading (c :: t)) = some cls) : isWordChar c = true ∧ c.isDigit = false := by
  have hhead := head_reserved _ (mem_reserved h)
  unfold leading at h hhead
  by_cases hc : isWordChar c = true
  · rw [List.takeWhile_cons_of_pos hc] at hhead
    simpa using hhead
  · rw [List.takeWhile_cons_of_neg hc, classOf?_nil] at h
    cases h

theorem isBlank_of_isWordChar {c : Char} (h : isWordChar c = true) : Text.isBlank c = false := by
  have hrange : 48 ≤ c.toNat ∧ c.toNat ≤ 122 := by
    unfold isWordChar Char.isAlphanum Char.isAlpha Char.isUpper Char.isLower Char.isDigit at h
    simp only [Bool.or_eq_true, Bool.and_eq_true, decide_eq_true_eq, beq_iff_eq, ge_iff_le,
      UInt32.le_iff_toNat_le] at h
    rcases h with ((h | h) | h) | rfl
    · exact ⟨Nat.le_trans (by decide) h.1, Nat.le_trans h.2 (by decide)⟩
    · exact ⟨Nat.le_trans (by decide) h.1, Nat.le_trans h.2 (by decide)⟩
    · exact ⟨h.1, Nat.le_trans h.2 (by decide)⟩
    · decide
  unfold Text.isBlank
  simp only [Bool.or_eq_false_iff, Bool.and_eq_false_imp, decide_eq_true_eq,
    decide_eq_false_iff_not, Nat.not_le, beq_eq_false_iff_ne, ne_eq]
  omega

theorem ne_nil_of_mem {word : Text} {cls : TokenClass} (h : (word, cls) ∈ reserved) : word ≠ [] :=
  ne_nil_of_classOf? (classOf?_of_mem h)

theorem startsVisible_append {word : Text} {cls : TokenClass} (h : (word, cls) ∈ reserved)
    (rest : Text) : Text.StartsVisible (word ++ rest) := by
  obtain ⟨c, t, rfl⟩ := List.exists_cons_of_ne_nil (ne_nil_of_mem h)
  exact Text.startsVisible_cons.mpr (isBlank_of_isWordChar (isWord_of_mem h c List.mem_cons_self))

/-! ### Closing words -/

theorem role_of_mem_closers : ∀ word ∈ closers,
    classOf? word = some (.keyword .closer) ∨ classOf? word = some (.keyword .divider) := by
  decide

theorem not_mem_closers_of_opener {word : Text} (h : classOf? word = some (.keyword .opener)) :
    word ∉ closers := by
  intro hmem
  rcases role_of_mem_closers word hmem with hrole | hrole
  · rw [h] at hrole
    cases hrole
  · rw [h] at hrole
    cases hrole

end Word

namespace Number

theorem length?_eq_none {c : Char} (t : Text) (digit : c.isDigit = false) (point : c ≠ '.') :
    length? (c :: t) = none := by
  have hdigit := Bool.eq_false_iff.mp digit
  have hmantissa : mantissa (c :: t) = [] := by
    unfold mantissa digits
    rw [List.takeWhile_cons_of_neg hdigit, List.dropWhile_cons_of_neg hdigit]
    split
    · rename_i heq
      exact absurd (List.cons.inj heq).1 point
    · rfl
    · rename_i hne
      exact absurd rfl hne
    · rfl
  unfold length? literal
  rw [hmantissa]
  rfl

end Number

namespace Mode

theorem isOperatorChar_of_isWordChar {c : Char} (word : isWordChar c = true) :
    isOperatorChar c = false := by
  have hmarks : ['+', '-', '*', '<', '>', '='].any isWordChar = false := by decide
  exact decide_eq_false fun hmem => List.any_eq_false.mp hmarks c hmem word

theorem isPunctuation_of_isWordChar {c : Char} (word : isWordChar c = true) :
    isPunctuation c = false := by
  have hmarks : ['.', ',', ':', '(', ')'].any isWordChar = false := by decide
  exact decide_eq_false fun hmem => List.any_eq_false.mp hmarks c hmem word

/-- A token that starts with a word character is a number, `not=`, a reserved word or one plain
character. -/
theorem BaseReading.of_isWordChar {before : Option Char} {c : Char} {t : Text} {r : Reading Mode}
    (h : BaseReading before (c :: t) r) (word : isWordChar c = true) :
    (∃ n, Number.length? (c :: t) = some n ∧ r = ⟨.number, n, .base⟩) ∨
      (Mode.notEqual <+: c :: t ∧ r = ⟨.operator, 4, .base⟩) ∨
      (opensWord before = true ∧ ∃ cls, Word.classOf? (Word.leading (c :: t)) = some cls ∧
        r = ⟨cls, (Word.leading (c :: t)).length, .base⟩) ∨
      (readWord? before (c :: t) = none ∧ r = ⟨.plain, 1, .base⟩) := by
  cases h with
  | string => exact absurd word (by decide)
  | blockComment => exact absurd word (by decide)
  | lineComment => exact absurd word (by decide)
  | slash => exact absurd word (by decide)
  | operator op =>
      rw [isOperatorChar_of_isWordChar word] at op
      cases op
  | number _ _ hn => exact Or.inl ⟨_, hn, rfl⟩
  | notEqual _ _ _ found => exact Or.inr (Or.inl ⟨found, rfl⟩)
  | word _ _ side _ hcls => exact Or.inr (Or.inr (Or.inl ⟨side, _, hcls, rfl⟩))
  | char _ _ hnone =>
      rw [isPunctuation_of_isWordChar word]
      exact Or.inr (Or.inr (Or.inr ⟨hnone, rfl⟩))

/-- Where words may start, a reserved word is read as what it is reserved for. -/
theorem readBase_of_reserved {before : Option Char} {input : Text} {cls : TokenClass}
    (side : opensWord before = true) (word : Word.classOf? (Word.leading input) = some cls) :
    readBase before input = ⟨cls, (Word.leading input).length, .base⟩ := by
  obtain ⟨c, t, rfl⟩ : ∃ c t, input = c :: t := by
    cases input with
    | nil =>
        rw [show Word.leading [] = [] from rfl, Word.classOf?_nil] at word
        cases word
    | cons c t => exact ⟨c, t, rfl⟩
  obtain ⟨hword, hdigit⟩ := Word.head_of_reserved word
  rcases (baseReading before c t).of_isWordChar hword with
    ⟨n, hn, -⟩ | ⟨⟨u, hu⟩, -⟩ | ⟨-, cls', hcls, hr⟩ | ⟨hnone, -⟩
  · have hpoint : c ≠ '.' := by
      rintro rfl
      exact absurd hword (by decide)
    rw [Number.length?_eq_none t hdigit hpoint] at hn
    cases hn
  · have hlead : Word.leading (c :: t) = "not".toList := by
      rw [← hu]
      rfl
    rw [hlead, Word.notEqual_not_reserved] at word
    cases word
  · rw [word] at hcls
    rw [hr, Option.some.inj hcls]
  · unfold readWord? at hnone
    split at hnone
    · cases hnone
    · rw [Option.map_eq_none_iff] at hnone
      unfold Word.leading? at hnone
      rw [word] at hnone
      cases hnone

/-- A token with the text and the style of a reserved word is that word, whole, where words may
start. -/
theorem BaseReading.reserved {before : Option Char} {word rest : Text} {r : Reading Mode}
    (h : BaseReading before (word ++ rest) r) {cls : TokenClass}
    (mem : (word, cls) ∈ Word.reserved) (length : r.length = word.length)
    (style : r.cls.style? = cls.style?) :
    opensWord before = true ∧ Word.leading (word ++ rest) = word := by
  have hstyle := Word.style?_of_mem mem
  have hword := Word.isWord_of_mem mem
  rw [← style] at hstyle
  obtain ⟨c, t, hct⟩ := List.exists_cons_of_ne_nil (Word.ne_nil_of_mem mem)
  have hinput : word ++ rest = c :: (t ++ rest) := by rw [hct, List.cons_append]
  have hc : isWordChar c = true := hword c (by rw [hct]; exact List.mem_cons_self)
  have hprefix : word <+: word ++ rest := List.prefix_append word rest
  rw [hinput] at h hprefix ⊢
  rcases h.of_isWordChar hc with ⟨n, -, rfl⟩ | ⟨hfound, rfl⟩ | ⟨side, _, -, rfl⟩ | ⟨-, rfl⟩
  · have hnumber : TokenClass.number.style? ∉ Word.styles := by decide
    exact absurd hstyle hnumber
  · have hsame : word = Mode.notEqual := Text.eq_of_isPrefix hprefix hfound length.symm
    have hequal := hword '=' (by rw [hsame]; decide)
    exact absurd hequal (by decide)
  · exact ⟨side, Text.eq_of_isPrefix (Word.isPrefix_leading _) hprefix length⟩
  · have hplain : TokenClass.plain.style? ∉ Word.styles := by decide
    exact absurd hstyle hplain

theorem BaseReading.keyword {before : Option Char} {input : Text} {r : Reading Mode}
    (h : BaseReading before input r) {role : KeywordRole} (keyword : r.cls = .keyword role) :
    Word.classOf? (Word.leading input) = some (.keyword role) ∧
      r.length = (Word.leading input).length := by
  cases h with
  | word _ _ _ _ hword => exact ⟨hword.trans (congrArg some keyword), rfl⟩
  | char =>
      simp only at keyword
      split at keyword
      · cases keyword
      · cases keyword
  | _ => cases keyword

end Mode

/-! ## Tokens and separators

A separator is a character after which words may start: a space, a tab or an opening parenthesis.
Operators, numbers and words are made of other characters, and every other token of ordinary code is
one character long.  So only a string or a comment can go on past a separator
(`read_past_separator`). -/

namespace Number

/-- The characters that number literals are made of. -/
def isLiteralChar (c : Char) : Bool := c.isDigit || c ∈ ['.', 'e', '+', '-']

theorem isLiteralChar_of_mem_digits {t : Text} : ∀ c ∈ digits t, isLiteralChar c = true := by
  intro c hc
  have hdigit := List.all_eq_true.mp (List.all_takeWhile (l := t) (p := Char.isDigit)) c hc
  unfold isLiteralChar
  rw [hdigit, Bool.true_or]

theorem isLiteralChar_of_mem_mantissa {t : Text} : ∀ c ∈ mantissa t, isLiteralChar c = true := by
  have hpoint : isLiteralChar '.' = true := by decide
  unfold mantissa
  split
  · split
    · exact fun c hc => absurd hc List.not_mem_nil
    · exact List.forall_mem_cons.mpr ⟨hpoint, isLiteralChar_of_mem_digits⟩
  · exact fun c hc => absurd hc List.not_mem_nil
  · rw [List.forall_mem_append, List.forall_mem_cons]
    exact ⟨isLiteralChar_of_mem_digits, hpoint, isLiteralChar_of_mem_digits⟩
  · exact isLiteralChar_of_mem_digits

theorem isLiteralChar_of_mem_sign {t : Text} : ∀ c ∈ sign t, isLiteralChar c = true := by
  unfold sign
  split
  · exact List.all_eq_true.mp (by decide)
  · exact List.all_eq_true.mp (by decide)
  · exact fun c hc => absurd hc List.not_mem_nil

theorem isLiteralChar_of_mem_exponent {t : Text} : ∀ c ∈ exponent t, isLiteralChar c = true := by
  unfold exponent
  split
  · simp only
    split
    · exact fun c hc => absurd hc List.not_mem_nil
    · rw [List.forall_mem_cons, List.forall_mem_append]
      exact ⟨by decide, isLiteralChar_of_mem_sign, isLiteralChar_of_mem_digits⟩
  · exact fun c hc => absurd hc List.not_mem_nil

theorem isLiteralChar_of_mem_literal {t : Text} : ∀ c ∈ literal t, isLiteralChar c = true := by
  unfold literal
  split
  · exact fun c hc => absurd hc List.not_mem_nil
  · rw [List.forall_mem_append]
    exact ⟨isLiteralChar_of_mem_mantissa, isLiteralChar_of_mem_exponent⟩

theorem take_eq_literal {t : Text} {n : Nat} (h : length? t = some n) : t.take n = literal t := by
  unfold length? at h
  simp only at h
  split at h
  · cases h
  · obtain rfl := Option.some.inj h
    exact (List.prefix_iff_eq_take.mp (isPrefix_literal t)).symm

end Number

namespace Mode

variable {before : Option Char} {input : Text} {r : Reading Mode}

theorem not_separator {p : Char → Bool} (h : [' ', '\t', '('].any p = false) {c : Char}
    (hc : p c = true) : opensWord (some c) = false :=
  decide_eq_false fun hmem => List.any_eq_false.mp h c hmem hc

/-- A token of ordinary code is a string, a comment, one character, or free of separators. -/
theorem BaseReading.separators (h : BaseReading before input r) :
    r.cls = .string ∨ r.cls = .comment ∨ r.length = 1 ∨
      ∀ c ∈ input.take r.length, opensWord (some c) = false := by
  cases h with
  | string t => exact Or.inl rfl
  | blockComment t => exact Or.inr (Or.inl rfl)
  | lineComment t => exact Or.inr (Or.inl rfl)
  | slash => exact Or.inr (Or.inr (Or.inl rfl))
  | @operator c t op =>
      refine Or.inr (Or.inr (Or.inr ?_))
      have htake : (c :: t).take (1 + (t.takeWhile isOperatorChar).length) =
          c :: t.takeWhile isOperatorChar := by
        rw [Nat.add_comm, List.take_succ_cons,
          ← List.prefix_iff_eq_take.mp (List.takeWhile_prefix isOperatorChar)]
      rw [htake, List.forall_mem_cons]
      have hclass : [' ', '\t', '('].any isOperatorChar = false := by decide
      exact ⟨not_separator hclass op, fun d hd =>
        not_separator hclass (List.all_eq_true.mp List.all_takeWhile d hd)⟩
  | number _ _ hn =>
      refine Or.inr (Or.inr (Or.inr fun c hc => ?_))
      rw [Number.take_eq_literal hn] at hc
      exact not_separator (p := Number.isLiteralChar) (by decide)
        (Number.isLiteralChar_of_mem_literal c hc)
  | notEqual _ _ _ found =>
      refine Or.inr (Or.inr (Or.inr fun c hc => ?_))
      have htake := List.prefix_iff_eq_take.mp found
      change c ∈ List.take Mode.notEqual.length _ at hc
      rw [← htake] at hc
      have hnone : Mode.notEqual.any (fun d => opensWord (some d)) = false := by decide
      exact Bool.eq_false_iff.mpr (List.any_eq_false.mp hnone c hc)
  | @word c t _ _ _ _ _ _ =>
      refine Or.inr (Or.inr (Or.inr fun d hd => ?_))
      rw [Word.take_leading] at hd
      exact not_separator (p := isWordChar) (by decide)
        (List.all_eq_true.mp List.all_takeWhile d hd)
  | char => exact Or.inr (Or.inr (Or.inl rfl))

/-- Only a string or a comment goes on past a separator. -/
theorem read_past_separator {mode : Mode} {front back : Text} {c : Char}
    (last : front.getLast? = some c) (separator : opensWord (some c) = true)
    (past : front.length < (read mode before (front ++ back)).length) :
    (read mode before (front ++ back)).cls = .string ∨
      (read mode before (front ++ back)).cls = .comment := by
  have hmem : c ∈ front := List.mem_of_getLast? last
  have hpos : 0 < front.length := List.length_pos_of_mem hmem
  cases mode with
  | blockComment => exact Or.inr rfl
  | string quote => exact Or.inl rfl
  | base =>
      have hreading := baseReading_of_ne_nil before
        (List.append_ne_nil_of_left_ne_nil (List.ne_nil_of_mem hmem) back)
      change front.length < (readBase before (front ++ back)).length at past
      rcases hreading.separators with hcls | hcls | hone | hfree
      · exact Or.inl hcls
      · exact Or.inr hcls
      · omega
      · have hfront : front <+: (front ++ back).take (readBase before (front ++ back)).length :=
          List.prefix_take_iff.mpr ⟨List.prefix_append front back, Nat.le_of_lt past⟩
        rw [hfree c (hfront.mem hmem)] at separator
        cases separator

end Mode

end BlockLayout
