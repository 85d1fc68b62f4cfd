import BlockLayout.Token.Reading

/-! # The branches of reading

Every way in which a token can be read, with the tests that lead to it.

* `BaseReading before input r` has one constructor for each branch of `Mode.readBase`, and
  `baseReading` says that these are all.  Facts about tokens of ordinary code are proved by cases
  on it, and nothing else unfolds `readBase`.
* `Reading.Fits r input` says that `r` takes at least one character of the input and no more than
  there are.  Every reading of a text that is not empty fits it (`read_fits`). -/

namespace BlockLayout

/-- The reading takes some of the input, and no more than all of it. -/
def Reading.Fits {σ : Type} (r : Reading σ) (input : Text) : Prop :=
  0 < r.length ∧ r.length ≤ input.length

theorem Text.eq_of_isPrefix {start start' t : Text} (h : start <+: t) (h' : start' <+: t)
    (length : start.length = start'.length) : start = start' :=
  (List.prefix_of_prefix_length_le h h' (Nat.le_of_eq length)).eq_of_length length

/-! ### Number literals -/

namespace Number

theorem isPrefix_append {m e t : Text} (hm : m <+: t) (he : e <+: t.drop m.length) : m ++ e <+: t := by
  obtain ⟨rest, rfl⟩ := hm
  rw [List.drop_left] at he
  exact (List.prefix_append_right_inj m).mpr he

theorem isPrefix_digits (t : Text) : digits t <+: t := List.takeWhile_prefix _

theorem drop_digits (t : Text) : t.drop (digits t).length = t.dropWhile Char.isDigit := by
  have h : digits t ++ t.dropWhile Char.isDigit = t := List.takeWhile_append_dropWhile
  calc t.drop (digits t).length
      = (digits t ++ t.dropWhile Char.isDigit).drop (digits t).length := by rw [h]
    _ = t.dropWhile Char.isDigit := List.drop_left

theorem isPrefix_mantissa (t : Text) : mantissa t <+: t := by
  have hdrop := drop_digits t
  unfold mantissa
  split
  · rename_i t' hd hw
    rw [hd, List.length_nil, List.drop_zero, hw] at hdrop
    split
    · exact List.nil_prefix
    · rw [hdrop]
      exact List.cons_prefix_cons.mpr ⟨rfl, isPrefix_digits t'⟩
  · exact List.nil_prefix
  · rename_i t' hw _
    refine isPrefix_append (isPrefix_digits t) ?_
    rw [hdrop, hw]
    exact List.cons_prefix_cons.mpr ⟨rfl, isPrefix_digits t'⟩
  · exact isPrefix_digits t

theorem isPrefix_sign (t : Text) : sign t <+: t := by
  unfold sign
  split
  · exact ⟨_, rfl⟩
  · exact ⟨_, rfl⟩
  · exact List.nil_prefix

theorem isPrefix_exponent (t : Text) : exponent t <+: t := by
  unfold exponent
  split
  · simp only
    split
    · exact List.nil_prefix
    · exact List.cons_prefix_cons.mpr ⟨rfl, isPrefix_append (isPrefix_sign _) (isPrefix_digits _)⟩
  · exact List.nil_prefix

theorem isPrefix_literal (t : Text) : literal t <+: t := by
  unfold literal
  split
  · exact List.nil_prefix
  · exact isPrefix_append (isPrefix_mantissa t) (isPrefix_exponent _)

theorem length?_bounds {t : Text} {n : Nat} (h : length? t = some n) : 0 < n ∧ n ≤ t.length := by
  unfold length? at h
  simp only [Bool.or_eq_true, decide_eq_true_eq] at h
  split at h
  · cases h
  · rename_i hn
    obtain rfl : (literal t).length = n := Option.some.inj h
    exact ⟨Nat.pos_of_ne_zero fun h0 => hn (Or.inl h0), (isPrefix_literal t).length_le⟩

end Number

/-! ### Reserved words -/

namespace Word

theorem leading?_eq_some_iff {t word : Text} {cls : TokenClass} :
    leading? t = some (word, cls) ↔ word = leading t ∧ classOf? word = some cls := by
  unfold leading?
  rw [Option.map_eq_some_iff]
  constructor
  · rintro ⟨cls', hcls, heq⟩
    obtain ⟨rfl, rfl⟩ := Prod.mk.inj heq
    exact ⟨rfl, hcls⟩
  · rintro ⟨rfl, hcls⟩
    exact ⟨cls, hcls, rfl⟩

theorem isPrefix_leading (t : Text) : leading t <+: t := List.takeWhile_prefix _

theorem take_leading (t : Text) : t.take (leading t).length = leading t :=
  (List.prefix_iff_eq_take.mp (isPrefix_leading t)).symm

theorem classOf?_nil : classOf? [] = none := by decide

theorem ne_nil_of_classOf? {word : Text} {cls : TokenClass} (h : classOf? word = some cls) :
    word ≠ [] := by
  rintro rfl
  rw [classOf?_nil] at h
  cases h

end Word

namespace Mode

/-- A character that neither starts a string, a comment or an operator nor is one. -/
def IsOrdinary (c : Char) : Prop := c ≠ '"' ∧ c ≠ '/' ∧ isOperatorChar c = false

/-- The readings of ordinary code, by the branch that gives them. -/
inductive BaseReading (before : Option Char) : Text → Reading Mode → Prop
  | string (t : Text) : BaseReading before ('"' :: t) (readString '"' 1 t)
  | blockComment (t : Text) : BaseReading before ('/' :: '*' :: t) (readComment 2 t)
  | lineComment (t : Text) :
      BaseReading before ('/' :: '/' :: t) ⟨.comment, t.length + 2, .base⟩
  | slash {t : Text} (star : t.head? ≠ some '*') (slash : t.head? ≠ some '/') :
      BaseReading before ('/' :: t) ⟨.operator, 1, .base⟩
  | operator {c : Char} {t : Text} (op : isOperatorChar c = true) :
      BaseReading before (c :: t) ⟨.operator, 1 + (t.takeWhile isOperatorChar).length, .base⟩
  | number {c : Char} {t : Text} {n : Nat} (ordinary : IsOrdinary c)
      (side : isAfterWord before = false) (number : Number.length? (c :: t) = some n) :
      BaseReading before (c :: t) ⟨.number, n, .base⟩
  | notEqual {c : Char} {t : Text} (ordinary : IsOrdinary c)
      (number : readNumber? before (c :: t) = none) (side : isAfterWord before = false)
      (found : notEqual <+: c :: t) : BaseReading before (c :: t) ⟨.operator, 4, .base⟩
  | word {c : Char} {t : Text} {cls : TokenClass} (ordinary : IsOrdinary c)
      (number : readNumber? before (c :: t) = none) (side : opensWord before = true)
      (noEqual : isAfterWord before = true ∨ ¬ notEqual <+: c :: t)
      (word : Word.classOf? (Word.leading (c :: t)) = some cls) :
      BaseReading before (c :: t) ⟨cls, (Word.leading (c :: t)).length, .base⟩
  | char {c : Char} {t : Text} (ordinary : IsOrdinary c)
      (number : readNumber? before (c :: t) = none) (word : readWord? before (c :: t) = none) :
      BaseReading before (c :: t) ⟨if isPunctuation c then .punctuation c else .plain, 1, .base⟩

theorem readNumber?_eq_some {before : Option Char} {input : Text} {r : Reading Mode}
    (h : readNumber? before input = some r) :
    isAfterWord before = false ∧
      ∃ n, Number.length? input = some n ∧ r = ⟨.number, n, .base⟩ := by
  unfold readNumber? at h
  split at h
  · cases h
  · rename_i hside
    obtain ⟨n, hn, rfl⟩ := Option.map_eq_some_iff.mp h
    exact ⟨by simpa using hside, n, hn, rfl⟩

theorem readWord?_eq_some {before : Option Char} {input : Text} {r : Reading Mode}
    (h : readWord? before input = some r) :
    (isAfterWord before = false ∧ notEqual <+: input ∧ r = ⟨.operator, 4, .base⟩) ∨
      (opensWord before = true ∧ (isAfterWord before = true ∨ ¬ notEqual <+: input) ∧
        ∃ cls, Word.classOf? (Word.leading input) = some cls ∧
          r = ⟨cls, (Word.leading input).length, .base⟩) := by
  unfold readWord? at h
  simp only [Bool.and_eq_true, Bool.not_eq_true', List.isPrefixOf_iff_prefix] at h
  split at h
  · rename_i hne
    exact Or.inl ⟨hne.1, hne.2, (Option.some.inj h).symm⟩
  · rename_i hne
    split at h
    · rename_i hopen
      obtain ⟨⟨word, cls⟩, hword, rfl⟩ := Option.map_eq_some_iff.mp h
      obtain ⟨rfl, hcls⟩ := Word.leading?_eq_some_iff.mp hword
      refine Or.inr ⟨hopen, ?_, cls, hcls, rfl⟩
      cases hside : isAfterWord before with
      | true => exact Or.inl rfl
      | false => exact Or.inr fun hp => hne ⟨hside, hp⟩
    · cases h

theorem readNumber?_eq_none_iff {before : Option Char} {input : Text} :
    readNumber? before input = none ↔ isAfterWord before = true ∨ Number.length? input = none := by
  unfold readNumber?
  split <;> simp_all

theorem readWord?_eq_none_iff {before : Option Char} {input : Text} :
    readWord? before input = none ↔ (isAfterWord before = true ∨ ¬ notEqual <+: input) ∧
      (opensWord before = false ∨ Word.leading? input = none) := by
  unfold readWord?
  rw [← List.isPrefixOf_iff_prefix]
  cases isAfterWord before <;> cases notEqual.isPrefixOf input <;> cases opensWord before <;> simp

/-- Every token of ordinary code is read by one of the branches. -/
theorem baseReading (before : Option Char) (c : Char) (t : Text) :
    BaseReading before (c :: t) (readBase before (c :: t)) := by
  unfold readBase
  split
  · rename_i heq
    cases heq
  · rename_i t' heq
    cases heq
    exact .string t
  · rename_i t' heq
    cases heq
    exact .blockComment t'
  · rename_i t' heq
    cases heq
    exact .lineComment t'
  · rename_i t' hstar hslash heq
    cases heq
    refine .slash ?_ ?_
    · intro h
      obtain ⟨u, rfl⟩ := List.head?_eq_some_iff.mp h
      exact hstar u rfl
    · intro h
      obtain ⟨u, rfl⟩ := List.head?_eq_some_iff.mp h
      exact hslash u rfl
  · rename_i c' t' hquote _ _ hslash heq
    cases heq
    split
    · rename_i hop
      exact .operator hop
    · rename_i hop
      have hord : IsOrdinary c := by
        refine ⟨?_, ?_, by simpa using hop⟩
        · rintro rfl
          exact hquote rfl
        · rintro rfl
          exact hslash rfl
      cases hn : readNumber? before (c :: t) with
      | some r =>
          obtain ⟨hside, n, hlen, rfl⟩ := readNumber?_eq_some hn
          exact .number hord hside hlen
      | none =>
          cases hw : readWord? before (c :: t) with
          | none => exact .char hord hn hw
          | some r =>
              rcases readWord?_eq_some hw with ⟨hside, hp, rfl⟩ | ⟨hopen, hne, cls, hcls, rfl⟩
              · exact .notEqual hord hn hside hp
              · exact .word hord hn hopen hne hcls

theorem baseReading_of_ne_nil (before : Option Char) {input : Text} (h : input ≠ []) :
    BaseReading before input (readBase before input) := by
  obtain ⟨c, t, rfl⟩ := List.exists_cons_of_ne_nil h
  exact baseReading before c t

/-! ### Lengths -/

theorem commentExtent_pos (star : Bool) {t : Text} (h : t ≠ []) :
    0 < (commentExtent star t).1 := by
  cases t with
  | nil => exact absurd rfl h
  | cons c t =>
      unfold commentExtent
      split
      · exact Nat.one_pos
      · exact Nat.succ_pos _

theorem stringExtent_pos (quote : Char) (escaped : Bool) {t : Text} (h : t ≠ []) :
    0 < (stringExtent quote escaped t).1 := by
  cases t with
  | nil => exact absurd rfl h
  | cons c t =>
      unfold stringExtent
      split
      · exact Nat.one_pos
      · exact Nat.succ_pos _

theorem BaseReading.fits {before : Option Char} {input : Text} {r : Reading Mode}
    (h : BaseReading before input r) : r.Fits input := by
  cases h with
  | string t =>
      have := stringExtent_le '"' false t
      simp only [Reading.Fits, readString, List.length_cons]
      omega
  | blockComment t =>
      have := commentExtent_le false t
      simp only [Reading.Fits, readComment, List.length_cons]
      omega
  | lineComment t => simp [Reading.Fits]
  | slash => simp [Reading.Fits]
  | @operator c t _ =>
      have := (List.takeWhile_prefix (l := t) isOperatorChar).length_le
      simp only [Reading.Fits, List.length_cons]
      omega
  | number _ _ hn => exact Number.length?_bounds hn
  | notEqual _ _ _ hp => exact ⟨Nat.succ_pos _, hp.length_le⟩
  | word _ _ _ _ hw =>
      exact ⟨List.length_pos_iff.mpr (Word.ne_nil_of_classOf? hw), (Word.isPrefix_leading _).length_le⟩
  | char => simp [Reading.Fits]

/-- Reading a text that is not empty takes at least one character and no more than there are. -/
theorem read_fits (mode : Mode) (before : Option Char) {input : Text} (h : input ≠ []) :
    (read mode before input).Fits input := by
  obtain ⟨c, t, rfl⟩ := List.exists_cons_of_ne_nil h
  cases mode with
  | base => exact (baseReading before c t).fits
  | blockComment =>
      have hpos := commentExtent_pos false h
      have hle := commentExtent_le false (c :: t)
      simp only [read, readComment, Reading.Fits]
      omega
  | string quote =>
      have hpos := stringExtent_pos quote false h
      have hle := stringExtent_le quote false (c :: t)
      simp only [read, readString, Reading.Fits]
      omega

end Mode

end BlockLayout
