import BlockLayout.Proofs.Token.Branches

/-! # Comments and strings

A comment or a string that is open after a token reaches to the end of the line, because what ends it
was not found (`commentExtent_open`, `stringExtent_open`).  A string is open then only if the line
ends with a backslash.  `read_open` says so of every token, in whatever mode it is read. -/

namespace BlockLayout

namespace Mode

theorem commentExtent_open {star : Bool} {t : Text} (h : (commentExtent star t).2 ≠ base) :
    (commentExtent star t).1 = t.length ∧ (commentExtent star t).2 = blockComment := by
  induction t generalizing star with
  | nil => exact ⟨rfl, rfl⟩
  | cons c t ih =>
      by_cases hend : (star && c == '/') = true
      · simp [commentExtent, hend] at h
      · simp only [commentExtent, hend, Bool.false_eq_true, if_false] at h ⊢
        obtain ⟨hlen, hmode⟩ := ih h
        exact ⟨by rw [hlen, List.length_cons], hmode⟩

/-- A string without its end is open if a backslash ends the text, or stands before an empty one. -/
theorem stringExtent_open {quote : Char} {escaped : Bool} {t : Text}
    (h : (stringExtent quote escaped t).2 ≠ base) :
    (stringExtent quote escaped t).1 = t.length ∧
      (stringExtent quote escaped t).2 = string quote ∧
      (t = [] ∧ escaped = true ∨ t.getLast? = some '\\') := by
  induction t generalizing escaped with
  | nil =>
      cases escaped with
      | true => exact ⟨rfl, rfl, Or.inl ⟨rfl, rfl⟩⟩
      | false => exact absurd rfl h
  | cons c t ih =>
      by_cases hend : (!escaped && c == quote) = true
      · simp [stringExtent, hend] at h
      · simp only [stringExtent, hend, Bool.false_eq_true, if_false] at h ⊢
        obtain ⟨hlen, hmode, hlast⟩ := ih h
        refine ⟨by rw [hlen, List.length_cons], hmode, Or.inr ?_⟩
        rcases hlast with ⟨rfl, hescape⟩ | hlast
        · simp only [Bool.and_eq_true, beq_iff_eq] at hescape
          rw [hescape.2]
          rfl
        · rw [List.getLast?_cons, hlast]
          rfl

/-- What a token that leaves a construct open has in common: it reaches to the end of the line, and
a string is left open behind a backslash only. -/
structure LeavesOpen (mode : Mode) (input : Text) (r : Reading Mode) : Prop where
  whole : r.length = input.length
  escape : ∀ q, r.state = string q →
    input.getLast? = some '\\' ∧ (mode = base ∧ q = '"' ∨ mode = string q)

theorem BaseReading.leavesOpen {before : Option Char} {input : Text} {r : Reading Mode}
    (h : BaseReading before input r) (opened : r.state ≠ base) : LeavesOpen base input r := by
  cases h with
  | string t =>
      obtain ⟨hlen, hmode, hlast⟩ := stringExtent_open opened
      refine ⟨?_, fun q hq => ⟨?_, Or.inl ⟨rfl, ?_⟩⟩⟩
      · simp only [readString, hlen, List.length_cons]
        omega
      · rcases hlast with ⟨-, hescape⟩ | hlast
        · cases hescape
        · rw [List.getLast?_cons, hlast]
          rfl
      · exact (string.inj (hmode.symm.trans hq)).symm
  | blockComment t =>
      obtain ⟨hlen, hmode⟩ := commentExtent_open opened
      refine ⟨?_, fun q hq => ?_⟩
      · simp only [readComment, hlen, List.length_cons]
        omega
      · cases hmode.symm.trans hq
  | lineComment => exact absurd rfl opened
  | slash => exact absurd rfl opened
  | operator => exact absurd rfl opened
  | number => exact absurd rfl opened
  | notEqual => exact absurd rfl opened
  | word => exact absurd rfl opened
  | char => exact absurd rfl opened

/-- A token after which a comment or a string is open. -/
theorem read_open {mode : Mode} {before : Option Char} {input : Text} (nonempty : input ≠ [])
    (opened : (read mode before input).state ≠ base) :
    LeavesOpen mode input (read mode before input) := by
  cases mode with
  | base => exact (baseReading_of_ne_nil before nonempty).leavesOpen opened
  | blockComment =>
      obtain ⟨hlen, hmode⟩ := commentExtent_open opened
      refine ⟨?_, fun q hq => ?_⟩
      · simp only [read, readComment, hlen, Nat.zero_add]
      · cases hmode.symm.trans hq
  | string quote =>
      obtain ⟨hlen, hmode, hlast⟩ := stringExtent_open opened
      refine ⟨?_, fun q hq => ⟨?_, Or.inr ?_⟩⟩
      · simp only [read, readString, hlen, Nat.zero_add]
      · rcases hlast with ⟨-, hescape⟩ | hlast
        · cases hescape
        · exact hlast
      · exact hmode.symm.trans hq

variable (mode : Mode) (before : Option Char) (input : Text)

theorem read_nil : (read mode before []).length = 0 := by
  cases mode with
  | base => rfl
  | blockComment => rfl
  | string quote => rfl

theorem length_read_le : (read mode before input).length ≤ input.length := by
  by_cases hnil : input = []
  · rw [hnil, read_nil]
    exact Nat.zero_le _
  · exact (read_fits mode before hnil).2

theorem mode_read :
    (read mode before input).state = .base ∨ (read mode before input).length = input.length := by
  by_cases hnil : input = []
  · subst hnil
    exact Or.inr (read_nil mode before)
  · by_cases hopen : (read mode before input).state = .base
    · exact Or.inl hopen
    · exact Or.inr (read_open hnil hopen).whole

end Mode

/-! ## Bodies

What may stand between the marks of a block comment or of a string, said without the reader: the mark
that ends a comment is found first behind the body (`Text.FirstBehind`), and a quote in the body of a
string is escaped, which it is behind an odd run of backslashes (`Text.IsStringBody`).  A construct
with such a body ends where the body ends, whatever stands behind it (`commentExtent_body`,
`stringExtent_body`).  A string all of whose quotes are escaped does not end in its line
(`stringExtent_unclosed`). -/

namespace Text

/-- With the mark behind the text, the mark stands nowhere before. -/
def FirstBehind (mark t : Text) : Prop := ∀ n < t.length, ¬ mark <+: (t ++ mark).drop n

instance (mark t : Text) : Decidable (FirstBehind mark t) :=
  inferInstanceAs (Decidable (∀ n < _, ¬ _))

theorem FirstBehind.head {mark t : Text} {c : Char} (h : FirstBehind mark (c :: t)) :
    ¬ mark <+: c :: (t ++ mark) := h 0 (Nat.succ_pos _)

theorem FirstBehind.tail {mark t : Text} {c : Char} (h : FirstBehind mark (c :: t)) :
    FirstBehind mark t := fun n hn => h (n + 1) (Nat.succ_lt_succ hn)

/-- The number of backslashes that the text ends with. -/
def backslashes (t : Text) : Nat := (t.reverse.takeWhile (· == '\\')).length

/-- A character behind the text is escaped. -/
def Escapes (t : Text) : Prop := t.backslashes % 2 = 1

instance (t : Text) : Decidable t.Escapes := inferInstanceAs (Decidable (_ = _))

theorem escapes_nil : ¬ Escapes [] := by decide

theorem escapes_concat {t : Text} {c : Char} : Escapes (t ++ [c]) ↔ c = '\\' ∧ ¬ Escapes t := by
  have hcount : backslashes (t ++ [c]) = if c = '\\' then t.backslashes + 1 else 0 := by
    unfold backslashes
    rw [List.reverse_concat, List.takeWhile_cons]
    simp only [beq_iff_eq]
    split <;> rfl
  unfold Escapes
  rw [hcount]
  split
  · rename_i hc
    simp only [hc, true_and]
    omega
  · rename_i hc
    simp [hc]

/-- A text that may stand between two quotes: every quote in it is escaped, and the quote behind it is
not. -/
def IsStringBody (quote : Char) (t : Text) : Prop :=
  (∀ n < t.length, t[n]? = some quote → Escapes (t.take n)) ∧ ¬ Escapes t

instance (quote : Char) (t : Text) : Decidable (IsStringBody quote t) :=
  inferInstanceAs (Decidable ((∀ n < _, _ → _) ∧ _))

/-- Every quote in the text is escaped, the text in front of it being read too. -/
def QuotesEscaped (quote : Char) (front t : Text) : Prop :=
  ∀ n, t[n]? = some quote → Escapes (front ++ t.take n)

theorem QuotesEscaped.head {quote c : Char} {front t : Text}
    (h : QuotesEscaped quote front (c :: t)) : c = quote → Escapes front := by
  rintro rfl
  have hquote := h 0 rfl
  rwa [List.take_zero, List.append_nil] at hquote

theorem QuotesEscaped.tail {quote c : Char} {front t : Text}
    (h : QuotesEscaped quote front (c :: t)) : QuotesEscaped quote (front ++ [c]) t := by
  intro n hquote
  rw [List.append_assoc]
  exact h (n + 1) hquote

theorem IsStringBody.quotesEscaped {quote : Char} {t : Text} (h : IsStringBody quote t) :
    QuotesEscaped quote [] t :=
  fun n hquote => h.1 n (List.getElem?_eq_some_iff.mp hquote).1 hquote

end Text

open Text (FirstBehind IsStringBody QuotesEscaped Escapes escapes_concat escapes_nil)

namespace Mode

/-! ### Block comments -/

theorem commentExtent_closes (star : Bool) (body rest : Text) :
    (commentExtent star (body ++ '*' :: '/' :: rest)).2 = base := by
  induction body generalizing star with
  | nil => simp [commentExtent]
  | cons c body ih =>
      rw [List.cons_append]
      unfold commentExtent
      split
      · rfl
      · exact ih _

/-- A comment ends behind its body.  A star before the body must not make an end mark with it. -/
theorem commentExtent_body {star : Bool} {body : Text} (rest : Text)
    (first : FirstBehind blockCommentMarks.2 body) (apart : star = true → body.head? ≠ some '/') :
    commentExtent star (body ++ '*' :: '/' :: rest) = (body.length + 2, base) := by
  induction body generalizing star with
  | nil => simp [commentExtent]
  | cons c body ih =>
      have hnotEnd : ¬ (star && c == '/') = true := by
        intro hend
        simp only [Bool.and_eq_true, beq_iff_eq] at hend
        exact apart hend.1 (congrArg some hend.2)
      have hnext : (c == '*') = true → body.head? ≠ some '/' := by
        intro hc hslash
        obtain ⟨u, rfl⟩ := List.head?_eq_some_iff.mp hslash
        obtain rfl := beq_iff_eq.mp hc
        exact first.head ⟨u ++ blockCommentMarks.2, rfl⟩
      rw [List.cons_append]
      unfold commentExtent
      rw [if_neg hnotEnd, ih first.tail hnext, List.length_cons]

theorem commentExtent_unclosed {star : Bool} {t : Text} (free : ¬ blockCommentMarks.2 <:+: t)
    (apart : star = true → t.head? ≠ some '/') : commentExtent star t = (t.length, blockComment) := by
  induction t generalizing star with
  | nil => rfl
  | cons c t ih =>
      have hnotEnd : ¬ (star && c == '/') = true := by
        intro hend
        simp only [Bool.and_eq_true, beq_iff_eq] at hend
        exact apart hend.1 (congrArg some hend.2)
      have hnext : (c == '*') = true → t.head? ≠ some '/' := by
        intro hc hslash
        obtain ⟨u, rfl⟩ := List.head?_eq_some_iff.mp hslash
        obtain rfl := beq_iff_eq.mp hc
        exact free ⟨[], u, rfl⟩
      unfold commentExtent
      rw [if_neg hnotEnd, ih (fun h => free (List.infix_cons h)) hnext, List.length_cons]

/-! ### Strings -/

theorem stringExtent_closes {quote : Char} (quoted : quote ≠ '\\') {escaped : Bool}
    {body rest : Text}
    (whole : (stringExtent quote escaped (body ++ quote :: rest)).1 = body.length + 1) :
    (stringExtent quote escaped (body ++ quote :: rest)).2 = base := by
  refine Decidable.byContradiction fun hopen => ?_
  obtain ⟨hlength, -, hlast⟩ := stringExtent_open hopen
  rw [whole, List.length_append, List.length_cons] at hlength
  obtain rfl : rest = [] := List.length_eq_zero_iff.mp (by omega)
  rcases hlast with ⟨hnil, -⟩ | hlast
  · simp at hnil
  · rw [List.getLast?_concat] at hlast
    exact quoted (Option.some.inj hlast)

/-- A character of a string that is not its end.  Whether it escapes the next one is told by the text up
to it, of which `before` has been read. -/
theorem stringExtent_cons {quote c : Char} {before : Text} (t : Text)
    (escaped : c = quote → Escapes before) :
    stringExtent quote (decide (Escapes before)) (c :: t) =
      ((stringExtent quote (decide (Escapes (before ++ [c]))) t).1 + 1,
        (stringExtent quote (decide (Escapes (before ++ [c]))) t).2) := by
  have hnotEnd : ¬ (!decide (Escapes before) && c == quote) = true := by
    intro hend
    simp only [Bool.and_eq_true, Bool.not_eq_true', decide_eq_false_iff_not, beq_iff_eq] at hend
    exact hend.1 (escaped hend.2)
  have hnext : (!decide (Escapes before) && c == '\\') = decide (Escapes (before ++ [c])) := by
    rw [Bool.eq_iff_iff]
    simp only [Bool.and_eq_true, Bool.not_eq_true', decide_eq_false_iff_not, beq_iff_eq,
      decide_eq_true_eq]
    rw [escapes_concat, and_comm]
  rw [stringExtent, if_neg hnotEnd, hnext]

/-- A string ends behind its body, of which `before` has been read. -/
theorem stringExtent_body {quote : Char} {before body : Text} (rest : Text)
    (escaped : QuotesEscaped quote before body) (ends : ¬ Escapes (before ++ body)) :
    stringExtent quote (decide (Escapes before)) (body ++ quote :: rest) =
      (body.length + 1, base) := by
  induction body generalizing before with
  | nil =>
      rw [List.append_nil] at ends
      simp [stringExtent, ends]
  | cons c body ih =>
      have hends : ¬ Escapes (before ++ [c] ++ body) := by
        rw [List.append_assoc]
        exact ends
      rw [List.cons_append, stringExtent_cons _ escaped.head, ih escaped.tail hends, List.length_cons]

theorem stringExtent_unclosed {quote : Char} {before t : Text}
    (escaped : QuotesEscaped quote before t) :
    stringExtent quote (decide (Escapes before)) t =
      (t.length, if Escapes (before ++ t) then string quote else base) := by
  induction t generalizing before with
  | nil => simp [stringExtent]
  | cons c t ih =>
      rw [stringExtent_cons t escaped.head, ih escaped.tail, List.append_assoc, List.length_cons]
      rfl

theorem stringExtent_of_isStringBody {quote : Char} {body : Text} (ok : IsStringBody quote body)
    (rest : Text) : stringExtent quote false (body ++ quote :: rest) = (body.length + 1, base) := by
  have hextent : stringExtent quote (decide (Escapes [])) (body ++ quote :: rest) =
      (body.length + 1, base) := stringExtent_body rest ok.quotesEscaped ok.2
  rwa [decide_eq_false escapes_nil] at hextent

/-! ### Other bodies -/

/-- Wherever the one text is a token of ordinary code, so is the other.  Both are of the class and leave
ordinary code, and what follows them, if there is anything, follows the same character. -/
def Exchangeable (cls : TokenClass) (text text' : Text) : Prop :=
  ∀ before rest, (readBase before (text ++ rest)).length = text.length →
    readBase before (text ++ rest) = ⟨cls, text.length, .base⟩ ∧
      readBase before (text' ++ rest) = ⟨cls, text'.length, .base⟩ ∧
      (rest = [] ∨ text'.getLast? = text.getLast?)

theorem exchangeable_lineComment (body body' : Text) :
    Exchangeable .comment (lineCommentMark ++ body) (lineCommentMark ++ body') := by
  intro before rest whole
  have hlength : (body ++ rest).length + 2 = body.length + 2 := whole
  rw [List.length_append] at hlength
  obtain rfl : rest = [] := List.length_eq_zero_iff.mp (by omega)
  rw [List.append_nil, List.append_nil]
  exact ⟨rfl, rfl, Or.inl rfl⟩

theorem exchangeable_blockComment (body : Text) {body' : Text}
    (first : FirstBehind blockCommentMarks.2 body') :
    Exchangeable .comment (blockCommentMarks.1 ++ body ++ blockCommentMarks.2)
      (blockCommentMarks.1 ++ body' ++ blockCommentMarks.2) := by
  have hread : ∀ before u rest,
      readBase before (blockCommentMarks.1 ++ u ++ blockCommentMarks.2 ++ rest) =
        readComment 2 (u ++ '*' :: '/' :: rest) := by
    intro before u rest
    rw [List.append_assoc, List.append_assoc]
    rfl
  have hlength : ∀ u, (blockCommentMarks.1 ++ u ++ blockCommentMarks.2).length =
      2 + (u.length + 2) := by
    intro u
    rw [List.length_append, List.length_append, Nat.add_assoc]
    rfl
  have hlast : ∀ u, (blockCommentMarks.1 ++ u ++ blockCommentMarks.2).getLast? = some '/' := by
    intro u
    rw [List.getLast?_append]
    rfl
  intro before rest whole
  rw [hread] at whole
  rw [hread, hread]
  refine ⟨?_, ?_, Or.inr ?_⟩
  · rw [← whole, ← commentExtent_closes false body rest]
    rfl
  · unfold readComment
    rw [commentExtent_body rest first (fun h => by cases h), hlength]
  · rw [hlast, hlast]

theorem exchangeable_string (body : Text) {body' : Text} (ok : IsStringBody '"' body') :
    Exchangeable .string ('"' :: (body ++ ['"'])) ('"' :: (body' ++ ['"'])) := by
  have hread : ∀ before u rest,
      readBase before ('"' :: (u ++ ['"']) ++ rest) = readString '"' 1 (u ++ '"' :: rest) := by
    intro before u rest
    rw [List.cons_append, List.append_assoc]
    rfl
  have hlength : ∀ u : Text, ('"' :: (u ++ ['"'])).length = 1 + (u.length + 1) := by
    intro u
    rw [List.length_cons, List.length_append, Nat.add_comm]
    rfl
  intro before rest whole
  rw [hread, hlength] at whole
  rw [hread, hread, hlength, hlength]
  refine ⟨?_, ?_, Or.inr ?_⟩
  · have hcloses := stringExtent_closes (by decide) (Nat.add_left_cancel whole)
    rw [← whole, ← hcloses]
    rfl
  · unfold readString
    rw [stringExtent_of_isStringBody ok rest]
  · rw [← List.cons_append, ← List.cons_append, List.getLast?_concat, List.getLast?_concat]

end Mode

end BlockLayout
