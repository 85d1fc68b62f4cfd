import BlockLayout.Proofs.Text.Patterns
import BlockLayout.Proofs.Token.Lookahead
import BlockLayout.Proofs.Token.Reserved

/-! # Number literals

`Number.IsLiteral` says what a number literal is: a mantissa, which is digits, digits and a point with
or without further digits, or a point and digits, and an exponent, which may be missing.  The literal
that reading finds is one (`isLiteral_literal`), and every literal that the text starts with is a start
of it (`IsLiteral.isPrefix_literal`): a mantissa that goes on does not do so with the `e` of an
exponent.  So it is the longest (`literal_eq_iff`), and a number is the longest literal of its text, if
no word character follows (`length?_eq_some_iff`).

A search for the pattern of literals finds the same literal (`first?_pattern`), so for this pattern the
first match is the longest one (`first?_pattern_eq_some_iff`). -/

namespace BlockLayout.Number

/-- Only digits, or nothing. -/
def AreDigits (t : Text) : Prop := ∀ c ∈ t, c.isDigit = true

/-- A number without an exponent. -/
inductive IsMantissa : Text → Prop
  | whole {ds : Text} (nonempty : ds ≠ []) (integer : AreDigits ds) : IsMantissa ds
  | pointed {ds fs : Text} (nonempty : ds ≠ []) (integer : AreDigits ds) (decimals : AreDigits fs) :
      IsMantissa (ds ++ '.' :: fs)
  | fraction {fs : Text} (nonempty : fs ≠ []) (decimals : AreDigits fs) : IsMantissa ('.' :: fs)

/-- What may follow a mantissa: nothing, or a lower-case `e`, at most one sign, and digits. -/
inductive IsExponent : Text → Prop
  | absent : IsExponent []
  | power {s ds : Text} (sign : s = [] ∨ s = ['+'] ∨ s = ['-']) (nonempty : ds ≠ [])
      (integer : AreDigits ds) : IsExponent ('e' :: (s ++ ds))

/-- The number literals. -/
inductive IsLiteral : Text → Prop
  | mk {m e : Text} (mantissa : IsMantissa m) (exponent : IsExponent e) : IsLiteral (m ++ e)

/-- Of the literals that the text starts with, the longest. -/
structure IsLongestLiteral (t token : Text) : Prop where
  isLiteral : IsLiteral token
  starts : token <+: t
  longest : ∀ other, IsLiteral other → other <+: t → other.length ≤ token.length

variable {t u m e ds : Text}

/-! ### Digits -/

theorem areDigits_digits (t : Text) : AreDigits (digits t) :=
  List.all_eq_true.mp List.all_takeWhile

theorem isPrefix_digits_of_areDigits (integer : AreDigits ds) (starts : ds <+: t) :
    ds <+: digits t := by
  obtain ⟨rest, rfl⟩ := starts
  unfold digits
  rw [List.takeWhile_append_of_pos integer]
  exact List.prefix_append ds _

theorem digits_ne_nil_of_areDigits (nonempty : ds ≠ []) (integer : AreDigits ds) (starts : ds <+: t) :
    digits t ≠ [] := by
  intro hnil
  have hdigits := isPrefix_digits_of_areDigits integer starts
  rw [hnil] at hdigits
  exact nonempty (List.prefix_nil.mp hdigits)

theorem digits_of_point (integer : AreDigits ds) (rest : Text) :
    digits (ds ++ '.' :: rest) = ds ∧ (ds ++ '.' :: rest).dropWhile Char.isDigit = '.' :: rest := by
  have hpoint : ¬ '.'.isDigit = true := by decide
  unfold digits
  rw [List.takeWhile_append_of_pos integer, List.dropWhile_append_of_pos integer,
    List.takeWhile_cons_of_neg hpoint, List.dropWhile_cons_of_neg hpoint, List.append_nil]
  exact ⟨rfl, rfl⟩

/-! ### Mantissas -/

theorem IsMantissa.ne_nil (h : IsMantissa m) : m ≠ [] := by
  cases h with
  | whole nonempty _ => exact nonempty
  | pointed nonempty _ _ => exact List.append_ne_nil_of_left_ne_nil nonempty _
  | fraction _ _ => exact List.cons_ne_nil _ _

theorem IsMantissa.isDigit_or_point (h : IsMantissa m) : ∀ c ∈ m, c.isDigit = true ∨ c = '.' := by
  cases h with
  | whole _ integer => exact fun c hc => Or.inl (integer c hc)
  | pointed _ integer decimals =>
      intro c hc
      rcases List.mem_append.mp hc with hc | hc
      · exact Or.inl (integer c hc)
      · exact (List.mem_cons.mp hc).symm.imp_left (decimals c)
  | fraction _ decimals => exact fun c hc => (List.mem_cons.mp hc).symm.imp_left (decimals c)

theorem isMantissa_mantissa (nonempty : mantissa t ≠ []) : IsMantissa (mantissa t) := by
  by_cases hpoint : ∃ u, t.dropWhile Char.isDigit = '.' :: u
  · obtain ⟨u, hu⟩ := hpoint
    rw [mantissa_of_point hu] at nonempty ⊢
    split at nonempty
    · exact absurd rfl nonempty
    · rename_i hdigits
      rw [if_neg hdigits]
      by_cases hds : digits t = []
      · rw [hds, List.nil_append]
        exact .fraction (fun hfs => hdigits ⟨hds, hfs⟩) (areDigits_digits u)
      · exact .pointed hds (areDigits_digits t) (areDigits_digits u)
  · rw [mantissa_of_no_point (not_exists.mp hpoint)] at nonempty ⊢
    exact .whole nonempty (areDigits_digits t)

theorem IsMantissa.isPrefix_mantissa (h : IsMantissa m) (starts : m <+: t) : m <+: mantissa t := by
  cases h with
  | whole nonempty integer =>
      have hdigits := isPrefix_digits_of_areDigits integer starts
      by_cases hpoint : ∃ u, t.dropWhile Char.isDigit = '.' :: u
      · obtain ⟨u, hu⟩ := hpoint
        have hne := digits_ne_nil_of_areDigits nonempty integer starts
        rw [mantissa_of_point hu, if_neg fun hnil => hne hnil.1]
        exact hdigits.trans (List.prefix_append _ _)
      · rw [mantissa_of_no_point (not_exists.mp hpoint)]
        exact hdigits
  | @pointed ds fs nonempty integer decimals =>
      obtain ⟨rest, rfl⟩ := starts
      rw [List.append_assoc, List.cons_append]
      obtain ⟨hds, hdrop⟩ := digits_of_point integer (fs ++ rest)
      have hfs := isPrefix_digits_of_areDigits decimals (List.prefix_append fs rest)
      rw [mantissa_of_point hdrop, hds, if_neg fun hnil => nonempty hnil.1]
      exact (List.prefix_append_right_inj ds).mpr (List.cons_prefix_cons.mpr ⟨rfl, hfs⟩)
  | @fraction fs nonempty decimals =>
      obtain ⟨rest, rfl⟩ := starts
      obtain ⟨hds, hdrop⟩ := digits_of_point (List.forall_mem_nil _) (fs ++ rest)
      have hfs := isPrefix_digits_of_areDigits decimals (List.prefix_append fs rest)
      have hne := digits_ne_nil_of_areDigits nonempty decimals (List.prefix_append fs rest)
      rw [List.nil_append] at hds hdrop
      rw [List.cons_append, mantissa_of_point hdrop, hds, if_neg fun hnil => hne hnil.2]
      exact List.cons_prefix_cons.mpr ⟨rfl, hfs⟩

theorem IsMantissa.eq_mantissa (h : IsMantissa m) (starts : m ++ 'e' :: u <+: t) :
    m = mantissa t := by
  have hm := h.isPrefix_mantissa ((List.prefix_append m _).trans starts)
  obtain ⟨v, hv⟩ := hm
  obtain ⟨rest, hrest⟩ := Number.isPrefix_mantissa t
  rw [← hrest, ← hv, List.append_assoc, List.prefix_append_right_inj] at starts
  cases v with
  | nil => rw [← hv, List.append_nil]
  | cons c v =>
      obtain rfl : 'e' = c := (List.cons_prefix_cons.mp starts).1
      have hmem : 'e' ∈ mantissa t := by simp [← hv]
      rcases (isMantissa_mantissa (List.ne_nil_of_mem hmem)).isDigit_or_point 'e' hmem with
        hdigit | hpoint
      · exact absurd hdigit (by decide)
      · exact absurd hpoint (by decide)

/-! ### Exponents -/

theorem exponent_cons (u : Text) :
    exponent ('e' :: u) =
      if digits (u.drop (sign u).length) = [] then []
      else 'e' :: (sign u ++ digits (u.drop (sign u).length)) := by
  unfold exponent
  simp only
  cases digits (u.drop (sign u).length) with
  | nil => rfl
  | cons d ds => rfl

theorem isExponent_exponent (t : Text) : IsExponent (exponent t) := by
  have hsign : ∀ u, sign u = [] ∨ sign u = ['+'] ∨ sign u = ['-'] := by
    intro u
    unfold sign
    split <;> simp
  by_cases he : t.head? = some 'e'
  · obtain ⟨u, rfl⟩ := List.head?_eq_some_iff.mp he
    rw [exponent_cons]
    split
    · exact .absent
    · rename_i hdigits
      exact .power (hsign u) hdigits (areDigits_digits _)
  · have hnone : exponent t = [] := by
      unfold exponent
      split
      · exact absurd rfl he
      · rfl
    rw [hnone]
    exact .absent

theorem sign_append_digits {s : Text} (sign_cases : s = [] ∨ s = ['+'] ∨ s = ['-']) (nonempty : ds ≠ [])
    (integer : AreDigits ds) (rest : Text) : sign (s ++ (ds ++ rest)) = s := by
  rcases sign_cases with rfl | rfl | rfl
  · obtain ⟨d, ds, rfl⟩ := List.exists_cons_of_ne_nil nonempty
    have hdigit := integer d List.mem_cons_self
    rw [List.nil_append, List.cons_append]
    unfold sign
    split
    · rename_i heq
      rw [(List.cons.inj heq).1] at hdigit
      exact absurd hdigit (by decide)
    · rename_i heq
      rw [(List.cons.inj heq).1] at hdigit
      exact absurd hdigit (by decide)
    · rfl
  · rfl
  · rfl

theorem IsExponent.isPrefix_exponent (h : IsExponent e) (starts : e <+: t) : e <+: exponent t := by
  cases h with
  | absent => exact List.nil_prefix
  | @power s ds hs nonempty integer =>
      obtain ⟨rest, rfl⟩ := starts
      have hds := isPrefix_digits_of_areDigits integer (List.prefix_append ds rest)
      have hne := digits_ne_nil_of_areDigits nonempty integer (List.prefix_append ds rest)
      rw [List.cons_append, List.append_assoc, exponent_cons,
        sign_append_digits hs nonempty integer rest, List.drop_left, if_neg hne]
      exact List.cons_prefix_cons.mpr ⟨rfl, (List.prefix_append_right_inj s).mpr hds⟩

/-! ### Literals -/

theorem IsLiteral.ne_nil (h : IsLiteral t) : t ≠ [] := by
  cases h with
  | mk mantissa _ => exact List.append_ne_nil_of_left_ne_nil mantissa.ne_nil _

theorem literal_eq (t : Text) :
    literal t = if mantissa t = [] then [] else mantissa t ++ exponent (t.drop (mantissa t).length) := by
  unfold literal
  cases mantissa t with
  | nil => rfl
  | cons c m => rfl

theorem isLiteral_literal (nonempty : literal t ≠ []) : IsLiteral (literal t) := by
  rw [literal_eq] at nonempty ⊢
  split at nonempty
  · exact absurd rfl nonempty
  · rename_i hm
    rw [if_neg hm]
    exact .mk (isMantissa_mantissa hm) (isExponent_exponent _)

theorem IsLiteral.isPrefix_literal (h : IsLiteral u) (starts : u <+: t) : u <+: literal t := by
  cases h with
  | @mk m e hmantissa hexponent =>
      have hm := hmantissa.isPrefix_mantissa ((List.prefix_append m e).trans starts)
      have hne : mantissa t ≠ [] := fun hnil =>
        hmantissa.ne_nil (List.prefix_nil.mp (hnil ▸ hm))
      rw [literal_eq, if_neg hne]
      by_cases he : e = []
      · rw [he, List.append_nil]
        exact hm.trans (List.prefix_append _ _)
      · have hwhole : m = mantissa t := by
          cases hexponent with
          | absent => exact absurd rfl he
          | power => exact hmantissa.eq_mantissa starts
        obtain ⟨rest, hrest⟩ := starts
        rw [← hwhole, List.prefix_append_right_inj, ← hrest, List.append_assoc, List.drop_left]
        exact hexponent.isPrefix_exponent (List.prefix_append e rest)

/-- Reading finds the longest literal. -/
theorem literal_eq_iff (nonempty : u ≠ []) : literal t = u ↔ IsLongestLiteral t u := by
  constructor
  · rintro rfl
    exact ⟨isLiteral_literal nonempty, isPrefix_literal t,
      fun other isLiteral starts => (isLiteral.isPrefix_literal starts).length_le⟩
  · intro h
    have hstart := h.isLiteral.isPrefix_literal h.starts
    have hne : literal t ≠ [] := fun hnil => nonempty (List.prefix_nil.mp (hnil ▸ hstart))
    have hle := h.longest _ (isLiteral_literal hne) (isPrefix_literal t)
    exact (hstart.eq_of_length_le hle).symm

theorem length?_eq (t : Text) :
    length? t = if literal t = [] ∨ (t.drop (literal t).length).head?.any isWordChar = true then none
      else some (literal t).length := by
  simp only [length?, Bool.or_eq_true, decide_eq_true_eq, List.length_eq_zero_iff]

/-- A number is the longest literal of its text, and no word character follows it. -/
theorem length?_eq_some_iff {token rest : Text} :
    length? (token ++ rest) = some token.length ↔
      IsLongestLiteral (token ++ rest) token ∧ ∀ c ∈ rest.head?, isWordChar c = false := by
  have hstart : token <+: token ++ rest := List.prefix_append token rest
  rw [length?_eq]
  constructor
  · intro h
    split at h
    · cases h
    · rename_i hnumber
      rw [not_or] at hnumber
      have htoken : literal (token ++ rest) = token :=
        Text.eq_of_isPrefix (isPrefix_literal _) hstart (Option.some.inj h)
      rw [htoken, List.drop_left] at hnumber
      exact ⟨(literal_eq_iff hnumber.1).mp htoken,
        (Option.any_eq_false _ _).mp (Bool.eq_false_iff.mpr hnumber.2)⟩
  · rintro ⟨hlongest, hword⟩
    have hne := hlongest.isLiteral.ne_nil
    have htoken := (literal_eq_iff hne).mpr hlongest
    rw [htoken, List.drop_left, if_neg]
    rw [not_or]
    exact ⟨hne, Bool.eq_false_iff.mp ((Option.any_eq_false _ _).mpr hword)⟩

/-! ### The pattern -/

section pattern

open Pattern

variable {t : Text}

theorem first?_integerPattern :
    integerPattern.first? t = if digits t = [] then none else some (digits t) := by
  cases t with
  | nil => rfl
  | cons c t =>
      cases hdigit : c.isDigit with
      | false =>
          have hdigits : digits (c :: t) = [] :=
            List.takeWhile_cons_of_neg (Bool.eq_false_iff.mp hdigit)
          rw [if_pos hdigits]
          exact first?_andThen_of_none
            (first?_one_of_not fun d hd => Option.some.inj hd ▸ hdigit)
      | true =>
          have hdigits : digits (c :: t) = c :: digits t := List.takeWhile_cons_of_pos hdigit
          rw [hdigits, if_neg (List.cons_ne_nil _ _)]
          exact first?_andThen_of_some (first?_one hdigit) first?_many

/-! ### Mantissas of the pattern -/

theorem digits_dropWhile (t : Text) : digits (t.dropWhile Char.isDigit) = [] := by
  have hhead := List.head?_dropWhile_not Char.isDigit t
  cases hrest : t.dropWhile Char.isDigit with
  | nil => rfl
  | cons c u =>
      rw [hrest] at hhead
      exact List.takeWhile_cons_of_neg (Bool.eq_false_iff.mp hhead)

theorem first?_decimalsPattern (u : Text) :
    decimalsPattern.first? ('.' :: u) = some ('.' :: digits u) := by
  have hpoint : (optional (single '.')).first? ('.' :: u) = some ['.'] := by
    rw [first?_optional, first?_single]
    rfl
  exact first?_andThen_of_some hpoint first?_many

theorem first?_decimalsPattern_of_no_point (other : ∀ u, t ≠ '.' :: u) :
    decimalsPattern.first? t = some (digits t) := by
  have hpoint : (optional (single '.')).first? t = some [] := by
    rw [first?_optional, first?_single_of_not other]
    rfl
  exact first?_andThen_of_some hpoint first?_many

theorem first?_mantissaPattern :
    mantissaPattern.first? t = if mantissa t = [] then none else some (mantissa t) := by
  unfold mantissaPattern
  rw [first?_orElse]
  by_cases hdigits : digits t = []
  · have hinteger : integerPattern.first? t = none := by rw [first?_integerPattern, if_pos hdigits]
    have hdrop : t.dropWhile Char.isDigit = t := by rw [← drop_digits, hdigits]; rfl
    rw [first?_andThen_of_none hinteger, Option.none_or]
    by_cases hpoint : ∃ u, t = '.' :: u
    · obtain ⟨u, rfl⟩ := hpoint
      rw [first?_single_andThen, first?_integerPattern, mantissa_of_point hdrop, hdigits]
      by_cases hu : digits u = [] <;> simp [hu]
    · have hnone := not_exists.mp hpoint
      rw [first?_andThen_of_none (first?_single_of_not hnone),
        mantissa_of_no_point (by rwa [hdrop]), if_pos hdigits]
  · have hinteger : integerPattern.first? t = some (digits t) := by
      rw [first?_integerPattern, if_neg hdigits]
    by_cases hpoint : ∃ u, t.dropWhile Char.isDigit = '.' :: u
    · obtain ⟨u, hu⟩ := hpoint
      have hdecimals := first?_decimalsPattern u
      rw [← hu, ← drop_digits] at hdecimals
      have hmantissa : mantissa t = digits t ++ '.' :: digits u := by
        rw [mantissa_of_point hu, if_neg fun hnil => hdigits hnil.1]
      rw [first?_andThen_of_some hinteger hdecimals, Option.some_or, hmantissa,
        if_neg (List.append_ne_nil_of_left_ne_nil hdigits _)]
    · have hnone := not_exists.mp hpoint
      have hdecimals := first?_decimalsPattern_of_no_point hnone
      rw [digits_dropWhile, ← drop_digits] at hdecimals
      rw [first?_andThen_of_some hinteger hdecimals, Option.some_or, mantissa_of_no_point hnone,
        if_neg hdigits, List.append_nil]

/-! ### Exponents of the pattern -/

theorem sign_cons (c : Char) (u : Text) : sign (c :: u) = if isSign c then [c] else [] := by
  by_cases hplus : c = '+'
  · rw [hplus]
    rfl
  by_cases hminus : c = '-'
  · rw [hminus]
    rfl
  · simp [sign, isSign, hplus, hminus]

/-- Behind a sign without digits the search comes back, and finds that the sign is no digit either. -/
theorem first?_signedPattern :
    signedPattern.first? t =
      if digits (t.drop (sign t).length) = [] then none
      else some (sign t ++ digits (t.drop (sign t).length)) := by
  unfold signedPattern
  rw [first?_andThen]
  cases t with
  | nil => rfl
  | cons c u =>
      cases hsign : isSign c with
      | true =>
          have hways : (optional (one isSign)).ways (c :: u) = [[c], []] := by
            rw [ways, ways, if_pos hsign, List.singleton_append]
          have hback : digits (c :: u) = [] := by
            refine List.takeWhile_cons_of_neg ?_
            rcases Bool.or_eq_true_iff.mp hsign with h | h <;> rw [eq_of_beq h] <;> decide
          rw [hways, sign_cons, if_pos hsign]
          simp only [List.findSome?_cons, List.findSome?_nil, first?_integerPattern, List.length_cons,
            List.length_nil, List.drop_succ_cons, List.drop_zero, hback]
          by_cases hu : digits u = [] <;> simp [hu]
      | false =>
          have hways : (optional (one isSign)).ways (c :: u) = [[]] := by
            rw [ways, ways, if_neg (Bool.eq_false_iff.mp hsign), List.nil_append]
          rw [hways, sign_cons, if_neg (Bool.eq_false_iff.mp hsign), List.findSome?_singleton,
            List.length_nil, List.drop_zero, first?_integerPattern]
          by_cases hu : digits (c :: u) = [] <;> simp [hu]

theorem first?_exponentPattern :
    exponentPattern.first? t = if exponent t = [] then none else some (exponent t) := by
  unfold exponentPattern
  by_cases he : ∃ u, t = 'e' :: u
  · obtain ⟨u, rfl⟩ := he
    rw [first?_single_andThen, first?_signedPattern, exponent_cons]
    by_cases hu : digits (u.drop (sign u).length) = [] <;> simp [hu]
  · have hnone := not_exists.mp he
    have hexponent : exponent t = [] := by
      unfold exponent
      split
      · exact absurd rfl (hnone _)
      · rfl
    rw [first?_andThen_of_none (first?_single_of_not hnone), hexponent]
    rfl

/-! ### What a search finds -/

theorem first?_pattern : pattern.first? t = if literal t = [] then none else some (literal t) := by
  unfold pattern
  by_cases hm : mantissa t = []
  · have hmantissa : mantissaPattern.first? t = none := by rw [first?_mantissaPattern, if_pos hm]
    rw [first?_andThen_of_none hmantissa, literal_eq, if_pos hm, if_pos rfl]
  · have hmantissa : mantissaPattern.first? t = some (mantissa t) := by
      rw [first?_mantissaPattern, if_neg hm]
    have hexponent (u : Text) : (optional exponentPattern).first? u = some (exponent u) := by
      rw [first?_optional, first?_exponentPattern]
      by_cases hu : exponent u = [] <;> simp [hu]
    rw [first?_andThen_of_some hmantissa (hexponent _), literal_eq, if_neg hm,
      if_neg (List.append_ne_nil_of_left_ne_nil hm _)]

example : pattern.first? "1.5e+)".toList = some "1.5".toList := by decide

/-- **The first way is the longest.**  A search for the pattern finds the longest literal that the text
starts with. -/
theorem first?_pattern_eq_some_iff {token : Text} :
    pattern.first? t = some token ↔ IsLongestLiteral t token := by
  rw [first?_pattern]
  constructor
  · intro h
    split at h
    · cases h
    · rename_i hne
      obtain rfl := Option.some.inj h
      exact (literal_eq_iff hne).mp rfl
  · intro h
    have hne := h.isLiteral.ne_nil
    rw [(literal_eq_iff hne).mpr h, if_neg hne]

end pattern

end BlockLayout.Number

namespace BlockLayout.Mode

/-! ### Reading a number -/

variable {before : Option Char} {c : Char} {t input : Text} {r : Reading Mode} {n : Nat} {next : Mode}

theorem BaseReading.of_number (h : BaseReading before input r) (number : r.cls = .number) :
    isAfterWord before = false ∧ ∃ n, Number.length? input = some n ∧ r = ⟨.number, n, .base⟩ := by
  cases h with
  | number _ side hn => exact ⟨side, _, hn, rfl⟩
  | word _ _ _ _ hword => exact absurd number (Word.ne_of_classOf? hword (by decide))
  | char =>
      simp only at number
      split at number
      · cases number
      · cases number
  | _ => cases number

/-- What a number starts with. -/
def OpensNumber (c : Char) : Prop := c.isDigit = true ∨ c = '.'

theorem isWordChar_of_isDigit (digit : c.isDigit = true) : isWordChar c = true := by
  unfold isWordChar Char.isAlphanum
  rw [digit, Bool.or_true, Bool.true_or]

theorem OpensNumber.isOrdinary (opens : OpensNumber c) : IsOrdinary c := by
  rcases opens with digit | rfl
  · refine ⟨?_, ?_, isOperatorChar_of_isWordChar (isWordChar_of_isDigit digit)⟩
    · rintro rfl
      exact absurd digit (by decide)
    · rintro rfl
      exact absurd digit (by decide)
  · exact ⟨by decide, by decide, by decide⟩

theorem OpensNumber.readWord? (opens : OpensNumber c) (before : Option Char) (t : Text) :
    Mode.readWord? before (c :: t) = none := by
  cases hread : Mode.readWord? before (c :: t) with
  | none => rfl
  | some r =>
      rcases readWord?_eq_some hread with ⟨-, ⟨u, hu⟩, -⟩ | ⟨-, -, cls, hcls, -⟩
      · obtain rfl : 'n' = c := (List.cons.inj hu).1
        rcases opens with digit | point
        · exact absurd digit (by decide)
        · exact absurd point (by decide)
      · obtain ⟨hword, hdigit⟩ := Word.head_of_reserved hcls
        rcases opens with digit | rfl
        · rw [digit] at hdigit
          cases hdigit
        · exact absurd hword (by decide)

theorem any_isDigit_of_length? (number : Number.length? ('.' :: t) = some n) :
    t.head?.any Char.isDigit = true := by
  cases hdigit : t.head?.any Char.isDigit with
  | true => rfl
  | false =>
      have hdigits : Number.digits t = [] := by
        cases t with
        | nil => rfl
        | cons d u => exact List.takeWhile_cons_of_neg (Bool.eq_false_iff.mp hdigit)
      have hmantissa : Number.mantissa ('.' :: t) = [] := by
        rw [Number.mantissa_of_point (u := t) rfl]
        exact if_pos ⟨rfl, hdigits⟩
      have hliteral : Number.literal ('.' :: t) = [] := by
        rw [Number.literal_eq, if_pos hmantissa]
      rw [Number.length?_eq, if_pos (Or.inl hliteral)] at number
      cases number

theorem OpensNumber.readBase (opens : OpensNumber c) (before : Option Char) (t : Text) :
    Mode.readBase before (c :: t) =
      (readNumber? before (c :: t)).getD
        ⟨if isPunctuation c then .punctuation c else .plain, 1, .base⟩ := by
  rw [readBase_of_isOrdinary before t opens.isOrdinary, opens.readWord? before t, Option.or_none]

theorem opensNumber_of_length? (number : Number.length? (c :: t) = some n) : OpensNumber c := by
  cases hdigit : c.isDigit with
  | true => exact Or.inl hdigit
  | false =>
      refine Or.inr (Decidable.byContradiction fun hpoint => ?_)
      rw [Number.length?_eq_none t hdigit hpoint] at number
      cases number

/-- The reading of a number. -/
theorem readBase_eq_number_iff : readBase before input = ⟨.number, n, next⟩ ↔
    isAfterWord before = false ∧ Number.length? input = some n ∧ next = base := by
  cases input with
  | nil =>
      constructor
      · intro h
        cases h
      · rintro ⟨-, h, -⟩
        cases h
  | cons c t =>
      constructor
      · intro h
        have hreading := baseReading before c t
        rw [h] at hreading
        obtain ⟨side, n', hn, heq⟩ := hreading.of_number rfl
        cases heq
        exact ⟨side, hn, rfl⟩
      · rintro ⟨side, hn, rfl⟩
        have hnumber : readNumber? before (c :: t) = some ⟨.number, n, .base⟩ := by
          unfold readNumber?
          rw [side, hn]
          rfl
        rw [(opensNumber_of_length? hn).readBase, hnumber, Option.getD_some]

end BlockLayout.Mode
