import BlockLayout.Proofs.Cursor.OpenModes
import BlockLayout.Proofs.Token.Bodies
import BlockLayout.Proofs.Token.Literals

/-! # Numbers and strings at a cursor

A call in ordinary code takes a number exactly if the character before the cursor belongs to no word and
the longest literal that the rest of the line starts with ends where no word character follows.  A
shorter literal is never taken in its place: if the longest is refused, a digit is taken alone, as plain
text, and a point as a punctuation mark.

Main statements: `number_is_longest_literal`, `string_ends_at_free_quote`. -/

namespace BlockLayout

namespace Cursor

variable {c : Cursor} {before rest token : Text} {next : Mode}

theorem StandsAt.takes_number_iff (stands : c.StandsAt before rest) :
    c.Takes .base .number token next ↔
      (∀ b ∈ before.getLast?, isWordChar b = false) ∧ Number.IsLongestLiteral rest token ∧
        (∀ d ∈ (rest.drop token.length).head?, isWordChar d = false) ∧ next = .base := by
  rw [stands.takes_iff, Mode.read, Mode.readBase_eq_number_iff]
  constructor
  · rintro ⟨⟨tail, rfl⟩, side, hn, rfl⟩
    obtain ⟨hlongest, hword⟩ := Number.length?_eq_some_iff.mp hn
    rw [List.drop_left]
    exact ⟨(Option.any_eq_false _ _).mp side, hlongest, hword, rfl⟩
  · rintro ⟨side, hlongest, hword, rfl⟩
    obtain ⟨tail, rfl⟩ := hlongest.starts
    rw [List.drop_left] at hword
    exact ⟨hlongest.starts, (Option.any_eq_false _ _).mpr side,
      Number.length?_eq_some_iff.mpr ⟨hlongest, hword⟩, rfl⟩

theorem StandsAt.takes_alone {d : Char} {t : Text} (stands : c.StandsAt before (d :: t))
    (opens : Mode.OpensNumber d) (refused : ¬ ∃ token next, c.Takes .base .number token next) :
    c.Takes .base (if Mode.isPunctuation d then .punctuation d else .plain) [d] .base := by
  rw [stands.takes_iff, Mode.read, opens.readBase]
  refine ⟨⟨t, rfl⟩, ?_⟩
  cases hread : Mode.readNumber? before.getLast? (d :: t) with
  | none => rfl
  | some r =>
      obtain ⟨side, n, hn, rfl⟩ := Mode.readNumber?_eq_some hread
      have hlength : ((d :: t).take n).length = n :=
        List.length_take_of_le (Number.length?_bounds hn).2
      have htakes : c.Takes .base .number ((d :: t).take n) .base := by
        rw [stands.takes_iff, Mode.read, Mode.readBase_eq_number_iff, hlength]
        exact ⟨List.take_prefix n _, side, hn, rfl⟩
      exact absurd ⟨_, _, htakes⟩ refused

/-- **Numbers are longest literals.**  A call in ordinary code takes a number exactly if the character
before belongs to no word and the longest literal of the rest ends where no word character follows.
Where it takes none, a digit, or a point in front of a digit, is taken alone.  The longest literal is
also what a search for the pattern of literals finds. -/
theorem number_is_longest_literal (stands : c.StandsAt before rest) :
    (∀ token next, c.Takes .base .number token next ↔
      (∀ b ∈ before.getLast?, isWordChar b = false) ∧ Number.IsLongestLiteral rest token ∧
        (∀ d ∈ (rest.drop token.length).head?, isWordChar d = false) ∧ next = .base) ∧
    ((¬ ∃ token next, c.Takes .base .number token next) →
      (∀ digit t, rest = digit :: t → digit.isDigit = true → c.Takes .base .plain [digit] .base) ∧
      (∀ digit t, rest = '.' :: digit :: t → digit.isDigit = true →
        c.Takes .base (.punctuation '.') ['.'] .base)) ∧
    (∀ token, Number.pattern.first? rest = some token ↔ Number.IsLongestLiteral rest token) := by
  refine ⟨fun token next => stands.takes_number_iff, fun refused => ⟨?_, ?_⟩,
    fun token => Number.first?_pattern_eq_some_iff⟩
  · rintro digit t rfl hdigit
    have halone := stands.takes_alone (Or.inl hdigit) refused
    rwa [Mode.isPunctuation_of_isWordChar (Mode.isWordChar_of_isDigit hdigit)] at halone
  · rintro digit t rfl -
    exact stands.takes_alone (Or.inr rfl) refused

/-- Behind a space, a number with an exponent; and a point and a digit that are none, for a letter
follows. -/
theorem number_with_exponent :
    let c : Cursor := ⟨"x 1.5e+3)".toList, 2, 0, 4⟩
    let d : Cursor := ⟨"x .5e".toList, 2, 0, 4⟩
    c.StandsAt "x ".toList "1.5e+3)".toList ∧ d.StandsAt "x ".toList ".5e".toList ∧
      c.Takes .base .number "1.5e+3".toList .base ∧ d.Takes .base (.punctuation '.') ['.'] .base := by
  intro c d
  have hc : c.StandsAt "x ".toList "1.5e+3)".toList := ⟨by decide, by decide⟩
  have hd : d.StandsAt "x ".toList ".5e".toList := ⟨by decide, by decide⟩
  have hnumber := number_is_longest_literal hc
  have hpoint := number_is_longest_literal hd
  have hspace : ∀ b ∈ "x ".toList.getLast?, isWordChar b = false :=
    (Option.any_eq_false _ _).mp (by decide)
  have hclosing : ∀ d ∈ ("1.5e+3)".toList.drop 6).head?, isWordChar d = false :=
    (Option.any_eq_false _ _).mp (by decide)
  refine ⟨hc, hd, ?_, ?_⟩
  · exact (hnumber.1 _ _).mpr ⟨hspace, (hnumber.2.2 _).mp (by decide), hclosing, rfl⟩
  · refine (hpoint.2.1 ?_).2 '5' ['e'] rfl (by decide)
    rintro ⟨token, next, htakes⟩
    obtain ⟨-, hlongest, hword, -⟩ := (hpoint.1 token next).mp htakes
    have hfirst : Number.pattern.first? ".5e".toList = some ".5".toList := by decide
    obtain rfl := Option.some.inj (hfirst.symm.trans ((hpoint.2.2 token).mpr hlongest))
    exact absurd (hword 'e' rfl) (by decide)

end Cursor

/-! ## How far a string reaches

A string ends with its first free quote, one that an even run of backslashes stands before.  Without a
free quote it reaches to the end of the line, and goes on with the next line if the line ends in an odd
run of backslashes (`Mode.Reaches`).  Any character may be the quote, a backslash too. -/

/-- The quote stands at the place, and the run of backslashes before it, as far as the text goes, is
even. -/
def Text.FreeQuoteAt (quote : Char) (t : Text) (n : Nat) : Prop :=
  t[n]? = some quote ∧ ¬ Escapes (t.take n)

instance (quote : Char) (t : Text) (n : Nat) : Decidable (t.FreeQuoteAt quote n) :=
  inferInstanceAs (Decidable (_ ∧ ¬ _))

namespace Mode

open Text (Escapes FreeQuoteAt QuotesEscaped IsStringBody escapes_nil)

/-- Of a string that is read on from the start of `rest`, the text is `token`, and the mode behind it is
`next`. -/
structure Reaches (quote : Char) (rest token : Text) (next : Mode) : Prop where
  /-- The first free quote is the last character of the string. -/
  closed : ∀ n, rest.FreeQuoteAt quote n → (∀ m < n, ¬ rest.FreeQuoteAt quote m) →
    token = rest.take (n + 1) ∧ next = base
  /-- Without a free quote the string has the whole rest, and is left open by an odd run of backslashes
  at its end. -/
  unclosed : (∀ n, ¬ rest.FreeQuoteAt quote n) →
    token = rest ∧ next = if Escapes rest then string quote else base

theorem stringExtent_of_freeQuoteAt {quote : Char} {t : Text} {n : Nat}
    (free : t.FreeQuoteAt quote n) (first : ∀ m < n, ¬ t.FreeQuoteAt quote m) :
    stringExtent quote false t = (n + 1, base) := by
  obtain ⟨hquote, hfree⟩ := free
  obtain ⟨hn, rfl⟩ := List.getElem?_eq_some_iff.mp hquote
  have hsplit : t = t.take n ++ t[n] :: t.drop (n + 1) := by
    rw [← List.drop_eq_getElem_cons hn, List.take_append_drop]
  have hlength : (t.take n).length = n := List.length_take_of_le (Nat.le_of_lt hn)
  have hbody : IsStringBody t[n] (t.take n) := by
    refine ⟨fun m hm hquote' => Decidable.byContradiction fun hescape => ?_, hfree⟩
    rw [hlength] at hm
    rw [List.getElem?_take_of_lt hm] at hquote'
    rw [List.take_take, Nat.min_eq_left (Nat.le_of_lt hm)] at hescape
    exact first m hm ⟨hquote', hescape⟩
  have hextent := stringExtent_of_isStringBody hbody (t.drop (n + 1))
  rwa [← hsplit, hlength] at hextent

theorem stringExtent_of_no_freeQuoteAt {quote : Char} {t : Text}
    (none : ∀ n, ¬ t.FreeQuoteAt quote n) :
    stringExtent quote false t = (t.length, if Escapes t then string quote else base) := by
  have hescaped : QuotesEscaped quote [] t :=
    fun n hquote => Decidable.byContradiction fun hfree => none n ⟨hquote, hfree⟩
  have hextent := stringExtent_unclosed hescaped
  rwa [decide_eq_false escapes_nil] at hextent

theorem reaches_stringExtent (quote : Char) (rest : Text) :
    Reaches quote rest (rest.take (stringExtent quote false rest).1)
      (stringExtent quote false rest).2 := by
  constructor
  · intro n free first
    rw [stringExtent_of_freeQuoteAt free first]
    exact ⟨rfl, rfl⟩
  · intro none
    rw [stringExtent_of_no_freeQuoteAt none, List.take_length]
    exact ⟨rfl, rfl⟩

theorem length_take_stringExtent (quote : Char) (rest : Text) :
    (rest.take (stringExtent quote false rest).1).length = (stringExtent quote false rest).1 :=
  List.length_take_of_le (stringExtent_le quote false rest)

end Mode

namespace Cursor

variable {c : Cursor} {before rest : Text}

/-- **Strings end at their first free quote.**  With a string of any quote open, a call takes the rest of
the line up to the first free quote and leaves ordinary code; if there is none it takes all of the rest,
and leaves the string open exactly if the rest ends in an odd run of backslashes.  Behind a double quote
that a call in ordinary code starts with, the same holds with a double quote for the quote. -/
theorem string_ends_at_free_quote :
    (∀ quote, c.StandsAt before rest →
      ∃ token next, c.Takes (.string quote) .string token next ∧
        Mode.Reaches quote rest token next) ∧
    (c.StandsAt before ('"' :: rest) →
      ∃ token next, c.Takes .base .string ('"' :: token) next ∧ Mode.Reaches '"' rest token next) := by
  constructor
  · intro quote stands
    refine ⟨_, _, stands.takes_iff.mpr ⟨List.take_prefix _ rest, ?_⟩,
      Mode.reaches_stringExtent quote rest⟩
    simp only [Mode.read, Mode.readString, Mode.length_take_stringExtent, Nat.zero_add]
  · intro stands
    refine ⟨_, _, stands.takes_iff.mpr
      ⟨List.cons_prefix_cons.mpr ⟨rfl, List.take_prefix _ rest⟩, ?_⟩, Mode.reaches_stringExtent '"' rest⟩
    rw [List.length_cons, Mode.length_take_stringExtent, Nat.add_comm]
    rfl

/-- Behind two bytes, a string with an escaped quote in it that ends behind two backslashes; and one from
the line before, whose quote is a backslash. -/
theorem string_ends_behind_backslashes :
    let c : Cursor := ⟨"é\"a\\\"b\\\\\" \"".toList, 2, 0, 4⟩
    let d : Cursor := ⟨"a\"\\\\".toList, 1, 0, 4⟩
    c.StandsAt "é".toList "\"a\\\"b\\\\\" \"".toList ∧ d.StandsAt "a".toList "\"\\\\".toList ∧
      c.Takes .base .string "\"a\\\"b\\\\\"".toList .base ∧
      d.Takes (.string '\\') .string "\"\\".toList .base := by
  intro c d
  have hc : c.StandsAt "é".toList "\"a\\\"b\\\\\" \"".toList := ⟨by decide, by decide⟩
  have hd : d.StandsAt "a".toList "\"\\\\".toList := ⟨by decide, by decide⟩
  obtain ⟨token, next, htakes, hreaches⟩ := string_ends_at_free_quote.2 hc
  obtain ⟨rfl, rfl⟩ := hreaches.closed 6 (by decide) (by decide)
  obtain ⟨token, next, htakes', hreaches'⟩ := string_ends_at_free_quote.1 '\\' hd
  obtain ⟨rfl, rfl⟩ := hreaches'.closed 1 (by decide) (by decide)
  exact ⟨hc, hd, htakes, htakes'⟩

end Cursor

end BlockLayout
