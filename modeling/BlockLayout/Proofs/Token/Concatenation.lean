import BlockLayout.Proofs.Token.Bodies
import BlockLayout.Proofs.Token.Lookahead
import BlockLayout.Proofs.Token.Reserved
import BlockLayout.Proofs.Token.Cuts

/-! # Reading two texts in a row

A blank is a break: no number, no word and no operator looks past it, and what is read behind it does
not depend on what stands before it.  Only a comment or a string can go on over a blank.  So a text
that starts with a blank is read alike by itself and behind a text after which no comment and no string
goes on (`Mode.LastEndsWithLine`).

Main statement: `visibleLexemes_append`. -/

namespace BlockLayout

open Text (IsStringBody)

/-! ### Blanks -/

theorem isBreak_of_isBlank {c : Char} (h : Text.isBlank c = true) : isBreak c = true := by
  have hclass : ∀ {p : Char → Bool}, (∀ d, p d = true → Text.isBlank d = false) → p c = false := by
    intro p visible
    refine Bool.eq_false_iff.mpr fun hc => ?_
    rw [visible c hc] at h
    cases h
  have hoperator : ∀ d, Mode.isOperatorChar d = true → Text.isBlank d = false := by
    intro d hd
    have hnone : ['+', '-', '*', '<', '>', '='].any Text.isBlank = false := by decide
    exact Bool.eq_false_iff.mpr (List.any_eq_false.mp hnone d (of_decide_eq_true hd))
  have hpoint : ∀ d, (d == '.') = true → Text.isBlank d = false := by
    intro d hd
    obtain rfl := beq_iff_eq.mp hd
    decide
  unfold isBreak
  rw [hclass fun _ => Word.isBlank_of_isWordChar, hclass hoperator, bne, hclass hpoint]
  rfl

namespace Text

variable {t : Text} (blank : t.leadingBlanks ≠ [])

include blank

theorem startsWithBreak_of_blank : t.StartsWithBreak := by
  obtain ⟨c, u, rfl, hc⟩ := exists_blank blank
  intro d hd
  obtain rfl : c = d := Option.some.inj hd
  exact isBreak_of_isBlank hc

theorem head?_ne_of_blank {d : Char} (visible : isBlank d = false) : t.head? ≠ some d := by
  obtain ⟨c, u, rfl, hc⟩ := exists_blank blank
  intro hd
  obtain rfl : c = d := Option.some.inj hd
  rw [visible] at hc
  cases hc

end Text

namespace Mode

theorem visibleFrom_of_blank {b : Text} (blank : b.leadingBlanks ≠ []) (mode : Mode)
    (before before' : Option Char) : visibleFrom mode before b = visibleFrom mode before' b := by
  obtain ⟨c, u, rfl, hc⟩ := Text.exists_blank blank
  rw [visibleFrom_blank hc, visibleFrom_blank hc]

/-! ### Comments and strings -/

theorem commentExtent_append_of_base {star : Bool} {t : Text}
    (ended : (commentExtent star t).2 = base) (b : Text) :
    commentExtent star (t ++ b) = commentExtent star t := by
  induction t generalizing star with
  | nil => cases ended
  | cons c t ih =>
      rw [List.cons_append]
      unfold commentExtent at ended ⊢
      by_cases hend : (star && c == '/') = true
      · rw [if_pos hend, if_pos hend]
      · rw [if_neg hend] at ended
        rw [if_neg hend, if_neg hend, ih ended]

/-- The text, which stands behind the first quote of a string, is a body and the quote that ends it. -/
def IsClosed (quote : Char) (t : Text) : Prop :=
  t.getLast? = some quote ∧ IsStringBody quote t.dropLast

instance (quote : Char) (t : Text) : Decidable (IsClosed quote t) :=
  inferInstanceAs (Decidable (_ ∧ _))

theorem stringExtent_of_isClosed {quote : Char} {t : Text} (closed : IsClosed quote t) (b : Text) :
    stringExtent quote false (t ++ b) = (t.length, base) := by
  obtain ⟨body, rfl⟩ := List.getLast?_eq_some_iff.mp closed.1
  have hbody : IsStringBody quote body := by
    have := closed.2
    rwa [List.dropLast_concat] at this
  rw [List.append_assoc, List.length_append]
  exact stringExtent_of_isStringBody hbody b

/-- A token with the text, read in the mode, is a comment or a string that only the end of its line
ends. -/
def EndsWithLine : Mode → Text → Prop
  | base, text => lineCommentMark <+: text ∨ text.head? = some '"' ∧ ¬ IsClosed '"' text.tail
  | blockComment, _ => False
  | string quote, text => ¬ IsClosed quote text

/-- Of tokens the first of which is read in the mode, and the others in ordinary code, the last is a
comment or a string that only the end of its line ends. -/
def LastEndsWithLine : Mode → List Lexeme → Prop
  | _, [] => False
  | mode, [l] => EndsWithLine mode l.text
  | _, _ :: l :: ls => LastEndsWithLine base (l :: ls)

instance (mode : Mode) (text : Text) : Decidable (EndsWithLine mode text) :=
  match mode with
  | base => inferInstanceAs (Decidable (_ ∨ _))
  | blockComment => inferInstanceAs (Decidable False)
  | string _ => inferInstanceAs (Decidable (¬ _))

instance decidableLastEndsWithLine : (mode : Mode) → (lexemes : List Lexeme) →
    Decidable (LastEndsWithLine mode lexemes)
  | _, [] => inferInstanceAs (Decidable False)
  | mode, [l] => inferInstanceAs (Decidable (EndsWithLine mode l.text))
  | _, _ :: l :: ls => decidableLastEndsWithLine base (l :: ls)

/-! ### One token -/

section token

variable {before : Option Char} {cls : TokenClass} {token rest b : Text}

theorem base_of_rest {mode next : Mode}
    (read : mode.read before (token ++ rest) = ⟨cls, token.length, next⟩) (left : rest ≠ []) :
    next = base := by
  have hmode := mode_read mode before (token ++ rest)
  rw [read] at hmode
  refine hmode.resolve_right fun whole => left ?_
  exact List.append_right_eq_self.mp ((List.prefix_append token rest).eq_of_length whole).symm

theorem readString_append_of_ended {quote : Char} (opened : Nat)
    (read : (readString quote opened (token ++ rest)).length = opened + token.length)
    (ended : rest = [] → IsClosed quote token) (b : Text) :
    readString quote opened (token ++ rest ++ b) = readString quote opened (token ++ rest) := by
  by_cases hrest : rest = []
  · subst hrest
    have hclosed := stringExtent_of_isClosed (ended rfl)
    have hself := hclosed []
    rw [List.append_nil] at hself
    unfold readString
    rw [List.append_nil, hclosed, hself]
  · rw [List.append_assoc]
    exact readString_append hrest (Nat.le_of_eq read) (rest ++ b)

theorem readComment_append_of_base (opened : Nat) {t : Text}
    (ended : (readComment opened t).state = base) (b : Text) :
    readComment opened (t ++ b) = readComment opened t := by
  unfold readComment at ended ⊢
  rw [commentExtent_append_of_base ended]

theorem readBase_slash_append (blank : b.leadingBlanks ≠ []) {t : Text}
    (ended : (readBase before ('/' :: t)).state = base) (noLine : t.head? ≠ some '/') :
    readBase before ('/' :: t ++ b) = readBase before ('/' :: t) := by
  by_cases hstar : t.head? = some '*'
  · obtain ⟨u, rfl⟩ := List.head?_eq_some_iff.mp hstar
    exact readComment_append_of_base 2 ended b
  · have hself := readBase_of_slash before t hstar noLine
    rw [List.cons_append, hself]
    cases t with
    | nil =>
        exact readBase_of_slash before _ (Text.head?_ne_of_blank blank (by decide))
          (Text.head?_ne_of_blank blank (by decide))
    | cons c t => exact readBase_of_slash before _ hstar noLine

theorem readBase_append_of_blank (blank : b.leadingBlanks ≠ []) (nonempty : token ≠ [])
    (read : readBase before (token ++ rest) = ⟨cls, token.length, base⟩)
    (ended : rest = [] → ¬ EndsWithLine base token) :
    readBase before (token ++ rest ++ b) = readBase before (token ++ rest) := by
  obtain ⟨c, u, rfl⟩ := List.exists_cons_of_ne_nil nonempty
  have hlength : (readBase before (c :: u ++ rest)).length = u.length + 1 :=
    congrArg Reading.length read
  by_cases hquote : c = '"'
  · subst hquote
    refine readString_append_of_ended 1 ?_ ?_ b
    · rwa [Nat.add_comm] at hlength
    · exact fun hrest => Decidable.byContradiction fun hopen => ended hrest (Or.inr ⟨rfl, hopen⟩)
  by_cases hslash : c = '/'
  · subst hslash
    refine readBase_slash_append blank (congrArg Reading.state read) fun hline => ?_
    obtain ⟨t, ht⟩ := List.head?_eq_some_iff.mp hline
    have hsplit : '/' :: u ++ rest = '/' :: '/' :: t := congrArg (List.cons '/') ht
    have hall : (readBase before ('/' :: '/' :: t)).length = t.length + 2 := rfl
    have htotal := congrArg List.length hsplit
    rw [hsplit, hall] at hlength
    rw [List.length_append, List.length_cons, List.length_cons, List.length_cons] at htotal
    have hrest : rest = [] := List.length_eq_zero_iff.mp (by omega)
    rw [hrest, List.append_nil] at hsplit
    exact ended hrest (Or.inl ⟨t, hsplit.symm⟩)
  · exact readBase_append before (u ++ rest) hquote hslash (Text.startsWithBreak_of_blank blank)

/-- A token that is over is the same in front of a blank. -/
theorem read_append_of_blank {mode : Mode} (blank : b.leadingBlanks ≠ []) (nonempty : token ≠ [])
    (read : mode.read before (token ++ rest) = ⟨cls, token.length, base⟩)
    (ended : rest = [] → ¬ EndsWithLine mode token) :
    mode.read before (token ++ rest ++ b) = ⟨cls, token.length, base⟩ := by
  rw [← read]
  cases mode with
  | base => exact readBase_append_of_blank blank nonempty read ended
  | blockComment => exact readComment_append_of_base 0 (congrArg Reading.state read) b
  | string quote =>
      refine readString_append_of_ended 0 ?_ ?_ b
      · rw [Nat.zero_add]
        exact congrArg Reading.length read
      · exact fun hrest => Decidable.not_not.mp (ended hrest)

end token

/-! ### All tokens -/

theorem not_lastEndsWithLine_of_cons {mode : Mode} {l : Lexeme} {lexemes : List Lexeme}
    (h : ¬ LastEndsWithLine mode (l :: lexemes)) : ¬ LastEndsWithLine base lexemes := by
  cases lexemes with
  | nil => exact id
  | cons l' ls => exact h

/-- A run that leaves ordinary code, the last token over, is followed by the run over a text that starts
with a blank. -/
theorem Sees.append_blank {mode last : Mode} {before : Option Char} {a b : Text}
    {lexemes : List Lexeme} (run : Sees mode before a lexemes last) (blank : b.leadingBlanks ≠ [])
    (ordinary : last = base) (ended : ¬ LastEndsWithLine mode lexemes) :
    visibleFrom mode before (a ++ b) =
      (lexemes ++ (base.visibleLexemes b).1, (base.visibleLexemes b).2) := by
  induction run with
  | nil mode before =>
      subst ordinary
      exact visibleFrom_of_blank blank base before none
  | @blank mode last before c t lexemes hc tail ih =>
      rw [List.cons_append, visibleFrom_blank hc]
      exact ih ordinary ended
  | @token mode next last before cls token rest lexemes nonempty visible read tail ih =>
      have hover : next = base ∧ (rest = [] → ¬ EndsWithLine mode token) := by
        by_cases hrest : rest = []
        · subst hrest
          obtain ⟨rfl, rfl⟩ := Prod.mk.inj (visibleFrom_nil.symm.trans tail.visibleFrom_eq)
          exact ⟨ordinary, fun _ => ended⟩
        · exact ⟨base_of_rest read hrest, fun h => absurd h hrest⟩
      obtain ⟨rfl, hended⟩ := hover
      have hread := read_append_of_blank blank nonempty read hended
      rw [List.append_assoc] at hread ⊢
      rw [visibleFrom_token nonempty visible hread,
        ih ordinary (not_lastEndsWithLine_of_cons ended)]
      rfl

/-- **Tokens do not reach over blanks.**  From any mode, take a text that leaves ordinary code and whose
last token is neither a comment to the end of the line nor a string without its quote.  In front of a
text that starts with a blank it gives the tokens it gives by itself, and behind them come the tokens of
the other text in ordinary code, which also gives the mode at the end. -/
theorem visibleLexemes_append (mode : Mode) (a b : Text) (blank : b.leadingBlanks ≠ [])
    (ordinary : (mode.visibleLexemes a).2 = .base)
    (ended : ¬ LastEndsWithLine mode (mode.visibleLexemes a).1) :
    mode.visibleLexemes (a ++ b) =
      ((mode.visibleLexemes a).1 ++ (base.visibleLexemes b).1, (base.visibleLexemes b).2) :=
  (sees_visibleFrom mode none a).append_blank blank ordinary ended

/-- A string from the line before and a number with a point, in front of a tab and a number. -/
theorem visibleLexemes_append_behind_number :
    let a : Text := "x\" 3.".toList
    let b : Text := "\t5".toList
    b.leadingBlanks ≠ [] ∧ ((string '"').visibleLexemes a).2 = base ∧
      ¬ LastEndsWithLine (string '"') ((string '"').visibleLexemes a).1 ∧
      (string '"').visibleLexemes (a ++ b) =
        ([⟨.string, "x\"".toList⟩, ⟨.number, "3.".toList⟩, ⟨.number, "5".toList⟩], base) := by
  intro a b
  have ha : (string '"').visibleLexemes a =
      ([⟨.string, "x\"".toList⟩, ⟨.number, "3.".toList⟩], base) := by
    have hnumber : Sees base (some ' ') ("3.".toList ++ []) [⟨.number, "3.".toList⟩] base :=
      .token (by decide) (Text.startsVisible_cons.mpr rfl) rfl (.nil base _)
    have hstring : Sees (string '"') none ("x\"".toList ++ " 3.".toList)
        [⟨.string, "x\"".toList⟩, ⟨.number, "3.".toList⟩] base :=
      .token (by decide) (Text.startsVisible_cons.mpr rfl) rfl (.blank rfl hnumber)
    exact hstring.visibleFrom_eq
  have hb : base.visibleLexemes b = ([⟨.number, "5".toList⟩], base) := by
    have hnumber : Sees base (some '\t') ("5".toList ++ []) [⟨.number, "5".toList⟩] base :=
      .token (by decide) (Text.startsVisible_cons.mpr rfl) rfl (.nil base _)
    have htab : Sees base none b [⟨.number, "5".toList⟩] base := .blank rfl hnumber
    exact htab.visibleFrom_eq
  have blank : b.leadingBlanks ≠ [] := by decide
  have ordinary : ((string '"').visibleLexemes a).2 = base := congrArg Prod.snd ha
  have ended : ¬ LastEndsWithLine (string '"') ((string '"').visibleLexemes a).1 := by
    rw [ha]
    decide
  have happend := visibleLexemes_append (string '"') a b blank ordinary ended
  rw [ha, hb] at happend
  exact ⟨blank, ordinary, ended, happend⟩

end Mode

end BlockLayout
