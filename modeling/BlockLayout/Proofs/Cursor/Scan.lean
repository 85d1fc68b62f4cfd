import BlockLayout.Cursor.Scan
import BlockLayout.Proofs.Cursor.Standing
import BlockLayout.Proofs.Token.Literals

/-! # Reading at a cursor and reading a text

The steps by which a cursor reads a token take it over the text that `Mode.read` gives the token, and to
the mode that it gives (`readMode_eq`); the same for tokens of a document (`readToken_eq`).  `Gives` says
what a run of steps answers and where it ends; there is one lemma of that form for each part of reading,
about a cursor that stands before a text.  Going on and going back cancel where a number is refused and
where a character was only looked at. -/

namespace BlockLayout

namespace Scan

variable {α β : Type} {s s' s'' : Cursor × Mode} {a : α} {b : β}

/-- From the cursor and the mode of `s` the steps answer `a` and come to those of `s'`. -/
def Gives (x : Scan α) (s : Cursor × Mode) (a : α) (s' : Cursor × Mode) : Prop :=
  x.run.run s = (.ok a, s')

theorem Gives.bind {x : Scan α} {f : α → Scan β} (first : Gives x s a s')
    (second : Gives (f a) s' b s'') : Gives (x >>= f) s b s'' := by
  unfold Gives at *
  rw [ExceptT.run_bind, StateT.run_bind, first]
  exact second

theorem Gives.map {x : Scan α} (f : α → β) (first : Gives x s a s') : Gives (f <$> x) s (f a) s' := by
  rw [map_eq_pure_bind]
  exact first.bind rfl

variable {c moved : Cursor} {mode : Mode} {before t : Text} {d : Char}

theorem gives_look {f : Cursor → Except Cursor.Fault α} (seen : f c = .ok a) :
    Gives (look f) (c, mode) a (c, mode) := by
  change (MonadExcept.ofExcept (f c) : Scan α).run.run (c, mode) = _
  rw [seen]
  rfl

theorem gives_take {f : Cursor → Except Cursor.Fault (α × Cursor)} (taken : f c = .ok (a, moved)) :
    Gives (take f) (c, mode) a (moved, mode) :=
  (gives_look taken).bind rfl

/-! ### Characters -/

theorem standsAt_next (stands : c.StandsAt before (d :: t)) :
    (c.pass [d]).StandsAt (before ++ [d]) t := by
  have hfirst : c.StandsAt before ([d] ++ t) := stands
  exact hfirst.standsAt_pass

theorem gives_next (stands : c.StandsAt before (d :: t)) :
    Gives next (c, mode) (some d) (c.pass [d], mode) :=
  gives_take (stands.takeIf_eq _)

theorem gives_next_of_end (stands : c.StandsAt before []) : Gives next (c, mode) none (c, mode) := by
  refine gives_take ((stands.takeIf_eq _).trans ?_)
  rw [List.head?_nil, Option.filter_none, Option.toList_none, stands.pass_nil]

theorem gives_takeChar (stands : c.StandsAt before (d :: t)) :
    Gives (takeChar d) (c, mode) true (c.pass [d], mode) := by
  have htake : c.takeIf (· == d) = .ok (some d, c.pass [d]) := by
    rw [stands.takeIf_eq, List.head?_cons, Option.filter_some, if_pos (beq_self_eq_true d)]
    rfl
  exact (gives_take (f := (·.takeIf (· == d))) htake).map Option.isSome

theorem gives_takeChar_of_ne (stands : c.StandsAt before t) (other : t.head? ≠ some d) :
    Gives (takeChar d) (c, mode) false (c, mode) := by
  have htake : c.takeIf (· == d) = .ok (none, c) := by
    have hnone : t.head?.filter (· == d) = none := by
      rw [Option.filter_eq_none_iff]
      exact fun char hchar heq => other (hchar.trans (congrArg some (eq_of_beq heq)))
    rw [stands.takeIf_eq, hnone, Option.toList_none, stands.pass_nil]
  exact (gives_take (f := (·.takeIf (· == d))) htake).map Option.isSome

theorem gives_backUp (stands : c.StandsAt before (d :: t)) :
    Gives backUp (c.pass [d], mode) () (c, mode) := by
  refine gives_take ?_
  rw [(standsAt_next stands).backUp_eq, List.length_append, List.length_singleton, Nat.add_sub_cancel,
    List.take_left, ← stands.2]
  rfl

/-! ### Comments and strings -/

theorem takeThrough_of_end (stands : c.StandsAt before []) (stops update : Bool → Char → Bool)
    (flag : Bool) : c.takeThrough stops update flag = (.ok (false, flag), c) := by
  have hnext : c.next = .ok (none, c) := by
    refine (stands.takeIf_eq _).trans ?_
    rw [List.head?_nil, Option.filter_none, Option.toList_none, stands.pass_nil]
  rw [Cursor.takeThrough]
  split <;> simp_all

theorem takeThrough_cons (stands : c.StandsAt before (d :: t)) (stops update : Bool → Char → Bool)
    (flag : Bool) : c.takeThrough stops update flag =
      if stops flag d then (.ok (true, flag), c.pass [d])
      else (c.pass [d]).takeThrough stops update (update flag d) := by
  have hnext : c.next = .ok (some d, c.pass [d]) := stands.takeIf_eq _
  rw [Cursor.takeThrough]
  split <;> simp_all

theorem pass_pass_take (stands : c.StandsAt before (d :: t)) (n : Nat) :
    (c.pass [d]).pass (t.take n) = c.pass ((d :: t).take (n + 1)) := by
  have hboth : c.StandsAt before ([d] ++ (t.take n ++ t.drop n)) := by
    rw [List.take_append_drop]
    exact stands
  exact hboth.pass_pass

theorem gives_takeThrough {stops update : Bool → Char → Bool} {closed flag : Bool}
    (taken : c.takeThrough stops update false = (.ok (closed, flag), moved)) :
    Gives (takeThrough stops update) (c, mode) (closed, flag) (moved, mode) := by
  change ((c.takeThrough stops update false).1, (c.takeThrough stops update false).2, mode) = _
  rw [taken]

theorem takeThrough_comment (stands : c.StandsAt before t) (star : Bool) :
    ∃ closed flag, c.takeThrough (fun star c => star && c == '/') (fun _ c => c == '*') star =
        (.ok (closed, flag), c.pass (t.take (Mode.commentExtent star t).1)) ∧
      (Mode.commentExtent star t).2 = if closed then .base else .blockComment := by
  induction t generalizing c before star with
  | nil =>
      refine ⟨false, star, ?_, rfl⟩
      rw [takeThrough_of_end stands, List.take_nil, stands.pass_nil]
  | cons d t ih =>
      rw [takeThrough_cons stands, Mode.commentExtent]
      split
      · exact ⟨true, star, rfl, rfl⟩
      · obtain ⟨closed, flag, htake, hmode⟩ := ih (standsAt_next stands) (d == '*')
        exact ⟨closed, flag, htake.trans (by rw [pass_pass_take stands]), hmode⟩

theorem takeThrough_string (stands : c.StandsAt before t) (quote : Char) (escaped : Bool) :
    ∃ closed flag, c.takeThrough (fun escaped c => !escaped && c == quote)
        (fun escaped c => !escaped && c == '\\') escaped =
        (.ok (closed, flag), c.pass (t.take (Mode.stringExtent quote escaped t).1)) ∧
      (Mode.stringExtent quote escaped t).2 = if closed || !flag then .base else .string quote := by
  induction t generalizing c before escaped with
  | nil =>
      refine ⟨false, escaped, ?_, ?_⟩
      · rw [takeThrough_of_end stands, List.take_nil, stands.pass_nil]
      · cases escaped <;> rfl
  | cons d t ih =>
      rw [takeThrough_cons stands, Mode.stringExtent]
      split
      · exact ⟨true, escaped, rfl, rfl⟩
      · obtain ⟨closed, flag, htake, hmode⟩ := ih (standsAt_next stands) (!escaped && d == '\\')
        exact ⟨closed, flag, htake.trans (by rw [pass_pass_take stands]), hmode⟩

theorem gives_comment (stands : c.StandsAt before t) :
    Gives comment (c, .blockComment) .comment
      (c.pass (t.take (Mode.commentExtent false t).1), (Mode.commentExtent false t).2) := by
  obtain ⟨closed, flag, htake, hmode⟩ := takeThrough_comment stands false
  rw [hmode]
  exact (gives_takeThrough htake).bind (by cases closed <;> rfl)

theorem gives_string (stands : c.StandsAt before t) (quote : Char) :
    Gives (string quote) (c, .string quote) .string
      (c.pass (t.take (Mode.stringExtent quote false t).1), (Mode.stringExtent quote false t).2) := by
  obtain ⟨closed, flag, htake, hmode⟩ := takeThrough_string stands quote false
  rw [hmode]
  exact (gives_takeThrough htake).bind (by cases closed <;> cases flag <;> rfl)

/-! ### Slashes -/

theorem gives_slash_star (stands : c.StandsAt before ('/' :: '*' :: t)) :
    Gives slash (c.pass ['/'], .base) .comment
      (c.pass (('/' :: '*' :: t).take (2 + (Mode.commentExtent false t).1)),
        (Mode.commentExtent false t).2) := by
  have hsecond := standsAt_next stands
  have hcomment := gives_comment (standsAt_next hsecond)
  rw [pass_pass_take hsecond, pass_pass_take stands, Nat.add_assoc, Nat.add_comm] at hcomment
  exact (gives_takeChar hsecond).bind (Gives.bind rfl hcomment)

theorem gives_slash_slash (stands : c.StandsAt before ('/' :: '/' :: t)) :
    Gives slash (c.pass ['/'], .base) .comment
      (c.pass (('/' :: '/' :: t).take (t.length + 2)), .base) := by
  have hsecond := standsAt_next stands
  have hend : ((c.pass ['/']).pass ['/']).skipToEnd =
      c.pass (('/' :: '/' :: t).take (t.length + 2)) := by
    rw [(standsAt_next hsecond).skipToEnd_eq, ← pass_pass_take stands, ← pass_pass_take hsecond,
      List.take_length]
  rw [← hend]
  exact (gives_takeChar_of_ne hsecond (by simp)).bind ((gives_takeChar hsecond).bind rfl)

theorem gives_slash (stands : c.StandsAt before ('/' :: t)) (star : t.head? ≠ some '*')
    (other : t.head? ≠ some '/') : Gives slash (c.pass ['/'], .base) .operator (c.pass ['/'], .base) := by
  have hsecond := standsAt_next stands
  exact (gives_takeChar_of_ne hsecond star).bind ((gives_takeChar_of_ne hsecond other).bind rfl)

/-! ### Numbers and words -/

theorem takeFound_pattern (stands : c.StandsAt before t) :
    c.takeFound Number.pattern.search = .ok (!(Number.literal t).isEmpty, c.pass (Number.literal t)) := by
  have hsearch : Number.pattern.search t =
      if Number.literal t = [] then none else some (0, (Number.literal t).byteLength) := by
    rw [Pattern.search, Number.first?_pattern]
    split <;> rfl
  unfold Cursor.takeFound
  rw [stands.rest_eq]
  simp only [bind, Except.bind, hsearch]
  cases hliteral : Number.literal t with
  | nil =>
      rw [stands.pass_nil]
      rfl
  | cons d u =>
      have hpos := Text.byteLength_pos (List.cons_ne_nil d u)
      obtain ⟨last, hlast⟩ := Nat.exists_eq_succ_of_ne_zero (Nat.ne_of_gt hpos)
      rw [if_neg (List.cons_ne_nil d u), Cursor.pass, hlast]
      rfl

theorem gives_takeLiteral (stands : c.StandsAt before t) (mode : Mode) :
    Gives takeLiteral (c, mode) (Number.length? t).isSome (c.pass (Number.literal t), mode) := by
  obtain ⟨rest, hrest⟩ := Number.isPrefix_literal t
  have hfollows : c.StandsAt before (Number.literal t ++ rest) := by
    rw [hrest]
    exact stands
  have hdrop : t.drop (Number.literal t).length = rest := by
    have hleft : (Number.literal t ++ rest).drop (Number.literal t).length = rest := List.drop_left
    rwa [hrest] at hleft
  refine (gives_take (takeFound_pattern stands)).bind ?_
  rw [Number.length?_eq, hdrop]
  by_cases hnone : Number.literal t = []
  · rw [if_pos (Or.inl hnone), hnone]
    rfl
  · rw [Bool.eq_false_iff.mpr (mt List.isEmpty_iff.mp hnone)]
    refine (gives_look hfollows.standsAt_pass.peek_eq).bind ?_
    cases rest.head?.any isWordChar <;> simp [hnone] <;> rfl

theorem gives_takeNumber {n : Nat} (stands : c.StandsAt before t) (number : Number.length? t = some n) :
    Gives takeNumber (c, mode) true (c.pass (t.take n), mode) := by
  have htake : t.take n = Number.literal t := by
    rw [Number.length?_eq] at number
    split at number
    · cases number
    · rw [← Option.some.inj number]
      exact (List.prefix_iff_eq_take.mp (Number.isPrefix_literal t)).symm
  have hliteral := gives_takeLiteral stands mode
  rw [number] at hliteral
  rw [htake]
  exact Gives.bind (a := (c, mode)) rfl (hliteral.bind rfl)

theorem gives_takeNumber_of_none (stands : c.StandsAt before t) (noNumber : Number.length? t = none) :
    Gives takeNumber (c, mode) false (c, mode) := by
  have hback : (c.pass (Number.literal t)).moveTo c.position = c := by
    have hle : c.position ≤ c.size := by
      rw [stands.size_eq, stands.2]
      exact Nat.le_add_right _ _
    change { c with position := min c.position c.size } = c
    rw [Nat.min_eq_left hle]
  have hliteral := gives_takeLiteral stands mode
  rw [noNumber] at hliteral
  refine Gives.bind (a := (c, mode)) rfl (hliteral.bind ?_)
  change (_, (c.pass (Number.literal t)).moveTo c.position, mode) = _
  rw [hback]

variable {b : Option Char} {n : Nat}

theorem gives_punctuation_number (stands : c.StandsAt before ('.' :: t))
    (side : Mode.isAfterWord b = false) (number : Number.length? ('.' :: t) = some n) :
    Gives (punctuation b '.') (c.pass ['.'], mode) .number (c.pass (('.' :: t).take n), mode) := by
  have hdecimals : Gives takeDecimals (c.pass ['.'], mode) true (c.pass (('.' :: t).take n), mode) := by
    refine (gives_look (standsAt_next stands).peek_eq).bind ?_
    rw [Mode.any_isDigit_of_length? number]
    exact (gives_backUp stands).bind ((gives_takeNumber stands number).bind rfl)
  unfold punctuation
  rw [if_pos ⟨rfl, side⟩]
  exact hdecimals.bind rfl

theorem gives_punctuation (stands : c.StandsAt before (d :: t))
    (noNumber : Mode.readNumber? b (d :: t) = none) :
    Gives (punctuation b d) (c.pass [d], mode) (.punctuation d) (c.pass [d], mode) := by
  unfold punctuation
  split
  · rename_i hpoint
    obtain ⟨rfl, side⟩ := hpoint
    have hnumber : Number.length? ('.' :: t) = none :=
      (Mode.readNumber?_eq_none_iff.mp noNumber).resolve_left (Bool.eq_false_iff.mp side)
    have hdecimals : Gives takeDecimals (c.pass ['.'], mode) false (c.pass ['.'], mode) := by
      refine (gives_look (standsAt_next stands).peek_eq).bind ?_
      split
      · exact (gives_backUp stands).bind
          ((gives_takeNumber_of_none stands hnumber).bind ((gives_next stands).bind rfl))
      · rfl
    exact hdecimals.bind rfl
  · rfl

theorem gives_takeNotEqual (stands : c.StandsAt before t) (side : Mode.isAfterWord b = false)
    (found : Mode.notEqual <+: t) :
    Gives (takeNotEqual b) (c, mode) true (c.pass (t.take Mode.notEqual.length), mode) := by
  unfold takeNotEqual
  rw [side, ← List.prefix_iff_eq_take.mp found]
  refine gives_take ((stands.takeText_eq _).trans ?_)
  rw [if_pos (List.isPrefixOf_iff_prefix.mpr found)]

theorem gives_takeNotEqual_of_not (stands : c.StandsAt before t)
    (noEqual : Mode.isAfterWord b = true ∨ ¬ Mode.notEqual <+: t) :
    Gives (takeNotEqual b) (c, mode) false (c, mode) := by
  unfold takeNotEqual
  split
  · rfl
  · rename_i side
    refine gives_take ((stands.takeText_eq _).trans ?_)
    rw [if_neg fun h => noEqual.resolve_left side (List.isPrefixOf_iff_prefix.mp h)]

theorem gives_takeReserved (stands : c.StandsAt before t) (side : Mode.opensWord b = true)
    {cls : TokenClass} (word : Word.classOf? (Word.leading t) = some cls) :
    Gives (takeReserved b) (c, mode) (some cls) (c.pass (t.take (Word.leading t).length), mode) := by
  unfold takeReserved
  rw [if_pos side, Word.take_leading]
  refine (gives_look stands.rest_eq).bind ?_
  rw [Word.leading?_eq_some_iff.mpr ⟨rfl, word⟩]
  rfl

theorem gives_takeReserved_of_none (stands : c.StandsAt before t)
    (noWord : Mode.opensWord b = false ∨ Word.leading? t = none) :
    Gives (takeReserved b) (c, mode) none (c, mode) := by
  unfold takeReserved
  split
  · rename_i side
    refine (gives_look stands.rest_eq).bind ?_
    rw [noWord.resolve_left (by simp [side])]
    rfl
  · rfl

theorem gives_takeDigits (stands : c.StandsAt before (d :: t)) (digit : d.isDigit = true)
    (side : Mode.isAfterWord b = false) (number : Number.length? (d :: t) = some n) :
    Gives (takeDigits b d) (c, mode) true (c.pass ((d :: t).take n), mode) := by
  unfold takeDigits
  rw [digit, side]
  exact gives_takeNumber stands number

theorem gives_takeDigits_of_none (stands : c.StandsAt before (d :: t))
    (noNumber : Mode.readNumber? b (d :: t) = none) :
    Gives (takeDigits b d) (c, mode) false (c, mode) := by
  unfold takeDigits
  split
  · rename_i h
    rw [Bool.and_eq_true, Bool.not_eq_true'] at h
    exact gives_takeNumber_of_none stands
      ((Mode.readNumber?_eq_none_iff.mp noNumber).resolve_left (Bool.eq_false_iff.mp h.2))
  · rfl

theorem gives_word_notEqual (stands : c.StandsAt before t) (side : Mode.isAfterWord b = false)
    (found : Mode.notEqual <+: t) :
    Gives (word b d) (c, mode) .operator (c.pass (t.take Mode.notEqual.length), mode) :=
  (gives_takeNotEqual stands side found).bind rfl

theorem gives_word_reserved (stands : c.StandsAt before t)
    (noEqual : Mode.isAfterWord b = true ∨ ¬ Mode.notEqual <+: t) (side : Mode.opensWord b = true)
    {cls : TokenClass} (reserved : Word.classOf? (Word.leading t) = some cls) :
    Gives (word b d) (c, mode) cls (c.pass (t.take (Word.leading t).length), mode) :=
  (gives_takeNotEqual_of_not stands noEqual).bind ((gives_takeReserved stands side reserved).bind rfl)

theorem gives_word_number (stands : c.StandsAt before (d :: t))
    (noWord : Mode.readWord? b (d :: t) = none) (digit : d.isDigit = true)
    (side : Mode.isAfterWord b = false) (number : Number.length? (d :: t) = some n) :
    Gives (word b d) (c, mode) .number (c.pass ((d :: t).take n), mode) := by
  obtain ⟨noEqual, noReserved⟩ := Mode.readWord?_eq_none_iff.mp noWord
  exact (gives_takeNotEqual_of_not stands noEqual).bind
    ((gives_takeReserved_of_none stands noReserved).bind
      ((gives_takeDigits stands digit side number).bind rfl))

theorem gives_word_alone (stands : c.StandsAt before (d :: t))
    (noWord : Mode.readWord? b (d :: t) = none) (noNumber : Mode.readNumber? b (d :: t) = none) :
    Gives (word b d) (c, mode) .plain (c.pass [d], mode) := by
  obtain ⟨noEqual, noReserved⟩ := Mode.readWord?_eq_none_iff.mp noWord
  exact (gives_takeNotEqual_of_not stands noEqual).bind
    ((gives_takeReserved_of_none stands noReserved).bind
      ((gives_takeDigits_of_none stands noNumber).bind ((gives_next stands).bind rfl)))

/-! ### Tokens of ordinary code -/

theorem beforeToken_pass (stands : c.StandsAt before t) (begun : c.start = c.position) (text : Text) :
    (c.pass text).beforeToken = .ok before.getLast? := by
  change (fun parts : Text × Text => parts.1.getLast?) <$> c.cut c.start = _
  rw [begun, stands.cut_eq]
  rfl

theorem gives_afterFirst_punctuation {cls : TokenClass} (stands : c.StandsAt before (d :: t))
    (begun : c.start = c.position) (ordinary : Mode.IsOrdinary d) (mark : Mode.isPunctuation d = true)
    (rest : Gives (punctuation before.getLast? d) (c.pass [d], mode) cls s) :
    Gives (afterFirst d) (c.pass [d], mode) cls s := by
  unfold afterFirst
  rw [if_neg ordinary.1, if_neg ordinary.2.1]
  refine (gives_look (beforeToken_pass stands begun [d])).bind ?_
  rw [if_pos mark]
  exact rest

theorem gives_afterFirst_word {cls : TokenClass} (stands : c.StandsAt before (d :: t))
    (begun : c.start = c.position) (ordinary : Mode.IsOrdinary d) (mark : Mode.isPunctuation d = false)
    (rest : Gives (word before.getLast? d) (c, mode) cls s) :
    Gives (afterFirst d) (c.pass [d], mode) cls s := by
  unfold afterFirst
  rw [if_neg ordinary.1, if_neg ordinary.2.1]
  refine (gives_look (beforeToken_pass stands begun [d])).bind ?_
  rw [if_neg (Bool.eq_false_iff.mp mark), if_neg (Bool.eq_false_iff.mp ordinary.2.2)]
  exact (gives_backUp stands).bind rest

theorem gives_afterFirst_operator (stands : c.StandsAt before (d :: t)) (begun : c.start = c.position)
    (op : Mode.isOperatorChar d = true) : Gives (afterFirst d) (c.pass [d], mode) .operator
      (c.pass ((d :: t).take (1 + (t.takeWhile Mode.isOperatorChar).length)), mode) := by
  have hrun : t.take (t.takeWhile Mode.isOperatorChar).length = t.takeWhile Mode.isOperatorChar :=
    (List.prefix_iff_eq_take.mp (List.takeWhile_prefix _)).symm
  have hother : d ≠ '"' ∧ d ≠ '/' ∧ Mode.isPunctuation d = false := by
    have hmem : d ∈ ['+', '-', '*', '<', '>', '='] := of_decide_eq_true op
    simp only [List.mem_cons, List.not_mem_nil, or_false] at hmem
    rcases hmem with rfl | rfl | rfl | rfl | rfl | rfl <;> decide
  unfold afterFirst
  rw [if_neg hother.1, if_neg hother.2.1]
  refine (gives_look (beforeToken_pass stands begun [d])).bind ?_
  rw [if_neg (Bool.eq_false_iff.mp hother.2.2), if_pos op, Nat.add_comm, ← pass_pass_take stands, hrun]
  exact (gives_take ((standsAt_next stands).takeWhile_eq _)).bind rfl

/-- The first character is taken, and then what a branch of reading takes. -/
theorem gives_afterFirst {r : Reading Mode} (stands : c.StandsAt before (d :: t))
    (begun : c.start = c.position) (reading : Mode.BaseReading before.getLast? (d :: t) r) :
    Gives (afterFirst d) (c.pass [d], .base) r.cls (c.pass ((d :: t).take r.length), r.state) := by
  cases reading with
  | string =>
      have hstring := gives_string (standsAt_next stands) '"'
      rw [pass_pass_take stands, Nat.add_comm] at hstring
      exact Gives.bind rfl hstring
  | blockComment => exact gives_slash_star stands
  | lineComment => exact gives_slash_slash stands
  | slash star other => exact gives_slash stands star other
  | operator op => exact gives_afterFirst_operator stands begun op
  | number ordinary side number =>
      rcases Mode.opensNumber_of_length? number with digit | rfl
      · exact gives_afterFirst_word stands begun ordinary
          (Mode.isPunctuation_of_isWordChar (Mode.isWordChar_of_isDigit digit))
          (gives_word_number stands (Mode.OpensNumber.readWord? (Or.inl digit) _ _) digit side number)
      · exact gives_afterFirst_punctuation stands begun ordinary rfl
          (gives_punctuation_number stands side number)
  | notEqual ordinary number side found =>
      obtain rfl : 'n' = d := by
        obtain ⟨u, hu⟩ := found
        exact (List.cons.inj hu).1
      exact gives_afterFirst_word stands begun ordinary rfl (gives_word_notEqual stands side found)
  | word ordinary number side noEqual word =>
      exact gives_afterFirst_word stands begun ordinary
        (Mode.isPunctuation_of_isWordChar (Word.head_of_reserved word).1)
        (gives_word_reserved stands noEqual side word)
  | char ordinary number word =>
      cases hmark : Mode.isPunctuation d with
      | true =>
          exact gives_afterFirst_punctuation stands begun ordinary hmark
            (gives_punctuation stands number)
      | false =>
          exact gives_afterFirst_word stands begun ordinary hmark (gives_word_alone stands word number)

/-! ### Tokens -/

theorem gives_base (stands : c.StandsAt before t) (begun : c.start = c.position) :
    Gives base (c, .base) (Mode.readBase before.getLast? t).cls
      (c.pass (t.take (Mode.readBase before.getLast? t).length),
        (Mode.readBase before.getLast? t).state) := by
  cases t with
  | nil =>
      refine (gives_next_of_end stands).bind ?_
      change (_, c, _) = (_, c.pass [], _)
      rw [stands.pass_nil]
      rfl
  | cons d t =>
      exact (gives_next stands).bind
        (gives_afterFirst stands begun (Mode.baseReading before.getLast? d t))

theorem gives_token (stands : c.StandsAt before t) (mode : Mode) :
    Gives (token mode) (c, mode) (mode.read before.getLast? t).cls
      (c.beginToken.pass (t.take (mode.read before.getLast? t).length),
        (mode.read before.getLast? t).state) := by
  have hbegun : c.beginToken.StandsAt before t := stands
  have hbegin : Gives (move Cursor.beginToken) (c, mode) () (c.beginToken, mode) := rfl
  refine hbegin.bind ?_
  cases mode with
  | base => exact gives_base hbegun (by rw [stands.beginToken_eq])
  | blockComment =>
      have hcomment := gives_comment hbegun
      rw [← Nat.zero_add (Mode.commentExtent false t).1] at hcomment
      exact hcomment
  | string quote =>
      have hstring := gives_string hbegun quote
      rw [← Nat.zero_add (Mode.stringExtent quote false t).1] at hstring
      exact hstring

/-! ### Inside of a character -/

/-- From the cursor and the mode of `s` the steps come to those of `s'`, and there a fault stops them. -/
def Stops (x : Scan α) (s : Cursor × Mode) (fault : Cursor.Fault) (s' : Cursor × Mode) : Prop :=
  x.run.run s = (.error fault, s')

theorem Stops.bind {x : Scan α} {f : α → Scan β} {fault : Cursor.Fault} (first : Stops x s fault s') :
    Stops (x >>= f) s fault s' := by
  unfold Stops at *
  rw [ExceptT.run_bind, StateT.run_bind, first]
  rfl

theorem stops_look {f : Cursor → Except Cursor.Fault α} {fault : Cursor.Fault}
    (seen : f c = .error fault) : Stops (look f) (c, mode) fault (c, mode) := by
  change (MonadExcept.ofExcept (f c) : Scan α).run.run (c, mode) = _
  rw [seen]
  rfl

theorem stops_next (inside : c.rest = .error .insideCharacter) :
    Stops next (c, mode) .insideCharacter (c, mode) := by
  refine (stops_look ?_).bind
  unfold Cursor.next Cursor.takeIf Cursor.peek
  rw [inside]
  rfl

theorem stops_takeThrough (inside : c.rest = .error .insideCharacter) (stops update : Bool → Char → Bool) :
    Stops (takeThrough stops update) (c, mode) .insideCharacter (c, mode) := by
  have hnext : c.next = .error .insideCharacter := by
    unfold Cursor.next Cursor.takeIf Cursor.peek
    rw [inside]
    rfl
  have htake : c.takeThrough stops update false = (.error .insideCharacter, c) := by
    rw [Cursor.takeThrough]
    split <;> simp_all
  change ((c.takeThrough stops update false).1, (c.takeThrough stops update false).2, mode) = _
  rw [htake]

theorem stops_token (inside : c.rest = .error .insideCharacter) (mode : Mode) :
    Stops (token mode) (c, mode) .insideCharacter (c.beginToken, mode) := by
  have hbegun : c.beginToken.rest = .error .insideCharacter := inside
  cases mode with
  | base => exact (stops_next hbegun).bind
  | blockComment => exact (stops_takeThrough hbegun _ _).bind
  | string quote => exact (stops_takeThrough hbegun _ _).bind

end Scan

namespace Cursor

variable {c : Cursor}

/-- A cursor stands before a text, or inside of a character. -/
theorem standsAt_or_inside (c : Cursor) :
    (∃ before after, c.StandsAt before after) ∨ c.cut c.position = .error .insideCharacter := by
  unfold cut
  cases hcut : c.line.cutAt? c.position with
  | none => exact Or.inr rfl
  | some parts =>
      obtain ⟨hline, hposition⟩ := Text.eq_append_of_cutAt? hcut
      exact Or.inl ⟨parts.1, parts.2, hline, hposition.symm⟩

/-- Reading at a cursor is reading the text there. -/
theorem readMode_eq (c : Cursor) (mode : Mode) : c.readMode mode = c.readWith Mode.read mode := by
  unfold readWith
  rcases c.standsAt_or_inside with ⟨before, after, stands⟩ | inside
  · have hbegun : c.beginToken.StandsAt before after := stands
    simp only [hbegun.cut_eq]
    exact Scan.gives_token stands mode
  · have hrest : c.rest = .error .insideCharacter := by
      rw [rest, inside]
      rfl
    have hbegun : c.beginToken.cut c.beginToken.position = .error .insideCharacter := inside
    simp only [hbegun]
    exact Scan.stops_token hrest mode

theorem StandsAt.isAtStart_eq {before after : Text} (stands : c.StandsAt before after) :
    c.isAtStart = before.getLast?.isNone := by
  unfold isAtStart
  rw [stands.2]
  cases before with
  | nil => rfl
  | cons d t =>
      have := Text.byteLength_pos (List.cons_ne_nil d t)
      rw [List.getLast?_cons]
      exact beq_eq_false_iff_ne.mpr (by omega)

/-- Reading a token of a document at a cursor is reading it in the text there. -/
theorem readToken_eq {tabSize : Nat} (c : Cursor) (s : LineState) (tab : c.tabSize = tabSize) :
    c.readToken s = c.readWith (LineState.next tabSize) s := by
  subst tab
  unfold readToken readWith
  rcases c.standsAt_or_inside with ⟨before, after, stands⟩ | inside
  · have hbegun : c.beginToken.StandsAt before after := stands
    have hmeasure : (if c.beginToken.isAtStart then
        { s with indentation := c.beginToken.indentation } else s) =
          s.measure c.tabSize before.getLast? after := by
      unfold LineState.measure
      rw [hbegun.isAtStart_eq]
      split
      · rename_i hstart
        obtain rfl := List.getLast?_eq_none_iff.mp (Option.isNone_iff_eq_none.mp hstart)
        rw [← List.nil_append after, ← stands.1]
        rfl
      · rfl
    have hblanks : after.leadingBlanks = after.takeWhile Text.isBlank := rfl
    simp only [hmeasure, hbegun.cut_eq, hbegun.takeWhile_eq, LineState.next, hblanks]
    generalize s.measure c.tabSize before.getLast? after = s
    cases hrun : after.takeWhile Text.isBlank with
    | nil =>
        have hread : c.beginToken.readMode s.mode = _ := Scan.gives_token hbegun s.mode
        simp only [hbegun.pass_nil, hread]
        rfl
    | cons d blanks =>
        have hstart : d :: blanks <+: after := hrun ▸ List.takeWhile_prefix _
        simp only [← List.prefix_iff_eq_take.mp hstart]
  · have hbegun : c.beginToken.cut c.beginToken.position = .error .insideCharacter := inside
    have hstart : c.beginToken.isAtStart = false := by
      refine beq_eq_false_iff_ne.mpr fun hzero => ?_
      change c.position = 0 at hzero
      rw [hzero, cut, Text.cutAt?] at inside
      cases inside
    have htake : c.beginToken.takeWhile Text.isBlank = .error .insideCharacter := by
      rw [takeWhile, rest, hbegun]
      rfl
    simp only [hbegun, hstart, htake]
    rfl

end Cursor

end BlockLayout
