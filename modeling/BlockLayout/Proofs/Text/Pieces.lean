import BlockLayout.Text.Bytes
import BlockLayout.Text.Column

/-! # Blanks and rows of a text

A text falls into its leading blanks and a text that does not start with a blank
(`leadingBlanks_append`, `trimStart_append`), in one way only. -/

namespace BlockLayout.Text

/-- The text does not start with a blank. -/
def StartsVisible (t : Text) : Prop := ∀ c ∈ t.head?, isBlank c = false

theorem isAllBlank_iff {t : Text} : t.isAllBlank = true ↔ ∀ c ∈ t, isBlank c = true := by
  unfold isAllBlank
  rw [List.all_eq_true]

@[simp] theorem isAllBlank_nil : isAllBlank [] = true := rfl

theorem isAllBlank_leadingBlanks (t : Text) : t.leadingBlanks.isAllBlank = true :=
  List.all_takeWhile

theorem startsVisible_nil : StartsVisible [] := by
  intro c h
  cases h

theorem startsVisible_cons {c : Char} {t : Text} :
    StartsVisible (c :: t) ↔ isBlank c = false := by
  constructor
  · intro h
    exact h c rfl
  · intro h d hd
    obtain rfl : c = d := Option.some.inj hd
    exact h

theorem StartsVisible.of_append {token rest : Text} (h : StartsVisible (token ++ rest))
    (nonempty : token ≠ []) : StartsVisible token := by
  obtain ⟨c, t, rfl⟩ := List.exists_cons_of_ne_nil nonempty
  exact startsVisible_cons.mpr (startsVisible_cons.mp h)

theorem StartsVisible.append {t u : Text} (h : StartsVisible t) (nonempty : t ≠ []) :
    StartsVisible (t ++ u) := by
  obtain ⟨c, v, rfl⟩ := List.exists_cons_of_ne_nil nonempty
  exact startsVisible_cons.mpr (startsVisible_cons.mp h)

theorem startsVisible_trimStart (t : Text) : StartsVisible t.trimStart := by
  intro c h
  have := List.head?_dropWhile_not isBlank t
  unfold trimStart at h
  rw [Option.mem_def.mp h] at this
  simpa using this

/-- Blanks in front of a visible character are the leading blanks. -/
theorem leadingBlanks_append {blanks t : Text} (blank : blanks.isAllBlank = true)
    (visible : StartsVisible t) : leadingBlanks (blanks ++ t) = blanks := by
  have hstop : t.takeWhile isBlank = [] := by
    cases t with
    | nil => rfl
    | cons c t => simp [startsVisible_cons.mp visible]
  unfold leadingBlanks
  rw [List.takeWhile_append_of_pos (isAllBlank_iff.mp blank), hstop, List.append_nil]

theorem trimStart_append {blanks t : Text} (blank : blanks.isAllBlank = true)
    (visible : StartsVisible t) : trimStart (blanks ++ t) = t := by
  have hsplit := leadingBlanks_append_trimStart (blanks ++ t)
  rw [leadingBlanks_append blank visible] at hsplit
  exact List.append_cancel_left hsplit

theorem leadingBlanks_eq_nil {t : Text} (visible : StartsVisible t) : t.leadingBlanks = [] :=
  leadingBlanks_append isAllBlank_nil visible

theorem trimStart_eq_self {t : Text} (visible : StartsVisible t) : t.trimStart = t :=
  trimStart_append isAllBlank_nil visible

theorem trimStart_eq_nil_iff {t : Text} : t.trimStart = [] ↔ t.isAllBlank = true := by
  constructor
  · intro h
    have hsplit := leadingBlanks_append_trimStart t
    rw [h, List.append_nil] at hsplit
    rw [← hsplit]
    exact isAllBlank_leadingBlanks t
  · intro h
    have := trimStart_append h startsVisible_nil
    rwa [List.append_nil] at this

theorem trimStart_append_of_visible {t : Text} (visible : t.trimStart ≠ []) (u : Text) :
    trimStart (t ++ u) = t.trimStart ++ u := by
  have hsplit := leadingBlanks_append_trimStart t
  have hstart : StartsVisible (t.trimStart ++ u) := (startsVisible_trimStart t).append visible
  have happend := trimStart_append (isAllBlank_leadingBlanks t) hstart
  rwa [← List.append_assoc, hsplit] at happend

theorem isAllBlank_eq_false {c : Char} {t token rest : Text} (visible : isBlank c = false)
    (nonempty : token ≠ []) (h : c :: t = token ++ rest) : token.isAllBlank = false := by
  obtain ⟨c', u, rfl⟩ := List.exists_cons_of_ne_nil nonempty
  obtain rfl : c = c' := (List.cons.inj h).1
  unfold isAllBlank
  rw [List.all_cons, visible, Bool.false_and]

theorem StartsVisible.isAllBlank_eq_false {t : Text} (visible : t.StartsVisible) (nonempty : t ≠ []) :
    t.isAllBlank = false := by
  obtain ⟨c, u, rfl⟩ := List.exists_cons_of_ne_nil nonempty
  exact Text.isAllBlank_eq_false (startsVisible_cons.mp visible) nonempty (List.append_nil _).symm

theorem exists_blank {t : Text} (h : t.leadingBlanks ≠ []) :
    ∃ c u, t = c :: u ∧ isBlank c = true := by
  cases t with
  | nil => exact absurd rfl h
  | cons c u =>
      cases hc : isBlank c with
      | true => exact ⟨c, u, rfl, hc⟩
      | false => exact absurd (leadingBlanks_eq_nil (startsVisible_cons.mpr hc)) h

theorem leadingBlanks_ne_nil_or {t : Text} (h : t ≠ []) :
    t.leadingBlanks ≠ [] ∨ ∃ c u, t = c :: u ∧ isBlank c = false := by
  obtain ⟨c, u, rfl⟩ := List.exists_cons_of_ne_nil h
  cases hc : isBlank c with
  | false => exact Or.inr ⟨c, u, rfl, hc⟩
  | true =>
      left
      simp [leadingBlanks, hc]

/-! ## Rows

A text is its pieces joined by line feeds.  `rows` are the pieces as lines are read off them: every
piece but the last was ended by a line feed and loses a carriage return there.  The lines of a text
are its rows without an empty last one (`lines_append`), which is there exactly if the text ends with
a line feed (`endsLine_iff`).

A carriage return is lost exactly where one stands before a line feed (`rows_eq_pieces_iff`). -/

/-- The pieces, each but the last without a carriage return at its end. -/
def dropReturns : List Text → List Text
  | [] => []
  | [p] => [p]
  | p :: q :: ps => dropReturn p :: dropReturns (q :: ps)

/-- The pieces of a text, each without the carriage return that belongs to its line feed. -/
def rows (t : Text) : List Text := dropReturns t.pieces

theorem pieces_ne_nil (t : Text) : t.pieces ≠ [] := List.splitOn_ne_nil '\n' t

theorem pieces_intercalate {ps : List Text} (free : ∀ p ∈ ps, '\n' ∉ p) (nonempty : ps ≠ []) :
    pieces (['\n'].intercalate ps) = ps := List.splitOn_intercalate '\n' free nonempty

theorem not_mem_of_mem_pieces : ∀ {t p : Text}, p ∈ t.pieces → '\n' ∉ p
  | [], p, hp => by
      simp only [pieces, List.splitOn_nil, List.mem_singleton] at hp
      rw [hp]
      exact List.not_mem_nil
  | c :: t, p, hp => by
      have ih : ∀ q ∈ pieces t, '\n' ∉ q := fun q hq => not_mem_of_mem_pieces hq
      unfold pieces at hp
      rw [List.splitOn_cons_eq_if_modifyHead] at hp
      split at hp
      · rcases List.mem_cons.mp hp with rfl | hp
        · exact List.not_mem_nil
        · exact ih p hp
      · rename_i hc
        obtain ⟨q, qs, hq⟩ := List.exists_cons_of_ne_nil (pieces_ne_nil t)
        unfold pieces at hq ih
        rw [hq] at ih
        rw [hq, List.modifyHead_cons] at hp
        rcases List.mem_cons.mp hp with rfl | hp
        · intro h
          rcases List.mem_cons.mp h with rfl | h
          · simp at hc
          · exact ih q List.mem_cons_self h
        · exact ih p (List.mem_cons_of_mem q hp)

theorem subset_intercalate : ∀ {ps : List Text} {p : Text}, p ∈ ps → p ⊆ ['\n'].intercalate ps
  | [q], p, h => by
      rw [List.mem_singleton.mp h, List.intercalate_singleton]
      exact fun _ hc => hc
  | q :: r :: ps, p, h => by
      rw [List.intercalate_cons_cons]
      rcases List.mem_cons.mp h with rfl | h
      · intro c hc
        exact List.mem_append_left _ (List.mem_append_left _ hc)
      · intro c hc
        exact List.mem_append_right _ (subset_intercalate h hc)

theorem subset_of_mem_pieces {t p : Text} (h : p ∈ t.pieces) : p ⊆ t := by
  have hsub := subset_intercalate h
  rwa [intercalate_pieces] at hsub

/-! ### Rows and lines -/

theorem dropReturns_ne_nil : ∀ {ps : List Text}, ps ≠ [] → dropReturns ps ≠ []
  | [], h => h
  | [_], h => h
  | _ :: _ :: _, _ => List.cons_ne_nil _ _

theorem length_dropReturns : ∀ (ps : List Text), (dropReturns ps).length = ps.length
  | [] => rfl
  | [_] => rfl
  | p :: q :: ps => by rw [dropReturns, List.length_cons, List.length_cons, length_dropReturns]

theorem dropReturn_subset (p : Text) : dropReturn p ⊆ p := by
  unfold dropReturn
  split
  · exact List.dropLast_subset p
  · exact List.Subset.refl p

theorem exists_of_mem_dropReturns : ∀ {ps : List Text} {r : Text}, r ∈ dropReturns ps →
    ∃ p ∈ ps, r ⊆ p
  | [p], r, h => ⟨p, List.mem_cons_self, by rw [List.mem_singleton.mp h]; exact fun _ hc => hc⟩
  | p :: q :: ps, r, h => by
      rcases List.mem_cons.mp h with rfl | h
      · exact ⟨p, List.mem_cons_self, dropReturn_subset p⟩
      · obtain ⟨p', hp', hsub⟩ := exists_of_mem_dropReturns h
        exact ⟨p', List.mem_cons_of_mem p hp', hsub⟩

theorem not_mem_of_mem_rows {t r : Text} (h : r ∈ t.rows) : '\n' ∉ r := by
  obtain ⟨p, hp, hsub⟩ := exists_of_mem_dropReturns h
  exact fun hr => not_mem_of_mem_pieces hp (hsub hr)

theorem eq_nil_of_rows {t : Text} (h : t.rows = [[]]) : t = [] := by
  have hlen := length_dropReturns t.pieces
  rw [show dropReturns t.pieces = [[]] from h] at hlen
  obtain ⟨p, hp⟩ := List.length_eq_one_iff.mp hlen.symm
  have hrow : dropReturns t.pieces = [p] := by rw [hp]; rfl
  rw [show dropReturns t.pieces = [[]] from h] at hrow
  obtain rfl : [] = p := (List.cons.inj hrow).1
  rw [← intercalate_pieces t, hp, List.intercalate_singleton]

/-- The lines are the rows, but for an empty last one. -/
theorem linesOfPieces_append : ∀ (ps : List Text),
    linesOfPieces ps ++ (if ps.getLast? = some [] then [[]] else []) = dropReturns ps
  | [] => rfl
  | [p] => by
      cases p with
      | nil => rfl
      | cons c t => simp [linesOfPieces, dropReturns]
  | p :: q :: ps => by
      have ih := linesOfPieces_append (q :: ps)
      rw [linesOfPieces, dropReturns, List.getLast?_cons_cons, List.cons_append, ih]

theorem lines_append (t : Text) :
    t.lines ++ (if t.pieces.getLast? = some [] then [[]] else []) = t.rows :=
  linesOfPieces_append t.pieces

theorem getLast?_intercalate : ∀ {ps : List Text} {p : Text}, p ≠ [] → ps.getLast? = some p →
    (['\n'].intercalate ps).getLast? = p.getLast?
  | [], _, _, h => by cases h
  | [q], p, _, h => by
      obtain rfl : q = p := Option.some.inj h
      rw [List.intercalate_singleton]
  | q :: r :: ps, p, hp, h => by
      rw [List.getLast?_cons_cons] at h
      have ih := getLast?_intercalate hp h
      obtain ⟨c, hc⟩ : ∃ c, p.getLast? = some c := by
        cases hlast : p.getLast? with
        | none => exact absurd (List.getLast?_eq_none_iff.mp hlast) hp
        | some c => exact ⟨c, rfl⟩
      rw [List.intercalate_cons_cons, List.append_assoc, List.getLast?_append,
        List.getLast?_append, ih, hc]
      rfl

theorem intercalate_append_nil : ∀ {ps : List Text}, ps ≠ [] →
    ['\n'].intercalate (ps ++ [[]]) = ['\n'].intercalate ps ++ ['\n']
  | [], h => absurd rfl h
  | [p], _ => by
      rw [List.cons_append, List.nil_append, List.intercalate_cons_cons,
        List.intercalate_singleton, List.intercalate_singleton, List.append_nil]
  | p :: q :: ps, _ => by
      have ih := intercalate_append_nil (List.cons_ne_nil q ps)
      rw [List.cons_append, List.cons_append, List.intercalate_cons_cons, ← List.cons_append, ih,
        List.intercalate_cons_cons]
      simp only [List.append_assoc]

theorem endsLine_iff {t : Text} (h : t ≠ []) :
    t.endsLine = true ↔ t.pieces.getLast? = some [] := by
  have hfree : ∀ p ∈ t.pieces, '\n' ∉ p := fun p hp => not_mem_of_mem_pieces hp
  have hjoin : ['\n'].intercalate t.pieces = t := intercalate_pieces t
  rcases List.eq_nil_or_concat t.pieces with hnil | ⟨front, last, hps⟩
  · exact absurd hnil (pieces_ne_nil t)
  · rw [hps, List.concat_eq_append] at hjoin hfree ⊢
    have hlast : (front ++ [last]).getLast? = some last := List.getLast?_concat
    rw [hlast, Option.some.injEq]
    unfold endsLine
    rw [beq_iff_eq]
    constructor
    · intro hend
      by_cases hl : last = []
      · exact hl
      · rw [← hjoin, getLast?_intercalate hl hlast] at hend
        exact absurd (List.mem_of_getLast? hend) (hfree last (by simp))
    · rintro rfl
      have hfront : front ≠ [] := by
        rintro rfl
        exact h hjoin.symm
      rw [← hjoin, intercalate_append_nil hfront, List.getLast?_concat]

/-! ### Carriage returns before line feeds -/

theorem infix_newline_iff {e p rest : Text} (he : '\n' ∉ e) (hp : '\n' ∉ p) :
    e ++ ['\n'] <:+: p ++ '\n' :: rest ↔ e <:+ p ∨ e ++ ['\n'] <:+: rest := by
  constructor
  · rintro ⟨s, u, h⟩
    have hsplit : (s ++ e) ++ '\n' :: u = p ++ '\n' :: rest := by
      rw [← h]
      simp
    rcases List.append_eq_append_iff.mp hsplit with ⟨a, hpa, ha⟩ | ⟨a, hse, ha⟩
    · cases a with
      | nil =>
          rw [List.append_nil] at hpa
          exact Or.inl ⟨s, hpa.symm⟩
      | cons c a =>
          obtain ⟨rfl, -⟩ := List.cons.inj ha
          exact absurd (by rw [hpa]; simp) hp
    · cases a with
      | nil =>
          rw [List.append_nil] at hse
          exact Or.inl ⟨s, hse⟩
      | cons c a =>
          obtain ⟨rfl, hrest⟩ := List.cons.inj ha
          rcases List.append_eq_append_iff.mp hse with ⟨b, -, hb⟩ | ⟨b, -, hb⟩
          · exact absurd (by rw [hb]; simp) he
          · cases b with
            | nil =>
                rw [List.nil_append] at hb
                exact absurd (by rw [← hb]; simp) he
            | cons d b =>
                obtain ⟨-, rfl⟩ := List.cons.inj hb
                exact Or.inr ⟨b, u, by rw [hrest]; simp⟩
  · rintro (⟨s, rfl⟩ | ⟨s, u, rfl⟩)
    · exact ⟨s, rest, by simp⟩
    · exact ⟨p ++ '\n' :: s, u, by simp⟩

theorem infix_intercalate_iff {e : Text} (he : '\n' ∉ e) : ∀ (ps : List Text),
    (∀ p ∈ ps, '\n' ∉ p) →
      (e ++ ['\n'] <:+: ['\n'].intercalate ps ↔ ∃ p ∈ ps.dropLast, e <:+ p)
  | [], _ => by
      constructor
      · intro h
        have := h.length_le
        simp at this
      · rintro ⟨p, hp, -⟩
        cases hp
  | [p], hfree => by
      constructor
      · intro h
        rw [List.intercalate_singleton] at h
        exact absurd (h.mem (by simp)) (hfree p List.mem_cons_self)
      · rintro ⟨q, hq, -⟩
        cases hq
  | p :: q :: ps, hfree => by
      have ih := infix_intercalate_iff he (q :: ps)
        fun r hr => hfree r (List.mem_cons_of_mem p hr)
      rw [List.intercalate_cons_cons, List.append_assoc, List.singleton_append,
        infix_newline_iff he (hfree p List.mem_cons_self), ih, List.dropLast_cons_cons]
      simp only [List.mem_cons, exists_eq_or_imp]

/-- Texts before a line feed are the ends of the pieces that line feeds end. -/
theorem infix_iff {e : Text} (he : '\n' ∉ e) (t : Text) :
    e ++ ['\n'] <:+: t ↔ ∃ p ∈ t.pieces.dropLast, e <:+ p := by
  have h := infix_intercalate_iff he t.pieces fun p hp => not_mem_of_mem_pieces hp
  rwa [intercalate_pieces] at h

theorem getLast?_eq_return_iff {p : Text} : p.getLast? = some '\r' ↔ ['\r'] <:+ p := by
  rw [List.getLast?_eq_some_iff]
  constructor
  · rintro ⟨q, rfl⟩
    exact ⟨q, rfl⟩
  · rintro ⟨q, rfl⟩
    exact ⟨q, rfl⟩

theorem dropReturn_append (p : Text) : dropReturn (p ++ ['\r']) = p := by
  simp [dropReturn]

theorem dropReturn_eq_self_iff {p : Text} : dropReturn p = p ↔ ¬ ['\r'] <:+ p := by
  constructor
  · rintro h ⟨q, rfl⟩
    rw [dropReturn_append] at h
    have := congrArg List.length h
    simp at this
  · intro h
    unfold dropReturn
    rw [if_neg (fun hlast => h (getLast?_eq_return_iff.mp hlast))]

theorem dropReturns_eq_self_iff : ∀ (ps : List Text),
    dropReturns ps = ps ↔ ∀ p ∈ ps.dropLast, ¬ ['\r'] <:+ p
  | [] => by simp [dropReturns]
  | [p] => by simp [dropReturns]
  | p :: q :: ps => by
      have ih := dropReturns_eq_self_iff (q :: ps)
      rw [dropReturns, List.cons.injEq, dropReturn_eq_self_iff, ih, List.dropLast_cons_cons,
        List.forall_mem_cons]

theorem exists_of_mem_dropLast_dropReturns : ∀ {ps : List Text} {r : Text},
    r ∈ (dropReturns ps).dropLast → ∃ p ∈ ps.dropLast, dropReturn p = r
  | [], _, h => by cases h
  | [_], _, h => by cases h
  | p :: q :: ps, r, h => by
      rw [dropReturns, List.dropLast_cons_of_ne_nil (dropReturns_ne_nil (List.cons_ne_nil q ps))] at h
      rw [List.dropLast_cons_cons]
      rcases List.mem_cons.mp h with rfl | h
      · exact ⟨p, List.mem_cons_self, rfl⟩
      · obtain ⟨p', hp', hr⟩ := exists_of_mem_dropLast_dropReturns h
        exact ⟨p', List.mem_cons_of_mem p hp', hr⟩

theorem returns_suffix_of_dropReturn {p : Text} (h : ['\r'] <:+ dropReturn p) :
    ['\r', '\r'] <:+ p := by
  by_cases hr : ['\r'] <:+ p
  · obtain ⟨q, rfl⟩ := hr
    rw [dropReturn_append] at h
    obtain ⟨u, rfl⟩ := h
    exact ⟨u, by simp⟩
  · rw [dropReturn_eq_self_iff.mpr hr] at h
    exact absurd h hr

/-- A text loses a carriage return exactly if one stands before a line feed. -/
theorem rows_eq_pieces_iff (t : Text) : t.rows = t.pieces ↔ ¬ ['\r', '\n'] <:+: t := by
  have h := infix_iff (e := ['\r']) (by decide) t
  unfold rows
  rw [dropReturns_eq_self_iff]
  rw [show ['\r', '\n'] = ['\r'] ++ ['\n'] from rfl, h]
  constructor
  · rintro hall ⟨p, hp, hr⟩
    exact hall p hp hr
  · intro hnone p hp hr
    exact hnone ⟨p, hp, hr⟩

end BlockLayout.Text
