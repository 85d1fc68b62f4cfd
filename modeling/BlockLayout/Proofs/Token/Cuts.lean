import BlockLayout.Proofs.Text.Pieces
import BlockLayout.Proofs.Token.Branches
import BlockLayout.Token.Lexeme

/-! # Lexemes of a line

`cutLine` repeats a step of reading until the line is used up.  `Cuts` says the same as a relation
with one constructor for a token, so that facts about all lexemes of a line are proved by induction
on it.  For a step that advances the two agree (`cuts_iff`). -/

namespace BlockLayout

/-- The text that lexemes make up. -/
def Lexeme.spelled (lexemes : List Lexeme) : Text := (lexemes.map Lexeme.text).flatten

theorem Lexeme.spelled_cons (l : Lexeme) (lexemes : List Lexeme) :
    spelled (l :: lexemes) = l.text ++ spelled lexemes := by
  unfold spelled
  rw [List.map_cons, List.flatten_cons]

/-- The character before what follows a text that itself follows the character `before`. -/
def Text.lastOr (before : Option Char) (t : Text) : Option Char := t.getLast?.or before

theorem Text.lastOr_none (t : Text) : Text.lastOr none t = t.getLast? := by
  unfold Text.lastOr
  rw [Option.or_none]

theorem Text.lastOr_append {token : Text} (nonempty : token ≠ []) (before : Option Char)
    (t : Text) : Text.lastOr before (token ++ t) = Text.lastOr token.getLast? t := by
  unfold Text.lastOr
  rw [List.getLast?_append, Option.or_assoc, Option.or_of_isSome (o := token.getLast?)]
  exact List.getLast?_isSome.mpr nonempty

variable {σ : Type} {step : σ → Option Char → Text → Reading σ}

/-- The step takes at least one character of every text that has one, and no more than there
are. -/
def Advances (step : σ → Option Char → Text → Reading σ) : Prop :=
  ∀ s before input, input ≠ [] → (step s before input).Fits input

theorem advances_read : Advances Mode.read := fun mode before _ h => Mode.read_fits mode before h

/-- `Cuts step s before input lexemes last`: repeating `step` from `s` cuts the input, which follows
the character `before`, into `lexemes` and leaves `last`. -/
inductive Cuts (step : σ → Option Char → Text → Reading σ) :
    σ → Option Char → Text → List Lexeme → σ → Prop
  | nil (s : σ) (before : Option Char) : Cuts step s before [] [] s
  | cons {s next last : σ} {before : Option Char} {cls : TokenClass} {token rest : Text}
      {lexemes : List Lexeme} (nonempty : token ≠ [])
      (read : step s before (token ++ rest) = ⟨cls, token.length, next⟩)
      (tail : Cuts step next token.getLast? rest lexemes last) :
      Cuts step s before (token ++ rest) (⟨cls, token⟩ :: lexemes) last

theorem cutLine_nil (s : σ) (before : Option Char) : cutLine step s before [] = ([], s) := by
  rw [cutLine]

theorem cutLine_append {s next : σ} {before : Option Char} {cls : TokenClass} {token rest : Text}
    (nonempty : token ≠ [])
    (read : step s before (token ++ rest) = ⟨cls, token.length, next⟩) :
    cutLine step s before (token ++ rest) =
      (⟨cls, token⟩ :: (cutLine step next token.getLast? rest).1,
        (cutLine step next token.getLast? rest).2) := by
  obtain ⟨c, t, rfl⟩ := List.exists_cons_of_ne_nil nonempty
  rw [List.cons_append] at read ⊢
  rw [cutLine, read]
  simp only [List.length_cons, List.take_left', List.drop_left']

theorem Advances.exists_token (h : Advances step) (s : σ) (before : Option Char) {input : Text}
    (nonempty : input ≠ []) :
    ∃ token rest cls next, input = token ++ rest ∧ token ≠ [] ∧
      step s before input = ⟨cls, token.length, next⟩ := by
  obtain ⟨hpos, hle⟩ := h s before input nonempty
  have hlen : (input.take (step s before input).length).length = (step s before input).length :=
    List.length_take_of_le hle
  refine ⟨input.take (step s before input).length, input.drop (step s before input).length,
    (step s before input).cls, (step s before input).state, (List.take_append_drop _ _).symm,
    ?_, ?_⟩
  · rw [← List.length_pos_iff, hlen]
    exact hpos
  · rw [hlen]

theorem cuts_cutLine (h : Advances step) (s : σ) (before : Option Char) (input : Text) :
    Cuts step s before input (cutLine step s before input).1 (cutLine step s before input).2 := by
  obtain ⟨n, hn⟩ : ∃ n, input.length = n := ⟨_, rfl⟩
  induction n using Nat.strongRecOn generalizing s before input with
  | _ n ih =>
      by_cases hnil : input = []
      · subst hnil
        rw [cutLine_nil]
        exact .nil s before
      · obtain ⟨token, rest, cls, next, rfl, htoken, hread⟩ := h.exists_token s before hnil
        rw [cutLine_append htoken hread]
        have hlt : rest.length < n := by
          have := List.length_pos_iff.mpr htoken
          rw [← hn, List.length_append]
          omega
        exact .cons htoken hread (ih rest.length hlt next token.getLast? rest rfl)

namespace Cuts

variable {s last : σ} {before : Option Char} {input : Text} {lexemes : List Lexeme}

theorem cutLine_eq (h : Cuts step s before input lexemes last) :
    cutLine step s before input = (lexemes, last) := by
  induction h with
  | nil s before => exact cutLine_nil s before
  | cons nonempty read _ ih => rw [cutLine_append nonempty read, ih]

theorem spelled_eq (h : Cuts step s before input lexemes last) : Lexeme.spelled lexemes = input := by
  induction h with
  | nil => rfl
  | cons _ _ _ ih => rw [Lexeme.spelled_cons, ih]

theorem drop_front {front back : List Lexeme} (h : Cuts step s before input (front ++ back) last) :
    ∃ next rest, input = Lexeme.spelled front ++ rest ∧
      Cuts step next (Text.lastOr before (Lexeme.spelled front)) rest back last := by
  induction front generalizing s before input with
  | nil => exact ⟨s, input, rfl, h⟩
  | cons l front ih =>
      cases h with
      | @cons _ next _ _ cls token rest _ nonempty read tail =>
          obtain ⟨next', rest', rfl, hback⟩ := ih tail
          refine ⟨next', rest', ?_, ?_⟩
          · rw [Lexeme.spelled_cons, List.append_assoc]
          · rw [Lexeme.spelled_cons, Text.lastOr_append nonempty]
            exact hback

end Cuts

/-- The relation is the graph of `cutLine`. -/
theorem cuts_iff (h : Advances step) {s last : σ} {before : Option Char} {input : Text}
    {lexemes : List Lexeme} :
    Cuts step s before input lexemes last ↔ cutLine step s before input = (lexemes, last) := by
  constructor
  · exact Cuts.cutLine_eq
  · intro heq
    have := cuts_cutLine h s before input
    rw [heq] at this
    exact this

/-! ## The tokens that can be seen

`Mode.visibleFrom` reads a text token by token and passes over blanks before each.  `Mode.Sees` says
the same as a relation with one constructor for a blank and one for a token, so that facts about the
visible tokens of a text are proved by induction on it.  The two agree (`sees_iff`). -/

namespace Mode

/-- `Sees mode before input lexemes last`: reading the input, which follows the character `before`, with
blanks passed over before each token gives `lexemes` and leaves `last`. -/
inductive Sees : Mode → Option Char → Text → List Lexeme → Mode → Prop
  | nil (mode : Mode) (before : Option Char) : Sees mode before [] [] mode
  | blank {mode last : Mode} {before : Option Char} {c : Char} {t : Text} {lexemes : List Lexeme}
      (blank : Text.isBlank c = true) (tail : Sees mode (some c) t lexemes last) :
      Sees mode before (c :: t) lexemes last
  | token {mode next last : Mode} {before : Option Char} {cls : TokenClass} {token rest : Text}
      {lexemes : List Lexeme} (nonempty : token ≠ []) (visible : token.StartsVisible)
      (read : read mode before (token ++ rest) = ⟨cls, token.length, next⟩)
      (tail : Sees next token.getLast? rest lexemes last) :
      Sees mode before (token ++ rest) (⟨cls, token⟩ :: lexemes) last

variable {mode next last : Mode} {before : Option Char}

theorem visibleFrom_nil : visibleFrom mode before [] = ([], mode) := by
  rw [visibleFrom]

theorem visibleFrom_blank {c : Char} (blank : Text.isBlank c = true) (t : Text) :
    visibleFrom mode before (c :: t) = visibleFrom mode (some c) t := by
  rw [visibleFrom, if_pos blank]

theorem visibleFrom_token {cls : TokenClass} {token rest : Text} (nonempty : token ≠ [])
    (visible : token.StartsVisible)
    (read : read mode before (token ++ rest) = ⟨cls, token.length, next⟩) :
    visibleFrom mode before (token ++ rest) =
      (⟨cls, token⟩ :: (visibleFrom next token.getLast? rest).1,
        (visibleFrom next token.getLast? rest).2) := by
  obtain ⟨c, t, rfl⟩ := List.exists_cons_of_ne_nil nonempty
  have hvisible : ¬ Text.isBlank c = true := Bool.eq_false_iff.mp (Text.startsVisible_cons.mp visible)
  rw [List.cons_append] at read ⊢
  rw [visibleFrom, if_neg hvisible, read]
  simp only [List.length_cons, List.take_left', List.drop_left']

theorem Sees.visibleFrom_eq {input : Text} {lexemes : List Lexeme}
    (h : Sees mode before input lexemes last) : visibleFrom mode before input = (lexemes, last) := by
  induction h with
  | nil mode before => exact visibleFrom_nil
  | blank blank _ ih => rw [visibleFrom_blank blank, ih]
  | token nonempty visible read _ ih => rw [visibleFrom_token nonempty visible read, ih]

theorem sees_visibleFrom (mode : Mode) (before : Option Char) (input : Text) :
    Sees mode before input (visibleFrom mode before input).1 (visibleFrom mode before input).2 := by
  obtain ⟨n, hn⟩ : ∃ n, input.length = n := ⟨_, rfl⟩
  induction n using Nat.strongRecOn generalizing mode before input with
  | _ n ih =>
      cases input with
      | nil =>
          rw [visibleFrom_nil]
          exact .nil mode before
      | cons c t =>
          cases hc : Text.isBlank c with
          | true =>
              rw [visibleFrom_blank hc]
              exact .blank hc (ih t.length (by rw [← hn]; exact Nat.lt_succ_self _) _ _ t rfl)
          | false =>
              obtain ⟨token, rest, cls, next, hsplit, htoken, hread⟩ :=
                advances_read.exists_token mode before (List.cons_ne_nil c t)
              have hstarts : Text.StartsVisible (c :: t) := Text.startsVisible_cons.mpr hc
              rw [hsplit] at hread hn hstarts ⊢
              have hvisible : token.StartsVisible := hstarts.of_append htoken
              rw [visibleFrom_token htoken hvisible hread]
              have hlt : rest.length < n := by
                have := List.length_pos_iff.mpr htoken
                rw [← hn, List.length_append]
                omega
              exact .token htoken hvisible hread (ih rest.length hlt next token.getLast? rest rfl)

/-- The relation is the graph of `visibleFrom`. -/
theorem sees_iff {input : Text} {lexemes : List Lexeme} :
    Sees mode before input lexemes last ↔ visibleFrom mode before input = (lexemes, last) := by
  constructor
  · exact Sees.visibleFrom_eq
  · intro heq
    have := sees_visibleFrom mode before input
    rw [heq] at this
    exact this

end Mode

/-! ## Spans and offsets

Spans see the place of a line only in their offsets: moving the first lexeme moves every span along
(`place_add`), and whether two spans join does not change.  A blank lexeme in front therefore moves
the spans of a line by its length and does nothing else (`ofLexemes_cons_blank`).

A placed lexeme starts where the lexemes before it end (`mem_place_iff`), and what covers that offset
is of its class (`cls_of_covers`). -/

namespace Span

/-- The span some bytes further on. -/
def moved (d : Nat) (s : Span) : Span := { s with start := s.start + d, stop := s.stop + d }

/-- The offset lies in the span. -/
def Covers (t : Span) (offset : Nat) : Prop := t.start ≤ offset ∧ offset < t.stop

instance (t : Span) (offset : Nat) : Decidable (t.Covers offset) :=
  inferInstanceAs (Decidable (_ ∧ _))

theorem place_add (d n : Nat) (ls : List Lexeme) : place (n + d) ls = (place n ls).map (moved d) := by
  induction ls generalizing n with
  | nil => rfl
  | cons l ls ih =>
      have hstop : n + d + l.text.byteLength = n + l.text.byteLength + d := by omega
      rw [place, place, hstop, ih, List.map_cons]
      rfl

theorem place_append (n : Nat) (front back : List Lexeme) :
    place n (front ++ back) =
      place n front ++ place (n + (Lexeme.spelled front).byteLength) back := by
  induction front generalizing n with
  | nil => rfl
  | cons l front ih =>
      rw [List.cons_append, place, place, ih, Lexeme.spelled_cons, Text.byteLength_append,
        Nat.add_assoc, List.cons_append]

theorem bounds_of_mem_place {n : Nat} {lexemes : List Lexeme} {t : Span}
    (h : t ∈ place n lexemes) :
    n ≤ t.start ∧ t.stop ≤ n + (Lexeme.spelled lexemes).byteLength := by
  induction lexemes generalizing n with
  | nil => exact absurd h List.not_mem_nil
  | cons l lexemes ih =>
      rw [Lexeme.spelled_cons, Text.byteLength_append]
      rcases List.mem_cons.mp h with rfl | h
      · exact ⟨Nat.le_refl n, by simp only; omega⟩
      · obtain ⟨hstart, hstop⟩ := ih h
        omega

/-- The span of a lexeme, placed behind the lexemes before it. -/
theorem mem_place_iff {n : Nat} {lexemes : List Lexeme} {t : Span} :
    t ∈ place n lexemes ↔ ∃ front l back, lexemes = front ++ l :: back ∧
      t = ⟨n + (Lexeme.spelled front).byteLength,
        n + (Lexeme.spelled front).byteLength + l.text.byteLength, l.text, l.cls⟩ := by
  constructor
  · intro h
    induction lexemes generalizing n with
    | nil => exact absurd h List.not_mem_nil
    | cons l lexemes ih =>
        rcases List.mem_cons.mp h with rfl | h
        · exact ⟨[], l, lexemes, rfl, rfl⟩
        · obtain ⟨front, m, back, rfl, rfl⟩ := ih h
          refine ⟨l :: front, m, back, rfl, ?_⟩
          rw [Lexeme.spelled_cons, Text.byteLength_append, Nat.add_assoc n]
  · rintro ⟨front, l, back, rfl, rfl⟩
    rw [place_append]
    exact List.mem_append_right _ List.mem_cons_self

theorem cls_of_covers {n : Nat} {front back : List Lexeme} {l : Lexeme} (nonempty : l.text ≠ [])
    {t : Span} (h : t ∈ place n (front ++ l :: back))
    (covers : t.Covers (n + (Lexeme.spelled front).byteLength)) : t.cls = l.cls := by
  obtain ⟨hstart, hstop⟩ := covers
  rw [place_append, place] at h
  rcases List.mem_append.mp h with h | h
  · have hbound := (bounds_of_mem_place h).2
    omega
  · rcases List.mem_cons.mp h with rfl | h
    · rfl
    · have hbound := (bounds_of_mem_place h).1
      have hpos := Text.byteLength_pos nonempty
      omega

theorem joins_moved (d : Nat) (s t : Span) : (s.moved d).joins (t.moved d) = s.joins t := by
  have hoffset : (s.stop + d == t.start + d) = (s.stop == t.start) := by
    rw [Bool.eq_iff_iff, beq_iff_eq, beq_iff_eq]
    omega
  unfold joins moved
  rw [hoffset]

theorem consJoined_moved (d : Nat) (s : Span) (ts : List Span) :
    consJoined (s.moved d) (ts.map (moved d)) = (consJoined s ts).map (moved d) := by
  cases ts with
  | nil => rfl
  | cons t ts =>
      rw [List.map_cons, consJoined, consJoined, joins_moved]
      by_cases h : s.joins t = true
      · rw [if_pos h, if_pos h]
        rfl
      · rw [if_neg h, if_neg h]
        rfl

theorem foldr_consJoined_moved (d : Nat) (ss : List Span) :
    (ss.map (moved d)).foldr consJoined [] = (ss.foldr consJoined []).map (moved d) := by
  induction ss with
  | nil => rfl
  | cons s ss ih => rw [List.map_cons, List.foldr_cons, List.foldr_cons, ih, consJoined_moved]

/-- A blank lexeme in front moves the spans and is none itself. -/
theorem ofLexemes_cons_blank {l : Lexeme} (blank : l.text.isAllBlank = true) (ls : List Lexeme) :
    ofLexemes (l :: ls) = (ofLexemes ls).map (moved l.text.byteLength) := by
  have hplace : place 0 (l :: ls) =
      ⟨0, l.text.byteLength, l.text, l.cls⟩ :: (place 0 ls).map (moved l.text.byteLength) := by
    rw [← place_add, place, Nat.zero_add]
  unfold ofLexemes
  rw [hplace, List.filter_cons, blank, ← foldr_consJoined_moved, List.filter_map]
  rfl

end Span

end BlockLayout
