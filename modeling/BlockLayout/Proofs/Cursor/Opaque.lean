import BlockLayout.Proofs.Cursor.OpenModes
import BlockLayout.Proofs.Text.TabStops
import BlockLayout.Proofs.Token.Bodies
import BlockLayout.Proofs.Token.Lookahead

/-! # What stands in a comment or a string

The text of a comment or a string plays no part in how the rest of its line is read.  Two lines that
differ in it are read by two runs, and `Reads.replay` carries one over to the other: in front of the
token no reading looks past the mark that it begins with (`next_before_mark`), and behind it a reading
sees no more of it than its last character, the mark that it ends with.

Main statement: `comment_and_string_bodies_opaque`. -/

namespace BlockLayout

/-- The span with another text from the same start. -/
def Span.withText (s : Span) (text : Text) : Span :=
  { s with stop := s.start + text.byteLength, text }

theorem Mode.IsMark.isBlank_eq_false {d : Char} (mark : IsMark d) : Text.isBlank d = false := by
  rcases mark with rfl | rfl <;> decide

open Mode (IsMark)

/-! ### In front of a mark -/

section before

variable {d : Char} (mark : IsMark d) (u t t' : Text)

include mark

theorem Text.leadingBlanks_before_mark :
    leadingBlanks (u ++ d :: t') = leadingBlanks (u ++ d :: t) := by
  have hstop : ∀ t : Text, ∀ c ∈ (d :: t).head?, isBlank c = false := fun t c hc =>
    Option.some.inj hc ▸ mark.isBlank_eq_false
  unfold leadingBlanks
  rw [takeWhile_append_of_stop (hstop t'), takeWhile_append_of_stop (hstop t)]

theorem LineState.measure_before_mark (tabSize : Nat) (before : Option Char) (s : LineState) :
    s.measure tabSize before (u ++ d :: t') = s.measure tabSize before (u ++ d :: t) := by
  unfold measure
  rw [← Text.columns_leadingBlanks, Text.leadingBlanks_before_mark mark u t t',
    Text.columns_leadingBlanks]

/-- A token that ends in front of a mark is the same whatever follows the mark. -/
theorem LineState.next_before_mark {tabSize : Nat} {s next' : LineState} {before : Option Char}
    {cls : TokenClass} {token more : Text} (nonempty : token ≠ [])
    (read : next tabSize s before (token ++ (more ++ d :: t)) = ⟨cls, token.length, next'⟩) :
    next tabSize s before (token ++ (more ++ d :: t')) = ⟨cls, token.length, next'⟩ := by
  rw [← List.append_assoc] at read ⊢
  have hnonempty : token ++ more ≠ [] := List.append_ne_nil_of_left_ne_nil nonempty more
  have hblanks := Text.leadingBlanks_before_mark mark (token ++ more) t t'
  rw [← read]
  rcases Text.leadingBlanks_ne_nil_or (List.append_ne_nil_of_left_ne_nil hnonempty (d :: t)) with
    hblank | ⟨c, v, hv, hc⟩
  · rw [next_of_leadingBlanks tabSize s before hblank,
      next_of_leadingBlanks tabSize s before (by rwa [hblanks]), hblanks,
      measure_before_mark mark (token ++ more) t t']
  · obtain ⟨e, w, hw⟩ := List.exists_cons_of_ne_nil hnonempty
    rw [hw, List.cons_append] at hv
    obtain rfl : e = c := (List.cons.inj hv).1
    have hshort : (s.mode.read before (token ++ more ++ d :: t)).length ≤
        (token ++ more).length := by
      rw [hw, List.cons_append, next_visible tabSize s before _ hc, ← List.cons_append, ← hw] at read
      have hlength : (s.mode.read before (token ++ more ++ d :: t)).length = token.length :=
        congrArg Reading.length read
      rw [hlength, List.length_append]
      exact Nat.le_add_right _ _
    have hread := Mode.read_before_mark mark hnonempty hshort t'
    have hmeasure := measure_before_mark mark (token ++ more) t t' tabSize before s
    rw [hw, List.cons_append, List.cons_append] at hread hmeasure ⊢
    rw [next_visible tabSize s before _ hc, next_visible tabSize s before _ hc, hread, hmeasure]

theorem LineState.next_exchange {tabSize : Nat} {s next' : LineState} {before : Option Char}
    {cls clsRead : TokenClass} {u u' rest : Text} (base : s.mode = .base)
    (same : Mode.Exchangeable cls (d :: u) (d :: u'))
    (read : next tabSize s before (d :: u ++ rest) = ⟨clsRead, (d :: u).length, next'⟩) :
    clsRead = cls ∧
      next tabSize s before (d :: u' ++ rest) = ⟨cls, (d :: u').length, next'⟩ ∧
      (rest = [] ∨ (d :: u').getLast? = (d :: u).getLast?) := by
  have hmeasure := measure_before_mark mark [] (u ++ rest) (u' ++ rest) tabSize before s
  rw [List.cons_append, next_visible tabSize s before _ mark.isBlank_eq_false, base] at read
  rw [List.cons_append, next_visible tabSize s before _ mark.isBlank_eq_false, base]
  obtain ⟨hold, hnew, hrest⟩ := same before rest (congrArg Reading.length read)
  have hcls := congrArg Reading.cls read
  have hstate := congrArg Reading.state read
  simp only [Mode.read, List.nil_append, List.cons_append] at hold hnew hmeasure hcls hstate ⊢
  rw [hold] at hcls hstate
  rw [hnew, hmeasure]
  exact ⟨hcls.symm, by rw [← hstate], hrest⟩

end before

namespace Cursor

/-! ### Carrying a run over -/

section replay

variable {σ : Type} {step : σ → Option Char → Text → Reading σ} {tabSize : Nat}
  {read : Cursor → σ → Except Fault TokenClass × Cursor × σ}

theorem Reads.append {c c' c'' : Cursor} {s s' s'' : σ} {tokens tokens' : List Span}
    (run : Reads read c s tokens c' s') (run' : Reads read c' s' tokens' c'' s'') :
    Reads read c s (tokens ++ tokens') c'' s'' := by
  induction run with
  | nil => exact run'
  | cons more token shown _ ih => exact .cons more token shown (ih run')

theorem Reads.eq_nil_of_isAtEnd {c c' : Cursor} {s s' : σ} {tokens : List Span}
    (run : Reads read c s tokens c' s') (ended : c.isAtEnd = true) : tokens = [] := by
  cases run with
  | nil => rfl
  | cons more =>
      rw [ended] at more
      cases more

variable (eq : ∀ c s, c.tabSize = tabSize → read c s = c.readWith step s)
include eq

theorem Reads.uncons (adv : Advances step) {c c' : Cursor} {s s' : σ} {token : Span}
    {tokens : List Span} (run : Reads read c s (token :: tokens) c' s') (tab : c.tabSize = tabSize)
    {before after : Text} (stands : c.StandsAt before after) :
    ∃ text rest cls c₁ s₁, after = text ++ rest ∧ text ≠ [] ∧
      token = ⟨before.byteLength, (before ++ text).byteLength, text, cls⟩ ∧
      step s before.getLast? (text ++ rest) = ⟨cls, text.length, s₁⟩ ∧
      c₁.tabSize = tabSize ∧ c₁.StandsAt (before ++ text) rest ∧ Reads read c₁ s₁ tokens c' s' := by
  cases run with
  | @cons _ c₁ _ _ s₁ _ cls text _ more token shown tail =>
      obtain ⟨rest, rfl, hne, -, htab, hstart, hstands, hstep⟩ :=
        exists_rest adv eq tab stands more token shown
      refine ⟨text, rest, cls, c₁, s₁, rfl, hne, ?_, hstep, htab, hstands, tail⟩
      rw [hstart, stands.2, hstands.2]

theorem StandsAt.exists_cons {d : Cursor} {before token rest : Text}
    (stands : d.StandsAt before (token ++ rest)) (tab : d.tabSize = tabSize) (nonempty : token ≠ [])
    {s s₁ : σ} {cls : TokenClass}
    (token_read : step s before.getLast? (token ++ rest) = ⟨cls, token.length, s₁⟩) :
    ∃ d₁, d₁.tabSize = tabSize ∧ d₁.StandsAt (before ++ token) rest ∧
      ∀ {tokens d' s'}, Reads read d₁ s₁ tokens d' s' →
        Reads read d s
          (⟨before.byteLength, (before ++ token).byteLength, token, cls⟩ :: tokens) d' s' := by
  have hmore : d.isAtEnd = false := by
    refine Bool.eq_false_iff.mpr fun hend => nonempty ?_
    exact (List.append_eq_nil_iff.mp (stands.isAtEnd_iff.mp hend)).1
  have hline : d.line = before ++ (token ++ rest) := stands.1
  refine ⟨{ d with position := (before ++ token).byteLength, start := d.position }, tab,
    ⟨?_, rfl⟩, fun {tokens d' s'} tail => ?_⟩
  · rw [List.append_assoc]
    exact hline
  · have hread := (eq d s tab).trans (stands.readWith_eq token_read)
    have hcons := Reads.cons hmore hread (current_eq hline stands.2 rfl) tail
    rw [← stands.2]
    exact hcons

/-- A run over a text is carried over to a cursor elsewhere that stands in front of the same text, behind
the same character, if the tokens do not depend on the difference between what follows the text here
and there. -/
theorem Reads.replay (adv : Advances step) {rest rest' : Text}
    (same : ∀ {s before token more cls next}, token ≠ [] →
      step s before (token ++ (more ++ rest)) = ⟨cls, token.length, next⟩ →
        step s before (token ++ (more ++ rest')) = ⟨cls, token.length, next⟩)
    {c c' d : Cursor} {s s' : σ} {tokens : List Span} (run : Reads read c s tokens c' s')
    {before text before' : Text} (tab : c.tabSize = tabSize) (tab' : d.tabSize = tabSize)
    (stands : c.StandsAt before (text ++ rest)) (stops : c'.StandsAt (before ++ text) rest)
    (stands' : d.StandsAt before' (text ++ rest')) (last : before'.getLast? = before.getLast?) :
    ∃ lexemes d', tokens = Span.place before.byteLength lexemes ∧
      Reads read d s (Span.place before'.byteLength lexemes) d' s' ∧ d'.tabSize = tabSize ∧
      d'.StandsAt (before' ++ text) rest' := by
  induction tokens generalizing c d s before text before' with
  | nil =>
      cases run
      obtain ⟨hbefore, -⟩ := stops.unique stands
      obtain rfl : text = [] := List.self_eq_append_right.mp hbefore.symm
      refine ⟨[], d, rfl, .nil _ _, tab', ?_⟩
      rw [List.append_nil]
      exact stands'
  | cons token tokens ih =>
      obtain ⟨first, behind, cls, c₁, s₁, hinput, hne, rfl, hread, htab, hstands, hrun⟩ :=
        run.uncons eq adv tab stands
      obtain ⟨rest₁, rfl, -, -, hstops, -⟩ := hrun.standsAt adv eq htab hstands
      obtain ⟨hbefore, rfl⟩ := hstops.unique stops
      rw [List.append_assoc] at hbefore
      obtain rfl := List.append_cancel_left hbefore
      rw [List.append_assoc] at stands'
      obtain ⟨d₁, htab', hstands', hcons⟩ := stands'.exists_cons eq tab' hne
        (last ▸ same hne hread)
      have hlast : (before' ++ first).getLast? = (before ++ first).getLast? := by
        rw [List.getLast?_append, List.getLast?_append, last]
      obtain ⟨lexemes, d', rfl, hrun', htab'', hstands''⟩ :=
        ih hrun htab htab' hstands hstops hstands' hlast
      refine ⟨⟨cls, first⟩ :: lexemes, d', ?_, ?_, htab'', ?_⟩
      · rw [Span.place, Text.byteLength_append]
      · have hrun'' := hcons hrun'
        rw [Text.byteLength_append] at hrun''
        exact hrun''
      · rw [← List.append_assoc]
        exact hstands''

end replay

/-! ### Another text for a token -/

section exchange

variable {tabSize : Nat} {s last : LineState} {line : Text} {front back : List Span} {token : Span}

/-- The line is read from its start to its end: the tokens `front`, then in ordinary code the token, and
then the tokens `back`, which leave the state `last`. -/
def ReadsCode (tabSize : Nat) (s : LineState) (line : Text) (front : List Span) (token : Span)
    (back : List Span) (last : LineState) : Prop :=
  ∃ c code c', Reads readToken (atStart line tabSize) s front c code ∧ code.mode = .base ∧
    Reads readToken c code (token :: back) c' last ∧ c'.isAtEnd = true

/-- With another text in the place of the token, the line is read to the same tokens in front of it, to
one token of the same class, to the same tokens behind it, which only start elsewhere, and to the same
state. -/
def ReadsAlike (tabSize : Nat) (s : LineState) (front : List Span) (token : Span) (back : List Span)
    (last : LineState) (text : Text) : Prop :=
  ∃ later : List Span, back = later.map (Span.moved token.text.byteLength) ∧
    ReadsCode tabSize s ((front.map Span.text).flatten ++ (text ++ (back.map Span.text).flatten))
      front (token.withText text) (later.map (Span.moved text.byteLength)) last

theorem ReadsCode.line_eq (h : ReadsCode tabSize s line front token back last) :
    line = (front.map Span.text).flatten ++ (token.text ++ (back.map Span.text).flatten) := by
  obtain ⟨c, code, c', before, -, behind, ended⟩ := h
  obtain ⟨hspelled, -⟩ := (lossless (LineState.advances_next tabSize) readToken_eq line s).spells
    (before.append behind) ended
  rw [List.map_append, List.flatten_append, List.map_cons, List.flatten_cons] at hspelled
  exact hspelled.symm

theorem ReadsCode.back_eq_nil {body : Text} (h : ReadsCode tabSize s line front token back last)
    (text : token.text = lineCommentMark ++ body) : back = [] := by
  obtain ⟨c, code, c', before, base, behind, -⟩ := h
  obtain ⟨rest, -, -, htab, hstands, -⟩ :=
    before.standsAt (LineState.advances_next tabSize) readToken_eq rfl
      (standsAt_atStart line tabSize)
  obtain ⟨first, rest', cls, c₁, s₁, rfl, -, rfl, hread, -, hstands₁, hrun⟩ :=
    behind.uncons readToken_eq (LineState.advances_next tabSize) htab hstands
  obtain rfl : first = lineCommentMark ++ body := text
  have hwhole : (body ++ rest').length + 2 = body.length + 2 := by
    have hvisible := LineState.next_visible tabSize code
      ([] ++ (front.map Span.text).flatten).getLast? ('/' :: (body ++ rest')) (c := '/') (by decide)
    rw [base] at hvisible
    exact congrArg Reading.length (hvisible.symm.trans hread)
  rw [List.length_append] at hwhole
  obtain rfl : rest' = [] := List.length_eq_zero_iff.mp (by omega)
  exact hrun.eq_nil_of_isAtEnd (hstands₁.isAtEnd_iff.mpr rfl)

theorem Reads.behind {c c' d : Cursor} {s s' : LineState} {tokens : List Span}
    (run : Reads readToken c s tokens c' s') (ended : c'.isAtEnd = true) {before before' after : Text}
    (tab : c.tabSize = tabSize) (tab' : d.tabSize = tabSize) (stands : c.StandsAt before after)
    (stands' : d.StandsAt before' after)
    (last : after = [] ∨ before'.getLast? = before.getLast?) :
    ∃ lexemes d', tokens = Span.place before.byteLength lexemes ∧
      Reads readToken d s (Span.place before'.byteLength lexemes) d' s' ∧ d'.isAtEnd = true := by
  rcases last with rfl | last
  · obtain rfl := run.eq_nil_of_isAtEnd (stands.isAtEnd_iff.mpr rfl)
    cases run
    exact ⟨[], d, rfl, .nil _ _, stands'.isAtEnd_iff.mpr rfl⟩
  · have adv := LineState.advances_next tabSize
    obtain ⟨rest, rfl, -, -, hstops, -⟩ := run.standsAt adv readToken_eq tab stands
    obtain rfl := hstops.isAtEnd_iff.mp ended
    obtain ⟨lexemes, d', rfl, hrun, -, hstands⟩ :=
      run.replay readToken_eq adv (fun _ h => h) tab tab' stands hstops stands' last
    exact ⟨lexemes, d', rfl, hrun, hstands.isAtEnd_iff.mpr rfl⟩

/-- A token whose text begins with a mark, and another text that may stand for it. -/
theorem ReadsCode.exchange {d : Char} (mark : IsMark d) {cls : TokenClass} {u u' : Text}
    (same : Mode.Exchangeable cls (d :: u) (d :: u'))
    (h : ReadsCode tabSize s line front token back last) (text : token.text = d :: u) :
    token.cls = cls ∧ ReadsAlike tabSize s front token back last (d :: u') := by
  have adv := LineState.advances_next tabSize
  obtain ⟨c, code, c', before, base, behind, ended⟩ := h
  obtain ⟨rest, rfl, -, htab, hstands, -⟩ :=
    before.standsAt adv readToken_eq rfl (standsAt_atStart line tabSize)
  rw [List.nil_append] at hstands
  obtain ⟨first, rest', clsRead, c₁, s₁, rfl, -, rfl, hread, htab₁, hstands₁, hrun⟩ :=
    behind.uncons readToken_eq adv htab hstands
  obtain rfl : first = d :: u := text
  obtain ⟨_, rfl, -, -, hstops, -⟩ := hrun.standsAt adv readToken_eq htab₁ hstands₁
  obtain rfl := hstops.isAtEnd_iff.mp ended
  rw [List.append_nil] at before hstands hread hstands₁
  obtain ⟨rfl, hread', hlast⟩ := LineState.next_exchange mark base same hread
  have hstart := standsAt_atStart
    ((front.map Span.text).flatten ++ (d :: u' ++ (back.map Span.text).flatten)) tabSize
  obtain ⟨lexemes, c₂, hfront, hrun₂, htab₂, hstands₂⟩ :=
    before.replay readToken_eq adv (LineState.next_before_mark mark _ _) rfl rfl
      (standsAt_atStart _ tabSize) hstands hstart rfl
  rw [← hfront] at hrun₂
  rw [List.nil_append] at hstands₂
  obtain ⟨c₃, htab₃, hstands₃, hcons⟩ :=
    hstands₂.exists_cons readToken_eq htab₂ (List.cons_ne_nil d u') hread'
  have hbehind : (back.map Span.text).flatten = [] ∨
      ((front.map Span.text).flatten ++ d :: u').getLast? =
        ((front.map Span.text).flatten ++ d :: u).getLast? := by
    refine hlast.imp_right fun h => ?_
    rw [List.getLast?_append, h, List.getLast?_append]
  obtain ⟨later, c₄, hback, hrun₄, hend⟩ :=
    hrun.behind ended htab₁ htab₃ hstands₁ hstands₃ hbehind
  have hnew := hcons hrun₄
  rw [Text.byteLength_append, Span.place_add] at hback
  rw [Text.byteLength_append, Span.place_add] at hnew
  exact ⟨rfl, Span.place _ later, hback, c₂, code, c₄, hrun₂, base, hnew, hend⟩

/-- **The bodies of comments and strings are opaque.**  Let a line be read to its end, from any state,
and let one of its tokens start in ordinary code.  A comment that ends with the line is its last token,
and any other text may follow the two slashes.  A block comment that is closed may have any other body
that its end mark does not close earlier, and a string any other body with which its last quote is its
end.  In each case the other tokens are the same but for their offsets, and so is the state at the end
of the line. -/
theorem comment_and_string_bodies_opaque (h : ReadsCode tabSize s line front token back last) :
    line = (front.map Span.text).flatten ++ (token.text ++ (back.map Span.text).flatten) ∧
    (∀ body, token.text = lineCommentMark ++ body →
      token.cls = .comment ∧ back = [] ∧
        ∀ body', ReadsAlike tabSize s front token back last (lineCommentMark ++ body')) ∧
    (∀ body, token.text = blockCommentMarks.1 ++ body ++ blockCommentMarks.2 →
      token.cls = .comment ∧
        ∀ body', Text.FirstBehind blockCommentMarks.2 body' →
          ReadsAlike tabSize s front token back last
            (blockCommentMarks.1 ++ body' ++ blockCommentMarks.2)) ∧
    ∀ body, token.text = '"' :: (body ++ ['"']) →
      token.cls = .string ∧
        ∀ body', Text.IsStringBody '"' body' →
          ReadsAlike tabSize s front token back last ('"' :: (body' ++ ['"'])) := by
  have slash : IsMark '/' := Or.inl rfl
  have quote : IsMark '"' := Or.inr rfl
  refine ⟨h.line_eq, fun body text => ?_, fun body text => ?_, fun body text => ?_⟩
  · have exchanged := fun body' => h.exchange slash (Mode.exchangeable_lineComment body body') text
    exact ⟨(exchanged body).1, h.back_eq_nil text, fun body' => (exchanged body').2⟩
  · have exchanged := fun body' (first : Text.FirstBehind blockCommentMarks.2 body') =>
      h.exchange slash (Mode.exchangeable_blockComment body first) text
    exact ⟨(exchanged [] (by decide)).1, fun body' first => (exchanged body' first).2⟩
  · have exchanged := fun body' (ok : Text.IsStringBody '"' body') =>
      h.exchange quote (Mode.exchangeable_string body ok) text
    exact ⟨(exchanged [] (by decide)).1, fun body' ok => (exchanged body' ok).2⟩

/-- A line with one token of each kind, side by side. -/
theorem bodies_opaque_side_by_side :
    let s : LineState := LineState.start {}
    let number : Span := ⟨0, 1, "1".toList, .number⟩
    let block : Span := ⟨1, 6, "/*a*/".toList, .comment⟩
    let string : Span := ⟨6, 9, "\"b\"".toList, .string⟩
    let line : Span := ⟨9, 12, "//c".toList, .comment⟩
    ReadsAlike 4 s [number, block, string] line [] s "//\"end".toList ∧
      ReadsAlike 4 s [number] block [string, line] s "/*if \"/***/".toList ∧
      ReadsAlike 4 s [number, block] string [line] s "\"\\\"// if\\\\\"".toList := by
  intro s number block string line
  let text : Text := "1/*a*/\"b\"//c".toList
  let c₁ : Cursor := ⟨text, 1, 0, 4⟩
  let c₂ : Cursor := ⟨text, 6, 1, 4⟩
  let c₃ : Cursor := ⟨text, 9, 6, 4⟩
  let c₄ : Cursor := ⟨text, 12, 9, 4⟩
  have one : Reads readToken (atStart text 4) s
      [⟨c₁.start, c₁.position, number.text, .number⟩] c₁ s :=
    .cons rfl ((readToken_eq _ s rfl).trans rfl) rfl (.nil c₁ s)
  have two : Reads readToken c₁ s [⟨c₂.start, c₂.position, block.text, .comment⟩] c₂ s :=
    .cons rfl ((readToken_eq _ s rfl).trans rfl) rfl (.nil c₂ s)
  have three : Reads readToken c₂ s [⟨c₃.start, c₃.position, string.text, .string⟩] c₃ s :=
    .cons rfl ((readToken_eq _ s rfl).trans rfl) rfl (.nil c₃ s)
  have four : Reads readToken c₃ s [⟨c₄.start, c₄.position, line.text, .comment⟩] c₄ s :=
    .cons rfl ((readToken_eq _ s rfl).trans rfl) rfl (.nil c₄ s)
  obtain ⟨-, hline, -⟩ := comment_and_string_bodies_opaque
    ⟨c₃, s, c₄, (one.append two).append three, rfl, four, rfl⟩
  obtain ⟨-, -, hblock, -⟩ := comment_and_string_bodies_opaque
    ⟨c₁, s, c₄, one, rfl, two.append (three.append four), rfl⟩
  obtain ⟨-, -, -, hstring⟩ := comment_and_string_bodies_opaque
    ⟨c₂, s, c₄, one.append two, rfl, three.append four, rfl⟩
  exact ⟨(hline "c".toList rfl).2.2 "\"end".toList,
    (hblock "a".toList rfl).2 "if \"/**".toList (by decide),
    (hstring "b".toList rfl).2 "\\\"// if\\\\".toList (by decide)⟩

end exchange

end Cursor

end BlockLayout
