import BlockLayout.Proofs.Cursor.Lossless
import BlockLayout.Proofs.Document.OpenStrings

/-! # Modes other than ordinary code

A comment or a string is open behind a token only at the end of the line, or because the token is a run
of blanks, for which the mode is not looked at (`mode_read`, `mode_next`).  So once a token of a line
can be seen, the rest of the line is read in ordinary code (`Reads.base_or_atEnd`).

In a document only strings that a double quote ends can be open at all, wherever reading stands
(`arises_stateAfter`, `Reads.keeps`).  Main statement: `open_mode_at_line_end`. -/

namespace BlockLayout

/-! ### One token -/

namespace Mode

/-- The mode can arise in a document. -/
def Arises (mode : Mode) : Prop := mode = .base ∨ mode = .blockComment ∨ mode = .string '"'

variable {mode : Mode} (before : Option Char) {input : Text}

theorem Arises.read (h : mode.Arises) (nonempty : input ≠ []) :
    (mode.read before input).state.Arises := by
  by_cases hopen : (mode.read before input).state = .base
  · exact Or.inl hopen
  · cases hstate : (mode.read before input).state with
    | base => exact absurd hstate hopen
    | blockComment => exact Or.inr (Or.inl rfl)
    | string q =>
        obtain ⟨-, ⟨-, rfl⟩ | rfl⟩ := (read_open nonempty hopen).escape q hstate
        · exact Or.inr (Or.inr rfl)
        · exact h

end Mode

namespace LineState

variable (tabSize : Nat) (s : LineState) (before : Option Char) (input : Text)

theorem next_nil : (next tabSize s before []).length = 0 := by
  unfold next
  exact Mode.read_nil _ before

theorem length_next_le : (next tabSize s before input).length ≤ input.length := by
  by_cases hnil : input = []
  · rw [hnil, next_nil]
    exact Nat.zero_le _
  · exact (next_fits tabSize s before hnil).2

/-- A token leaves ordinary code, is the rest of the line, or is a run of blanks and leaves the mode as
it was. -/
theorem mode_next :
    (next tabSize s before input).state.mode = .base ∨
      (next tabSize s before input).length = input.length ∨
      (next tabSize s before input).length = input.leadingBlanks.length ∧
        input.leadingBlanks ≠ [] ∧ (next tabSize s before input).state.mode = s.mode := by
  by_cases hnil : input = []
  · subst hnil
    exact Or.inr (Or.inl (next_nil tabSize s before))
  · rcases Text.leadingBlanks_ne_nil_or hnil with hblank | ⟨c, t, rfl, hc⟩
    · rw [next_of_leadingBlanks tabSize s before hblank]
      exact Or.inr (Or.inr ⟨rfl, hblank, mode_measure tabSize s before input⟩)
    · rw [next_visible tabSize s before t hc, mode_pass]
      exact (Mode.mode_read s.mode before (c :: t)).imp_right Or.inl

theorem arises_next (h : s.mode.Arises) (nonempty : input ≠ []) :
    (next tabSize s before input).state.mode.Arises := by
  rcases Text.leadingBlanks_ne_nil_or nonempty with hblank | ⟨c, t, rfl, hc⟩
  · rw [next_of_leadingBlanks tabSize s before hblank, mode_measure]
    exact h
  · rw [next_visible tabSize s before t hc, mode_pass]
    exact h.read before (List.cons_ne_nil c t)

end LineState

namespace Cursor

open Document (stateAfter stateAfter_concat)

/-! ### One call -/

theorem StandsAt.exists_readWith {σ : Type} {step : σ → Option Char → Text → Reading σ} {c : Cursor}
    {before after : Text} (stands : c.StandsAt before after) {s : σ} {r : Reading σ}
    (read : step s before.getLast? after = r) (short : r.length ≤ after.length) :
    ∃ token rest c', after = token ++ rest ∧ token.length = r.length ∧
      c.readWith step s = (.ok r.cls, c', r.state) ∧ c'.start = c.position ∧
      c'.StandsAt (before ++ token) rest ∧ c'.current = .ok token := by
  obtain ⟨token, rest, rfl, hlength⟩ : ∃ token rest, after = token ++ rest ∧ token.length = r.length :=
    ⟨after.take r.length, after.drop r.length, (List.take_append_drop _ _).symm,
      List.length_take_of_le short⟩
  have hread : step s before.getLast? (token ++ rest) = ⟨r.cls, token.length, r.state⟩ := by
    rw [read, hlength]
  have hline : c.line = before ++ (token ++ rest) := stands.1
  refine ⟨token, rest, _, rfl, hlength, stands.readWith_eq hread, rfl, ⟨?_, rfl⟩,
    current_eq hline stands.2 rfl⟩
  rw [List.append_assoc]
  exact hline

theorem StandsAt.isAtEnd_of_length {c : Cursor} {before token rest : Text}
    (stands : c.StandsAt before rest) (whole : token.length = (token ++ rest).length) :
    c.isAtEnd = true := by
  rw [List.length_append] at whole
  exact stands.isAtEnd_iff.mpr (List.length_eq_zero_iff.mp (by omega))

theorem exists_readMode {c : Cursor} (boundary : c.line.IsBoundary c.position) (mode : Mode) :
    ∃ cls c' mode', c.readMode mode = (.ok cls, c', mode') ∧
      (mode' = .base ∨ c'.isAtEnd = true) := by
  obtain ⟨before, after, stands⟩ := exists_standsAt boundary
  have hshort := Mode.length_read_le mode before.getLast? after
  obtain ⟨token, rest, c', rfl, hlength, hread, -, hstands, -⟩ := stands.exists_readWith rfl hshort
  rw [← readMode_eq] at hread
  refine ⟨_, c', _, hread, ?_⟩
  refine (Mode.mode_read mode before.getLast? (token ++ rest)).imp_right fun whole => ?_
  exact hstands.isAtEnd_of_length (hlength.trans whole)

theorem exists_readToken {c : Cursor} (boundary : c.line.IsBoundary c.position) (s : LineState) :
    ∃ cls c' s' text, c.readToken s = (.ok cls, c', s') ∧ c'.start = c.position ∧
      c'.line.IsBoundary c'.position ∧ c'.current = .ok text ∧
      (s'.mode = .base ∨ c'.isAtEnd = true ∨
        text ≠ [] ∧ text.isAllBlank = true ∧ s'.mode = s.mode) := by
  obtain ⟨before, after, stands⟩ := exists_standsAt boundary
  have hshort := LineState.length_next_le c.tabSize s before.getLast? after
  obtain ⟨token, rest, c', rfl, hlength, hread, hstart, hstands, hshown⟩ :=
    stands.exists_readWith rfl hshort
  rw [← readToken_eq c s rfl] at hread
  refine ⟨_, c', _, token, hread, hstart, hstands.isBoundary, hshown, ?_⟩
  rcases LineState.mode_next c.tabSize s before.getLast? (token ++ rest) with
    hbase | hwhole | ⟨hblanks, hnonempty, hkept⟩
  · exact Or.inl hbase
  · exact Or.inr (Or.inl (hstands.isAtEnd_of_length (hlength.trans hwhole)))
  · have htoken : token = (token ++ rest).leadingBlanks :=
      Text.eq_of_isPrefix (List.prefix_append token rest) (List.takeWhile_prefix _)
        (hlength.trans hblanks)
    refine Or.inr (Or.inr ⟨?_, ?_, hkept⟩)
    · rw [htoken]
      exact hnonempty
    · rw [htoken]
      exact Text.isAllBlank_leadingBlanks _

/-! ### One call after the other -/

theorem Reads.keeps {σ : Type} {step : σ → Option Char → Text → Reading σ} {tabSize : Nat}
    {read : Cursor → σ → Except Fault TokenClass × Cursor × σ} (adv : Advances step)
    (eq : ∀ c s, c.tabSize = tabSize → read c s = c.readWith step s) {P : σ → Prop}
    (kept : ∀ s before input, input ≠ [] → P s → P (step s before input).state)
    {c c' : Cursor} {s s' : σ} {tokens : List Span} (run : Reads read c s tokens c' s') :
    ∀ {before after : Text}, c.tabSize = tabSize → c.StandsAt before after → P s → P s' := by
  induction run with
  | nil c s => exact fun _ _ hs => hs
  | @cons c c₁ c₂ s s₁ s₂ cls text tokens more token shown tail ih =>
      intro before after tab stands hs
      obtain ⟨rest, rfl, hne, -, htab, -, hstands, hstep⟩ :=
        exists_rest adv eq tab stands more token shown
      have hkept := kept s before.getLast? (text ++ rest) (by simp [hne]) hs
      rw [hstep] at hkept
      exact ih htab hstands hkept

/-- From ordinary code, or past a token that can be seen, a run leaves ordinary code or is at the end of
the line. -/
theorem Reads.base_or_atEnd {c c' : Cursor} {s s' : LineState} {tokens : List Span}
    (run : Reads readToken c s tokens c' s') :
    c.line.IsBoundary c.position → (s.mode = .base ∨ ∃ t ∈ tokens, t.text.isAllBlank = false) →
      s'.mode = .base ∨ c'.isAtEnd = true := by
  induction run with
  | nil c s =>
      rintro - (hbase | ⟨t, ht, -⟩)
      · exact Or.inl hbase
      · cases ht
  | @cons c c₁ c₂ s s₁ s₂ cls text tokens more token shown tail ih =>
      intro boundary code
      obtain ⟨cls', c', s', text', hread, -, hboundary, hshown, hmode⟩ := exists_readToken boundary s
      rw [token] at hread
      obtain ⟨-, hrest⟩ := Prod.mk.inj hread
      obtain ⟨rfl, rfl⟩ := Prod.mk.inj hrest
      rw [shown] at hshown
      obtain rfl : text = text' := Except.ok.inj hshown
      rcases hmode with hbase | hend | ⟨-, hblank, hkept⟩
      · exact ih hboundary (Or.inl hbase)
      · -- at the end of the line no further token is read
        cases tail with
        | nil => exact Or.inr hend
        | cons more => exact absurd hend (Bool.eq_false_iff.mp more)
      · refine ih hboundary ?_
        rcases code with hbase | ⟨t, ht, hseen⟩
        · exact Or.inl (hkept.trans hbase)
        · rcases List.mem_cons.mp ht with rfl | ht
          · exact absurd hblank (Bool.eq_false_iff.mp hseen)
          · exact Or.inr ⟨t, ht, hseen⟩

/-- Reading from a mode that can arise leaves one that can. -/
theorem Reads.arises {line : Text} {tabSize : Nat} {c' : Cursor} {s s' : LineState}
    {tokens : List Span} (run : Reads readToken (atStart line tabSize) s tokens c' s')
    (h : s.mode.Arises) : s'.mode.Arises :=
  run.keeps (P := fun s => s.mode.Arises) (LineState.advances_next tabSize) readToken_eq
    (fun s before input nonempty hs => LineState.arises_next tabSize s before input hs nonempty) rfl
    (standsAt_atStart line tabSize) h

theorem arises_stateAfter (settings : Settings) (lines : List Text) :
    (stateAfter settings lines).mode.Arises := by
  induction lines using List.reverseRecOn with
  | nil => exact Or.inl rfl
  | append_singleton lines line ih =>
      obtain ⟨tokens, c', s', run, ended⟩ := exists_reads (LineState.advances_next settings.tabSize)
        readToken_eq (stateAfter settings lines) rfl (standsAt_atStart line settings.tabSize)
      rw [stateAfter_concat, ← (run.eq_place ended).2]
      exact run.arises ih

/-- **Only the end of a line leaves a comment or a string open.**  From between any two characters, a
token read in a mode leaves ordinary code or comes to the end of the line; so does a token read in a
document, unless it is a run of blanks, which leaves the mode as it was.  Hence on any line all that
follows a token that can be seen is read in ordinary code.  Wherever reading stands in a document, the
mode is ordinary code, a block comment, or a string that a double quote ends. -/
theorem open_mode_at_line_end :
    (∀ (c : Cursor) (mode : Mode), c.line.IsBoundary c.position →
      ∃ cls c' mode', c.readMode mode = (.ok cls, c', mode') ∧
        (mode' = .base ∨ c'.isAtEnd = true)) ∧
    (∀ (c : Cursor) (s : LineState), c.line.IsBoundary c.position →
      ∃ cls c' s' text, c.readToken s = (.ok cls, c', s') ∧ c'.start = c.position ∧
        c'.current = .ok text ∧
        (s'.mode = .base ∨ c'.isAtEnd = true ∨
          text ≠ [] ∧ text.isAllBlank = true ∧ s'.mode = s.mode)) ∧
    (∀ line tabSize s tokens c' s', Reads readToken (atStart line tabSize) s tokens c' s' →
      (∃ t ∈ tokens, t.text.isAllBlank = false) → c'.isAtEnd = false → s'.mode = .base) ∧
    ∀ (settings : Settings) lines line tokens c' s',
      Reads readToken (atStart line settings.tabSize) (stateAfter settings lines) tokens c' s' →
        s'.mode = .base ∨ s'.mode = .blockComment ∨ s'.mode = .string '"' := by
  refine ⟨fun c mode boundary => exists_readMode boundary mode, fun c s boundary => ?_, ?_, ?_⟩
  · obtain ⟨cls, c', s', text, hread, hstart, -, hshown, hmode⟩ := exists_readToken boundary s
    exact ⟨cls, c', s', text, hread, hstart, hshown, hmode⟩
  · intro line tabSize s tokens c' s' run seen more
    have hstart : (atStart line tabSize).line.IsBoundary (atStart line tabSize).position :=
      Text.isBoundary_iff.mpr ⟨[], line, standsAt_atStart line tabSize⟩
    refine (run.base_or_atEnd hstart (Or.inr seen)).resolve_right fun ended => ?_
    rw [more] at ended
    cases ended
  · intro settings lines line tokens c' s' run
    exact run.arises (arises_stateAfter settings lines)

/-- A string from the line before ends behind a blank and a character of two bytes. -/
theorem open_mode_at_line_end_behind_string :
    let line : Text := " é\" b".toList
    let s : LineState := { LineState.start {} with mode := .string '"' }
    (∃ cls c' mode', line.IsBoundary 3 ∧
      readMode ⟨line, 3, 1, 4⟩ (.string '"') = (.ok cls, c', mode') ∧
        (mode' = .base ∨ c'.isAtEnd = true)) ∧
    ∃ c' s', Reads readToken (atStart line 4) s
        [⟨0, 1, " ".toList, .plain⟩, ⟨1, 4, "é\"".toList, .string⟩] c' s' ∧
      c'.isAtEnd = false ∧ s'.mode = .base := by
  intro line s
  obtain ⟨hmode, -, hseen, -⟩ := open_mode_at_line_end
  have boundary : line.IsBoundary 3 := by decide
  obtain ⟨cls, c', mode', hread⟩ := hmode ⟨line, 3, 1, 4⟩ (.string '"') boundary
  let c₁ : Cursor := ⟨line, 1, 0, 4⟩
  let c₂ : Cursor := ⟨line, 4, 1, 4⟩
  have string : Reads readToken c₁ { s with indentation := 1 }
      [⟨c₂.start, c₂.position, "é\"".toList, .string⟩] c₂ ⟨.base, s.blocks, 1⟩ :=
    .cons rfl ((readToken_eq _ _ rfl).trans rfl) rfl (.nil _ _)
  have run : Reads readToken (atStart line 4) s
      [⟨c₁.start, c₁.position, " ".toList, .plain⟩, ⟨c₂.start, c₂.position, "é\"".toList, .string⟩] c₂
      ⟨.base, s.blocks, 1⟩ := .cons rfl ((readToken_eq _ _ rfl).trans rfl) rfl string
  have seen := hseen _ _ _ _ _ _ run
    ⟨⟨1, 4, "é\"".toList, .string⟩, List.mem_cons_of_mem _ List.mem_cons_self, by decide⟩ (by decide)
  exact ⟨⟨cls, c', mode', boundary, hread⟩, _, _, run, by decide, seen⟩

end Cursor

/-! ## What a call takes

`Cursor.Takes c mode cls token next` says all that a host sees of one call in a mode: the class, the
text that the cursor passes over, and the mode after it.  From between two characters this is what the
mode reads of the rest of the line, behind the character before the cursor (`StandsAt.takes_iff`). -/

namespace Cursor

/-- A call in the mode gives a token of the class, passes over its text, which becomes the present token,
and leaves the mode `next`. -/
def Takes (c : Cursor) (mode : Mode) (cls : TokenClass) (token : Text) (next : Mode) : Prop :=
  ∃ d, c.readMode mode = (.ok cls, d, next) ∧ d.start = c.position ∧
    d.position = c.position + token.byteLength ∧ d.current = .ok token

variable {c : Cursor} {before after token : Text} {mode next : Mode} {cls : TokenClass}

/-- What a call takes is what the mode reads. -/
theorem StandsAt.takes_iff (stands : c.StandsAt before after) :
    c.Takes mode cls token next ↔
      token <+: after ∧ mode.read before.getLast? after = ⟨cls, token.length, next⟩ := by
  obtain ⟨first, rest, d, rfl, hlength, hread, hstart, hstands, hshown⟩ :=
    stands.exists_readWith (s := mode) rfl (Mode.length_read_le mode before.getLast? after)
  rw [← readMode_eq] at hread
  constructor
  · rintro ⟨d', hread', -, -, hshown'⟩
    obtain ⟨hcls, hrest⟩ := Prod.mk.inj (hread.symm.trans hread')
    obtain ⟨rfl, rfl⟩ := Prod.mk.inj hrest
    obtain rfl : first = token := Except.ok.inj (hshown.symm.trans hshown')
    refine ⟨List.prefix_append first rest, ?_⟩
    rw [hlength, ← Except.ok.inj hcls]
  · rintro ⟨htoken, hreading⟩
    rw [hreading] at hlength hread
    obtain rfl : first = token :=
      Text.eq_of_isPrefix (List.prefix_append first rest) htoken hlength
    refine ⟨d, hread, hstart, ?_, hshown⟩
    rw [hstands.2, stands.2, Text.byteLength_append]

end Cursor

end BlockLayout
