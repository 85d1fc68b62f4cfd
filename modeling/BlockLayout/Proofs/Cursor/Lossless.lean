import BlockLayout.Proofs.Cursor.Scan
import BlockLayout.Proofs.Document.Reading
import BlockLayout.Proofs.Token.Cuts
import BlockLayout.Token.Lexeme

/-! # Reading a whole line

`Reads` is the loop of a host: as long as the cursor is not at the end of its line, read a token and
note its class, its offsets and its text.  `Lossless` collects what holds of that loop, whatever the
number of tokens read so far: the next call gives a token and moves the cursor on, and the tokens so
far lie side by side, start and end between characters, and spell the line up to the cursor.

Main statement: `cursor_reading_lossless`, for reading in a document and for reading in a mode. -/

namespace BlockLayout

/-- Spans side by side, from one offset to another, none of them empty. -/
inductive Span.Tile : Nat → List Span → Nat → Prop
  | nil (n : Nat) : Tile n [] n
  | cons {s : Span} {spans : List Span} {n : Nat} (advances : s.start < s.stop)
      (tail : Tile s.stop spans n) : Tile s.start (s :: spans) n

namespace Cursor

variable {σ : Type} {read : Cursor → σ → Except Fault TokenClass × Cursor × σ}

/-- `Reads read c s tokens c' s'`: reading one token after the other from the cursor `c` and the
state `s`, never at the end of the line, gives `tokens` and leaves `c'` and `s'`. -/
inductive Reads (read : Cursor → σ → Except Fault TokenClass × Cursor × σ) :
    Cursor → σ → List Span → Cursor → σ → Prop
  | nil (c : Cursor) (s : σ) : Reads read c s [] c s
  | cons {c c' c'' : Cursor} {s s' s'' : σ} {cls : TokenClass} {text : Text} {tokens : List Span}
      (more : c.isAtEnd = false) (token : read c s = (.ok cls, c', s'))
      (shown : c'.current = .ok text) (tail : Reads read c' s' tokens c'' s'') :
      Reads read c s (⟨c'.start, c'.position, text, cls⟩ :: tokens) c'' s''

/-- Reading from the cursor and the state goes through the whole line. -/
structure Lossless (read : Cursor → σ → Except Fault TokenClass × Cursor × σ) (c : Cursor)
    (s : σ) : Prop where
  /-- Short of the end, the next call gives a token that starts at the cursor, and moves the cursor
  on to the end of the token. -/
  advances : ∀ {tokens c' s'}, Reads read c s tokens c' s' → c'.isAtEnd = false →
    ∃ cls c'' s'' text, read c' s' = (.ok cls, c'', s'') ∧ c''.start = c'.position ∧
      c'.position < c''.position ∧ c''.current = .ok text
  /-- There are no more calls than characters on the line. -/
  bounded : ∀ {tokens c' s'}, Reads read c s tokens c' s' → tokens.length ≤ c.line.length
  /-- The end of the line is reached. -/
  ends : ∃ tokens c' s', Reads read c s tokens c' s' ∧ c'.isAtEnd = true
  /-- The tokens lie side by side from the start of the line to the cursor. -/
  tiles : ∀ {tokens c' s'}, Reads read c s tokens c' s' → Span.Tile 0 tokens c'.position
  /-- Every token starts and ends between characters. -/
  boundaries : ∀ {tokens c' s'}, Reads read c s tokens c' s' →
    ∀ t ∈ tokens, c.line.IsBoundary t.start ∧ c.line.IsBoundary t.stop
  /-- At the end of the line the tokens spell the line, and the cursor stands at its length. -/
  spells : ∀ {tokens c' s'}, Reads read c s tokens c' s' → c'.isAtEnd = true →
    (tokens.map Span.text).flatten = c.line ∧ c'.position = c.line.byteLength

section run

variable {step : σ → Option Char → Text → Reading σ} {tabSize : Nat}

theorem exists_read (adv : Advances step)
    (eq : ∀ c s, c.tabSize = tabSize → read c s = c.readWith step s)
    {c : Cursor} {before after : Text} (s : σ) (tab : c.tabSize = tabSize)
    (stands : c.StandsAt before after) (more : c.isAtEnd = false) :
    ∃ token rest cls c' s', after = token ++ rest ∧ token ≠ [] ∧ read c s = (.ok cls, c', s') ∧
      c'.line = c.line ∧ c'.tabSize = tabSize ∧ c'.start = c.position ∧
      c'.StandsAt (before ++ token) rest ∧ c'.current = .ok token ∧
      step s before.getLast? (token ++ rest) = ⟨cls, token.length, s'⟩ := by
  have hne : after ≠ [] := by
    intro hnil
    rw [stands.isAtEnd_iff.mpr hnil] at more
    cases more
  obtain ⟨token, rest, cls, next, rfl, htoken, hread⟩ := adv.exists_token s before.getLast? hne
  have hline : c.line = before ++ (token ++ rest) := stands.1
  refine ⟨token, rest, cls, _, next, rfl, htoken, (eq c s tab).trans (stands.readWith_eq hread),
    rfl, tab, rfl, ⟨?_, rfl⟩, current_eq hline stands.2 rfl, hread⟩
  rw [List.append_assoc]
  exact hline

theorem exists_rest (adv : Advances step)
    (eq : ∀ c s, c.tabSize = tabSize → read c s = c.readWith step s)
    {c c' : Cursor} {s s' : σ} {cls : TokenClass} {before after text : Text}
    (tab : c.tabSize = tabSize) (stands : c.StandsAt before after) (more : c.isAtEnd = false)
    (token : read c s = (.ok cls, c', s')) (shown : c'.current = .ok text) :
    ∃ rest, after = text ++ rest ∧ text ≠ [] ∧ c'.line = c.line ∧ c'.tabSize = tabSize ∧
      c'.start = c.position ∧ c'.StandsAt (before ++ text) rest ∧
      step s before.getLast? (text ++ rest) = ⟨cls, text.length, s'⟩ := by
  obtain ⟨first, rest, cls', c'', s'', rfl, hne, hread, hline, htab, hstart, hstands, hshown, hstep⟩ :=
    exists_read adv eq s tab stands more
  rw [token] at hread
  obtain ⟨hcls, hrest⟩ := Prod.mk.inj hread
  obtain rfl : cls = cls' := Except.ok.inj hcls
  obtain ⟨rfl, rfl⟩ := Prod.mk.inj hrest
  rw [shown] at hshown
  obtain rfl : text = first := Except.ok.inj hshown
  exact ⟨rest, rfl, hne, hline, htab, hstart, hstands, hstep⟩

/-- What a run of the loop keeps: the cursor stands behind the tokens read. -/
theorem Reads.standsAt (adv : Advances step)
    (eq : ∀ c s, c.tabSize = tabSize → read c s = c.readWith step s)
    {c c' : Cursor} {s s' : σ} {tokens : List Span} (run : Reads read c s tokens c' s') :
    ∀ {before after : Text}, c.tabSize = tabSize → c.StandsAt before after →
      ∃ rest, after = (tokens.map Span.text).flatten ++ rest ∧ c'.line = c.line ∧
        c'.tabSize = tabSize ∧ c'.StandsAt (before ++ (tokens.map Span.text).flatten) rest ∧
        Span.Tile c.position tokens c'.position ∧
        (∀ t ∈ tokens, c.line.IsBoundary t.start ∧ c.line.IsBoundary t.stop) ∧
        tokens.length + rest.length ≤ after.length := by
  induction run with
  | nil c s =>
      intro before after tab stands
      refine ⟨after, rfl, rfl, tab, by simpa using stands, .nil _, fun t ht => ?_, by simp⟩
      cases ht
  | @cons c c₁ c₂ s s₁ s₂ cls text tokens more token shown tail ih =>
      intro before after tab stands
      obtain ⟨rest, rfl, hne, hline, htab, hstart, hstands, -⟩ :=
        exists_rest adv eq tab stands more token shown
      obtain ⟨rest', rfl, hline', htab', hstands', htile, hbound, hlen⟩ := ih htab hstands
      have hpos := List.length_pos_iff.mpr hne
      refine ⟨rest', ?_, hline'.trans hline, htab', ?_, ?_, ?_, ?_⟩
      · simp
      · simpa using hstands'
      · have hlt : c₁.start < c₁.position := by
          have := Text.byteLength_pos hne
          rw [hstart, stands.2, hstands.2, Text.byteLength_append]
          omega
        rw [← hstart]
        exact Span.Tile.cons (s := ⟨c₁.start, c₁.position, text, cls⟩) hlt htile
      · intro t ht
        rcases List.mem_cons.mp ht with rfl | ht
        · refine ⟨Text.isBoundary_iff.mpr ⟨before, _, stands.1, ?_⟩, ?_⟩
          · exact hstart.trans stands.2
          · rw [← hline]
            exact hstands.isBoundary
        · rw [← hline]
          exact hbound t ht
      · simp only [List.length_append, List.length_cons] at hlen ⊢
        omega

/-- The loop comes to the end of the line from wherever the cursor stands. -/
theorem exists_reads (adv : Advances step)
    (eq : ∀ c s, c.tabSize = tabSize → read c s = c.readWith step s) (s : σ) {c : Cursor}
    {before after : Text} (tab : c.tabSize = tabSize) (stands : c.StandsAt before after) :
    ∃ tokens c' s', Reads read c s tokens c' s' ∧ c'.isAtEnd = true := by
  obtain ⟨n, hn⟩ : ∃ n, after.length = n := ⟨_, rfl⟩
  induction n using Nat.strongRecOn generalizing c s before after with
  | _ n ih =>
      cases hend : c.isAtEnd with
      | true => exact ⟨[], c, s, .nil c s, hend⟩
      | false =>
          obtain ⟨token, rest, cls, c', s', rfl, hne, hread, -, htab, -, hstands, hshown, -⟩ :=
            exists_read adv eq s tab stands hend
          have hlt : rest.length < n := by
            have := List.length_pos_iff.mpr hne
            rw [← hn, List.length_append]
            omega
          obtain ⟨tokens, c'', s'', hrun, hend'⟩ := ih rest.length hlt s' htab hstands rfl
          exact ⟨_, c'', s'', .cons hend hread hshown hrun, hend'⟩

/-- A step that advances reads every line to its end, token by token. -/
theorem lossless (adv : Advances step)
    (eq : ∀ c s, c.tabSize = tabSize → read c s = c.readWith step s) (line : Text) (s : σ) :
    Lossless read (atStart line tabSize) s := by
  have hstart := standsAt_atStart line tabSize
  have kept := fun {tokens c' s'} (run : Reads read (atStart line tabSize) s tokens c' s') =>
    run.standsAt adv eq rfl hstart
  constructor
  · intro tokens c' s' run more
    obtain ⟨rest, -, -, htab, hstands, -⟩ := kept run
    obtain ⟨token, rest', cls, c'', s'', -, hne, hread, -, -, hstart', hstands', hshown, -⟩ :=
      exists_read adv eq s' htab hstands more
    refine ⟨cls, c'', s'', token, hread, hstart', ?_, hshown⟩
    have := Text.byteLength_pos hne
    rw [hstands.2, hstands'.2, Text.byteLength_append _ token]
    omega
  · intro tokens c' s' run
    obtain ⟨rest, -, -, -, -, -, -, hlen⟩ := kept run
    exact Nat.le_of_add_right_le hlen
  · exact exists_reads adv eq s rfl hstart
  · intro tokens c' s' run
    obtain ⟨rest, -, -, -, -, htile, -⟩ := kept run
    exact htile
  · intro tokens c' s' run
    obtain ⟨rest, -, -, -, -, -, hbound, -⟩ := kept run
    exact hbound
  · intro tokens c' s' run hend
    obtain ⟨rest, hline, -, -, hstands, -⟩ := kept run
    obtain rfl := hstands.isAtEnd_iff.mp hend
    rw [List.append_nil] at hline
    refine ⟨hline.symm, ?_⟩
    rw [hstands.2, List.nil_append, ← hline]
    rfl

end run

/-- **Reading is lossless.**  From the start of any line, in any state or mode, reading token by
token comes to the end of the line without a fault, each call moves the cursor on, and the tokens
lie side by side on boundaries of characters and spell the line. -/
theorem cursor_reading_lossless (line : Text) (tabSize : Nat) (s : LineState) (mode : Mode) :
    Lossless readToken (atStart line tabSize) s ∧ Lossless readMode (atStart line tabSize) mode := by
  constructor
  · exact lossless (LineState.advances_next tabSize) readToken_eq line s
  · exact lossless advances_read (fun c mode _ => readMode_eq c mode) line mode

end Cursor

/-! ## The tokens of a cursor

A host that reads a line with a cursor to its end gets the lexemes of the line, each placed behind
the ones before it, and is left with the state that the line leaves (`Reads.eq_place`).  What holds
of the lexemes of a line therefore holds of the tokens of such a run. -/

namespace Cursor

variable {σ : Type} {step : σ → Option Char → Text → Reading σ} {tabSize : Nat}
  {read : Cursor → σ → Except Fault TokenClass × Cursor × σ}

theorem Reads.cuts (adv : Advances step)
    (eq : ∀ c s, c.tabSize = tabSize → read c s = c.readWith step s)
    {c c' : Cursor} {s s' : σ} {tokens : List Span} (run : Reads read c s tokens c' s')
    (ended : c'.isAtEnd = true) :
    ∀ {before after : Text}, c.tabSize = tabSize → c.StandsAt before after →
      ∃ lexemes, Cuts step s before.getLast? after lexemes s' ∧
        tokens = Span.place before.byteLength lexemes := by
  induction run with
  | nil c s =>
      intro before after _ stands
      obtain rfl := stands.isAtEnd_iff.mp ended
      exact ⟨[], .nil s _, rfl⟩
  | @cons c c₁ c₂ s s₁ s₂ cls text tokens more token shown tail ih =>
      intro before after tab stands
      obtain ⟨rest, rfl, hne, -, htab, hstart, hstands, hstep⟩ :=
        exists_rest adv eq tab stands more token shown
      obtain ⟨lexemes, hcuts, rfl⟩ := ih ended htab hstands
      have hlast : (before ++ text).getLast? = text.getLast? := by
        rw [List.getLast?_append, Option.or_of_isSome (List.getLast?_isSome.mpr hne)]
      rw [hlast] at hcuts
      refine ⟨⟨cls, text⟩ :: lexemes, .cons hne hstep hcuts, ?_⟩
      rw [Span.place, hstart, hstands.2, stands.2, Text.byteLength_append]

/-- A run to the end of a line gives the lexemes of the line and its state. -/
theorem Reads.eq_place {line : Text} {s s' : LineState} {tokens : List Span} {c' : Cursor}
    (run : Reads readToken (atStart line tabSize) s tokens c' s') (ended : c'.isAtEnd = true) :
    tokens = Span.place 0 (s.readLine tabSize line).1 ∧ s' = (s.readLine tabSize line).2 := by
  obtain ⟨lexemes, hcuts, rfl⟩ := run.cuts (LineState.advances_next tabSize) readToken_eq ended rfl
    (standsAt_atStart line tabSize)
  have hline : s.readLine tabSize line = (lexemes, s') := hcuts.cutLine_eq
  rw [hline]
  exact ⟨rfl, rfl⟩

end Cursor

end BlockLayout
