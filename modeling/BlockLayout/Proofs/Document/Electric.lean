import BlockLayout.Electric
import BlockLayout.Proofs.Document.Keywords
import BlockLayout.Proofs.Text.Patterns
import BlockLayout.Proofs.Token.Reserved

/-! # What an electric line does

The pattern for electric lines and the closing words agree: a line is electric exactly if its content
is one of them (`isElectric_iff`), so that it belongs at the column of the innermost block.

Reading it is another matter, since a reserved word is read as such only at the start of a line and
after a space, a tab or an opening parenthesis.  Behind blanks of these kinds, or none, the word is the
one token to be seen and closes or replaces the innermost block (`readLine_word`).  Behind any other
blank its letters are read one by one as plain text (`cuts_letters`) and the blocks stay.

Main statement: `electric_line_closes`. -/

namespace BlockLayout

/-! ### The pattern -/

theorem Word.startsVisible_of_mem_closers {word : Text} (h : word ∈ closers) :
    Text.StartsVisible word := by
  rcases role_of_mem_closers word h with hrole | hrole
  · have hstart := startsVisible_append (mem_reserved hrole) []
    rwa [List.append_nil] at hstart
  · have hstart := startsVisible_append (mem_reserved hrole) []
    rwa [List.append_nil] at hstart

/-- A line is electric exactly if its content is a closing word. -/
theorem isElectric_iff {line : Text} : isElectric line = true ↔ line.trimStart ∈ Word.closers := by
  have hmatch : isElectric line = true ↔
      ∃ blanks word, line = blanks ++ word ∧ blanks.isAllBlank = true ∧ word ∈ Word.closers := by
    unfold isElectric electricPattern
    simp only [Pattern.first?_isSome_iff, Pattern.mem_ways_andThen_iff, Pattern.mem_ways_many_iff,
      Pattern.mem_ways_oneOf_iff, Pattern.mem_ways_atEnd_iff]
    constructor
    · rintro ⟨-, blanks, ⟨⟨tail, rfl⟩, hblank⟩, -, ⟨word, ⟨hmem, hword⟩, -, ⟨-, hend⟩, -⟩, -⟩
      rw [List.drop_left] at hword hend
      obtain ⟨rest, rfl⟩ := hword
      rw [List.drop_left] at hend
      obtain rfl := hend
      exact ⟨blanks, word, by rw [List.append_nil], Text.isAllBlank_iff.mpr hblank, hmem⟩
    · rintro ⟨blanks, word, rfl, hblank, hmem⟩
      refine ⟨_, blanks, ⟨List.prefix_append blanks word, Text.isAllBlank_iff.mp hblank⟩, _,
        ⟨word, ⟨hmem, ?_⟩, [], ⟨rfl, ?_⟩, rfl⟩, rfl⟩
      · exact ⟨[], by rw [List.drop_left, List.append_nil]⟩
      · rw [List.drop_left, List.drop_length]
  rw [hmatch]
  constructor
  · rintro ⟨blanks, word, rfl, hblank, hmem⟩
    rwa [Text.trimStart_append hblank (Word.startsVisible_of_mem_closers hmem)]
  · intro hmem
    exact ⟨line.leadingBlanks, line.trimStart, (Text.leadingBlanks_append_trimStart line).symm,
      Text.isAllBlank_leadingBlanks line, hmem⟩

theorem Word.leading_of_mem_closers : ∀ word ∈ closers, leading word = word := by decide

theorem Word.letters_of_mem_closers :
    ∀ word ∈ closers, ∀ c ∈ word, isWordChar c = true ∧ c.isDigit = false := by
  have hall : (closers.all fun word => word.all fun c => isWordChar c && !c.isDigit) = true := by
    decide
  intro word hword c hc
  have hletter := List.all_eq_true.mp (List.all_eq_true.mp hall word hword) c hc
  simpa using hletter

/-! ### The blanks in front -/

/-- The leading blanks of the line are none, or end with a space or a tab. -/
def Text.PlainlyIndented (line : Text) : Prop :=
  ∀ c ∈ line.leadingBlanks.getLast?, c = ' ' ∨ c = '\t'

theorem Text.PlainlyIndented.sameSide {line : Text} (plain : line.PlainlyIndented) :
    Mode.SameSide line.leadingBlanks.getLast? none := by
  unfold PlainlyIndented at plain
  cases hlast : line.leadingBlanks.getLast? with
  | none => exact Mode.SameSide.refl none
  | some b =>
      rcases plain b hlast with rfl | rfl
      · exact ⟨by decide, by decide⟩
      · exact ⟨by decide, by decide⟩

/-- Behind any other blank no word starts. -/
theorem Text.exists_of_not_plainlyIndented {line : Text} (other : ¬ line.PlainlyIndented) :
    ∃ b, line.leadingBlanks.getLast? = some b ∧ Mode.opensWord (some b) = false := by
  unfold PlainlyIndented at other
  cases hlast : line.leadingBlanks.getLast? with
  | none => simp [hlast] at other
  | some b =>
      refine ⟨b, rfl, ?_⟩
      have hblank : isBlank b = true :=
        isAllBlank_iff.mp (isAllBlank_leadingBlanks line) b (List.mem_of_getLast? hlast)
      have hparen : b ≠ '(' := by
        rintro rfl
        exact absurd hblank (by decide)
      simp only [hlast, Option.mem_def, Option.some.injEq, forall_eq', not_or] at other
      simp [Mode.opensWord, other, hparen]

/-! ### The innermost block -/

namespace Blocks

variable {b : Blocks} {column : Int} {outer : List Int}

theorem apply_closer_of_opened (h : b.opened = column :: outer) (n : Nat) :
    b.apply .closer n = ⟨b.root, outer⟩ := by
  unfold apply
  rw [h]

theorem apply_divider_of_opened (h : b.opened = column :: outer) (n : Nat) :
    b.apply .divider n = ⟨b.root, Bits64.signed n :: outer⟩ := by
  unfold apply
  rw [h]

end Blocks

namespace LineState

variable {tabSize : Nat} {s : LineState} {line word : Text}

/-- An electric line belongs at the column of the innermost block. -/
theorem columnFor_of_electric (settings : Settings) (electric : isElectric line = true)
    {column : Int} {outer : List Int} (opened : s.blocks.opened = column :: outer) :
    s.columnFor settings line = column.toNat := by
  have hmem := isElectric_iff.mp electric
  have hcloser : Blocks.startsWithCloser line = true := by
    unfold Blocks.startsWithCloser
    rw [Word.leading_of_mem_closers _ hmem]
    exact List.contains_iff_mem.mpr hmem
  unfold columnFor Blocks.columnFor Blocks.isRoot Blocks.top
  rw [opened, hcloser]
  rfl

/-! ### Reading the word -/

theorem readLine_word (base : s.mode = .base) {cls : TokenClass} (mem : (word, cls) ∈ Word.reserved) :
    (s.readLine tabSize word).1 = [⟨cls, word⟩] := by
  have hlead : Word.leading (word ++ []) = word :=
    (Word.leading_append_iff (Word.isWord_of_mem mem)).mpr (by simp)
  have hclass : Word.classOf? (Word.leading (word ++ [])) = some cls := by
    rw [hlead]
    exact Word.classOf?_of_mem mem
  have hread : s.mode.read none (word ++ []) = ⟨cls, word.length, .base⟩ := by
    rw [base, Mode.read, Mode.readBase_of_reserved rfl hclass, hlead]
  obtain ⟨c, t, hct⟩ := List.exists_cons_of_ne_nil (Word.ne_nil_of_mem mem)
  have hc : Text.isBlank c = false :=
    Word.isBlank_of_isWordChar (Word.isWord_of_mem mem c (by rw [hct]; exact List.mem_cons_self))
  have hnext : ∃ last, next tabSize s none (word ++ []) = ⟨cls, word.length, last⟩ := by
    have hvisible := next_visible tabSize s none (t ++ []) hc
    rw [← List.cons_append, ← hct, hread] at hvisible
    exact ⟨_, hvisible⟩
  obtain ⟨last, hnext⟩ := hnext
  have hcut := cutLine_append (Word.ne_nil_of_mem mem) hnext
  rw [cutLine_nil, List.append_nil] at hcut
  unfold readLine
  rw [hcut]

theorem cuts_letters (base : s.mode = .base)
    (letters : ∀ c ∈ word, isWordChar c = true ∧ c.isDigit = false) :
    ∀ {b : Char}, Mode.opensWord (some b) = false →
      Cuts (next tabSize) s (some b) word (word.map fun c => ⟨.plain, [c]⟩) s := by
  induction word with
  | nil => exact fun _ => .nil s _
  | cons c t ih =>
      intro b side
      obtain ⟨hword, hdigit⟩ := letters c List.mem_cons_self
      have hletters : ∀ d ∈ t, isWordChar d = true ∧ d.isDigit = false :=
        fun d hd => letters d (List.mem_cons_of_mem c hd)
      have hread : Mode.readBase (some b) (c :: t) = ⟨.plain, 1, .base⟩ := by
        rcases (Mode.baseReading (some b) c t).of_isWordChar hword with
          ⟨n, hn, -⟩ | ⟨hfound, -⟩ | ⟨hopen, -⟩ | ⟨-, hplain⟩
        · have hpoint : c ≠ '.' := by
            rintro rfl
            exact absurd hword (by decide)
          rw [Number.length?_eq_none t hdigit hpoint] at hn
          cases hn
        · have hequal := hfound.subset (show '=' ∈ Mode.notEqual by decide)
          exact absurd (letters '=' hequal).1 (by decide)
        · rw [side] at hopen
          cases hopen
        · exact hplain
      have hnext : next tabSize s (some b) ([c] ++ t) = ⟨.plain, [c].length, s⟩ := by
        have hvisible := next_visible tabSize s (some b) t (Word.isBlank_of_isWordChar hword)
        rw [base] at hvisible
        rw [List.singleton_append, hvisible, Mode.read, hread]
        obtain ⟨mode, blocks, indentation⟩ := s
        obtain rfl : mode = .base := base
        rfl
      have hside : Mode.opensWord (some c) = false :=
        Mode.not_separator (p := isWordChar) (by decide) hword
      exact .cons (List.cons_ne_nil c []) hnext (ih hletters hside)

/-! ### Reading the line -/

theorem visibleLexemes_of_plainlyIndented (base : s.mode = .base) (plain : line.PlainlyIndented)
    {cls : TokenClass} (mem : (line.trimStart, cls) ∈ Word.reserved) :
    s.visibleLexemes tabSize line = [⟨cls, line.trimStart⟩] := by
  obtain ⟨hlexemes, -⟩ := (Alike.refl s).readLine_trimStart tabSize tabSize plain.sameSide
  have hseen : line.trimStart.isAllBlank = false := by
    obtain ⟨c, t, hct⟩ := List.exists_cons_of_ne_nil (Word.ne_nil_of_mem mem)
    have hc := Word.isBlank_of_isWordChar (Word.isWord_of_mem mem c (by rw [hct]; exact List.mem_cons_self))
    rw [hct, Text.isAllBlank, List.all_cons, hc, Bool.false_and]
  unfold visibleLexemes
  rw [hlexemes, List.filter_append, filter_blankLexemes (Text.isAllBlank_leadingBlanks line),
    readLine_word base mem, List.nil_append, List.filter_cons_of_pos (by rw [hseen]; rfl),
    List.filter_nil]

theorem visibleLexemes_of_letters (base : s.mode = .base) (other : ¬ line.PlainlyIndented)
    (letters : ∀ c ∈ line.trimStart, isWordChar c = true ∧ c.isDigit = false) :
    s.visibleLexemes tabSize line = line.trimStart.map fun c => ⟨.plain, [c]⟩ := by
  obtain ⟨b, hlast, hside⟩ := Text.exists_of_not_plainlyIndented other
  have hblank := Text.isAllBlank_leadingBlanks line
  have hnonempty : line.leadingBlanks ≠ [] := List.ne_nil_of_mem (List.mem_of_getLast? hlast)
  have hread := s.readLine_blanks tabSize hnonempty hblank (Text.startsVisible_trimStart line)
  have hbase : LineState.mode { s with indentation := line.columns tabSize } = .base := base
  have hcuts : Cuts (next tabSize) _ (some b) line.trimStart _ _ := cuts_letters hbase letters hside
  rw [Text.leadingBlanks_append_trimStart, hlast, hcuts.cutLine_eq] at hread
  have hseen : ∀ l ∈ line.trimStart.map fun c => (⟨.plain, [c]⟩ : Lexeme),
      (!l.text.isAllBlank) = true := by
    intro l hl
    obtain ⟨c, hc, rfl⟩ := List.mem_map.mp hl
    simp [Text.isAllBlank, Word.isBlank_of_isWordChar (letters c hc).1]
  unfold visibleLexemes
  rw [hread, List.filter_cons_of_neg (by simp [hblank]), List.filter_eq_self.mpr hseen]

/-- **Electric lines.**  A line is electric exactly if its content is `else`, `elseif` or `end`.  In
ordinary code inside of a block it then belongs at the column of the innermost block.  If the blanks in
front of the word are none, or end with a space or a tab, the word is the one token to be seen: a
closer, which closes the innermost block, or a divider, which replaces it.  Behind any other blank no
keyword is read and the blocks stay. -/
theorem electric_line_closes (settings : Settings) (line : Text) :
    (isElectric line = true ↔ line.trimStart ∈ ["else".toList, "elseif".toList, "end".toList]) ∧
      ∀ (s : LineState) column outer, isElectric line = true → s.mode = .base →
        s.blocks.opened = column :: outer →
          s.columnFor settings line = column.toNat ∧
          (line.PlainlyIndented →
            ∃ role, s.visibleLexemes settings.tabSize line = [⟨.keyword role, line.trimStart⟩] ∧
              (role = .closer ∧
                  (s.readLine settings.tabSize line).2.blocks = ⟨s.blocks.root, outer⟩ ∨
                role = .divider ∧ (s.readLine settings.tabSize line).2.blocks =
                  ⟨s.blocks.root, Bits64.signed (line.columns settings.tabSize) :: outer⟩)) ∧
          (¬ line.PlainlyIndented →
            s.visibleLexemes settings.tabSize line = line.trimStart.map (fun c => ⟨.plain, [c]⟩) ∧
              (s.readLine settings.tabSize line).2.blocks = s.blocks) := by
  refine ⟨isElectric_iff, fun s column outer electric base opened => ?_⟩
  have hmem := isElectric_iff.mp electric
  have hblocks : (s.readLine settings.tabSize line).2.blocks = s.blocks.applyAll
      (keywords (line.columns settings.tabSize) (s.visibleLexemes settings.tabSize line)) := by
    rw [blocks_readLine, keywords_visibleLexemes]
  refine ⟨columnFor_of_electric settings electric opened, fun plain => ?_, fun other => ?_⟩
  · rcases Word.role_of_mem_closers _ hmem with hrole | hrole
    · have hvisible : s.visibleLexemes settings.tabSize line = _ :=
        visibleLexemes_of_plainlyIndented base plain (Word.mem_reserved hrole)
      refine ⟨.closer, hvisible, Or.inl ⟨rfl, ?_⟩⟩
      rw [hblocks, hvisible]
      exact Blocks.apply_closer_of_opened opened _
    · have hvisible : s.visibleLexemes settings.tabSize line = _ :=
        visibleLexemes_of_plainlyIndented base plain (Word.mem_reserved hrole)
      refine ⟨.divider, hvisible, Or.inr ⟨rfl, ?_⟩⟩
      rw [hblocks, hvisible]
      exact Blocks.apply_divider_of_opened opened _
  · have hvisible : s.visibleLexemes settings.tabSize line = _ :=
      visibleLexemes_of_letters base other (Word.letters_of_mem_closers _ hmem)
    refine ⟨hvisible, ?_⟩
    rw [hblocks, hvisible]
    refine applyAll_keywords_of_still _ _ fun l hl => ?_
    obtain ⟨c, -, rfl⟩ := List.mem_map.mp hl
    rfl

/-- Behind a tab, whatever blanks stand before it, `else` replaces the innermost block. -/
theorem electric_line_closes_behind_tab :
    let s : LineState := ⟨.base, ⟨-4, [8, 0]⟩, 0⟩
    let line : Text := "\u3000\telse".toList
    isElectric line = true ∧ line.PlainlyIndented ∧ s.columnFor {} line = 8 ∧
      ∃ role, s.visibleLexemes 4 line = [⟨.keyword role, "else".toList⟩] ∧
        (role = .closer ∧ (s.readLine 4 line).2.blocks = ⟨-4, [0]⟩ ∨
          role = .divider ∧ (s.readLine 4 line).2.blocks = ⟨-4, [Bits64.signed (line.columns 4), 0]⟩) := by
  intro s line
  obtain ⟨helectric, hstate⟩ := electric_line_closes {} line
  have electric : isElectric line = true := helectric.mpr (by decide)
  have plain : line.PlainlyIndented := fun c hc => Or.inr (Option.some.inj hc).symm
  obtain ⟨hcolumn, hcloses, -⟩ := hstate s 8 [0] electric rfl rfl
  exact ⟨electric, plain, hcolumn, hcloses plain⟩

/-- Behind a no-break space `end` is electric and belongs at the column of the innermost block, but no
keyword is read on its line and the block stays open. -/
theorem electric_line_left_open :
    let s : LineState := ⟨.base, ⟨-4, [0]⟩, 0⟩
    let line : Text := "\u00a0end".toList
    isElectric line = true ∧ s.mode = .base ∧ s.blocks.opened = [0] ∧
      (¬ ∃ l, s.visibleLexemes 4 line = [l] ∧
        (l.cls = .keyword .closer ∨ l.cls = .keyword .divider)) ∧
      (s.readLine 4 line).2.blocks = s.blocks := by
  intro s line
  have hvisible : s.visibleLexemes 4 line =
      [⟨.plain, ['e']⟩, ⟨.plain, ['n']⟩, ⟨.plain, ['d']⟩] := by
    decide +kernel
  refine ⟨by decide, rfl, rfl, ?_, by decide +kernel⟩
  rintro ⟨l, hl, -⟩
  rw [hvisible] at hl
  cases hl

end LineState

end BlockLayout
