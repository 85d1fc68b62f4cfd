import BlockLayout.Proofs.Blocks.Grid
import BlockLayout.Proofs.Document.Reading
import BlockLayout.Proofs.Token.Reserved
import Mathlib.Data.List.Basic

/-! # Keywords of a line

The blocks after a line are the blocks before it with the keywords of the line applied, each with
the indentation of the line (`blocks_readLine`).  Blanks are no keywords, so the lexemes that can be
seen have all the keywords.

The first of them on a line of ordinary code is read from the content of the line as if it stood at
the margin (`visibleLexemes_of_content`); it is a closing word exactly if the content starts with
one as a text (`leadsWithCloser_eq`). -/

namespace BlockLayout

/-- The lexeme is a keyword that opens, closes or divides blocks. -/
def Lexeme.movesBlocks (l : Lexeme) : Bool := l.cls.role?.any fun role => role ≠ .neutral

namespace LineState

/-- The lexemes of a line that can be seen. -/
def visibleLexemes (tabSize : Nat) (s : LineState) (line : Text) : List Lexeme :=
  (s.readLine tabSize line).1.filter fun l => !l.text.isAllBlank

/-- The first token of a line that can be seen is the keyword `end`, `else` or `elseif`. -/
def leadsWithCloser (tabSize : Nat) (s : LineState) (line : Text) : Bool :=
  (s.visibleLexemes tabSize line).head?.any fun l =>
    l.cls.role?.isSome && Word.closers.contains l.text

variable (tabSize : Nat)

/-! ### Keywords and blocks -/

theorem keywords_cons (n : Nat) (l : Lexeme) (ls : List Lexeme) :
    keywords n (l :: ls) = (l.cls.role?.map fun role => (role, n)).toList ++ keywords n ls := by
  unfold keywords
  rw [List.filterMap_eq_flatMap_toList, List.filterMap_eq_flatMap_toList, List.flatMap_cons]

theorem blocks_pass (s : LineState) (cls : TokenClass) (mode : Mode) :
    (s.pass cls mode).blocks =
      s.blocks.applyAll (cls.role?.map fun role => (role, s.indentation)).toList := by
  unfold pass
  cases cls.role? with
  | none => rfl
  | some role => rfl

theorem role?_of_blank {s last : LineState} {before : Option Char} {input : Text}
    {lexemes : List Lexeme} (h : Cuts (next tabSize) s before input lexemes last) :
    ∀ l ∈ lexemes, l.text.isAllBlank = true → l.cls.role? = none := by
  induction h with
  | nil => exact fun l hl => absurd hl List.not_mem_nil
  | @cons s next last before cls token rest lexemes nonempty read _ ih =>
      intro l hl hblank
      rcases List.mem_cons.mp hl with rfl | hl
      · rcases next_cases nonempty read with ⟨-, rfl, -⟩ | ⟨hvisible, -⟩
        · rfl
        · rw [hvisible.isAllBlank_eq_false nonempty] at hblank
          cases hblank
      · exact ih l hl hblank

theorem blocks_of_cuts {s last : LineState} {before : Option Char} {input : Text}
    {lexemes : List Lexeme} (h : Cuts (next tabSize) s before input lexemes last) :
    last.blocks =
      s.blocks.applyAll (keywords (s.measure tabSize before input).indentation lexemes) := by
  induction h with
  | nil => rfl
  | @cons s next last before cls token rest lexemes nonempty read _ ih =>
      obtain ⟨mode, hstate⟩ := state_next tabSize s before
        (List.append_ne_nil_of_left_ne_nil nonempty rest)
      rw [read] at hstate
      have hnext : next = (s.measure tabSize before (token ++ rest)).pass cls mode := hstate
      have hkept : next.measure tabSize token.getLast? rest = next := by
        obtain ⟨c, hc⟩ := Option.ne_none_iff_exists'.mp
          (mt List.getLast?_eq_none_iff.mp nonempty)
        rw [hc]
        rfl
      rw [ih, hkept, keywords_cons, Blocks.applyAll_append, hnext, blocks_pass, blocks_measure,
        indentation_pass]

/-- The blocks after a line are the blocks before it with the keywords of the line applied. -/
theorem blocks_readLine (s : LineState) (line : Text) :
    (s.readLine tabSize line).2.blocks =
      s.blocks.applyAll (keywords (line.columns tabSize) (s.readLine tabSize line).1) :=
  blocks_of_cuts tabSize (cuts_readLine tabSize s line)

theorem keywords_filter (n : Nat) {lexemes : List Lexeme} {p : Lexeme → Bool}
    (h : ∀ l ∈ lexemes, p l = false → l.cls.role? = none) :
    keywords n (lexemes.filter p) = keywords n lexemes := by
  induction lexemes with
  | nil => rfl
  | cons l ls ih =>
      have ihls := ih fun m hm => h m (List.mem_cons_of_mem l hm)
      by_cases hp : p l = true
      · rw [List.filter_cons_of_pos hp, keywords_cons, keywords_cons, ihls]
      · have hl := h l List.mem_cons_self (Bool.eq_false_iff.mpr hp)
        rw [List.filter_cons_of_neg hp, keywords_cons, hl, ihls]
        rfl

theorem keywords_visibleLexemes (s : LineState) (line : Text) (n : Nat) :
    keywords n (s.visibleLexemes tabSize line) = keywords n (s.readLine tabSize line).1 := by
  refine keywords_filter n fun l hl hblank => ?_
  exact role?_of_blank tabSize (cuts_readLine tabSize s line) l hl (by simpa using hblank)

theorem applyAll_keywords_of_still (b : Blocks) (n : Nat) {lexemes : List Lexeme}
    (still : ∀ l ∈ lexemes, l.movesBlocks = false) : b.applyAll (keywords n lexemes) = b := by
  induction lexemes with
  | nil => rfl
  | cons l ls ih =>
      have ihls := ih fun m hm => still m (List.mem_cons_of_mem l hm)
      have hl := still l List.mem_cons_self
      unfold Lexeme.movesBlocks at hl
      rw [keywords_cons, Blocks.applyAll_append]
      cases hrole : l.cls.role? with
      | none => exact ihls
      | some role =>
          rw [hrole] at hl
          obtain rfl : role = .neutral := by simpa using hl
          exact (congrArg (Blocks.applyAll · _) (Blocks.apply_neutral b n)).trans ihls

/-! ### The first token that can be seen -/

theorem filter_blankLexemes {blanks : Text} (blank : blanks.isAllBlank = true) :
    (blankLexemes blanks).filter (fun l => !l.text.isAllBlank) = [] := by
  cases blanks with
  | nil => rfl
  | cons c t =>
      unfold blankLexemes
      rw [List.filter_cons_of_neg (by simp [blank]), List.filter_nil]

section content

variable {s : LineState} (base : s.mode = .base) {blanks content : Text}
  (blank : blanks.isAllBlank = true) (side : Mode.SameSide blanks.getLast? none)
  (visible : content.StartsVisible) (nonempty : content ≠ [])

include base blank side visible nonempty

theorem visibleLexemes_of_content :
    ∃ rest, s.visibleLexemes tabSize (blanks ++ content) =
      ⟨(Mode.readBase none content).cls,
        content.take (Mode.readBase none content).length⟩ :: rest := by
  obtain ⟨c, t, rfl⟩ := List.exists_cons_of_ne_nil nonempty
  have hc := Text.startsVisible_cons.mp visible
  have hlead := Text.leadingBlanks_append blank visible
  have htrim := Text.trimStart_append blank visible
  have hside : Mode.SameSide (blanks ++ c :: t).leadingBlanks.getLast? none := by
    rw [hlead]
    exact side
  obtain ⟨hlex, -⟩ := (Alike.refl s).readLine_trimStart tabSize tabSize hside
  rw [hlead, htrim] at hlex
  obtain ⟨token, rest, hread, rfl, hseen⟩ := readLine_visible tabSize s t hc
  rw [base] at hread hseen
  unfold visibleLexemes
  rw [hlex, List.filter_append, filter_blankLexemes blank, List.nil_append, hread,
    List.filter_cons_of_pos (by rw [hseen]; rfl)]
  exact ⟨_, rfl⟩

theorem exists_first_lexeme :
    ∃ l rest, s.visibleLexemes tabSize (blanks ++ content) = l :: rest ∧
      (∀ role, Word.classOf? (Word.leading content) = some (.keyword role) →
        l = ⟨.keyword role, Word.leading content⟩) ∧
      ∀ role, l.cls = .keyword role →
        Word.classOf? (Word.leading content) = some (.keyword role) := by
  obtain ⟨c, t, rfl⟩ := List.exists_cons_of_ne_nil nonempty
  obtain ⟨rest, hrest⟩ :=
    visibleLexemes_of_content tabSize base blank side visible nonempty
  refine ⟨_, rest, hrest, ?_, ?_⟩
  · intro role hword
    rw [Mode.readBase_of_reserved (by rfl) hword, Word.take_leading]
  · intro role hrole
    exact ((Mode.baseReading none c t).keyword hrole).1

/-- A closing word leads the tokens exactly if it leads the content as a text. -/
theorem leadsWithCloser_eq :
    s.leadsWithCloser tabSize (blanks ++ content) = Blocks.startsWithCloser content := by
  obtain ⟨l, rest, hvisible, hword, hkeyword⟩ :=
    exists_first_lexeme tabSize base blank side visible nonempty
  unfold leadsWithCloser Blocks.startsWithCloser
  rw [hvisible, List.head?_cons, Option.any_some, Text.trimStart_eq_self visible]
  cases hmem : Word.closers.contains (Word.leading content) with
  | true =>
      rcases Word.role_of_mem_closers _ (List.contains_iff_mem.mp hmem) with hrole | hrole
      · rw [hword _ hrole]
        exact hmem
      · rw [hword _ hrole]
        exact hmem
  | false =>
      cases hcls : l.cls with
      | keyword role =>
          obtain rfl := hword role (hkeyword role hcls)
          exact hmem
      | _ => rfl

theorem leadsWithCloser_of_opener {l : Lexeme} {rest : List Lexeme}
    (first : s.visibleLexemes tabSize (blanks ++ content) = l :: rest)
    (opener : l.cls = .keyword .opener) :
    s.leadsWithCloser tabSize (blanks ++ content) = false := by
  obtain ⟨l', rest', hvisible, -, hkeyword⟩ :=
    exists_first_lexeme tabSize base blank side visible nonempty
  rw [first] at hvisible
  obtain ⟨rfl, -⟩ := List.cons.inj hvisible
  have hword := Word.not_mem_closers_of_opener (hkeyword .opener opener)
  rw [leadsWithCloser_eq tabSize base blank side visible nonempty]
  unfold Blocks.startsWithCloser
  rw [Text.trimStart_eq_self visible, List.contains_eq_mem, decide_eq_false hword]

end content

end LineState

end BlockLayout
