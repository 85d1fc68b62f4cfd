import BlockLayout.Blocks.Basic
import BlockLayout.Proofs.Token.Reserved
import BlockLayout.Text.Bytes
import Mathlib.Data.List.MinMax

/-! # Whole words

A lexer of words goes by rules: the reserved words, each by itself, and an identifier, any run of word
characters.  It finds the longest start of the text that a rule matches, and takes it for a reserved word
rather than for an identifier (`Lexer.TakesLongest`).  `classify` keeps the reserved words that it finds.

Reserved words are made of word characters, so the longest match of all is the whole run of word characters
that the text starts with (`Rule.IsLongest.eq_leading`).  A reserved word is found exactly if it is this run:
it is the word that reading looks up (`Lexer.TakesLongest.classify_eq`).  The word that tells whether a line
closes a block is cut off at the first other character, which gives the same run (`firstPiece_eq_leading`).

Main statement: `classified_iff_whole_word`. -/

namespace BlockLayout

namespace Text

variable {u t : Text}

theorem byteLength_le_of_isPrefix (h : u <+: t) : u.byteLength ≤ t.byteLength := by
  obtain ⟨rest, rfl⟩ := h
  rw [byteLength_append]
  exact Nat.le_add_right _ _

theorem eq_of_isPrefix_of_byteLength_le (h : u <+: t) (bytes : t.byteLength ≤ u.byteLength) :
    u = t := by
  obtain ⟨rest, rfl⟩ := h
  cases rest with
  | nil => exact (List.append_nil u).symm
  | cons c rest =>
      have hpos := byteLength_pos (List.cons_ne_nil c rest)
      rw [byteLength_append] at bytes
      omega

end Text

namespace Word

/-! ### Lexers -/

/-- What a lexer of words goes by. -/
inductive Rule where
  /-- A reserved word of the class. -/
  | reserved (cls : TokenClass)
  /-- A run of word characters. -/
  | identifier
  deriving DecidableEq, Repr

/-- The rule matches the token from its start to its end. -/
def Rule.Matches (rule : Rule) (token : Text) : Prop :=
  match rule with
  | reserved cls => (token, cls) ∈ Word.reserved
  | identifier => token ≠ [] ∧ ∀ c ∈ token, isWordChar c = true

/-- The rule matches the token at the start of the text, and no rule matches more there. -/
structure Rule.IsLongest (rule : Rule) (t token : Text) : Prop where
  starts : token <+: t
  matched : rule.Matches token
  longest : ∀ (rule' : Rule) (token' : Text), token' <+: t → rule'.Matches token' →
    token'.byteLength ≤ token.byteLength

/-- What a lexer finds at the start of a text. -/
inductive Found where
  /-- So many bytes that the rule matches. -/
  | token (rule : Rule) (bytes : Nat)
  /-- Nothing that any rule matches. -/
  | unknown
  /-- The end of the text. -/
  | finished
  deriving DecidableEq, Repr

/-- A lexer of words. -/
abbrev Lexer := Text → Found

/-- What was found is the longest match at the start of the text, and no identifier that is a reserved
word. -/
inductive Found.IsRight (t : Text) : Found → Prop
  | token {rule : Rule} {token : Text} (longest : rule.IsLongest t token)
      (preferred : rule = .identifier → ∀ cls, ¬ (Rule.reserved cls).Matches token) :
      IsRight t (.token rule token.byteLength)
  | unknown (unmatched : ∀ (rule : Rule) (token : Text), token <+: t → ¬ rule.Matches token) :
      IsRight t .unknown
  | finished (empty : t = []) : IsRight t .finished

/-- The lexer takes the longest match at the start of every text, and a reserved word before an
identifier. -/
def Lexer.TakesLongest (lexer : Lexer) : Prop := ∀ t, (lexer t).IsRight t

/-- The class and the length in bytes of the reserved word that the lexer finds. -/
def classify (lexer : Lexer) (t : Text) : Option (TokenClass × Nat) :=
  match lexer t with
  | .token (.reserved cls) bytes => some (cls, bytes)
  | .token .identifier _ => none
  | .unknown => none
  | .finished => none

variable {lexer : Lexer} {rule : Rule} {t token : Text} {cls : TokenClass} {bytes : Nat}

/-! ### The longest match -/

theorem Rule.Matches.identifier (h : rule.Matches token) : Rule.identifier.Matches token := by
  cases rule with
  | reserved cls => exact ⟨ne_nil_of_mem h, isWord_of_mem h⟩
  | identifier => exact h

theorem Rule.Matches.isPrefix_leading (h : rule.Matches token) (starts : token <+: t) :
    token <+: leading t := by
  obtain ⟨rest, rfl⟩ := starts
  unfold leading
  rw [List.takeWhile_append_of_pos h.identifier.2]
  exact List.prefix_append token _

theorem matches_leading (nonempty : leading t ≠ []) : Rule.identifier.Matches (leading t) :=
  ⟨nonempty, fun _ hc => List.all_eq_true.mp List.all_takeWhile _ hc⟩

/-- The longest match is the whole run of word characters. -/
theorem Rule.IsLongest.eq_leading (h : rule.IsLongest t token) : token = leading t := by
  have hprefix : token <+: leading t := h.matched.isPrefix_leading h.starts
  have hnonempty : leading t ≠ [] := fun hnil =>
    h.matched.identifier.1 (List.prefix_nil.mp (by rwa [hnil] at hprefix))
  have hlongest := h.longest .identifier _ (isPrefix_leading t) (matches_leading hnonempty)
  exact Text.eq_of_isPrefix_of_byteLength_le hprefix hlongest

theorem leading?_eq_none (unreserved : ∀ cls, (leading t, cls) ∉ reserved) : leading? t = none := by
  refine Option.eq_none_iff_forall_ne_some.mpr ?_
  rintro ⟨word, cls⟩ hword
  obtain ⟨rfl, hcls⟩ := leading?_eq_some_iff.mp hword
  exact unreserved cls (mem_reserved hcls)

/-- Classifying is looking up the run of word characters. -/
theorem Lexer.TakesLongest.classify_eq (lexes : lexer.TakesLongest) (t : Text) :
    classify lexer t = (leading? t).map fun (word, cls) => (cls, word.byteLength) := by
  have hfound := lexes t
  unfold classify
  cases h : lexer t with
  | token rule bytes =>
      rw [h] at hfound
      cases hfound with
      | token longest preferred =>
          obtain rfl := longest.eq_leading
          cases rule with
          | reserved cls =>
              rw [leading?_eq_some_iff.mpr ⟨rfl, classOf?_of_mem longest.matched⟩]
              rfl
          | identifier =>
              rw [leading?_eq_none (preferred rfl)]
              rfl
  | unknown =>
      rw [h] at hfound
      cases hfound with
      | unknown unmatched =>
          rw [leading?_eq_none fun cls => unmatched (.reserved cls) _ (isPrefix_leading t)]
          rfl
  | finished =>
      rw [h] at hfound
      cases hfound with
      | finished empty =>
          rw [empty]
          rfl

/-! ### A whole word -/

/-- The text starts with so many bytes that are a reserved word of the class, and the word ends there. -/
def StartsWith (t : Text) (cls : TokenClass) (bytes : Nat) : Prop :=
  ∃ word rest, t.cutAt? bytes = some (word, rest) ∧ (word, cls) ∈ reserved ∧
    ∀ c ∈ rest.head?, isWordChar c = false

theorem leading_append_dropWhile (t : Text) : leading t ++ t.dropWhile isWordChar = t :=
  List.takeWhile_append_dropWhile

theorem cutAt?_leading (t : Text) :
    t.cutAt? (leading t).byteLength = some (leading t, t.dropWhile isWordChar) := by
  have hcut := Text.cutAt?_append (leading t) (t.dropWhile isWordChar)
  rwa [leading_append_dropWhile] at hcut

theorem startsWith_iff :
    StartsWith t cls bytes ↔ classOf? (leading t) = some cls ∧ bytes = (leading t).byteLength := by
  constructor
  · rintro ⟨word, rest, hcut, hmem, hends⟩
    obtain ⟨rfl, rfl⟩ := Text.eq_append_of_cutAt? hcut
    rw [(leading_append_iff (isWord_of_mem hmem)).mpr hends]
    exact ⟨classOf?_of_mem hmem, rfl⟩
  · rintro ⟨hcls, rfl⟩
    have hmem := mem_reserved hcls
    have hends := (leading_append_iff (isWord_of_mem hmem)).mp
      (congrArg leading (leading_append_dropWhile t))
    exact ⟨_, _, cutAt?_leading t, hmem, hends⟩

theorem Lexer.TakesLongest.classify_eq_some_iff (lexes : lexer.TakesLongest) :
    classify lexer t = some (cls, bytes) ↔ StartsWith t cls bytes := by
  rw [lexes.classify_eq, startsWith_iff, Option.map_eq_some_iff]
  constructor
  · rintro ⟨⟨word, cls'⟩, hword, heq⟩
    obtain ⟨rfl, rfl⟩ := Prod.mk.inj heq
    obtain ⟨rfl, hcls⟩ := leading?_eq_some_iff.mp hword
    exact ⟨hcls, rfl⟩
  · rintro ⟨hcls, rfl⟩
    exact ⟨_, leading?_eq_some_iff.mpr ⟨rfl, hcls⟩, rfl⟩

/-! ### The closing words -/

/-- The first of the pieces between the characters that belong to no word. -/
def firstPiece (t : Text) : Text := (t.splitOnP fun c => !isWordChar c).head?.getD []

theorem firstPiece_eq_leading (t : Text) : firstPiece t = leading t := by
  have hpiece : (t.splitOnP fun c => !isWordChar c).head? = some (leading t) := by
    induction t with
    | nil => rfl
    | cons c t ih =>
        unfold leading at ih ⊢
        rw [List.splitOnP_cons_eq_if_modifyHead]
        cases hc : isWordChar c with
        | true => simp [hc, ih]
        | false => simp [hc]
  rw [firstPiece, hpiece, Option.getD_some]

/-- The lexer finds one of the words that line up with the opener of a block. -/
def FindsCloser (lexer : Lexer) (t : Text) : Prop :=
  ∃ cls bytes word rest, classify lexer t = some (cls, bytes) ∧ t.cutAt? bytes = some (word, rest) ∧
    word ∈ ["else".toList, "elseif".toList, "end".toList]

theorem Lexer.TakesLongest.findsCloser_iff (lexes : lexer.TakesLongest) :
    FindsCloser lexer t ↔ leading t ∈ closers := by
  constructor
  · rintro ⟨cls, bytes, word, rest, hfound, hcut, hword⟩
    obtain ⟨-, rfl⟩ := startsWith_iff.mp (lexes.classify_eq_some_iff.mp hfound)
    rw [cutAt?_leading] at hcut
    rwa [(Prod.mk.inj (Option.some.inj hcut)).1]
  · intro hword
    obtain ⟨cls, hcls⟩ : ∃ cls, classOf? (leading t) = some cls := by
      rcases role_of_mem_closers _ hword with hcls | hcls
      · exact ⟨_, hcls⟩
      · exact ⟨_, hcls⟩
    have hfound := lexes.classify_eq_some_iff.mpr (startsWith_iff.mpr ⟨hcls, rfl⟩)
    exact ⟨cls, _, _, _, hfound, cutAt?_leading t, hword⟩

/-! ### A lexer that takes the longest match -/

/-- The longest reserved word that the text starts with. -/
def longestReserved? (t : Text) : Option (Text × TokenClass) :=
  (reserved.filter fun entry => entry.1.isPrefixOf t).argmax fun entry => entry.1.byteLength

/-- The longest match, from the reserved words one by one and the longest identifier. -/
def longestMatch (t : Text) : Found :=
  if t = [] then .finished
  else if leading t = [] then .unknown
  else
    match longestReserved? t with
    | some (word, cls) =>
      if (leading t).byteLength ≤ word.byteLength then .token (.reserved cls) word.byteLength
      else .token .identifier (leading t).byteLength
    | none => .token .identifier (leading t).byteLength

theorem longestReserved?_eq_some {entry : Text × TokenClass} (h : longestReserved? t = some entry) :
    entry ∈ reserved ∧ entry.1 <+: t := by
  have hmem := List.mem_filter.mp (List.argmax_mem h)
  exact ⟨hmem.1, List.isPrefixOf_iff_prefix.mp hmem.2⟩

theorem exists_longestReserved? {entry : Text × TokenClass} (mem : entry ∈ reserved)
    (starts : entry.1 <+: t) :
    ∃ longest, longestReserved? t = some longest ∧ entry.1.byteLength ≤ longest.1.byteLength := by
  have hentry : entry ∈ reserved.filter fun entry => entry.1.isPrefixOf t :=
    List.mem_filter.mpr ⟨mem, List.isPrefixOf_iff_prefix.mpr starts⟩
  cases h : longestReserved? t with
  | none =>
      rw [List.argmax_eq_none.mp h] at hentry
      cases hentry
  | some longest =>
      have hle := List.le_of_mem_argmax (f := fun entry : Text × TokenClass => entry.1.byteLength)
        hentry h
      exact ⟨longest, rfl, hle⟩

theorem Rule.Matches.byteLength_le (matched : rule.Matches token) (starts : token <+: t) :
    token.byteLength ≤ (leading t).byteLength :=
  Text.byteLength_le_of_isPrefix (matched.isPrefix_leading starts)

theorem isRight_identifier (nonempty : leading t ≠ [])
    (shorter : ∀ longest, longestReserved? t = some longest →
      longest.1.byteLength < (leading t).byteLength) :
    Found.IsRight t (.token .identifier (leading t).byteLength) := by
  refine .token ⟨isPrefix_leading t, matches_leading nonempty,
    fun _ _ starts matched => matched.byteLength_le starts⟩ fun _ cls mem => ?_
  obtain ⟨longest, hlongest, hle⟩ := exists_longestReserved? mem (isPrefix_leading t)
  exact Nat.not_le_of_lt (shorter longest hlongest) hle

theorem takesLongest_longestMatch : Lexer.TakesLongest longestMatch := by
  intro t
  unfold longestMatch
  split
  · next empty => exact .finished empty
  split
  · next _ empty =>
      refine .unknown fun rule token starts matched => matched.identifier.1 ?_
      have hprefix := matched.isPrefix_leading starts
      rwa [empty, List.prefix_nil] at hprefix
  split
  · next _ nonempty _ word cls hword =>
      obtain ⟨mem, starts⟩ := longestReserved?_eq_some hword
      split
      · next long =>
          refine .token ⟨starts, mem, fun rule' token' starts' matched' => ?_⟩ nofun
          exact Nat.le_trans (matched'.byteLength_le starts') long
      · next short =>
          refine isRight_identifier nonempty fun longest hlongest => ?_
          rw [hword] at hlongest
          obtain rfl := Option.some.inj hlongest
          exact Nat.lt_of_not_le short
  · next _ nonempty _ hnone =>
      refine isRight_identifier nonempty fun longest hlongest => ?_
      rw [hnone] at hlongest
      cases hlongest

/-! ### What is classified -/

/-- **Only whole words are classified.**  Let a lexer of words find the longest match at the start of every
text, and a reserved word rather than an identifier.  A text is classified as starting with so many bytes of a
reserved word if and only if these bytes are the reserved word and it ends there, and is not classified at all
if there is no such word; so the lexer finds what reading looks up.  And with a block open, a line is lined
up with the opener of the block if and only if the lexer finds `else`, `elseif` or `end` behind the leading
blanks of its text, although the word is cut off there without a lexer. -/
theorem classified_iff_whole_word {lexer : Lexer} (lexes : lexer.TakesLongest) (t : Text) :
    (∀ cls bytes, classify lexer t = some (cls, bytes) ↔ StartsWith t cls bytes) ∧
      (classify lexer t = none ↔ ∀ cls bytes, ¬ StartsWith t cls bytes) ∧
      classify lexer t = (leading? t).map (fun (word, cls) => (cls, word.byteLength)) ∧
      (firstPiece t.trimStart ∈ closers ↔ FindsCloser lexer t.trimStart) ∧
      (Blocks.startsWithCloser t = true ↔ FindsCloser lexer t.trimStart) ∧
      ∀ (b : Blocks) (unit : Nat), b.isRoot = false →
        (FindsCloser lexer t.trimStart → b.columnFor unit t = b.top.toNat) ∧
          (¬ FindsCloser lexer t.trimStart →
            b.columnFor unit t = (Bits64.signed (b.top + Bits64.signed unit)).toNat) := by
  have hcloser : Blocks.startsWithCloser t = true ↔ FindsCloser lexer t.trimStart := by
    rw [lexes.findsCloser_iff]
    exact List.contains_iff_mem
  refine ⟨fun _ _ => lexes.classify_eq_some_iff, ?_, lexes.classify_eq t, ?_, hcloser,
    fun b unit inside => ⟨fun closes => ?_, fun other => ?_⟩⟩
  · rw [Option.eq_none_iff_forall_ne_some, Prod.forall]
    exact forall₂_congr fun _ _ => not_congr lexes.classify_eq_some_iff
  · rw [firstPiece_eq_leading, lexes.findsCloser_iff]
  · rw [Blocks.columnFor, inside, hcloser.mpr closes]
    rfl
  · rw [Blocks.columnFor, inside, Bool.eq_false_iff.mpr (mt hcloser.mp other)]
    rfl

/-- An accented letter ends a word. -/
theorem classified_iff_whole_word_before_accent :
    let t : Text := " \telseifé".toList
    let b : Blocks := ⟨-4, [2]⟩
    Lexer.TakesLongest longestMatch ∧ classify longestMatch t = none ∧
      StartsWith t.trimStart (.keyword .divider) 6 ∧
      classify longestMatch t.trimStart = some (.keyword .divider, 6) ∧
      FindsCloser longestMatch t.trimStart ∧ b.isRoot = false ∧ b.columnFor 4 t = 2 := by
  intro t b
  have lexes := takesLongest_longestMatch
  have starts : StartsWith t.trimStart (.keyword .divider) 6 :=
    ⟨"elseif".toList, ['é'], by decide, by decide, fun c hc => by
      rw [← Option.some.inj hc]
      decide⟩
  obtain ⟨-, -, hblank, -, hcloser, hcolumn⟩ := classified_iff_whole_word lexes t
  obtain ⟨htrimmed, -⟩ := classified_iff_whole_word lexes t.trimStart
  have closes : FindsCloser longestMatch t.trimStart := hcloser.mp (by decide)
  exact ⟨lexes, hblank.trans (by decide), starts, (htrimmed _ _).mpr starts, closes, rfl,
    (hcolumn b 4 rfl).1 closes⟩

end Word

end BlockLayout
