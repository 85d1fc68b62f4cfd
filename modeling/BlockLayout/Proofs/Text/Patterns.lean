import BlockLayout.Text.Pattern

/-! # What a search for a pattern finds

`Pattern.ways` lists the starts of a text that a pattern matches, in the order in which a search that
backtracks comes to them, and the search takes the first that can go on (`find?_eq`).  So it finds
something exactly if some start is matched (`first?_isSome_iff`).  What a pattern matches, and which of
it comes first, is told by the parts of the pattern. -/

namespace BlockLayout

namespace Pattern

/-- The runs of such characters that the text starts with, the longest first. -/
def runs (accepts : Char → Bool) : Text → List Text
  | [] => [[]]
  | c :: t => if accepts c then (runs accepts t).map (c :: ·) ++ [[]] else [[]]

/-- The starts of the text that the pattern matches, the preferred ones first. -/
def ways : Pattern → Text → List Text
  | one accepts, c :: _ => if accepts c then [[c]] else []
  | one _, [] => []
  | text s, t => if s.isPrefixOf t then [s] else []
  | many accepts, t => runs accepts t
  | optional p, t => p.ways t ++ [[]]
  | andThen p q, t => (p.ways t).flatMap fun u => (q.ways (t.drop u.length)).map (u ++ ·)
  | orElse p q, t => p.ways t ++ q.ways t
  | atEnd, t => if t.isEmpty then [[]] else []

variable {α : Type} {p q : Pattern} {accepts : Char → Bool} {s t u v : Text}

theorem findSome?_flatMap (goOn : Text → Option α) (next : Text → List Text) (found : List Text) :
    (found.flatMap next).findSome? goOn = found.findSome? fun u => (next u).findSome? goOn := by
  induction found with
  | nil => rfl
  | cons u found ih =>
      rw [List.flatMap_cons, List.findSome?_append, ih, List.findSome?_cons]
      cases (next u).findSome? goOn <;> rfl

theorem findRun_eq (goOn : Text → Option α) (t : Text) :
    findRun accepts goOn t = (runs accepts t).findSome? goOn := by
  induction t generalizing goOn with
  | nil => exact List.findSome?_singleton.symm
  | cons c t ih =>
      rw [findRun, runs, ih]
      split
      · rw [List.findSome?_append, List.findSome?_map, List.findSome?_singleton]
        rfl
      · exact List.findSome?_singleton.symm

/-- The search takes the first of the ways that can go on. -/
theorem find?_eq (p : Pattern) (goOn : Text → Option α) (t : Text) :
    p.find? goOn t = (p.ways t).findSome? goOn := by
  induction p generalizing goOn t with
  | one accepts =>
      cases t with
      | nil => rfl
      | cons c t =>
          rw [find?, ways]
          split
          · exact List.findSome?_singleton.symm
          · rfl
  | text s =>
      rw [find?, ways]
      split
      · exact List.findSome?_singleton.symm
      · rfl
  | many accepts => exact findRun_eq goOn t
  | optional p ih => rw [find?, ways, ih, List.findSome?_append, List.findSome?_singleton]
  | andThen p q ihp ihq =>
      rw [find?, ways, ihp, findSome?_flatMap]
      simp only [ihq, List.findSome?_map]
      rfl
  | orElse p q ihp ihq => rw [find?, ways, ihp, ihq, List.findSome?_append]
  | atEnd =>
      rw [find?, ways]
      split
      · exact List.findSome?_singleton.symm
      · rfl

theorem first?_eq : p.first? t = (p.ways t).head? := by
  rw [first?, find?_eq]
  cases p.ways t <;> rfl

theorem first?_isSome_iff : (p.first? t).isSome = true ↔ ∃ u, u ∈ p.ways t := by
  rw [first?_eq, List.isSome_head?]
  exact ⟨List.exists_mem_of_ne_nil _, fun ⟨_, hu⟩ => List.ne_nil_of_mem hu⟩

/-! ### The ways of a pattern from those of its parts -/

theorem mem_ways_many_iff : u ∈ (many accepts).ways t ↔ u <+: t ∧ ∀ c ∈ u, accepts c = true := by
  rw [ways]
  induction t generalizing u with
  | nil =>
      rw [runs, List.mem_singleton, List.prefix_nil]
      exact ⟨fun h => ⟨h, by simp [h]⟩, And.left⟩
  | cons c t ih =>
      rw [runs]
      cases u with
      | nil => split <;> simp
      | cons d u =>
          rw [List.cons_prefix_cons, List.forall_mem_cons]
          split
          · rename_i hc
            simp only [List.mem_append, List.mem_map, List.cons.injEq, List.mem_singleton,
              reduceCtorEq, or_false]
            constructor
            · rintro ⟨run, hrun, rfl, rfl⟩
              exact ⟨⟨rfl, (ih.mp hrun).1⟩, hc, (ih.mp hrun).2⟩
            · rintro ⟨⟨rfl, hstart⟩, -, hall⟩
              exact ⟨u, ih.mpr ⟨hstart, hall⟩, rfl, rfl⟩
          · rename_i hc
            simp only [List.mem_singleton, reduceCtorEq, false_iff]
            rintro ⟨⟨rfl, -⟩, hd, -⟩
            exact hc hd

theorem mem_ways_text_iff : u ∈ (text s).ways t ↔ u = s ∧ s <+: t := by
  rw [ways]
  split
  · rename_i h
    simp [List.isPrefixOf_iff_prefix.mp h]
  · rename_i h
    rw [List.isPrefixOf_iff_prefix] at h
    simp [h]

theorem mem_ways_oneOf_iff {texts : List Text} :
    u ∈ (oneOf texts).ways t ↔ u ∈ texts ∧ u <+: t := by
  induction texts with
  | nil => cases t <;> simp [oneOf, ways]
  | cons s texts ih =>
      have hcons : u ∈ (oneOf (s :: texts)).ways t ↔
          u ∈ (text s).ways t ∨ u ∈ (oneOf texts).ways t := by
        cases texts with
        | nil => cases t <;> simp [oneOf, ways]
        | cons s' texts => exact List.mem_append
      rw [hcons, ih, mem_ways_text_iff, List.mem_cons, or_and_right]
      constructor
      · rintro (⟨rfl, hstart⟩ | h)
        · exact Or.inl ⟨rfl, hstart⟩
        · exact Or.inr h
      · rintro (⟨rfl, hstart⟩ | h)
        · exact Or.inl ⟨rfl, hstart⟩
        · exact Or.inr h

theorem mem_ways_andThen_iff : u ∈ (p.andThen q).ways t ↔
    ∃ first ∈ p.ways t, ∃ second ∈ q.ways (t.drop first.length), u = first ++ second := by
  simp only [ways, List.mem_flatMap, List.mem_map, eq_comm]

theorem mem_ways_atEnd_iff : u ∈ atEnd.ways t ↔ u = [] ∧ t = [] := by
  rw [ways]
  cases t <;> simp

/-! ### The first way of a pattern from those of its parts -/

theorem ways_eq_nil_iff : p.ways t = [] ↔ p.first? t = none := by
  rw [first?_eq, List.head?_eq_none_iff]

theorem first?_one {c : Char} (accepted : accepts c = true) :
    (one accepts).first? (c :: t) = some [c] := if_pos accepted

theorem first?_one_of_not (refused : ∀ c ∈ t.head?, accepts c = false) :
    (one accepts).first? t = none := by
  cases t with
  | nil => rfl
  | cons c t => exact if_neg (Bool.eq_false_iff.mp (refused c rfl))

theorem first?_single (c : Char) (t : Text) : (single c).first? (c :: t) = some [c] :=
  first?_one (beq_self_eq_true c)

theorem first?_single_of_not {c : Char} (other : ∀ u, t ≠ c :: u) : (single c).first? t = none := by
  refine first?_one_of_not fun d hd => beq_eq_false_iff_ne.mpr ?_
  rintro rfl
  obtain ⟨u, hu⟩ := List.head?_eq_some_iff.mp hd
  exact other u hu

theorem first?_many : (many accepts).first? t = some (t.takeWhile accepts) := by
  rw [first?_eq, ways]
  induction t with
  | nil => rfl
  | cons c t ih =>
      rw [runs, List.takeWhile_cons]
      split
      · rw [List.head?_append, List.head?_map, ih]
        rfl
      · rfl

theorem first?_optional : p.optional.first? t = some ((p.first? t).getD []) := by
  rw [first?_eq, ways, List.head?_append, ← first?_eq]
  cases p.first? t <;> rfl

theorem first?_orElse : (p.orElse q).first? t = (p.first? t).or (q.first? t) := rfl

theorem first?_andThen : (p.andThen q).first? t =
    (p.ways t).findSome? fun u => (q.first? (t.drop u.length)).map (u ++ ·) := by
  simp only [first?_eq, ways, List.head?_flatMap, List.head?_map]

/-- If the first way of the first pattern can go on, the search does not come back. -/
theorem first?_andThen_of_some (first : p.first? t = some u)
    (second : q.first? (t.drop u.length) = some v) : (p.andThen q).first? t = some (u ++ v) := by
  obtain ⟨others, hways⟩ := List.head?_eq_some_iff.mp (first?_eq.symm.trans first)
  rw [first?_andThen, hways, List.findSome?_cons, second]
  rfl

theorem first?_andThen_of_none (first : p.first? t = none) : (p.andThen q).first? t = none := by
  rw [first?_andThen, ways_eq_nil_iff.mpr first]
  rfl

/-- There is one way to match a character. -/
theorem first?_single_andThen (c : Char) (t : Text) :
    ((single c).andThen q).first? (c :: t) = (q.first? t).map (c :: ·) := by
  have hways : (single c).ways (c :: t) = [[c]] := if_pos (beq_self_eq_true c)
  rw [first?_andThen, hways, List.findSome?_singleton]
  rfl

end Pattern

end BlockLayout
