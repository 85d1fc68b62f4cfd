import BlockLayout.Settings.Load

/-! # What a library of settings documents

`Library.View` says what can be seen of a library for layered settings: where it looks for a file, what
it reads out of a document, and which values it has gathered and put together.  `View.Documented` lists
what such a library documents of its steps.  Each point is about one step: a source, an override, a
conversion.  What a run of layers comes to is not among them.

The library that the program runs with does what is documented (`library_documented`).  An assignment
does something to one setting only (`Entries.get_apply`), and what it leaves there does not depend on
what was there, unless it leaves that as it was (`Entry.value_apply`).  So a run of assignments leaves
the last value that any of them gives (`Entry.value_foldl`). -/

namespace BlockLayout.Settings

/-! ### The two settings -/

/-- One of the two settings. -/
inductive Key where
  | indentUnit
  | tabSize
  deriving DecidableEq, Repr

/-- The name of a setting in files and overrides. -/
def Key.name : Key → Text
  | indentUnit => "indent_unit".toList
  | tabSize => "tab_size".toList

/-- The number of a setting. -/
def get (s : Settings) : Key → Nat
  | .indentUnit => s.indentUnit
  | .tabSize => s.tabSize

/-- The entry of a setting. -/
def Entries.get (entries : Entries) : Key → Option Entry
  | .indentUnit => entries.indentUnit
  | .tabSize => entries.tabSize

/-- The value of a setting. -/
def Entries.value? (entries : Entries) (key : Key) : Option Value :=
  (entries.get key).map Entry.value

theorem Key.forall_iff {P : Key → Prop} : (∀ key, P key) ↔ P .indentUnit ∧ P .tabSize := by
  constructor
  · exact fun h => ⟨h .indentUnit, h .tabSize⟩
  · rintro ⟨hindent, htab⟩ (_ | _)
    · exact hindent
    · exact htab

theorem Key.name_injective {key key' : Key} (h : key.name = key'.name) : key = key' := by
  cases key <;> cases key' <;> first | rfl | exact absurd h (by decide)

theorem Key.parse?_name (key : Key) : KeyPath.parse? key.name = some ⟨key.name, []⟩ := by
  cases key <;> decide

theorem Key.toLower_name (key : Key) : key.name.map Char.toLower = key.name := by
  cases key <;> decide

/-! ### Libraries -/

/-- What can be seen of a library for layered settings. -/
structure Library.View (l : Library) where
  /-- The paths at which a file is looked for, in order. -/
  candidates : Text → List Text
  /-- What a text gives the settings, if it is a document. -/
  read? : Text → Option (Key → Option Value)
  /-- A setting has an override. -/
  overridden : l.Builder → Key → Bool
  /-- The value of a setting among those that were put together. -/
  value? : l.Table → Key → Option Value
  /-- The whole number that a value is converted to. -/
  whole? : Value → Option Nat

namespace Library.View

variable {l : Library} (V : l.View)

/-- The bytes of a file: of the first that is there among those that are looked for. -/
def bytes? (files : Files) (path : Text) : Option ByteArray :=
  (V.candidates path).findSome? fun path =>
    match files path with
    | .file bytes => some bytes
    | _ => none

/-- What a source gives the settings, if it can be read.  A file that is not there gives nothing,
unless it is required. -/
def source? (files : Files) : Source → Option (Key → Option Value)
  | .text content => V.read? content
  | .file path required =>
    match V.bytes? files path with
    | none => if required then none else some fun _ => none
    | some bytes => (Text.ofBytes? bytes).bind V.read?

/-- What a library for layered settings documents. -/
structure Documented : Prop where
  /-- The document of the default settings gives both of them the number four. -/
  read_default : V.read? defaultDocument = some fun _ => some (.integer 4)
  /-- Without sources and overrides no setting has a value. -/
  build_empty (files : Files) : ∃ t, l.build files l.empty = .ok t ∧ ∀ key, V.value? t key = none
  /-- At first there are no overrides. -/
  overridden_empty (key : Key) : V.overridden l.empty key = false
  /-- A source is merged over those before it: per key, a value that it gives replaces the value that
  was there, but not one from an override. -/
  build_addSource (files : Files) {b : l.Builder} {t : l.Table} {source : Source}
    {values : Key → Option Value} : l.build files b = .ok t → V.source? files source = some values →
    ∃ t', l.build files (l.addSource b source) = .ok t' ∧ ∀ key, V.value? t' key =
      if V.overridden b key then V.value? t key else (values key).or (V.value? t key)
  /-- A source is no override. -/
  overridden_addSource (b : l.Builder) (source : Source) (key : Key) :
    V.overridden (l.addSource b source) key = V.overridden b key
  /-- An override is applied after all sources and all overrides before it, to its key alone. -/
  setOverride_integer (b : l.Builder) (key : Key) (n : Int) :
    ∃ b', l.setOverride b key.name (.integer n) = .ok b' ∧
      (∀ key', V.overridden b' key' = (decide (key' = key) || V.overridden b key')) ∧
      ∀ files t, l.build files b = .ok t → ∃ t', l.build files b' = .ok t' ∧
        ∀ key', V.value? t' key' = if key' = key then some (.integer n) else V.value? t key'
  /-- Settings are taken from values that can be converted, and from these values alone. -/
  deserialize_eq_ok_iff (t : l.Table) (s : Settings) : l.deserialize t = .ok s ↔
    ∀ key, (V.value? t key).bind V.whole? = some (s.get key)
  /-- Integers are converted as they are, where they are whole numbers. -/
  whole?_integer_eq_some_iff (n : Int) (k : Nat) : V.whole? (.integer n) = some k ↔ n = k

end Library.View

/-! ### Assignments -/

/-- What a value under steps into a setting leaves there, if that is something new.  A step makes the
setting a table or a sequence.  A table is merged into what is there, so that an empty one adds
nothing. -/
def valueAt? : List KeyStep → Value → Option Value
  | [], value => if value = .table true then none else some value
  | .field _ :: _, _ => some (.table false)
  | .index _ :: _, _ => some .sequence

/-- The assignment is one to the setting, or into it. -/
def Assignment.names (key : Key) (a : Assignment) : Bool := a.path.name.map Char.toLower = key.name

/-- What an assignment leaves in a setting, if that is something new. -/
def Assignment.value? (a : Assignment) : Option Value := valueAt? a.path.steps a.value

/-- What assignments give a setting, read off the assignments to it. -/
def given (key : Key) (assignments : List Assignment) : List Value :=
  (assignments.filter (Assignment.names key)).filterMap Assignment.value?

theorem given_append (key : Key) (as bs : List Assignment) :
    given key (as ++ bs) = given key as ++ given key bs := by
  unfold given
  rw [List.filter_append, List.filterMap_append]

theorem Entry.value_apply (old : Option Entry) (a : Assignment) :
    (apply old a).map Entry.value = a.value?.or (old.map Entry.value) := by
  unfold apply Assignment.value?
  cases a.path.steps with
  | nil =>
      unfold assign valueAt?
      cases a.value with
      | table isEmpty =>
          cases isEmpty with
          | true => exact (Option.none_or).symm
          | false => rfl
      | _ => rfl
  | cons step steps =>
      cases step with
      | field name => rfl
      | index position => rfl

theorem Entry.value_foldl (assignments : List Assignment) (old : Option Entry) :
    (assignments.foldl apply old).map Entry.value =
      (assignments.filterMap Assignment.value?).getLast?.or (old.map Entry.value) := by
  induction assignments generalizing old with
  | nil => exact (Option.none_or).symm
  | cons a assignments ih =>
      rw [List.foldl_cons, ih, value_apply]
      cases hvalue : a.value? with
      | none => rw [List.filterMap_cons_none hvalue, Option.none_or]
      | some value =>
          rw [List.filterMap_cons_some hvalue, List.getLast?_cons, Option.some_or, Option.some_or]
          cases (assignments.filterMap Assignment.value?).getLast? with
          | none => rfl
          | some last => rfl

theorem Entries.get_apply (entries : Entries) (a : Assignment) (key : Key) :
    (entries.apply a).get key =
      if a.names key then Entry.apply (entries.get key) a else entries.get key := by
  unfold Entries.apply Assignment.names
  simp only [decide_eq_true_eq]
  by_cases hindent : a.path.name.map Char.toLower = "indent_unit".toList
  · rw [if_pos hindent]
    cases key with
    | indentUnit => exact (if_pos hindent).symm
    | tabSize =>
        refine (if_neg fun htab => ?_).symm
        exact absurd (hindent.symm.trans htab) (by decide)
  · rw [if_neg hindent]
    cases key with
    | indentUnit =>
        refine Eq.trans ?_ (if_neg hindent).symm
        split
        · rfl
        · rfl
    | tabSize =>
        by_cases htab : a.path.name.map Char.toLower = "tab_size".toList
        · rw [if_pos htab]
          exact (if_pos htab).symm
        · rw [if_neg htab]
          exact (if_neg htab).symm

theorem Entries.get_foldl (assignments : List Assignment) (entries : Entries) (key : Key) :
    (assignments.foldl apply entries).get key =
      (assignments.filter (Assignment.names key)).foldl Entry.apply (entries.get key) := by
  induction assignments generalizing entries with
  | nil => rfl
  | cons a assignments ih =>
      rw [List.foldl_cons, ih, get_apply, List.filter_cons]
      split
      · rfl
      · rfl

theorem Entries.eq_of_get {entries entries' : Entries}
    (h : ∀ key, entries.get key = entries'.get key) : entries = entries' := by
  obtain ⟨hindent, htab⟩ := Key.forall_iff.mp h
  cases entries
  cases entries'
  exact (Entries.mk.injEq _ _ _ _).mpr ⟨hindent, htab⟩

/-- Assignments leave the last value that any of them gives. -/
theorem Entries.value?_foldl (assignments : List Assignment) (key : Key) :
    (assignments.foldl apply {}).value? key = (given key assignments).getLast? := by
  have hempty : ({} : Entries).get key = none := by
    cases key with
    | indentUnit => rfl
    | tabSize => rfl
  unfold value?
  rw [get_foldl, Entry.value_foldl, hempty, Option.map_none, Option.or_none]
  rfl

/-- The assignment of an override. -/
def Key.assign (key : Key) (n : Int) : Assignment := ⟨⟨key.name, []⟩, .integer n, none⟩

theorem Key.names_assign (key key' : Key) (n : Int) :
    (key'.assign n).names key = decide (key = key') := by
  unfold Assignment.names
  rw [show (key'.assign n).path.name = key'.name from rfl, Key.toLower_name]
  exact decide_eq_decide.mpr ⟨fun h => (Key.name_injective h).symm, fun h => h ▸ rfl⟩

theorem getLast?_given_assign (key key' : Key) (n : Int) (as : List Assignment) :
    (given key (as ++ [key'.assign n])).getLast? =
      if key = key' then some (.integer n) else (given key as).getLast? := by
  have hassign : given key [key'.assign n] = if key = key' then [.integer n] else [] := by
    unfold given
    rw [List.filter_cons, List.filter_nil, Key.names_assign]
    by_cases hkey : key = key'
    · rw [if_pos hkey, decide_eq_true hkey]
      rfl
    · rw [if_neg hkey, decide_eq_false hkey]
      rfl
  rw [given_append, hassign, List.getLast?_append]
  split
  · rfl
  · rfl

/-! ### The library of the program -/

/-- What an entry of a document gives a setting. -/
def Key.valueOf? (key : Key) (entry : Text × Toml.Item) : Option Value :=
  (KeyPath.parse? entry.1).bind fun path =>
    if path.name.map Char.toLower = key.name then valueAt? path.steps (.ofItem entry.2) else none

theorem given_entries (key : Key) (entries : Toml.Entries) (origin : Option Text) :
    given key (entries.filterMap fun (name, item) =>
        (KeyPath.parse? name).map fun path => ⟨path, .ofItem item, origin⟩) =
      entries.filterMap key.valueOf? := by
  unfold given
  rw [List.filterMap_filter, List.filterMap_filterMap]
  congr 1
  funext ⟨name, item⟩
  unfold Key.valueOf? Assignment.names
  cases h : KeyPath.parse? name with
  | none => simp only [h, Option.map_none, Option.bind_none]
  | some path =>
      simp only [h, Option.map_some, Option.bind_some, decide_eq_true_eq]
      rfl

/-- What can be seen of the library that the program runs with. -/
def view : library.View where
  candidates := fileCandidates
  read? t :=
    match Toml.parse? t with
    | some (.table _ entries) => some fun key => (entries.filterMap key.valueOf?).getLast?
    | _ => none
  overridden b key := (given key b.overrides).getLast?.isSome
  value? := Entries.value?
  whole? value := value.toWhole.toOption

theorem readDocument_of_read? {origin : Option Text} {t : Text} {values : Key → Option Value}
    (h : view.read? t = some values) :
    ∃ as, readDocument origin t = .ok as ∧ ∀ key, (given key as).getLast? = values key := by
  simp only [view] at h
  split at h
  · rename_i inline entries hparse
    obtain rfl := Option.some.inj h
    refine ⟨_, ?_, fun key => congrArg List.getLast? (given_entries key entries origin)⟩
    unfold readDocument
    rw [hparse]
  · cases h

theorem bytes?_view (files : Files) (path : Text) :
    view.bytes? files path = (findFile files path).map Prod.snd := by
  unfold Library.View.bytes? findFile
  rw [List.map_findSome?]
  refine congrArg (List.findSome? · _) (funext fun candidate => ?_)
  rw [Function.comp_apply]
  cases files candidate with
  | file bytes => rfl
  | _ => rfl

theorem readSource_of_source? {files : Files} {source : Source} {values : Key → Option Value}
    (h : view.source? files source = some values) :
    ∃ as, readSource files source = .ok as ∧ ∀ key, (given key as).getLast? = values key := by
  cases source with
  | text content => exact readDocument_of_read? h
  | file path required =>
      unfold Library.View.source? at h
      simp only [bytes?_view] at h
      change ∃ as, readFile files path required = .ok as ∧ _
      unfold readFile
      cases hfind : findFile files path with
      | none =>
          simp only [hfind, Option.map_none] at h
          cases required with
          | true => cases h
          | false =>
              obtain rfl := Option.some.inj h
              exact ⟨[], rfl, fun key => rfl⟩
      | some found =>
          simp only [hfind, Option.map_some] at h
          obtain ⟨t, htext, hread⟩ := Option.bind_eq_some_iff.mp h
          simp only [htext]
          exact readDocument_of_read? hread

theorem Builder.build_eq_ok_iff {files : Files} {b : Builder} {entries : Entries} :
    b.build files = .ok entries ↔ ∃ read, b.sources.mapM (readSource files) = .ok read ∧
      entries = (read.flatten ++ b.overrides).foldl Entries.apply {} := by
  unfold build
  cases b.sources.mapM (readSource files) with
  | error e => exact ⟨fun h => (nomatch h), fun ⟨_, h, _⟩ => (nomatch h)⟩
  | ok read =>
      constructor
      · intro h
        exact ⟨read, rfl, (Except.ok.inj h).symm⟩
      · rintro ⟨_, hread, rfl⟩
        obtain rfl := Except.ok.inj hread
        rfl

theorem Builder.value?_of_build {files : Files} {b : Builder} {entries : Entries}
    (built : b.build files = .ok entries) :
    ∃ read, b.sources.mapM (readSource files) = .ok read ∧ ∀ key, entries.value? key =
      (given key b.overrides).getLast?.or (given key read.flatten).getLast? := by
  obtain ⟨read, hread, rfl⟩ := build_eq_ok_iff.mp built
  refine ⟨read, hread, fun key => ?_⟩
  rw [Entries.value?_foldl, given_append, List.getLast?_append]

theorem Builder.build_addSource {files : Files} {b : Builder} {entries : Entries} {source : Source}
    {values : Key → Option Value} (built : b.build files = .ok entries)
    (readable : view.source? files source = some values) :
    ∃ entries', build files { b with sources := b.sources ++ [source] } = .ok entries' ∧
      ∀ key, entries'.value? key = if (given key b.overrides).getLast?.isSome then entries.value? key
        else (values key).or (entries.value? key) := by
  obtain ⟨read, hread, hbefore⟩ := value?_of_build built
  obtain ⟨as, has, hvalues⟩ := readSource_of_source? readable
  have hread' : (b.sources ++ [source]).mapM (readSource files) = .ok (read ++ [as]) := by
    rw [List.mapM_append, hread, List.mapM_cons, has]
    rfl
  refine ⟨_, build_eq_ok_iff.mpr ⟨read ++ [as], hread', rfl⟩, fun key => ?_⟩
  rw [Entries.value?_foldl, hbefore, List.flatten_append, List.flatten_singleton, given_append,
    given_append, List.getLast?_append, List.getLast?_append, hvalues]
  cases (given key b.overrides).getLast? with
  | none => rfl
  | some value => rfl

theorem Builder.build_setOverride {files : Files} {b : Builder} {entries : Entries} (key : Key)
    (n : Int) (built : b.build files = .ok entries) :
    ∃ entries', build files { b with overrides := b.overrides ++ [key.assign n] } = .ok entries' ∧
      ∀ key', entries'.value? key' =
        if key' = key then some (.integer n) else entries.value? key' := by
  obtain ⟨read, hread, hbefore⟩ := value?_of_build built
  refine ⟨_, build_eq_ok_iff.mpr ⟨read, hread, rfl⟩, fun key' => ?_⟩
  rw [Entries.value?_foldl, hbefore, ← List.append_assoc, getLast?_given_assign, given_append,
    List.getLast?_append]

theorem Entries.number_eq_ok_iff (key : String) {entry : Option Entry} {n : Nat} :
    number key entry = .ok n ↔
      (entry.map Entry.value).bind (fun value => value.toWhole.toOption) = some n := by
  unfold number
  cases entry with
  | none => simp
  | some entry =>
      rw [Option.map_some, Option.bind_some]
      simp only
      cases entry.value.toWhole with
      | ok m => simp [Except.toOption]
      | error mismatch => simp [Except.toOption]

theorem Entries.settings_eq_ok_iff {entries : Entries} {s : Settings} :
    entries.settings = .ok s ↔
      ∀ key, (entries.value? key).bind (fun value => value.toWhole.toOption) = some (s.get key) := by
  obtain ⟨indentUnit, tabSize⟩ := s
  rw [Key.forall_iff]
  unfold value? Entries.settings Entries.get Settings.get
  simp only
  rw [← number_eq_ok_iff "indent_unit", ← number_eq_ok_iff "tab_size"]
  cases number "indent_unit" entries.indentUnit with
  | error e => simp [bind, Except.bind]
  | ok n =>
      cases number "tab_size" entries.tabSize with
      | error e => simp [bind, Except.bind]
      | ok m => simp [bind, Except.bind, pure, Except.pure]

theorem toOption_toWhole_integer (n : Int) (k : Nat) :
    (Value.integer n).toWhole.toOption = some k ↔ n = k := by
  rw [show (Value.integer n).toWhole =
    if n < 0 then .error (.negative n) else .ok n.toNat from rfl]
  by_cases hneg : n < 0
  · rw [if_pos hneg]
    refine ⟨fun h => (nomatch h), fun h => ?_⟩
    omega
  · rw [if_neg hneg]
    refine Option.some_inj.trans ?_
    omega

theorem read?_defaultDocument : view.read? defaultDocument = some fun _ => some (.integer 4) := by
  have hread : (view.read? defaultDocument).isSome = true := by decide +kernel
  have hvalues : ∀ key, (view.read? defaultDocument).bind (· key) = some (.integer 4) :=
    Key.forall_iff.mpr ⟨by decide +kernel, by decide +kernel⟩
  obtain ⟨values, hvalues'⟩ := Option.isSome_iff_exists.mp hread
  rw [hvalues'] at hvalues ⊢
  exact congrArg some (funext hvalues)

/-- The library that the program runs with does what is documented. -/
theorem library_documented : view.Documented where
  read_default := read?_defaultDocument
  build_empty files := ⟨{}, rfl, Key.forall_iff.mpr ⟨rfl, rfl⟩⟩
  overridden_empty key := rfl
  build_addSource files _ _ _ _ built readable := Builder.build_addSource built readable
  overridden_addSource b source key := rfl
  setOverride_integer b key n := by
    refine ⟨{ b with overrides := b.overrides ++ [key.assign n] }, ?_, fun key' => ?_,
      fun files t built => Builder.build_setOverride key n built⟩
    · change Builder.setOverride b key.name (.integer n) = _
      unfold Builder.setOverride
      rw [key.parse?_name]
      rfl
    · change (given key' (b.overrides ++ [key.assign n])).getLast?.isSome = _
      rw [getLast?_given_assign]
      by_cases hkey : key' = key
      · rw [if_pos hkey, decide_eq_true hkey]
        rfl
      · rw [if_neg hkey, decide_eq_false hkey]
        rfl
  deserialize_eq_ok_iff entries s := Entries.settings_eq_ok_iff
  whole?_integer_eq_some_iff := toOption_toWhole_integer

end BlockLayout.Settings
