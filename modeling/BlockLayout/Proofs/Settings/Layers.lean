import BlockLayout.Command.Run
import BlockLayout.Proofs.Settings.Library
import Mathlib.Data.List.Induction

/-! # Settings layer by layer

What counts for a setting is its last override, wherever that stands among the layers, else what the
last file that defines it says, else the default (`winning`).  Nothing else is looked at: not the other
setting, and no value that is replaced.  This holds over every library that does what is documented
(`Library.View.Documented`).

A builder that has gathered layers builds the values that count (`Gathers`).  Taking up one more file or
override keeps it so (`Gathers.addFile`, `Gathers.setOverride`), and by induction on the layers the
values that are put together are those that count (`gathers_layers`).

Main statement: `layered_key_by_key`. -/

namespace BlockLayout.Settings

/-! ### Layers -/

/-- The paths of the files among layers, and whether each is required. -/
def filesOf (layers : List Layer) : List (Text × Bool) :=
  layers.filterMap fun layer =>
    match layer with
    | .file path required => some (path, required)
    | .override _ _ => none

/-- The numbers that overrides among layers give a setting. -/
def overridesOf (key : Key) (layers : List Layer) : List Int :=
  layers.filterMap fun layer =>
    match layer with
    | .override name (.integer n) => if name = key.name then some n else none
    | _ => none

/-- Every override among the layers gives a setting an integer. -/
def OverridesWhole (layers : List Layer) : Prop :=
  ∀ name value, .override name value ∈ layers → ∃ (key : Key) (n : Int),
    name = key.name ∧ value = .integer n

theorem filesOf_append_file (layers : List Layer) (path : Text) (required : Bool) :
    filesOf (layers ++ [.file path required]) = filesOf layers ++ [(path, required)] := by
  unfold filesOf
  rw [List.filterMap_append]
  rfl

theorem filesOf_append_override (layers : List Layer) (name : Text) (value : Value) :
    filesOf (layers ++ [.override name value]) = filesOf layers := by
  unfold filesOf
  rw [List.filterMap_append]
  exact List.append_nil _

theorem overridesOf_append_file (layers : List Layer) (path : Text) (required : Bool) (key : Key) :
    overridesOf key (layers ++ [.file path required]) = overridesOf key layers := by
  unfold overridesOf
  rw [List.filterMap_append]
  exact List.append_nil _

theorem overridesOf_append_override (layers : List Layer) (key key' : Key) (n : Int) :
    overridesOf key (layers ++ [.override key'.name (.integer n)]) =
      overridesOf key layers ++ if key = key' then [n] else [] := by
  unfold overridesOf
  rw [List.filterMap_append]
  by_cases hkey : key = key'
  · subst hkey
    rw [if_pos rfl]
    simp
  · have hname : key'.name ≠ key.name := fun h => hkey (Key.name_injective h).symm
    rw [if_neg hkey]
    simp [hname]

theorem getLast?_overridesOf_override (layers : List Layer) (key key' : Key) (n : Int) :
    (overridesOf key (layers ++ [.override key'.name (.integer n)])).getLast? =
      if key = key' then some n else (overridesOf key layers).getLast? := by
  rw [overridesOf_append_override, List.getLast?_append]
  split
  · rfl
  · rfl

variable {l : Library} {V : l.View} {files : Files} {layers : List Layer}

namespace Library.View

/-- What a file gives a setting. -/
def fileValue? (V : l.View) (files : Files) (key : Key) (path : Text) : Option Value :=
  (V.source? files (.file path false)).bind (· key)

/-- What files give a setting, one after the other. -/
def fileValues (V : l.View) (files : Files) (key : Key) (paths : List (Text × Bool)) : List Value :=
  paths.filterMap fun file => V.fileValue? files key file.1

/-- The value of a setting that counts among layers: its last override, else what the last file that
defines it gives, else the default. -/
def winning (V : l.View) (files : Files) (layers : List Layer) (key : Key) : Value :=
  (((overridesOf key layers).getLast?.map Value.integer).or
    (V.fileValues files key (filesOf layers)).getLast?).getD (.integer 4)

/-- Every file among the layers can be read, or is not there and need not be. -/
def FilesReadable (V : l.View) (files : Files) (layers : List Layer) : Prop :=
  ∀ path required, .file path required ∈ layers →
    (V.source? files (.file path required)).isSome = true

theorem source?_file {path : Text} {required : Bool} {values : Key → Option Value}
    (readable : V.source? files (.file path required) = some values) (key : Key) :
    V.fileValue? files key path = values key := by
  unfold fileValue?
  unfold source? at readable ⊢
  cases hbytes : V.bytes? files path with
  | none =>
      simp only [hbytes] at readable ⊢
      cases required with
      | true => cases readable
      | false =>
          obtain rfl := Option.some.inj readable
          rfl
  | some bytes =>
      simp only [hbytes] at readable ⊢
      rw [readable]
      rfl

theorem getLast?_fileValues_append (V : l.View) (files : Files) (key : Key)
    (paths : List (Text × Bool)) (path : Text) (required : Bool) :
    (V.fileValues files key (paths ++ [(path, required)])).getLast? =
      (V.fileValue? files key path).or (V.fileValues files key paths).getLast? := by
  unfold fileValues
  rw [List.filterMap_append, List.getLast?_append, List.filterMap_cons, List.filterMap_nil]
  cases V.fileValue? files key path with
  | none => rfl
  | some value => rfl

theorem winning_append_file (V : l.View) (files : Files) (layers : List Layer) (path : Text)
    (required : Bool) (key : Key) :
    V.winning files (layers ++ [.file path required]) key =
      if (overridesOf key layers).getLast?.isSome then V.winning files layers key
      else (V.fileValue? files key path).getD (V.winning files layers key) := by
  unfold winning
  rw [filesOf_append_file, overridesOf_append_file, getLast?_fileValues_append]
  cases (overridesOf key layers).getLast? with
  | some n => rfl
  | none =>
      rw [Option.map_none, Option.none_or, Option.none_or, Option.isSome_none, if_neg (by decide)]
      cases V.fileValue? files key path with
      | none => rfl
      | some value => rfl

theorem winning_append_override (V : l.View) (files : Files) (layers : List Layer) (key key' : Key)
    (n : Int) :
    V.winning files (layers ++ [.override key'.name (.integer n)]) key =
      if key = key' then .integer n else V.winning files layers key := by
  unfold winning
  rw [filesOf_append_override, getLast?_overridesOf_override]
  split
  · rfl
  · rfl

/-! ### Taking layers up -/

/-- A builder has gathered layers: the values that it builds are those that count. -/
structure Gathers (V : l.View) (files : Files) (layers : List Layer) (b : l.Builder) : Prop where
  overridden (key : Key) : V.overridden b key = (overridesOf key layers).getLast?.isSome
  built : ∃ t, l.build files b = .ok t ∧ ∀ key, V.value? t key = some (V.winning files layers key)

variable {b : l.Builder}

theorem gathers_start (documented : V.Documented) (files : Files) :
    V.Gathers files [] l.start := by
  have hdefault : V.source? files (.text defaultDocument) = some fun _ => some (.integer 4) :=
    documented.read_default
  obtain ⟨t, built, empty⟩ := documented.build_empty files
  obtain ⟨t', built', values⟩ := documented.build_addSource files built hdefault
  refine ⟨fun key => ?_, t', built', fun key => ?_⟩
  · exact (documented.overridden_addSource l.empty _ key).trans (documented.overridden_empty key)
  · rw [values, documented.overridden_empty, if_neg (by decide)]
    rfl

theorem Gathers.addFile (documented : V.Documented) (gathered : V.Gathers files layers b)
    {path : Text} {required : Bool}
    (readable : (V.source? files (.file path required)).isSome = true) :
    V.Gathers files (layers ++ [.file path required]) (l.addSource b (.file path required)) := by
  obtain ⟨values, hvalues⟩ := Option.isSome_iff_exists.mp readable
  obtain ⟨t, built, counts⟩ := gathered.built
  obtain ⟨t', built', after⟩ := documented.build_addSource files built hvalues
  refine ⟨fun key => ?_, t', built', fun key => ?_⟩
  · rw [documented.overridden_addSource, gathered.overridden, overridesOf_append_file]
  · rw [after, counts, gathered.overridden, winning_append_file, source?_file hvalues]
    split
    · rfl
    · exact Option.or_some

theorem Gathers.setOverride (documented : V.Documented) (gathered : V.Gathers files layers b)
    (key : Key) (n : Int) :
    ∃ b', l.setOverride b key.name (.integer n) = .ok b' ∧
      V.Gathers files (layers ++ [.override key.name (.integer n)]) b' := by
  obtain ⟨b', hset, overridden, build⟩ := documented.setOverride_integer b key n
  obtain ⟨t, built, counts⟩ := gathered.built
  obtain ⟨t', built', after⟩ := build files t built
  refine ⟨b', hset, fun key' => ?_, t', built', fun key' => ?_⟩
  · rw [overridden, gathered.overridden, getLast?_overridesOf_override]
    by_cases hkey : key' = key
    · rw [if_pos hkey, decide_eq_true hkey]
      rfl
    · rw [if_neg hkey, decide_eq_false hkey]
      rfl
  · rw [after, winning_append_override]
    split
    · rfl
    · exact counts key'

/-- Layers that can be read are gathered. -/
theorem gathers_layers (documented : V.Documented) (readable : V.FilesReadable files layers)
    (whole : OverridesWhole layers) :
    ∃ b, layers.foldlM l.add l.start = .ok b ∧ V.Gathers files layers b := by
  induction layers using List.reverseRecOn with
  | nil => exact ⟨l.start, rfl, gathers_start documented files⟩
  | append_singleton layers layer ih =>
      obtain ⟨b, hb, gathered⟩ := ih
        (fun path required hmem => readable path required (List.mem_append_left _ hmem))
        (fun name value hmem => whole name value (List.mem_append_left _ hmem))
      have hlast : layer ∈ layers ++ [layer] := List.mem_append_right _ List.mem_cons_self
      rw [List.foldlM_append, hb]
      cases layer with
      | file path required =>
          exact ⟨_, rfl, gathered.addFile documented (readable path required hlast)⟩
      | override name value =>
          obtain ⟨key, n, rfl, rfl⟩ := whole name value hlast
          obtain ⟨b', hset, gathered'⟩ := gathered.setOverride documented key n
          refine ⟨b', ?_, gathered'⟩
          change (l.setOverride b key.name (.integer n)).bind pure = _
          rw [hset]
          rfl

/-- The settings that are put together are the values that count. -/
theorem combine_eq_ok_iff (documented : V.Documented) (readable : V.FilesReadable files layers)
    (whole : OverridesWhole layers) {s : Settings} :
    l.combine files layers = .ok s ↔
      ∀ key, V.whole? (V.winning files layers key) = some (s.get key) := by
  obtain ⟨b, hb, gathered⟩ := gathers_layers documented readable whole
  obtain ⟨t, built, counts⟩ := gathered.built
  have hcombine : l.combine files layers = l.deserialize t := by
    unfold combine
    rw [hb]
    change (l.build files b).bind l.deserialize = _
    rw [built]
    rfl
  rw [hcombine, documented.deserialize_eq_ok_iff]
  refine forall_congr' fun key => ?_
  rw [counts]
  rfl

end Library.View

/-- Settings that come out are what is put together, and valid. -/
theorem Library.load_eq_ok_iff {s : Settings} :
    l.load files layers = .ok s ↔ l.combine files layers = .ok s ∧ ∀ key, 1 ≤ s.get key := by
  have hmapError : ∀ x : Except Defect Settings,
      x.mapError LoadError.invalid = .ok s ↔ x = .ok s := by
    rintro (defect | r)
    · exact ⟨fun h => (nomatch h), fun h => (nomatch h)⟩
    · exact ⟨fun h => congrArg _ (Except.ok.inj h), fun h => congrArg _ (Except.ok.inj h)⟩
  unfold load
  cases l.combine files layers with
  | error e => exact ⟨fun h => (nomatch h), fun h => (nomatch h.1)⟩
  | ok r =>
      change r.validate.mapError LoadError.invalid = .ok s ↔ _
      rw [hmapError, validate_eq_ok_iff, Key.forall_iff, Except.ok.injEq]
      constructor
      · rintro ⟨rfl, hindent, htab⟩
        exact ⟨rfl, hindent, htab⟩
      · rintro ⟨rfl, hindent, htab⟩
        exact ⟨rfl, hindent, htab⟩

/-! ### The order of the layers -/

theorem mem_filesOf_iff {path : Text} {required : Bool} :
    (path, required) ∈ filesOf layers ↔ .file path required ∈ layers := by
  unfold filesOf
  rw [List.mem_filterMap]
  constructor
  · rintro ⟨layer, hmem, hlayer⟩
    cases layer with
    | file path' required' =>
        obtain ⟨rfl, rfl⟩ := Prod.mk.inj (Option.some.inj hlayer)
        exact hmem
    | override name value => cases hlayer
  · exact fun hmem => ⟨_, hmem, rfl⟩

theorem Library.View.FilesReadable.of_filesOf {layers' : List Layer}
    (readable : V.FilesReadable files layers) (sameFiles : filesOf layers' = filesOf layers) :
    V.FilesReadable files layers' := by
  intro path required hmem
  rw [← mem_filesOf_iff, sameFiles, mem_filesOf_iff] at hmem
  exact readable path required hmem

/-- What counts depends on the files in their order and, for each setting, on the overrides of that
setting in their order. -/
theorem Library.View.winning_congr {layers' : List Layer} (sameFiles : filesOf layers' = filesOf layers)
    (sameOverrides : ∀ key, overridesOf key layers' = overridesOf key layers) (key : Key) :
    V.winning files layers' key = V.winning files layers key := by
  unfold winning
  rw [sameFiles, sameOverrides]

theorem foldlM_add (whole : OverridesWhole layers) (b : Builder) :
    ∃ bs, layers.foldlM library.add b = .ok ⟨b.sources ++ (filesOf layers).map
        (fun (path, required) => .file path required), b.overrides ++ bs⟩ ∧
      ∀ key, bs.filter (Assignment.names key) = (overridesOf key layers).map key.assign := by
  induction layers using List.reverseRecOn with
  | nil =>
      refine ⟨[], ?_, fun key => rfl⟩
      exact congrArg₂ (fun sources overrides => Except.ok (Builder.mk sources overrides))
        (List.append_nil _).symm (List.append_nil _).symm
  | append_singleton layers layer ih =>
      obtain ⟨bs, hbs, hfilter⟩ := ih fun name value hmem =>
        whole name value (List.mem_append_left _ hmem)
      have hfold := List.foldlM_append.trans
        (congrArg (fun gathered => gathered >>= [layer].foldlM library.add) hbs)
      cases layer with
      | file path required =>
          refine ⟨bs, hfold.trans ?_, fun key => ?_⟩
          · rw [filesOf_append_file, List.map_append, ← List.append_assoc]
            rfl
          · rw [overridesOf_append_file, hfilter]
      | override name value =>
          obtain ⟨key, n, rfl, rfl⟩ := whole name value (List.mem_append_right _ List.mem_cons_self)
          refine ⟨bs ++ [key.assign n], hfold.trans ?_, fun key' => ?_⟩
          · rw [filesOf_append_override, ← List.append_assoc]
            change (Builder.setOverride _ key.name (.integer n)).bind pure = _
            unfold Builder.setOverride
            rw [key.parse?_name]
            rfl
          · rw [overridesOf_append_override, List.filter_append, hfilter, List.map_append,
              List.filter_cons, List.filter_nil, Key.names_assign]
            by_cases hkey : key' = key
            · rw [if_pos hkey, if_pos (decide_eq_true hkey), hkey]
              rfl
            · rw [if_neg hkey, if_neg (mt of_decide_eq_true hkey)]
              rfl

theorem combine_of_foldlM {b : Builder}
    (gathered : layers.foldlM library.add library.start = .ok b) :
    combine files layers = (b.build files).bind Entries.settings := by
  unfold combine Library.combine
  rw [gathered]
  rfl

/-- In the library of the program an error does not depend on the order of the layers either. -/
theorem combine_congr {layers' : List Layer} (whole : OverridesWhole layers)
    (whole' : OverridesWhole layers') (sameFiles : filesOf layers' = filesOf layers)
    (sameOverrides : ∀ key, overridesOf key layers' = overridesOf key layers) :
    combine files layers' = combine files layers := by
  obtain ⟨bs, hbs, hfilter⟩ := foldlM_add whole library.start
  obtain ⟨bs', hbs', hfilter'⟩ := foldlM_add whole' library.start
  have hbuild : ∀ sources overrides, Builder.build files ⟨sources, overrides ++ bs'⟩ =
      Builder.build files ⟨sources, overrides ++ bs⟩ := by
    intro sources overrides
    unfold Builder.build
    cases sources.mapM (readSource files) with
    | error e => rfl
    | ok read =>
        refine congrArg Except.ok (Entries.eq_of_get fun key => ?_)
        rw [Entries.get_foldl, Entries.get_foldl]
        simp only [List.filter_append, hfilter, hfilter', sameOverrides]
  rw [combine_of_foldlM hbs, combine_of_foldlM hbs', sameFiles, hbuild]

/-! ### The options of a command line -/

theorem overridesWhole_options (options : Command.Options) : OverridesWhole options.layers := by
  intro name value hmem
  unfold Command.Options.layers at hmem
  simp only [List.cons_append, List.mem_cons, List.mem_append, Option.mem_toList,
    Option.map_eq_some_iff, reduceCtorEq, and_false, exists_false, false_or,
    Layer.override.injEq] at hmem
  obtain ⟨n, -, rfl, rfl⟩ := hmem
  exact ⟨.indentUnit, n, rfl, rfl⟩

theorem winning_options (V : l.View) (files : Files) (options : Command.Options) :
    V.winning files options.layers .indentUnit =
        ((options.indentUnit.map Value.integer).or
          ((options.config.bind (V.fileValue? files .indentUnit)).or
            (V.fileValue? files .indentUnit Command.projectFile))).getD (.integer 4) ∧
      V.winning files options.layers .tabSize =
        ((options.config.bind (V.fileValue? files .tabSize)).or
          (V.fileValue? files .tabSize Command.projectFile)).getD (.integer 4) := by
  have hfiles : filesOf options.layers =
      [(Command.projectFile, false)] ++ (options.config.map fun path => (path, true)).toList := by
    unfold filesOf Command.Options.layers
    cases options.config <;> cases options.indentUnit <;> rfl
  have hindent : overridesOf .indentUnit options.layers = options.indentUnit.toList := by
    unfold overridesOf Command.Options.layers
    cases options.config <;> cases options.indentUnit <;> rfl
  have htab : overridesOf .tabSize options.layers = [] := by
    unfold overridesOf Command.Options.layers
    cases options.config <;> cases options.indentUnit <;> rfl
  have hproject : ∀ key, (V.fileValues files key [(Command.projectFile, false)]).getLast? =
      V.fileValue? files key Command.projectFile := fun key =>
    (Library.View.getLast?_fileValues_append V files key [] _ _).trans Option.or_none
  have hlast : ∀ key, (V.fileValues files key (filesOf options.layers)).getLast? =
      (options.config.bind (V.fileValue? files key)).or
        (V.fileValue? files key Command.projectFile) := by
    intro key
    rw [hfiles, ← hproject]
    cases options.config with
    | none => rfl
    | some path => exact Library.View.getLast?_fileValues_append V files key _ path true
  unfold Library.View.winning
  rw [hlast, hlast, hindent, htab]
  cases options.indentUnit with
  | none => exact ⟨rfl, rfl⟩
  | some n => exact ⟨rfl, rfl⟩

/-- **Settings are layered key by key.**  Take a library that does what is documented, and layers whose
files can be read, the optional ones if they are there, and whose overrides give the settings integers.

* Each of the two settings that is put together is its last override, else what the last file that
  defines it gives, else four; there are settings exactly if both values can be converted to whole
  numbers.  No other value is looked at.
* An integer among these values comes out as it is, and if both are integers of at least zero, there
  are settings.
* Settings come out exactly if both of these are at least one.
* The result does not depend on where overrides stand among the files, or among the overrides of the
  other setting.
* For the options of a command line, the indent unit given there comes before the file that an option
  names, this file before the file of the project, and this file before the defaults. -/
theorem layered_key_by_key {l : Library} {V : l.View} (documented : V.Documented) (files : Files) :
    (∀ layers, V.FilesReadable files layers → OverridesWhole layers → ∀ s,
      (l.combine files layers = .ok s ↔
        ∀ key, V.whole? (V.winning files layers key) = some (s.get key)) ∧
      (∀ key n, V.winning files layers key = .integer n → l.combine files layers = .ok s →
        (s.get key : Int) = n) ∧
      ((∀ key, V.winning files layers key = .integer (s.get key)) →
        l.combine files layers = .ok s)) ∧
    (∀ layers s, l.load files layers = .ok s ↔
      l.combine files layers = .ok s ∧ ∀ key, 1 ≤ s.get key) ∧
    (∀ layers layers', V.FilesReadable files layers → OverridesWhole layers →
      OverridesWhole layers' → filesOf layers' = filesOf layers →
      (∀ key, overridesOf key layers' = overridesOf key layers) → ∀ s,
      (l.combine files layers' = .ok s ↔ l.combine files layers = .ok s) ∧
      (l.load files layers' = .ok s ↔ l.load files layers = .ok s)) ∧
    ∀ options : Command.Options, V.FilesReadable files options.layers → ∀ s,
      l.load files options.layers = .ok s ↔
        V.whole? (((options.indentUnit.map Value.integer).or
          ((options.config.bind (V.fileValue? files .indentUnit)).or
            (V.fileValue? files .indentUnit Command.projectFile))).getD (.integer 4)) =
              some s.indentUnit ∧
        V.whole? (((options.config.bind (V.fileValue? files .tabSize)).or
          (V.fileValue? files .tabSize Command.projectFile)).getD (.integer 4)) =
              some s.tabSize ∧
        1 ≤ s.indentUnit ∧ 1 ≤ s.tabSize := by
  refine ⟨fun layers readable whole s => ⟨?_, fun key n hkey hcombine => ?_, fun hkeys => ?_⟩,
    fun layers s => Library.load_eq_ok_iff,
    fun layers layers' readable whole whole' sameFiles sameOverrides s => ?_,
    fun options readable s => ?_⟩
  · exact Library.View.combine_eq_ok_iff documented readable whole
  · have hwhole := (Library.View.combine_eq_ok_iff documented readable whole).mp hcombine key
    rw [hkey] at hwhole
    exact ((documented.whole?_integer_eq_some_iff n (s.get key)).mp hwhole).symm
  · refine (Library.View.combine_eq_ok_iff documented readable whole).mpr fun key => ?_
    rw [hkeys]
    exact (documented.whole?_integer_eq_some_iff _ (s.get key)).mpr rfl
  · have hcombine : l.combine files layers' = .ok s ↔ l.combine files layers = .ok s := by
      rw [Library.View.combine_eq_ok_iff documented readable whole,
        Library.View.combine_eq_ok_iff documented (readable.of_filesOf sameFiles) whole']
      refine forall_congr' fun key => ?_
      rw [Library.View.winning_congr sameFiles sameOverrides]
    refine ⟨hcombine, ?_⟩
    rw [Library.load_eq_ok_iff, Library.load_eq_ok_iff, hcombine]
  · obtain ⟨hindent, htab⟩ := winning_options V files options
    rw [Library.load_eq_ok_iff,
      Library.View.combine_eq_ok_iff documented readable (overridesWhole_options options),
      Key.forall_iff, Key.forall_iff, hindent, htab, and_assoc]
    rfl

/-- A directory that holds only a file of the project. -/
def projectFiles (content : String) : Files := fun path =>
  if path = Command.projectFile then .file content.toUTF8 else .nothing

theorem ofBytes?_toUTF8 (content : String) : Text.ofBytes? content.toUTF8 = some content.toList := by
  have hvalid : content.toUTF8.IsValidUTF8 := content.isValidUTF8
  unfold Text.ofBytes? String.fromUTF8?
  rw [dif_pos hvalid]
  rfl

theorem source?_projectFiles (content : String) (required : Bool) :
    view.source? (projectFiles content) (.file Command.projectFile required) =
      view.read? content.toList := by
  have hbytes : view.bytes? (projectFiles content) Command.projectFile = some content.toUTF8 := rfl
  unfold Library.View.source?
  simp only [hbytes, ofBytes?_toUTF8, Option.bind_some]

/-- A file of the project with a bad indent unit, under an override of zero and one of two. -/
theorem layered_key_by_key_over_bad_value :
    let files := projectFiles "tab_size = 8\nindent_unit = -1\n"
    let file : Layer := .file Command.projectFile true
    let zero : Layer := .override Key.indentUnit.name (.integer 0)
    let two : Layer := .override Key.indentUnit.name (.integer 2)
    load files [file, zero, two] = .ok ⟨2, 8⟩ ∧
      load files [zero, file, two] = .ok ⟨2, 8⟩ ∧
      load files (Command.Options.layers { indentUnit := some 2 }) = .ok ⟨2, 8⟩ := by
  intro files file zero two
  obtain ⟨hcombine, hload, hplace, hoptions⟩ := layered_key_by_key library_documented files
  have readable : ∀ layers, (∀ path required, .file path required ∈ layers →
      path = Command.projectFile) → view.FilesReadable files layers := by
    intro layers project path required hmem
    rw [project path required hmem, source?_projectFiles]
    decide +kernel
  have htab : view.fileValue? files .tabSize Command.projectFile = some (.integer 8) := by
    unfold Library.View.fileValue?
    rw [source?_projectFiles]
    decide +kernel
  clear_value files
  have whole : ∀ layers, layers ⊆ [file, zero, two] → OverridesWhole layers := by
    intro layers sub name value hmem
    have hmem := sub hmem
    simp only [file, zero, two, List.mem_cons, List.not_mem_nil, or_false, reduceCtorEq, false_or,
      Layer.override.injEq] at hmem
    rcases hmem with ⟨rfl, rfl⟩ | ⟨rfl, rfl⟩
    · exact ⟨.indentUnit, 0, rfl, rfl⟩
    · exact ⟨.indentUnit, 2, rfl, rfl⟩
  have readable₁ : view.FilesReadable files [file, zero, two] := by
    refine readable _ fun path required hmem => ?_
    have hfile : path = Command.projectFile ∧ required = true := by
      simpa [file, zero, two] using hmem
    exact hfile.1
  have readable₂ : view.FilesReadable files (Command.Options.layers { indentUnit := some 2 }) := by
    refine readable _ fun path required hmem => ?_
    have hfile : path = Command.projectFile ∧ required = false := by
      simpa [Command.Options.layers] using hmem
    exact hfile.1
  have hwinning : view.winning files [file, zero, two] .tabSize = .integer 8 := by
    have hlast := Library.View.getLast?_fileValues_append view files .tabSize [] Command.projectFile
      true
    rw [htab] at hlast
    exact congrArg (Option.getD · (.integer 4)) hlast
  have hordered : load files [file, zero, two] = .ok ⟨2, 8⟩ := by
    refine (hload _ _).mpr ⟨?_, Key.forall_iff.mpr ⟨by decide, by decide⟩⟩
    exact (hcombine _ readable₁ (whole _ fun _ h => h) _).2.2 (Key.forall_iff.mpr ⟨rfl, hwinning⟩)
  refine ⟨hordered, ?_, ?_⟩
  · have sub : [zero, file, two] ⊆ [file, zero, two] := (List.Perm.swap file zero [two]).subset
    exact (hplace _ _ readable₁ (whole _ fun _ h => h) (whole _ sub) rfl
      (Key.forall_iff.mpr ⟨rfl, rfl⟩) _).2.mpr hordered
  · refine (hoptions { indentUnit := some 2 } readable₂ _).mpr ⟨rfl, ?_, by decide, by decide⟩
    rw [Option.bind_none, Option.none_or, htab]
    rfl

end BlockLayout.Settings
