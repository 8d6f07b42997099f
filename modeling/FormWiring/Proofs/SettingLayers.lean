import FormWiring.Proofs.AllOrNothing
import FormWiring.Proofs.ModelSchema

/-!
# Layers of settings

Each of the four settings comes from the environment, else from the settings file, else from the defaults, and from no
other setting's source. A file gives a setting under its key; where a list stands for the table of the key, it gives the
setting at the key's place. A command that is given a path finds the same settings there, if they pass their check.

Main statement: `Settings.load_layers`.
-/

set_option autoImplicit false

namespace FormWiring

/-! ## Settings one by one -/

/-- **The four settings.** -/
inductive Setting where
  | dataBinding
  | runtimePath
  | unitSuffix
  | logLevel
  deriving DecidableEq, Repr

namespace Setting

/-- **Name of the table** that a setting stands in. -/
def table : Setting → String
  | dataBinding | runtimePath | unitSuffix => "codegen"
  | logLevel => "logging"

/-- **Key** of a setting in its table. -/
def key : Setting → String
  | dataBinding => "data_binding"
  | runtimePath => "runtime_crate"
  | unitSuffix => "unit_suffix"
  | logLevel => "level"

/-- **Place** of a setting among those of its table. -/
def place : Setting → Nat
  | dataBinding | logLevel => 0
  | runtimePath => 1
  | unitSuffix => 2

/-- **Value** of a setting, as data. -/
def value (s : Settings) : Setting → Datum
  | dataBinding => .bool s.codegen.dataBinding
  | runtimePath => .text s.codegen.runtimePath
  | unitSuffix => .text s.codegen.unitSuffix
  | logLevel => .text s.logLevel

/-- **Value from the environment**: that of the setting's variable, if it is set. The flag's variable counts only when
it says one. -/
def fromEnvironment? (environment : Environment) : Setting → Option Datum
  | dataBinding => (environment.dataBinding.bind flagOfText?).map .bool
  | runtimePath => environment.runtimePath.map .text
  | unitSuffix => environment.unitSuffix.map .text
  | logLevel => environment.logLevel.map .text

/-- **Value under the key** of a setting, in its table. -/
def underKey? (d : Datum) (setting : Setting) : Option Datum :=
  (d.get? setting.table).bind (Datum.get? setting.key)

/-- **Value in a table**: under the key of a setting or, where a list stands for the table, at its place. -/
def inTable? (table : Datum) (setting : Setting) : Option Datum :=
  (table.get? setting.key).or (table.toItems?.bind fun items => items[setting.place]?)

/-- **Value given** by data, in the table of a setting. -/
def given? (d : Datum) (setting : Setting) : Option Datum :=
  (d.get? setting.table).bind setting.inTable?

end Setting

/-- **Layered settings**: each is what the environment says, else what is given, else the default. -/
def Settings.IsLayered (s : Settings) (environment : Environment) (given : Setting → Option Datum) : Prop :=
  ∀ setting : Setting,
    setting.value s = (setting.fromEnvironment? environment).getD ((given setting).getD (setting.value {}))

/-- **A settings file** with data: it can be read, its text is TOML, and its data are settings. -/
def FileSystem.HoldsSettings (fs : FileSystem) (path : String) (d : Datum) : Prop :=
  ∃ text, fs.read path = .ok text ∧ Toml.parse? text = some d ∧ (Settings.ofDatum? .toml d).isSome = true

/-- **What the files give** for settings at a path: nothing where there is no file, else what its data give. -/
def FileSystem.Gives (fs : FileSystem) (path : String) (given : Setting → Option Datum) : Prop :=
  fs.exists? path = false ∧ (given = fun _ => none) ∨
    ∃ d, fs.HoldsSettings path d ∧ given = fun setting => setting.given? d

/-! ## The environment -/

/-- **Words of a flag.** -/
def flagWords : Bool → List String
  | true => ["true", "1", "yes", "on"]
  | false => ["false", "0", "no", "off"]

theorem flagOfText?_eq_some_iff (text : String) (flag : Bool) :
    flagOfText? text = some flag ↔ lowerAscii (Text.trim text) ∈ flagWords flag := by
  have hdisjoint : ∀ word ∈ flagWords true, word ∉ flagWords false := by decide
  change (if lowerAscii (Text.trim text) ∈ flagWords true then some true
    else if lowerAscii (Text.trim text) ∈ flagWords false then some false else none) = some flag ↔ _
  split_ifs with htrue hfalse <;> cases flag
  · simpa using hdisjoint _ htrue
  · simpa using htrue
  · simpa using hfalse
  · simpa using htrue
  · simpa using hfalse
  · simpa using htrue

namespace Setting

theorem value_under (s : Settings) (environment : Environment) (setting : Setting) :
    setting.value (s.under environment) = (setting.fromEnvironment? environment).getD (setting.value s) := by
  cases setting with
  | dataBinding => exact (Option.getD_map Datum.bool _ _).symm
  | runtimePath => exact (Option.getD_map Datum.text _ _).symm
  | unitSuffix => exact (Option.getD_map Datum.text _ _).symm
  | logLevel => exact (Option.getD_map Datum.text _ _).symm

end Setting

/-- Applied again, the environment changes nothing. -/
theorem Settings.under_under (s : Settings) (environment : Environment) :
    (s.under environment).under environment = s.under environment := by
  obtain ⟨dataBinding, runtimePath, unitSuffix, logLevel⟩ := environment
  have hagain {α : Type} (x : Option α) (a : α) : x.getD (x.getD a) = x.getD a := by cases x <;> rfl
  simp only [Settings.under, hagain]

/-! ## Data -/

/-- A key is paired with the item at its place. -/
theorem lookup_zip {names : List String} (hnodup : names.Nodup) {place : Nat} {name : String}
    (hname : names[place]? = some name) (items : List Datum) : (names.zip items).lookup name = items[place]? := by
  induction names generalizing place items with
  | nil => cases hname
  | cons first names ih =>
    cases items with
    | nil => rfl
    | cons item items =>
      rw [List.nodup_cons] at hnodup
      cases place with
      | zero =>
        obtain rfl : first = name := Option.some.inj hname
        exact List.lookup_cons_self
      | succ place =>
        have hmem : name ∈ names := List.mem_of_getElem? hname
        have hne : (name == first) = false := beq_false_of_ne fun h => hnodup.1 (h ▸ hmem)
        rw [List.zip_cons_cons, List.lookup_cons, hne]
        exact ih hnodup.2 hname items

/-- A part of a structure is what stands under its name, or at its place. -/
theorem Datum.part_of_toParts? {names : List String} {d : Datum} {get : String → Option Datum}
    (hnodup : names.Nodup) (h : d.toParts? .toml names = some get) {place : Nat} {name : String}
    (hname : names[place]? = some name) :
    get name = (d.get? name).or (d.toItems?.bind fun items => items[place]?) := by
  cases d with
  | record entries =>
    cases h
    exact (Option.or_none).symm
  | list items =>
    cases h
    exact lookup_zip hnodup hname items
  | _ => cases h

/-- A part with a default: what it gives stands above what the default says. -/
theorem Datum.value_of_partOr {α : Type} {part : Option Datum} {fallback a : α} {decode : Datum → Option α}
    {value : α → Datum} {given? : Datum → Option Datum}
    (hdecode : ∀ d a, decode d = some a → value a = (given? d).getD (value fallback))
    (h : Datum.partOr part fallback decode = some a) : value a = (part.bind given?).getD (value fallback) := by
  cases part with
  | none => exact congrArg value (Option.some.inj h).symm
  | some d => exact hdecode d a h

theorem Datum.bool_of_toBool? (d : Datum) (b : Bool) (h : d.toBool? = some b) : .bool b = d := by
  cases d <;> simp_all [toBool?]

theorem Datum.text_of_toText? (d : Datum) (s : String) (h : d.toText? = some s) : .text s = d := by
  cases d <;> simp_all [toText?]

/-- A TOML text is a record. -/
theorem Toml.exists_record_of_parse? {text : String} {d : Datum} (h : Toml.parse? text = some d) :
    ∃ entries, d = .record entries := by
  obtain ⟨lines, -, hlines⟩ := Option.bind_eq_some_iff.1 h
  obtain ⟨root, -, hroot⟩ := Option.bind_eq_some_iff.1 hlines
  exact ⟨_, (Option.some.inj hroot).symm⟩

/-! ## Settings from data -/

namespace Setting

/-- The options are what their table gives, else the defaults. -/
theorem value_ofOptions (table : Datum) (options : Options) (h : Options.ofDatum? .toml table = some options)
    (logLevel : String) {setting : Setting} (hsetting : setting ≠ .logLevel) :
    setting.value ⟨options, logLevel⟩ = (setting.inTable? table).getD (setting.value ⟨{}, logLevel⟩) := by
  obtain ⟨get, hget, h⟩ := Option.bind_eq_some_iff.1 h
  obtain ⟨dataBinding, hbinding, h⟩ := Option.bind_eq_some_iff.1 h
  obtain ⟨runtimePath, hpath, h⟩ := Option.bind_eq_some_iff.1 h
  obtain ⟨unitSuffix, hsuffix, h⟩ := Option.bind_eq_some_iff.1 h
  cases h
  have hpart : get setting.key = setting.inTable? table :=
    Datum.part_of_toParts? (by decide) hget (by cases setting <;> first | rfl | exact absurd rfl hsetting)
  rw [← hpart, ← Option.bind_fun_some (get setting.key)]
  cases setting with
  | dataBinding => exact Datum.value_of_partOr Datum.bool_of_toBool? hbinding
  | runtimePath => exact Datum.value_of_partOr Datum.text_of_toText? hpath
  | unitSuffix => exact Datum.value_of_partOr Datum.text_of_toText? hsuffix
  | logLevel => exact absurd rfl hsetting

/-- The level is what its table gives, else the default. -/
theorem value_ofLevel (table : Datum) (level : String) (h : Settings.levelOfDatum? .toml table = some level) :
    .text level = (logLevel.inTable? table).getD (.text ({} : Settings).logLevel) := by
  obtain ⟨get, hget, h⟩ := Option.bind_eq_some_iff.1 h
  have hpart : get logLevel.key = logLevel.inTable? table := Datum.part_of_toParts? (by decide) hget rfl
  rw [← hpart, ← Option.bind_fun_some (get logLevel.key)]
  exact Datum.value_of_partOr Datum.text_of_toText? h

/-- A setting is what the data give, else the default. -/
theorem value_ofDatum? {entries : List (String × Datum)} {s : Settings}
    (h : Settings.ofDatum? .toml (.record entries) = some s) (setting : Setting) :
    setting.value s = (setting.given? (.record entries)).getD (setting.value {}) := by
  obtain ⟨options, hoptions, h⟩ := Option.bind_eq_some_iff.1 h
  obtain ⟨level, hlevel, h⟩ := Option.bind_eq_some_iff.1 h
  cases h
  by_cases hsetting : setting = .logLevel
  · subst hsetting
    exact Datum.value_of_partOr value_ofLevel hlevel
  · have htable : setting.table = "codegen" := by cases setting <;> first | rfl | exact absurd rfl hsetting
    have hvalue :=
      Datum.value_of_partOr (fun table options h => value_ofOptions table options h level hsetting) hoptions
    rw [given?, htable]
    cases setting with
    | logLevel => exact absurd rfl hsetting
    | _ => exact hvalue

end Setting

/-! ## Loading -/

namespace Run

theorem run_get (m : Machine) : (get : Run Machine).run m = (.ok m, m) := rfl

theorem run_orFail {ε α : Type} (result : Except ε α) (failure : ε → Failure) (m : Machine) :
    (orFail result failure).run m = (result.mapError failure, m) := by
  cases result <;> rfl

end Run

namespace Settings

open Run

variable {m : Machine} {path : String} {given : Setting → Option Datum}

/-- A settings file is read, whether it must exist or not. -/
theorem ofFile_of_read {files : FileSystem} {text : String} {s : Settings} (hread : files.read path = .ok text)
    (hdata : (Toml.parse? text).bind (ofDatum? .toml) = some s) :
    ofFile files path = .ok s ∧ ofFileIfAny files path = .ok s := by
  have hfile : ofFile files path = .ok s := by
    simp only [ofFile, hread, Except.mapError, bind, Except.bind, hdata]
    rfl
  exact ⟨hfile, ofFileIfAny_eq_ok.2 (by rw [if_pos (FileSystem.exists?_of_read hread)]; exact hfile)⟩

/-- The settings of a file are what its data give. -/
theorem ofFile_of_holdsSettings {files : FileSystem} {d : Datum} (h : files.HoldsSettings path d) :
    ∃ s, ofFile files path = .ok s ∧ ofFileIfAny files path = .ok s ∧
      ∀ setting : Setting, setting.value s = (setting.given? d).getD (setting.value {}) := by
  obtain ⟨text, hread, hparse, hdecodes⟩ := h
  obtain ⟨s, hs⟩ := Option.isSome_iff_exists.1 hdecodes
  obtain ⟨entries, rfl⟩ := Toml.exists_record_of_parse? hparse
  obtain ⟨hfile, hany⟩ := ofFile_of_read hread (by rw [hparse]; exact hs)
  exact ⟨s, hfile, hany, Setting.value_ofDatum? hs⟩

theorem ofFileIfAny_of_missing {files : FileSystem} (h : files.exists? path = false) :
    ofFileIfAny files path = .ok {} :=
  ofFileIfAny_eq_ok.2 (by rw [h]; rfl)

theorem load_eq_ok {written : Settings} (h : ofFileIfAny m.files path = .ok written) :
    ((load path).run m).1 = .ok (written.under m.environment) :=
  ((gives_load path).ok_iff _).2 ⟨written, h, rfl⟩

theorem run_underEnvironment (s : Settings) (m : Machine) :
    s.underEnvironment.run m = (.ok (s.under m.environment), { m with log := m.log ++ m.environment.report }) := rfl

/-- What a command with a path finds: the settings of the file, under the environment, if they pass their check. -/
theorem run_forCommand (path : String) (m : Machine) :
    ((forCommand (some path)).run m).1 =
      (ofFile m.files path).bind fun written =>
        ((written.under m.environment).check.mapError .settings).map fun _ => written.under m.environment := by
  simp only [forCommand, require, run_bind, bind_assoc, run_get, run_orFail]
  cases ofFile m.files path with
  | error e => rfl
  | ok written =>
    simp only [Except.mapError, run_underEnvironment, Except.bind]
    cases (written.under m.environment).check <;> rfl

theorem load_of_gives (h : m.files.Gives path given) :
    ∃ s, ((load path).run m).1 = .ok s ∧ s.IsLayered m.environment given := by
  rcases h with ⟨hmissing, rfl⟩ | ⟨d, hfile, rfl⟩
  · exact ⟨_, load_eq_ok (ofFileIfAny_of_missing hmissing), Setting.value_under {} m.environment⟩
  · obtain ⟨written, -, hwritten, hvalue⟩ := ofFile_of_holdsSettings hfile
    exact ⟨_, load_eq_ok hwritten, fun setting => by rw [Setting.value_under, hvalue]⟩

/-- **Layers of settings.** Where there is no settings file, or one that can be read, loading succeeds, and each setting
is the environment's, else the file's, else the default. Two machines that agree on the sources of one setting agree on
its value, whatever they say of the others. The environment changes nothing when it is applied again. A command that is
given the path of a settings file finds what loading finds, as far as it passes its check; at a path where there is
nothing it fails, where loading takes the defaults. -/
theorem load_layers :
    (∀ text flag, flagOfText? text = some flag ↔ lowerAscii (Text.trim text) ∈ flagWords flag) ∧
    (∀ (m : Machine) path given, m.files.Gives path given →
      ∃ s, ((load path).run m).1 = .ok s ∧ s.IsLayered m.environment given) ∧
    (∀ (m m' : Machine) path path' given given' s s' (setting : Setting),
      m.files.Gives path given → m'.files.Gives path' given' →
      ((load path).run m).1 = .ok s → ((load path').run m').1 = .ok s' →
      setting.fromEnvironment? m.environment = setting.fromEnvironment? m'.environment →
      given setting = given' setting → setting.value s = setting.value s') ∧
    (∀ (s : Settings) environment, (s.under environment).under environment = s.under environment) ∧
    (∀ (m : Machine) path d, m.files.HoldsSettings path d →
      ∃ s, ((load path).run m).1 = .ok s ∧
        ((forCommand (some path)).run m).1 = (s.check.mapError .settings).map fun _ => s) ∧
    ∀ (m : Machine) path, m.files.exists? path = false →
      ((load path).run m).1 = .ok (({} : Settings).under m.environment) ∧
        ∃ cause, ((forCommand (some path)).run m).1 = .error (.readSettings path cause) := by
  refine ⟨flagOfText?_eq_some_iff, fun m path given => load_of_gives, ?_, under_under, ?_, ?_⟩
  · intro m m' path path' given given' s s' setting hgives hgives' hload hload' henvironment hgiven
    obtain ⟨t, ht, hlayered⟩ := load_of_gives hgives
    obtain ⟨t', ht', hlayered'⟩ := load_of_gives hgives'
    obtain rfl : t = s := Except.ok.inj (ht.symm.trans hload)
    obtain rfl : t' = s' := Except.ok.inj (ht'.symm.trans hload')
    rw [hlayered, hlayered', henvironment, hgiven]
  · intro m path d hfile
    obtain ⟨written, hread, hload, -⟩ := ofFile_of_holdsSettings hfile
    refine ⟨_, load_eq_ok hload, ?_⟩
    rw [run_forCommand, hread]
    rfl
  · intro m path hmissing
    obtain ⟨cause, hcause⟩ := FileSystem.exists?_eq_false_iff.1 hmissing
    refine ⟨load_eq_ok (ofFileIfAny_of_missing hmissing), cause, ?_⟩
    rw [run_forCommand, ofFile, FileSystem.read, FileSystem.readBytes, hcause]
    rfl

/-- A machine with one file, at the default path of the settings. -/
def machineWithSettings (text : String) (environment : Environment) : Machine :=
  { files := { nodes := [(["formwire.toml"], .file (FileSystem.bytesOfText text))] }, environment := environment }

theorem read_machineWithSettings (text : String) (environment : Environment) :
    (machineWithSettings text environment).files.read "formwire.toml" = .ok text :=
  FileSystem.read_only (by decide) (by decide) (by decide) text

/-- A list for a table gives settings by place: the level of logging is then neither under its key nor the default. -/
theorem load_listedTable :
    ∃ d, (machineWithSettings "logging = [\"debug\"]\n" {}).files.HoldsSettings "formwire.toml" d ∧
      ((load "formwire.toml").run (machineWithSettings "logging = [\"debug\"]\n" {})).1 = .ok ⟨{}, "debug"⟩ ∧
      (Setting.logLevel.underKey? d).isNone = true ∧
      ¬({ logLevel := "debug" } : Settings).IsLayered {} fun setting => setting.underKey? d := by
  have hdata : (Toml.parse? "logging = [\"debug\"]\n").map (fun d =>
    ((Setting.logLevel.underKey? d).isNone, ofDatum? .toml d)) = some (true, some ⟨{}, "debug"⟩) := by decide +kernel
  obtain ⟨d, hparse, hd⟩ := Option.map_eq_some_iff.1 hdata
  obtain ⟨hunder, hsettings⟩ := Prod.mk.inj hd
  have hread := read_machineWithSettings "logging = [\"debug\"]\n" {}
  obtain ⟨-, hany⟩ := ofFile_of_read hread (by rw [hparse]; exact hsettings)
  refine ⟨d, ⟨_, hread, hparse, by rw [hsettings]; rfl⟩, load_eq_ok hany, hunder, fun hlayered => ?_⟩
  have hlevel : Datum.text "debug" = (Setting.logLevel.underKey? d).getD (.text "info") := hlayered .logLevel
  rw [Option.isNone_iff_eq_none.1 hunder] at hlevel
  simp at hlevel

/-- The suffix is the file's, the level that of the environment, and the rest are defaults; a command that is given the
path finds the same, and fails at a path where there is nothing. -/
theorem load_layers_of_suffix :
    ∃ d s, let m := machineWithSettings "[codegen]\nunit_suffix = 'Check'\n" { logLevel := some "debug" }
      m.files.HoldsSettings "formwire.toml" d ∧ (Setting.unitSuffix.given? d).bind Datum.toText? = some "Check" ∧
        ((load "formwire.toml").run m).1 = .ok s ∧ s.IsLayered m.environment (fun setting => setting.given? d) ∧
        s = ⟨{ unitSuffix := "Check" }, "debug"⟩ ∧ ((forCommand (some "formwire.toml")).run m).1 = .ok s ∧
        m.files.exists? "other.toml" = false ∧ ((load "other.toml").run m).1 = .ok ⟨{}, "debug"⟩ ∧
        ∃ cause, ((forCommand (some "other.toml")).run m).1 = .error (.readSettings "other.toml" cause) := by
  have hdata : (Toml.parse? "[codegen]\nunit_suffix = 'Check'\n").map (fun d =>
      ((Setting.unitSuffix.given? d).bind Datum.toText?, ofDatum? .toml d)) =
    some (some "Check", some ⟨{ unitSuffix := "Check" }, "info"⟩) := by decide +kernel
  obtain ⟨d, hparse, hd⟩ := Option.map_eq_some_iff.1 hdata
  obtain ⟨hgiven, hsettings⟩ := Prod.mk.inj hd
  have hread := read_machineWithSettings "[codegen]\nunit_suffix = 'Check'\n" { logLevel := some "debug" }
  have hholds : FileSystem.HoldsSettings _ "formwire.toml" d := ⟨_, hread, hparse, by rw [hsettings]; rfl⟩
  have hmissing : (machineWithSettings "[codegen]\nunit_suffix = 'Check'\n"
      { logLevel := some "debug" }).files.exists? "other.toml" = false :=
    FileSystem.exists?_other (by decide) (by decide) (by decide) _
  obtain ⟨-, hany⟩ := ofFile_of_read hread (by rw [hparse]; exact hsettings)
  have hload := load_eq_ok hany
  obtain ⟨-, hlayers, -, -, hcommand, hnone⟩ := load_layers
  obtain ⟨s, hs, hlayered⟩ := hlayers _ _ _ (.inr ⟨_, hholds, rfl⟩)
  obtain ⟨s', hs', hfor⟩ := hcommand _ _ _ hholds
  obtain rfl : s' = s := Except.ok.inj (hs'.symm.trans hs)
  obtain rfl : s' = ⟨{ unitSuffix := "Check" }, "debug"⟩ := Except.ok.inj (hs.symm.trans hload)
  have hcheck : check ⟨{ unitSuffix := "Check" }, "debug"⟩ = .ok () := by decide +kernel
  rw [hcheck] at hfor
  exact ⟨d, _, hholds, hgiven, hload, hlayered, rfl, hfor, hmissing, hnone _ _ hmissing⟩

end Settings

end FormWiring
