import StackAsm.Command.Run
import StackAsm.Proofs.Command.FlagGrammar

set_option autoImplicit false

namespace StackAsm

namespace Settings

def Value.asText : Value → Bytes
  | .text bs => bs
  | .switch _ => []

def Value.isOn : Value → Bool
  | .text _ => false
  | .switch on => on

def fileAssignments (t : FileTree) (name : Bytes) : List Assignment :=
  if name = [] then []
  else
    match t.openInput name with
    | .error _ => []
    | .ok input =>
      match inputEffect input with
      | .error _ => []
      | .ok effect => effect.assignments

def isPlainMapping (bs : Bytes) : Bool :=
  match Yaml.Document.read bs with
  | .error _ => false
  | .ok none => false
  | .ok (some d) =>
    match d.root with
    | .mapping _ _ es => es.all fun e => !e.1.isMerge
    | _ => false

theorem exists_of_isPlainMapping {bs : Bytes} (plain : isPlainMapping bs = true) :
    ∃ d line tag es, Yaml.Document.read bs = .ok (some d) ∧ d.root = .mapping line tag es ∧
      ∀ e ∈ es, e.1.isMerge = false := by
  unfold isPlainMapping at plain
  generalize Yaml.Document.read bs = result at plain ⊢
  rcases result with fault | _ | d
  · cases plain
  · cases plain
  · dsimp only at plain
    split at plain
    next line tag es root => exact ⟨d, line, tag, es, rfl, root, by simpa using plain⟩
    next => cases plain

theorem load_of_unfailed {t : FileTree} {name : Bytes} {s : Settings}
    (loads : (load t name s).2 = none) : ∃ input effect, t.openInput name = .ok input ∧
      inputEffect input = .ok effect ∧ effect.Clean ∧
      load t name s = (s.assignAll effect.assignments, none) := by
  cases opened : t.openInput name with
  | error cause =>
    rw [load, opened] at loads
    cases loads
  | ok input =>
    cases read : inputEffect input with
    | error cause =>
      simp only [load, opened, read] at loads
      cases loads
    | ok effect =>
      refine ⟨input, effect, rfl, read, ?_⟩
      simp only [load, opened, read] at loads ⊢
      cases halted : effect.fault with
      | some fault =>
        rw [halted] at loads
        cases loads
      | none =>
        simp only [halted] at loads ⊢
        split at loads
        next => cases loads
        next fine =>
          rw [if_neg fine]
          split at loads
          next => cases loads
          next named => exact ⟨⟨not_ne_iff.1 fine, halted⟩, by rw [if_neg named]⟩

theorem value_default (k : Key) : ({} : Settings).value k = k.default := by
  cases k <;> rfl

end Settings

namespace Command

open Settings

def lastFlag? (name : Bytes) (flags : List Flag) : Option Value :=
  last? Flag.name Flag.value name flags

def switchedOn (name : Bytes) (flags : List Flag) : Bool :=
  ((lastFlag? name flags).map Value.isOn).getD false

def fileName (flags : List Flag) : Bytes :=
  ((lastFlag? (utf8 "config") flags).map Value.asText).getD []

theorem configName_eq_fileName (flags : List Flag) : configName flags = fileName flags := by
  refine view_foldl Flag.name Flag.value (utf8 "config") _ id Value.asText ?_ [] flags
  intro name f
  rcases f with _ | _ | _ | (_ | _ | _ | _ | _) <;> rfl

theorem asksDisassembly_eq_switchedOn (flags : List Flag) :
    asksDisassembly flags = switchedOn (utf8 "d") flags := by
  refine view_foldl Flag.name Flag.value (utf8 "d") _ id Value.isOn ?_ false flags
  intro on f
  rcases f with _ | _ | _ | (_ | _ | _ | _ | _) <;> rfl

theorem asksTrace_eq_switchedOn (flags : List Flag) :
    asksTrace flags = switchedOn (utf8 "debug") flags := by
  refine view_foldl Flag.name Flag.value (utf8 "debug") _ id Value.isOn ?_ false flags
  intro on f
  rcases f with _ | _ | _ | (_ | _ | _ | _ | _) <;> rfl

def flagName : Key → Bytes
  | .output => utf8 "o"
  | .strict => utf8 "strict"
  | .extended => utf8 "extended"
  | .labels => utf8 "labels"
  | .verbose => utf8 "v"

theorem flagName_inj {j k : Key} : flagName j = flagName k ↔ j = k := by
  constructor
  · intro same
    cases j <;> cases k <;> revert same <;> decide
  · exact congrArg flagName

theorem name_setting (a : Assignment) : (Flag.setting a).name = flagName a.key := by
  cases a <;> rfl

theorem lastAssigned?_assignments (k : Key) (flags : List Flag) :
    lastAssigned? k (assignments flags) = lastFlag? (flagName k) flags := by
  induction flags using List.reverseRecOn with
  | nil => rfl
  | append_singleton flags f ih =>
    rw [lastFlag?, last?_concat, ← lastFlag?, ← ih, assignments, List.filterMap_append,
      ← assignments]
    cases f with
    | setting a =>
      simp only [name_setting, flagName_inj]
      exact lastAssigned?_concat k _ a
    | config name =>
      have other : utf8 "config" ≠ flagName k := by cases k <;> decide
      simp [Flag.name, other]
    | disassemble on =>
      have other : utf8 "d" ≠ flagName k := by cases k <;> decide
      simp [Flag.name, other]
    | debug on =>
      have other : utf8 "debug" ≠ flagName k := by cases k <;> decide
      simp [Flag.name, other]

theorem exists_effectiveSettings {t : FileTree} {flags : List Flag}
    (loads : fileName flags = [] ∨ (load t (fileName flags) {}).2 = none) :
    ∃ s, effectiveSettings t flags = .ok s ∧ ∀ k, s.value k =
      (lastFlag? (flagName k) flags).getD
        ((lastAssigned? k (fileAssignments t (fileName flags))).getD k.default) := by
  have layers (file : List Assignment) (k : Key) :
      ((({} : Settings).assignAll file).assignAll (assignments flags)).value k =
        (lastFlag? (flagName k) flags).getD ((lastAssigned? k file).getD k.default) := by
    rw [value_assignAll, value_assignAll, lastAssigned?_assignments, value_default]
  rw [effectiveSettings, configName_eq_fileName]
  by_cases unnamed : fileName flags = []
  next =>
    refine ⟨_, by rw [if_pos unnamed], ?_⟩
    rw [fileAssignments, if_pos unnamed]
    exact layers []
  next =>
    obtain ⟨input, effect, opened, read, -, done⟩ :=
      load_of_unfailed (loads.resolve_left unnamed)
    refine ⟨_, by rw [if_neg unnamed, done], ?_⟩
    simp only [fileAssignments, unnamed, ↓reduceIte, opened, read]
    exact layers effect.assignments

theorem runInto_of_parse (sink : Sink Bytes) (t : FileTree) {arguments names : List Bytes}
    {flags : List Flag} (parsed : parse arguments = .ok (flags, names)) (few : names.length ≤ 1) :
    runInto sink t arguments = runWith sink t flags (names.headD defaultInput) := by
  rw [runInto, parsed]
  match names with
  | [] | [_] => rfl
  | _ :: _ :: _ => simp at few

end Command

open Command Settings in
/-- Each setting of a run is what its last flag says, else what the settings file of the last
`config` flag says, else its default. -/
theorem settings_by_flag_then_file_then_default (sink : Sink Bytes) {t : FileTree}
    {arguments names : List Bytes} {flags : List Flag}
    (parsed : parse arguments = .ok (flags, names)) (few : names.length ≤ 1)
    (loads : fileName flags = [] ∨ (load t (fileName flags) {}).2 = none) :
    (∀ fs ns, Reads arguments fs ns ↔ fs = flags ∧ ns = names) ∧
    (∃ s : Settings,
      (∀ k, s.value k = (lastFlag? (flagName k) flags).getD
        ((lastAssigned? k (fileAssignments t (fileName flags))).getD k.default)) ∧
      runInto sink t arguments =
        if switchedOn (utf8 "d") flags then
          runListing sink t (switchedOn (utf8 "debug") flags) (names.headD defaultInput)
        else runAssembly sink t (switchedOn (utf8 "debug") flags) s (names.headD defaultInput)) ∧
    ∀ input d line tag es, fileName flags ≠ [] → t.openInput (fileName flags) = .ok input →
      Yaml.Document.read input.data = .ok (some d) → d.root = .mapping line tag es →
      (∀ e ∈ es, e.1.isMerge = false) → ∀ k v,
        lastAssigned? k (fileAssignments t (fileName flags)) = some v ↔ ∃ e ∈ es, Sets d e k v := by
  refine ⟨?_, ?_, ?_⟩
  · intro fs ns
    rw [← parse_eq_ok_iff, parsed, Except.ok.injEq, Prod.mk.injEq, eq_comm, @eq_comm _ names]
  · obtain ⟨s, effective, values⟩ := exists_effectiveSettings loads
    refine ⟨s, values, ?_⟩
    rw [runInto_of_parse sink t parsed few, runWith, effective, asksDisassembly_eq_switchedOn,
      asksTrace_eq_switchedOn]
  · intro input d line tag es named opened read root single k v
    obtain ⟨other, effect, found, effects, clean, -⟩ := load_of_unfailed (loads.resolve_left named)
    obtain rfl := Except.ok.inj (opened.symm.trans found)
    have document : effect = documentEffect d := by
      rw [inputEffect] at effects
      split at effects
      next => cases effects
      next =>
        rw [read] at effects
        exact (Except.ok.inj effects).symm
    subst document
    simp only [fileAssignments, named, ↓reduceIte, opened, effects]
    exact lastAssigned?_documentEffect_iff root single clean k v

def Command.configuration : Bytes := utf8 "strict: true\nextended: yes\noutput: y\n"

def Command.configured : FileTree := ⟨[([utf8 "b.yml"], .file configuration)]⟩

-- Flags on both sides of the file that they are to override, and a file that is not used.
def Command.overriding : List Bytes :=
  ["-strict=false", "-config", "a.yml", "--labels", "-o", "x", "-config=b.yml", "-o=output.bin",
    "prog"].map utf8

open Command Settings in
-- That a switch is off and that the output is the default are both said by flags, so that the file
-- counts for one switch only.
theorem settings_by_flag_then_file_then_default_of_late_config :
    (∃ s : Settings, s.value .output = .text (utf8 "output.bin") ∧ s.value .strict = .switch false ∧
      s.value .extended = .switch true ∧ s.value .labels = .switch true ∧
      s.value .verbose = .switch false ∧
      runInto .unlimited configured overriding =
        runAssembly .unlimited configured false s (utf8 "prog")) ∧
    ∃ d line tag es, Yaml.Document.read configuration = .ok (some d) ∧
      d.root = .mapping line tag es ∧ ∃ e ∈ es, Sets d e .extended (.switch true) := by
  have parsed : parse overriding = .ok
      ([.setting (.strict false), .config (utf8 "a.yml"), .setting (.labels true),
        .setting (.output (utf8 "x")), .config (utf8 "b.yml"),
        .setting (.output (utf8 "output.bin"))], [utf8 "prog"]) := by
    decide +kernel
  have reading : fileAssignments configured (utf8 "b.yml") =
        [.strict true, .extended true, .output (utf8 "y")] ∧
      (load configured (utf8 "b.yml") {}).2 = none ∧
      isPlainMapping configuration = true := by
    decide +kernel
  obtain ⟨assigned, loads, plain⟩ := reading
  obtain ⟨-, ⟨s, values, ran⟩, entries⟩ :=
    settings_by_flag_then_file_then_default .unlimited parsed (by decide) (.inr loads)
  have file : fileName [.setting (.strict false), .config (utf8 "a.yml"), .setting (.labels true),
      .setting (.output (utf8 "x")), .config (utf8 "b.yml"),
      .setting (.output (utf8 "output.bin"))] = utf8 "b.yml" := by
    decide
  rw [file, assigned] at entries
  simp only [file, assigned] at values
  refine ⟨⟨s, values .output, values .strict, values .extended, values .labels, values .verbose,
    ran⟩, ?_⟩
  obtain ⟨d, line, tag, es, read, root, single⟩ := exists_of_isPlainMapping plain
  exact ⟨d, line, tag, es, read, root,
    (entries (.ofBytes configuration) d line tag es (by decide) rfl read root single _ _).1 rfl⟩

end StackAsm
