import StackAsm.Command.Run
import StackAsm.Proofs.Image.Saving

set_option autoImplicit false

namespace StackAsm.Command

open FileTree

def labelText (s : Settings) (labels : LabelTable) : Bytes :=
  if s.labels then LabelReport.render false (labels.map LabelReport.rowOfLabel) else []

section Reporting

variable {sink : Sink Bytes} (faithful : sink.Faithful) {output : Bytes} {s : Settings}
  {labels : LabelTable}

include faithful

theorem reportLabels_of_faithful (unfailed : (reportLabels sink output s.labels labels).1 = none) :
    (reportLabels sink output s.labels labels).2 = output ++ labelText s labels := by
  cases wanted : s.labels with
  | false => simp [reportLabels, labelText, wanted]
  | true =>
    simp only [reportLabels, labelText, wanted, ↓reduceIte, Option.map_eq_none_iff] at unfailed ⊢
    exact faithful _ _ unfailed

theorem report_of_faithful {words : Nat} (unfailed : (report sink output s words labels).1 = none) :
    (report sink output s words labels).2 =
      output ++ (labelText s labels ++ savedLine words s.output) := by
  have listed : (reportLabels sink output s.labels labels).1 = none →
      (reportLabels sink output s.labels labels).2 = output ++ labelText s labels :=
    reportLabels_of_faithful faithful
  rw [report] at unfailed ⊢
  generalize reportLabels sink output s.labels labels = first at unfailed listed ⊢
  rcases first with ⟨_ | f, after⟩
  · rw [← List.append_assoc, ← listed rfl]
    exact faithful _ _ (Option.map_eq_none_iff.1 unfailed)
  · cases unfailed

end Reporting

variable {σ : Type}

inductive Progress (sink : Sink σ) (output : σ) (t : FileTree) (s : Settings) (name : Bytes) :
    FileAssembly σ → Prop where
  | unopened {cause : Cause} (opened : t.openInput name = .error cause) :
    Progress sink output t s name ⟨some ⟨[.openFailed], cause⟩, [], output, t⟩
  | rejected {input : Input} {f : Failure} (opened : t.openInput name = .ok input)
    (assembled : (assemble name ⟨s.strict, s.extended⟩ input).result = .error f)
    (log : List Record) : Progress sink output t s name ⟨some f, log, output, t⟩
  | unsaved {input : Input} {p : Program} {words : Nat} {f : Failure} {files : FileTree}
    (opened : t.openInput name = .ok input)
    (assembled : (assemble name ⟨s.strict, s.extended⟩ input).result = .ok p)
    (saved : Image.Saved t s.output p.instructions ⟨words, some f⟩ files) (log : List Record) :
    Progress sink output t s name ⟨some (f.during (.about name)), log, output, files⟩
  | saved {input : Input} {p : Program} {words : Nat} {files : FileTree}
    (opened : t.openInput name = .ok input)
    (assembled : (assemble name ⟨s.strict, s.extended⟩ input).result = .ok p)
    (saved : Image.Saved t s.output p.instructions ⟨words, none⟩ files) (log : List Record) :
    Progress sink output t s name
      ⟨(report sink output s words p.labels).1, log, (report sink output s words p.labels).2, files⟩

theorem progress_assembleFile (sink : Sink σ) (output : σ) (t : FileTree) (s : Settings)
    (name : Bytes) : Progress sink output t s name (assembleFile sink output t s name) := by
  rw [assembleFile]
  cases opened : t.openInput name with
  | error cause => exact .unopened opened
  | ok input =>
    dsimp only
    cases assembled : (assemble name ⟨s.strict, s.extended⟩ input).result with
    | error f => exact .rejected opened assembled _
    | ok p =>
      have saved := Image.saved_save t s.output p.instructions
      dsimp only
      generalize Image.save t s.output p.instructions = done at saved ⊢
      obtain ⟨⟨words, failure⟩, files⟩ := done
      cases failure with
      | some f => exact .unsaved opened assembled saved _
      | none => exact .saved opened assembled saved _

theorem Progress.removed {sink : Sink σ} {output : σ} {t : FileTree} {s : Settings} {name : Bytes}
    {a : FileAssembly σ} (progress : Progress sink output t s name a) :
    Removed t s.output (a.files.remove s.output) := by
  cases progress with
  | unopened | rejected => exact removed_remove t s.output
  | unsaved opened assembled saved =>
    cases saved with
    | untouched => exact removed_remove t s.output
    | removed =>
      -- The save has removed the name already: this is the second removal.
      exact (removed_remove t s.output).remove
  | saved opened assembled saved =>
    cases saved with
    | written writable =>
      -- The image was whole, and it is the report that failed.
      exact removed_remove_put writable _

/-- What a run that reaches assembly leaves: the image of the program and a report of it, or
nothing under the output name, unless a removal refuses what is there. -/
structure AssemblyEffects (t : FileTree) (s : Settings) (name : Bytes) (out : Outcome) : Prop where
  elsewhere : ∀ q, (∀ spot, t.locate s.output = .ok spot → q ≠ spot.path) →
    out.files.node? q = t.node? q
  status : out.status = 0 ∨ out.status = 1
  image : out.status = 0 → ∃ input p ws, t.openInput name = .ok input ∧
    (assemble name ⟨s.strict, s.extended⟩ input).result = .ok p ∧
    Image.Padded p.instructions ws ∧
    out.files.entry s.output = .ok (.file (Image.magic ++ ws.flatMap wordBytes)) ∧
    out.stdout = labelText s p.labels ++ savedLine ws.length s.output
  cleared : out.status = 1 →
    out.files.Vacant s.output ∨ t.Refused s.output ∧ out.files = t

theorem assemblyEffects_runAssembly {sink : Sink Bytes} (faithful : sink.Faithful) (t : FileTree)
    (traced : Bool) (s : Settings) (name : Bytes) :
    AssemblyEffects t s name (runAssembly sink t traced s name) := by
  have progress := progress_assembleFile sink [] t s name
  rw [runAssembly]
  generalize assembleFile sink [] t s name = a at progress ⊢
  cases failed : a.failure with
  | some f =>
    have removed := progress.removed
    exact ⟨fun q => removed.node?_of_ne, .inr rfl, nofun, fun _ => removed.vacant_or_refused⟩
  | none =>
    -- Of all ways through the assembly, only the last can end without a failure.
    cases progress with
    | unopened | rejected | unsaved => cases failed
    | saved opened assembled saved =>
      cases saved with
      | written writable =>
        refine ⟨fun q => node?_put_of_elsewhere writable _, .inl rfl, fun _ => ?_, nofun⟩
        exact ⟨_, _, _, opened, assembled, Image.padded_words _, entry_put writable _,
          report_of_faithful faithful failed⟩

inductive LeavesFiles (t : FileTree) (arguments : List Bytes) : Prop where
  | flagProblem {problem : FlagProblem} (parsed : parse arguments = .error problem)
  | tooManyArguments {flags : List Flag} {first second : Bytes} {others : List Bytes}
    (parsed : parse arguments = .ok (flags, first :: second :: others))
  | settingsFailure {flags : List Flag} {names : List Bytes} {f : Failure}
    (parsed : parse arguments = .ok (flags, names)) (failed : effectiveSettings t flags = .error f)
  | disassembly {flags : List Flag} {names : List Bytes}
    (parsed : parse arguments = .ok (flags, names)) (asked : asksDisassembly flags = true)

inductive Assembles (t : FileTree) (arguments : List Bytes) (s : Settings) (name : Bytes) :
    Prop where
  | intro {flags : List Flag} {names : List Bytes} (parsed : parse arguments = .ok (flags, names))
    (single : names = [name] ∨ names = [] ∧ name = defaultInput)
    (settings : effectiveSettings t flags = .ok s) (unasked : asksDisassembly flags = false)

theorem leavesFiles_or_assembles (t : FileTree) (arguments : List Bytes) :
    LeavesFiles t arguments ∨ ∃ s name, Assembles t arguments s name := by
  cases parsed : parse arguments with
  | error problem => exact .inl (.flagProblem parsed)
  | ok found =>
    obtain ⟨flags, names⟩ := found
    cases settings : effectiveSettings t flags with
    | error f => exact .inl (.settingsFailure parsed settings)
    | ok s =>
      cases asked : asksDisassembly flags with
      | true => exact .inl (.disassembly parsed asked)
      | false =>
        rcases names with _ | ⟨name, _ | ⟨second, others⟩⟩
        · exact .inr ⟨s, defaultInput, .intro parsed (.inr ⟨rfl, rfl⟩) settings asked⟩
        · exact .inr ⟨s, name, .intro parsed (.inl rfl) settings asked⟩
        · exact .inl (.tooManyArguments parsed)

@[simp] theorem Outcome.files_ofFailure (traced : Bool) (failure : Option Failure)
    (stdout log : Bytes) (files : FileTree) :
    (Outcome.ofFailure traced failure stdout log files).files = files := by
  cases failure <;> rfl

theorem files_runWith_of_failure {sink : Sink Bytes} {t : FileTree} {flags : List Flag}
    {f : Failure} (failed : effectiveSettings t flags = .error f) (name : Bytes) :
    (runWith sink t flags name).files = t := by
  simp only [runWith, failed, Outcome.files_ofFailure]

theorem files_runWith_of_disassembly {sink : Sink Bytes} (t : FileTree) {flags : List Flag}
    (asked : asksDisassembly flags = true) (name : Bytes) :
    (runWith sink t flags name).files = t := by
  rw [runWith]
  split
  next => rfl
  next => simp only [asked, ↓reduceIte, runListing, Outcome.files_ofFailure]

theorem files_runInto_of_leavesFiles (sink : Sink Bytes) {t : FileTree} {arguments : List Bytes}
    (leaves : LeavesFiles t arguments) : (runInto sink t arguments).files = t := by
  cases leaves with
  | flagProblem parsed => simp only [runInto, parsed]
  | tooManyArguments parsed => simp only [runInto, parsed, Outcome.files_ofFailure]
  | @settingsFailure flags names f parsed failed =>
    -- Too many names are found first, but the files stay as they are in either case.
    rcases names with _ | ⟨name, _ | ⟨second, others⟩⟩
    all_goals simp only [runInto, parsed, files_runWith_of_failure failed, Outcome.files_ofFailure]
  | @disassembly flags names parsed asked =>
    rcases names with _ | ⟨name, _ | ⟨second, others⟩⟩
    all_goals simp only [runInto, parsed, files_runWith_of_disassembly t asked,
      Outcome.files_ofFailure]

theorem runInto_of_assembles (sink : Sink Bytes) {t : FileTree} {arguments : List Bytes}
    {s : Settings} {name : Bytes} (assembles : Assembles t arguments s name) :
    ∃ traced, runInto sink t arguments = runAssembly sink t traced s name := by
  obtain @⟨flags, names, parsed, single, settings, unasked⟩ := assembles
  refine ⟨asksTrace flags, ?_⟩
  rcases single with rfl | ⟨rfl, rfl⟩
  all_goals
    simp only [runInto, parsed, runWith, settings, unasked, Bool.false_eq_true, ↓reduceIte]

end StackAsm.Command

namespace StackAsm

def Command.staleTree : FileTree :=
  ⟨[([utf8 "in"], .file (utf8 "exit 1\n")), ([utf8 "out"], .file (utf8 "older")),
    ([utf8 "dir"], .directory), ([utf8 "dir", utf8 "out"], .file [])]⟩

end StackAsm
