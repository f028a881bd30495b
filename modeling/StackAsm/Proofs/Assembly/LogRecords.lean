import StackAsm.Command.Run
import StackAsm.Proofs.Assembly.FirstDeclaration

set_option autoImplicit false

namespace StackAsm

def Instruction.isUnknown : Instruction → Bool
  | .unknown _ => true
  | _ => false

namespace Assembly

def beforeFailure (mode : Mode) (ls : List Line) : List Line :=
  ls.takeWhile fun l => (emitLine mode l).isOk

theorem beforeFailure_of_error {mode : Mode} {l : Line} {problem : LineProblem}
    (failed : emitLine mode l = .error problem) (ls : List Line) :
    beforeFailure mode (l :: ls) = [] := by
  rw [beforeFailure, List.takeWhile_cons_of_neg]
  simp [failed, Except.isOk, Except.toBool]

theorem beforeFailure_of_ok {mode : Mode} {l : Line} {is : List Instruction}
    (emitted : emitLine mode l = .ok is) (ls : List Line) :
    beforeFailure mode (l :: ls) = l :: beforeFailure mode ls := by
  rw [beforeFailure, List.takeWhile_cons_of_pos, beforeFailure]
  simp [emitted, Except.isOk, Except.toBool]

theorem zeroed_iff (mode : Mode) (text : Bytes) :
    zeroed mode text = true ↔ Statement.emit mode text = .ok [.unknown 0] := by
  rw [zeroed, Statement.recognised?]
  cases found : Mnemonic.find? mode.extended (Line.mnemonic text) with
  | none =>
    rw [Statement.emit_unrecognised mode found]
    cases mode.strict <;> simp
  | some m =>
    rw [Statement.emit_recognised mode found]
    refine iff_of_false (by simp) fun built => ?_
    exact Statement.allKnown_of_build built (.unknown 0) (List.mem_singleton_self _) 0 rfl

theorem countP_isUnknown_of_emit {mode : Mode} {text : Bytes} {is : List Instruction}
    (emitted : Statement.emit mode text = .ok is) :
    is.countP Instruction.isUnknown = if zeroed mode text then 1 else 0 := by
  by_cases zero : zeroed mode text = true
  next =>
    rw [(zeroed_iff mode text).1 zero] at emitted
    cases emitted
    rw [if_pos zero]
    rfl
  next =>
    rw [if_neg zero, List.countP_eq_zero]
    cases found : Mnemonic.find? mode.extended (Line.mnemonic text) with
    | none =>
      rw [Statement.emit_unrecognised mode found] at emitted
      simp [zeroed, Statement.recognised?, found] at zero
      simp [zero] at emitted
    | some m =>
      rw [Statement.emit_recognised mode found] at emitted
      intro i member unknown
      cases i with
      | unknown word => exact Statement.allKnown_of_build emitted _ member word rfl
      | _ => cases unknown

end Assembly

structure LogLine where
  level : Level
  message : Bytes
  fields : List Bytes
  deriving DecidableEq

namespace LogLine

open Assembly (wellLabelled beforeFailure)
open Record (pair value)

def ofRecord (r : Record) : LogLine :=
  ⟨r.level, r.message, r.fields⟩

def ofWarning (w : Warning) : LogLine :=
  ⟨.warn, w.message, [pair "file" (value w.file), pair "line" (Numeral.decimal w.line)]⟩

def resolved (file : Bytes) (ls : List Line) : LogLine :=
  ⟨.debug, utf8 "labels resolved",
    [pair "file" (value file),
      pair "count" (Numeral.decimal (Line.labelNames ls).dedup.length),
      pair "size" (Numeral.decimal (4 * total (ls.map Line.count)))]⟩

def zeroMessage : Bytes := utf8 "unrecognized mnemonic assembled as 0"

def tellsZeroWord (r : Record) : Bool :=
  r.level == .debug && r.message == zeroMessage

def zeroWordAt? (file : Bytes) (mode : Mode) (above : Nat) (ls : List Line) (j : Nat) :
    Option LogLine :=
  match ls[j]? with
  | some (.instruction text) =>
    if Statement.emit mode text = .ok [.unknown 0] then
      some ⟨.debug, zeroMessage,
        [pair "file" (value file), pair "line" (Numeral.decimal (above + j + 1)),
          pair "mnemonic" (value (lower (Line.head text)))]⟩
    else none
  | _ => none

theorem zeroWordAt?_cons (file : Bytes) (mode : Mode) (above : Nat) (l : Line) (ls : List Line)
    (j : Nat) : zeroWordAt? file mode above (l :: ls) (j + 1) =
      zeroWordAt? file mode (above + 1) ls j := by
  have number : above + (j + 1) + 1 = above + 1 + j + 1 := by omega
  simp only [zeroWordAt?, List.getElem?_cons_succ, number]

def ofLines (file : Bytes) (mode : Mode) (ls : List Line) : List LogLine :=
  let met := wellLabelled ls
  let assembled := beforeFailure mode ls
  ((List.range met.length).filterMap (Warning.atLine? file [] met)).map ofWarning ++
    if .label [] ∈ ls then []
    else resolved file ls ::
      (List.range assembled.length).filterMap (zeroWordAt? file mode 0 assembled)

end LogLine

namespace Assembly

theorem map_zeroWordsFrom (file : Bytes) (mode : Mode) (above : Nat) (ls : List Line) :
    (zeroWordsFrom file mode above ls).map LogLine.ofRecord =
      (List.range (beforeFailure mode ls).length).filterMap
        (LogLine.zeroWordAt? file mode above (beforeFailure mode ls)) := by
  induction ls generalizing above with
  | nil => rfl
  | cons l ls ih =>
    cases here : emitLine mode l with
    | error problem =>
      simp only [zeroWordsFrom, here, beforeFailure_of_error here ls]
      rfl
    | ok is =>
      -- The lines below keep their numbers, with one more line above them.
      have later : LogLine.zeroWordAt? file mode above (l :: beforeFailure mode ls) ∘ Nat.succ =
          LogLine.zeroWordAt? file mode (above + 1) (beforeFailure mode ls) :=
        funext (LogLine.zeroWordAt?_cons file mode above l _)
      rw [beforeFailure_of_ok here, List.length_cons, List.range_succ_eq_map, List.filterMap_cons,
        List.filterMap_map, later, ← ih (above + 1)]
      cases l with
      | blank | label name => rfl
      | instruction text =>
        by_cases zero : zeroed mode text = true
        next =>
          have emitted := (zeroed_iff mode text).1 zero
          simp only [zeroWordsFrom, here, zero, LogLine.zeroWordAt?, List.getElem?_cons_zero,
            emitted, ↓reduceIte, List.singleton_append, List.map_cons]
          rfl
        next =>
          have other : ¬ Statement.emit mode text = .ok [.unknown 0] :=
            fun emitted => zero ((zeroed_iff mode text).2 emitted)
          simp [zeroWordsFrom, here, zero, LogLine.zeroWordAt?, other]

theorem length_zeroWordsFrom {mode : Mode} {ls : List Line} {yields : List (List Instruction)}
    (emitted : Emitted mode ls yields) (file : Bytes) (above : Nat) :
    (zeroWordsFrom file mode above ls).length = yields.flatten.countP Instruction.isUnknown := by
  induction emitted generalizing above with
  | nil => rfl
  | @cons l is ls yields here _ ih =>
    rw [List.flatten_cons, List.countP_append, ← ih (above + 1)]
    cases l with
    | blank | label name =>
      cases here
      simp [zeroWordsFrom, emitLine]
    | instruction text =>
      rw [countP_isUnknown_of_emit here]
      simp only [zeroWordsFrom, here, List.length_append]
      split <;> rfl

theorem debug_of_mem_zeroWordsFrom {file : Bytes} {mode : Mode} {above : Nat} {ls : List Line}
    {r : Record} (member : r ∈ zeroWordsFrom file mode above ls) :
    r.level = .debug ∧ r.message = LogLine.zeroMessage := by
  have line : LogLine.ofRecord r ∈ (zeroWordsFrom file mode above ls).map LogLine.ofRecord :=
    List.mem_map_of_mem member
  rw [map_zeroWordsFrom, List.mem_filterMap] at line
  obtain ⟨j, -, found⟩ := line
  simp only [LogLine.zeroWordAt?] at found
  split at found
  next =>
    split at found
    next =>
      have same := Option.some.inj found
      exact ⟨congrArg LogLine.level same.symm, congrArg LogLine.message same.symm⟩
    next => cases found
  next => cases found

theorem log_ofLines (file : Bytes) (mode : Mode) (ls : List Line) :
    (ofLines file mode ls).log =
      (Label.warnings file (Label.declarations (wellLabelled ls))).map .duplicateLabel ++
        if .label [] ∈ ls then []
        else .labelsResolved file (Label.table (Label.declarations ls)).length (sizeOfLines ls) ::
          zeroWordsFrom file mode 0 ls := by
  by_cases unnamed : Line.label [] ∈ ls
  next => simp [ofLines, (length_wellLabelled_lt_iff ls).2 unnamed, unnamed]
  next => simp [ofLines, (wellLabelled_eq_self_iff ls).2 unnamed, unnamed]

structure Logged (file : Bytes) (mode : Mode) (ls : List Line) (a : Assembly) : Prop where
  lines_eq : a.log.map LogLine.ofRecord = LogLine.ofLines file mode ls
  unresolved : .label [] ∈ ls →
    a.result = .error (lineFailure file ((wellLabelled ls).length + 1) .emptyLabelName)
  all_shown : logText true a.log = a.log.flatMap Record.text
  warnings_shown :
    logText false a.log = (a.log.filter fun r => r.level == .warn).flatMap Record.text
  warned : ∀ p, a.result = .ok p →
    (a.log.filter fun r => r.level == .warn) = p.warnings.map .duplicateLabel ∧
    (a.log.countP fun r => r.level == .warn) = p.warnings.length
  zeroed : ∀ p, a.result = .ok p →
    a.log.countP LogLine.tellsZeroWord = p.instructions.countP Instruction.isUnknown

theorem filter_warn_log_ofLines (file : Bytes) (mode : Mode) (ls : List Line) :
    ((ofLines file mode ls).log.filter fun r => r.level == .warn) =
      (Label.warnings file (Label.declarations (wellLabelled ls))).map .duplicateLabel := by
  have kept (ws : List Warning) :
      ((ws.map Record.duplicateLabel).filter fun r => r.level == .warn) =
        ws.map .duplicateLabel := by
    rw [List.filter_eq_self]
    intro r member
    obtain ⟨w, -, rfl⟩ := List.mem_map.1 member
    rfl
  have dropped : ((zeroWordsFrom file mode 0 ls).filter fun r => r.level == .warn) = [] := by
    rw [List.filter_eq_nil_iff]
    intro r member
    simp [(debug_of_mem_zeroWordsFrom member).1]
  rw [log_ofLines, List.filter_append, kept]
  split
  next => rw [List.filter_nil, List.append_nil]
  next => rw [List.filter_cons_of_neg (by simp [Record.level]), dropped, List.append_nil]

theorem countP_tellsZeroWord_log_ofLines (file : Bytes) (mode : Mode) {ls : List Line}
    (named : .label [] ∉ ls) : (ofLines file mode ls).log.countP LogLine.tellsZeroWord =
      (zeroWordsFrom file mode 0 ls).length := by
  have before : ((Label.warnings file (Label.declarations (wellLabelled ls))).map
      Record.duplicateLabel).countP LogLine.tellsZeroWord = 0 := by
    rw [List.countP_eq_zero]
    intro r member
    obtain ⟨w, -, rfl⟩ := List.mem_map.1 member
    exact Bool.false_ne_true
  have after : (zeroWordsFrom file mode 0 ls).countP LogLine.tellsZeroWord =
      (zeroWordsFrom file mode 0 ls).length := by
    rw [List.countP_eq_length]
    intro r member
    obtain ⟨level, message⟩ := debug_of_mem_zeroWordsFrom member
    rw [LogLine.tellsZeroWord, level, message]
    rfl
  have other : utf8 "labels resolved" ≠ LogLine.zeroMessage := by decide
  rw [log_ofLines, if_neg named, List.countP_append, before, Nat.zero_add, List.countP_cons_of_neg,
    after]
  rw [LogLine.tellsZeroWord, Bool.and_eq_true, beq_iff_eq, beq_iff_eq]
  exact fun told => other told.2

theorem logged_ofLines (file : Bytes) (mode : Mode) (ls : List Line) :
    Logged file mode ls (ofLines file mode ls) := by
  refine
    { lines_eq := ?_
      unresolved := ofLines_of_unnamed file mode
      all_shown := ?_
      warnings_shown := ?_
      warned := ?_
      zeroed := ?_ }
  · rw [log_ofLines, LogLine.ofLines, List.map_append, List.map_map, Label.warnings,
      Label.declarations, ← Label.warningsFrom_table file [] (wellLabelled ls)]
    refine congrArg₂ (· ++ ·) rfl ?_
    split
    next => rfl
    next =>
      rw [List.map_cons, map_zeroWordsFrom, LogLine.ofRecord, LogLine.resolved,
        ← (Label.firstDeclarations_table ls).length_eq]
      rfl
  · simp [logText]
  · simp [logText]
  · intro p assembled
    obtain ⟨named, yields, -, rfl⟩ := (ofLines_eq_ok_iff file mode ls p).1 assembled
    have same := filter_warn_log_ofLines file mode ls
    rw [(wellLabelled_eq_self_iff ls).2 named] at same
    refine ⟨same, ?_⟩
    rw [List.countP_eq_length_filter, same, List.length_map]
  · intro p assembled
    obtain ⟨named, yields, emitted, rfl⟩ := (ofLines_eq_ok_iff file mode ls p).1 assembled
    rw [countP_tellsZeroWord_log_ofLines file mode named,
      length_zeroWordsFrom (emitted_iff_map_eq.2 emitted)]

end Assembly

namespace Command

theorem assembleFile_verbose {σ : Type} (sink : Sink σ) (output : σ) (t : FileTree) (s : Settings)
    (name : Bytes) (verbose : Bool) :
    assembleFile sink output t { s with verbose := verbose } name =
      assembleFile sink output t s name :=
  rfl

theorem log_assemble_prefix_assembleFile {σ : Type} (sink : Sink σ) (output : σ) {t : FileTree}
    (s : Settings) {name : Bytes} {input : Input} (opened : t.openInput name = .ok input) :
    (assemble name ⟨s.strict, s.extended⟩ input).log <+:
      (assembleFile sink output t s name).log := by
  simp only [assembleFile, opened]
  split
  next => exact List.prefix_refl _
  next p assembled =>
    split
    next => exact List.prefix_refl _
    next => exact List.prefix_append ..

theorem runAssembly_verbose (sink : Sink Bytes) (t : FileTree) (traced : Bool) (s : Settings)
    (name : Bytes) : ∃ (o : Outcome) (rest : Bytes), ∀ verbose,
      runAssembly sink t traced { s with verbose := verbose } name =
        { o with stderr := logText verbose (assembleFile sink [] t s name).log ++ rest } := by
  cases failed : (assembleFile sink [] t s name).failure with
  | none =>
    refine ⟨⟨0, (assembleFile sink [] t s name).output, [], (assembleFile sink [] t s name).files⟩,
      [], fun verbose => ?_⟩
    simp only [runAssembly, assembleFile_verbose, failed, Outcome.ofFailure, List.append_nil]
    rfl
  | some f =>
    refine ⟨⟨1, (assembleFile sink [] t s name).output, [],
      (assembleFile sink [] t s name).files.remove s.output⟩, failureText traced f,
      fun verbose => ?_⟩
    simp only [runAssembly, assembleFile_verbose, failed, Outcome.ofFailure]
    rfl

end Command

open Assembly Command in
/-- The log accounts for each label declared again and for each zero word, and nothing but the log
depends on its level. -/
theorem log_accounts_for_warnings_and_zero_words (file : Bytes) (mode : Mode) (data : Bytes) :
    Logged file mode (Line.ofSource data) (assemble file mode (.ofBytes data)) ∧
    ∀ (sink : Sink Bytes) (t : FileTree) (traced : Bool) (s : Settings) (name : Bytes),
      ∃ (o : Outcome) (log : List Record) (rest : Bytes),
        (∀ input, t.openInput name = .ok input →
          (assemble name ⟨s.strict, s.extended⟩ input).log <+: log) ∧
        ∀ verbose, runAssembly sink t traced { s with verbose := verbose } name =
          { o with stderr := logText verbose log ++ rest } := by
  refine ⟨logged_ofLines file mode (Line.ofSource data), ?_⟩
  intro sink t traced s name
  obtain ⟨o, rest, same⟩ := runAssembly_verbose sink t traced s name
  exact ⟨o, _, rest, fun _ => log_assemble_prefix_assembleFile sink [] s, same⟩

open Assembly Command in
-- Line 5 fails, so that line 6 is not told. Without it the assembly succeeds, with one warning and
-- three zero words.
theorem log_accounts_for_warnings_and_zero_words_of_mixed :
    (assemble (utf8 "f") {} (.ofBytes (utf8 "a:\nfoo 1\na:\nBar\nnop x\nbaz\n"))).log.map
        LogLine.ofRecord =
      [⟨.warn, utf8 "duplicate label \"a\", first declared at line 1",
          [utf8 "file=f", utf8 "line=3"]⟩,
        ⟨.debug, utf8 "labels resolved", [utf8 "file=f", utf8 "count=1", utf8 "size=16"]⟩,
        ⟨.debug, LogLine.zeroMessage, [utf8 "file=f", utf8 "line=2", utf8 "mnemonic=foo"]⟩,
        ⟨.debug, LogLine.zeroMessage, [utf8 "file=f", utf8 "line=4", utf8 "mnemonic=bar"]⟩] ∧
    (∃ p, (assemble (utf8 "f") {} (.ofBytes (utf8 "a:\nfoo 1\na:\nBar\nbaz\n"))).result = .ok p ∧
      (assemble (utf8 "f") {} (.ofBytes (utf8 "a:\nfoo 1\na:\nBar\nbaz\n"))).log.countP
        (fun r => r.level == .warn) = p.warnings.length ∧ p.warnings.length = 1 ∧
      (assemble (utf8 "f") {} (.ofBytes (utf8 "a:\nfoo 1\na:\nBar\nbaz\n"))).log.countP
        LogLine.tellsZeroWord = p.instructions.countP Instruction.isUnknown ∧
      p.instructions = [.unknown 0, .unknown 0, .unknown 0]) := by
  have mixed := (log_accounts_for_warnings_and_zero_words (utf8 "f") {}
    (utf8 "a:\nfoo 1\na:\nBar\nnop x\nbaz\n")).1
  have fine := (log_accounts_for_warnings_and_zero_words (utf8 "f") {}
    (utf8 "a:\nfoo 1\na:\nBar\nbaz\n")).1
  refine ⟨mixed.lines_eq.trans (by decide +kernel), ?_⟩
  have assembled :
      (assemble (utf8 "f") {} (.ofBytes (utf8 "a:\nfoo 1\na:\nBar\nbaz\n"))).result =
        .ok ⟨[.unknown 0, .unknown 0, .unknown 0], [⟨utf8 "a", 1, 0⟩],
          [⟨utf8 "f", 3, utf8 "a", 1⟩]⟩ := by
    decide +kernel
  exact ⟨_, assembled, (fine.warned _ assembled).2, rfl, fine.zeroed _ assembled, rfl⟩

end StackAsm
