import StackAsm.Assembly.Statement

set_option autoImplicit false

namespace StackAsm

inductive Mnemonic.Complaint (m : Mnemonic) : LineProblem → Prop where
  | tooManyOperands : Complaint m (.tooManyOperands m.name)
  | missingOperand : Complaint m (.missingOperand m.name)
  | invalidNumber (token : Bytes) : Complaint m (.invalidNumber m.name token)
  | invalidHexadecimal (token : Bytes) : Complaint m (.invalidHexadecimal m.name token)
  | invalidFormat (token : Bytes) : Complaint m (.invalidFormat m.name token)
  | unquotedString (rest : Bytes) : Complaint m (.unquotedString m.name rest)

namespace Mnemonic.Complaint

variable {m : Mnemonic} {problem : LineProblem}

theorem isUnsupported (complaint : m.Complaint problem) : problem.isUnsupported = false := by
  cases complaint <;> rfl

theorem exists_message (complaint : m.Complaint problem) :
    ∃ words, problem.message = m.name ++ utf8 ": " ++ words := by
  have joined {front : Bytes} (text words : Bytes) (split : text = utf8 ": " ++ words) :
      ∃ words, front ++ text = front ++ utf8 ": " ++ words :=
    ⟨words, by rw [split, List.append_assoc]⟩
  cases complaint with
  | tooManyOperands | missingOperand => exact joined _ _ rfl
  | invalidNumber token | invalidHexadecimal token | invalidFormat token | unquotedString token =>
    rw [LineProblem.message, List.append_assoc]
    exact joined _ _ rfl

end Mnemonic.Complaint

def Rejects {α : Type} (m : Mnemonic) (run : Except LineProblem α) : Prop :=
  ∀ problem, run = .error problem → m.Complaint problem

namespace Rejects

variable {α β : Type} {m : Mnemonic}

theorem ok (value : α) : Rejects m (.ok value) := by
  intro problem failed
  cases failed

theorem error {problem : LineProblem} (complaint : m.Complaint problem) :
    Rejects m (.error problem : Except LineProblem α) := by
  intro other failed
  cases failed
  exact complaint

theorem bind {first : Except LineProblem α} {next : α → Except LineProblem β}
    (here : Rejects m first) (later : ∀ value, Rejects m (next value)) :
    Rejects m (first >>= next) := by
  cases first with
  | error problem => exact .error (here problem rfl)
  | ok value => exact later value

end Rejects

namespace Operand

theorem rejects_atMost (m : Mnemonic) (limit : Nat) (os : List Bytes) :
    Rejects m (atMost m limit os) := by
  rw [atMost]
  split
  next => exact .error .tooManyOperands
  next => exact .ok ()

theorem rejects_number (m : Mnemonic) (r : Radix) (token : Bytes) :
    Rejects m (number m r token) := by
  rw [number]
  split
  next value _ => exact .ok value
  next =>
    apply Rejects.error
    cases r with
    | decimal => exact .invalidNumber token
    | hexadecimal => exact .invalidHexadecimal token
    | marked =>
      rw [Radix.problem]
      split
      next => exact .invalidHexadecimal token
      next => exact .invalidNumber token

theorem rejects_optional (m : Mnemonic) (r : Radix) (absent : Int) (token : Option Bytes) :
    Rejects m (Operand.optional m r absent token) := by
  cases token with
  | none => exact .ok absent
  | some token => exact rejects_number m r token

theorem rejects_required (m : Mnemonic) (r : Radix) (token : Option Bytes) :
    Rejects m (required m r token) := by
  cases token with
  | none => exact .error .missingOperand
  | some token => exact rejects_number m r token

theorem rejects_format (m : Mnemonic) (token : Option Bytes) : Rejects m (format m token) := by
  cases token with
  | none => exact .ok 0
  | some token =>
    rw [format]
    split
    next f _ => exact .ok f
    next => exact .error (.invalidFormat token)

end Operand

namespace Statement

open Operand

theorem rejects_build (m : Mnemonic) (rest : Bytes) (os : List Bytes) :
    Rejects m (build m rest os) := by
  have limited (limit : Nat) := rejects_atMost m limit os
  cases m with
  | stpush =>
    simp only [build]
    split
    next => exact .ok _
    next => exact .error (.unquotedString rest)
  | exit | dup | stinput | pop | ret =>
    exact (limited 1).bind fun _ => (rejects_optional _ _ _ _).bind fun _ => .ok _
  | push => exact (limited 1).bind fun _ => (rejects_required _ _ _).bind fun _ => .ok _
  | swap =>
    exact (limited 2).bind fun _ => (rejects_optional _ _ _ _).bind fun _ =>
      (rejects_optional _ _ _ _).bind fun _ => .ok _
  | debug =>
    exact (limited 2).bind fun _ => (rejects_atMost _ _ _).bind fun _ =>
      (rejects_optional _ _ _ _).bind fun _ => .ok _
  | print | stprint =>
    exact (limited 2).bind fun _ => (rejects_optional _ _ _ _).bind fun _ =>
      (rejects_format _ _).bind fun _ => .ok _
  | nop | input | dump | arithmetic operator | unary operator =>
    exact (limited 0).bind fun _ => .ok _

end Statement

end StackAsm
