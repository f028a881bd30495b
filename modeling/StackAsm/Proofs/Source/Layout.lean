import StackAsm.Proofs.Source.Literal

set_option autoImplicit false

namespace StackAsm

open Ascii

namespace Line

theorem code_cons_of_unmarked {b : UInt8} (unescaped : b ≠ backslash) (unquoted : b ≠ doubleQuote)
    (bare : b ≠ numberSign) (quoted : Bool) (bs : Bytes) :
    code quoted (b :: bs) = b :: code quoted bs := by
  cases bs <;> simp [code, unescaped, unquoted, bare]

theorem code_of_unmarked {v : Bytes} (unescaped : backslash ∉ v) (unquoted : doubleQuote ∉ v)
    (bare : numberSign ∉ v) (quoted : Bool) : code quoted v = v := by
  induction v with
  | nil => rfl
  | cons b v ih =>
    rw [List.mem_cons, not_or] at unescaped unquoted bare
    rw [code_cons_of_unmarked (Ne.symm unescaped.1) (Ne.symm unquoted.1) (Ne.symm bare.1),
      ih unescaped.2 unquoted.2 bare.2]

-- What holds none of the three marks is added to the code of a line or to its comment.
theorem code_append_unmarked {v : Bytes} (unescaped : backslash ∉ v) (unquoted : doubleQuote ∉ v)
    (bare : numberSign ∉ v) (quoted : Bool) (bs : Bytes) :
    code quoted (bs ++ v) = code quoted bs ++ v ∨ code quoted (bs ++ v) = code quoted bs := by
  have plain := code_of_unmarked unescaped unquoted bare
  fun_induction code quoted bs with
  | case1 quoted => exact .inl (plain quoted)
  | case2 quoted b comment =>
    right
    cases v <;> simp [code, comment, numberSign, backslash, doubleQuote]
  | case3 quoted b visible =>
    left
    cases v with
    | nil => simp [code, visible]
    | cons c v =>
      -- The last byte can be a backslash, which passes over `c`, or a quote.
      rw [List.mem_cons, not_or] at unescaped unquoted bare
      have tail := code_of_unmarked unescaped.2 unquoted.2 bare.2 quoted
      simp [code, visible, plain, tail]
  | case4 quoted b c bs escape ih => simpa [code, escape] using ih
  | case5 quoted c bs unescaped ih => simpa [code, backslash, doubleQuote] using ih
  | case6 quoted b c bs unescaped unquoted comment =>
    right
    simp [code, comment, numberSign, backslash, doubleQuote]
  | case7 quoted b c bs unescaped unquoted bare ih =>
    simpa [code, unescaped, unquoted, bare] using ih

theorem classify_append_blank {v : Bytes} (blank : isBlankText v) (raw : Bytes) :
    classify (raw ++ v) = classify raw := by
  have added := code_append_unmarked (not_mem_of_isBlankText blank (by decide))
    (not_mem_of_isBlankText blank (by decide)) (not_mem_of_isBlankText blank (by decide)) false raw
  rw [classify, classify]
  rcases added with within | outside
  · rw [within]
    exact congrArg ofText (trim_append (w := []) rfl blank _)
  · rw [outside]

theorem classify_blank_append {w : Bytes} (blank : isBlankText w) (raw : Bytes) :
    classify (w ++ raw) = classify raw := by
  have code_eq : code false (w ++ raw) = w ++ (code false raw ++ []) := by
    rw [code_of_isBlankText blank, List.append_nil]
  rw [classify, classify, code_eq, trim_append blank rfl]

/-- Whether a line ends inside a string literal; `quoted` tells whether it starts inside one. A
comment stands outside of all literals. -/
def endsQuoted (quoted : Bool) : Bytes → Bool
  | [] => quoted
  | [b] => if b = doubleQuote then !quoted else quoted
  | b :: c :: bs =>
    if b = backslash ∧ quoted = true then endsQuoted quoted bs
    else if b = doubleQuote then endsQuoted (!quoted) (c :: bs)
    else if b = numberSign ∧ quoted = false then false
    else endsQuoted quoted (c :: bs)

theorem code_numberSign_eq_nil_iff (quoted : Bool) (note : Bytes) :
    code quoted (numberSign :: note) = [] ↔ quoted = false := by
  cases quoted with
  | false => simp [code_numberSign]
  | true => cases note <;> simp [code, numberSign, backslash, doubleQuote]

theorem code_append_comment_iff (quoted : Bool) (raw note : Bytes) :
    code quoted (raw ++ numberSign :: note) = code quoted raw ↔ endsQuoted quoted raw = false := by
  have found := code_numberSign_eq_nil_iff
  fun_induction endsQuoted quoted raw with
  | case1 quoted => exact found quoted note
  | case2 quoted =>
    rw [List.singleton_append, code_doubleQuote, code_doubleQuote, List.cons_inj_right]
    exact found (!quoted) note
  | case3 quoted b unquoted =>
    rw [List.singleton_append]
    by_cases escape : b = backslash ∧ quoted = true
    next =>
      -- The backslash takes the number sign with it.
      simp [code, escape, numberSign]
    next =>
      by_cases comment : b = numberSign ∧ quoted = false
      next => simp [comment, code_numberSign]
      next => simp [code, escape, unquoted, comment, found]
  | case4 quoted b c bs escape ih => simpa [code, escape] using ih
  | case5 quoted c bs unescaped ih => simpa [code, backslash, doubleQuote] using ih
  | case6 quoted b c bs unescaped unquoted comment =>
    simp [code, comment, numberSign, backslash, doubleQuote]
  | case7 quoted b c bs unescaped unquoted bare ih =>
    simpa [code, unescaped, unquoted, bare] using ih

theorem classify_append_comment {raw : Bytes} (outside : endsQuoted false raw = false)
    (note : Bytes) : classify (raw ++ numberSign :: note) = classify raw := by
  rw [classify, classify, (code_append_comment_iff false raw note).2 outside]

theorem classify_chomp (raw : Bytes) : classify (chomp raw) = classify raw := by
  rw [chomp]
  split
  next last =>
    obtain ⟨before, rfl⟩ := List.getLast?_eq_some_iff.1 last
    rw [List.dropLast_concat, classify_append_blank (by decide)]
  next => rfl

end Line

end StackAsm
