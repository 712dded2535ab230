import ChipEight.Proofs.Machine.Frame
import ChipEight.Proofs.Machine.TrapFree

/-!
# Carries, borrows and bits shifted out

A register is too narrow for some results, and what does not fit in it is reported in the flag.
Nothing is lost by that: the byte an operation gives and the flag it reports are together worth the
exact sum, difference or multiple of the two numbers it started from (`Balances`). What the flag
itself says is a comparison of these numbers (`Flags`).

Both tables are about the numbers **before** the operation. So it makes no difference to the flag
whether the two registers are the same or one of them is the flag, and the balance holds as long as
the report does not replace the result, which it does only if the flag is the first register.

**Main statement**: `Executes.arithmetic_exact`. It is said of a cycle, and of a cycle in place,
where each register is looked up when it is needed and the flag is written last (`Trapping.combine`).
-/

namespace ChipEight

namespace Arithmetic

variable {op : Arithmetic} {a b : UInt8} {report : Bool} {x y : Digit} {r : Registers}

/-- When the flag is one after an operation on two numbers, for those that report. -/
def Flags : Arithmetic → (a b : Nat) → Prop
  | add, a, b => 255 < a + b
  | subtract, a, b => b ≤ a
  | subtractFrom, a, b => a ≤ b
  | shiftRight, a, _ => a % 2 = 1
  | shiftLeft, a, _ => 128 ≤ a
  | copy, _, _ | or, _, _ | and, _, _ | xor, _, _ => False

/-- What the byte `v` an operation gives and the flag `f` it reports are worth together, in terms of the
two numbers before. The first four report nothing. -/
def Balances : Arithmetic → (a b v f : Nat) → Prop
  | copy, _, b, v, _ => v = b
  | or, a, b, v, _ => v = a ||| b
  | and, a, b, v, _ => v = a &&& b
  | xor, a, b, v, _ => v = a ^^^ b
  | add, a, b, v, f => v + 256 * f = a + b
  | subtract, a, b, v, f => (v : Int) - 256 * (1 - f) = a - b
  | subtractFrom, a, b, v, f => (v : Int) - 256 * (1 - f) = b - a
  | shiftRight, a, _, v, f => 2 * v + f = a
  | shiftLeft, a, _, v, f => 256 * f + v = 2 * a

/-! ### Two bytes -/

/-- An operation reports what the table of the flag says. -/
theorem flags_iff (h : op.report? a b = some report) :
    report = true ↔ op.Flags a.toNat b.toNat := by
  cases op with
  | copy | or | and | xor => cases h
  | subtract | subtractFrom =>
    obtain rfl := Option.some.inj h
    exact decide_eq_true_iff.trans UInt8.le_iff_toNat_le
  | add | shiftRight | shiftLeft =>
    obtain rfl := Option.some.inj h
    exact decide_eq_true_iff

/-- **What an operation gives and reports balances.** -/
theorem balances_result {f : Nat} (op : Arithmetic) (a b : UInt8)
    (hf : ∀ report, op.report? a b = some report → f = if report then 1 else 0) :
    op.Balances a.toNat b.toNat (op.result a b).toNat f := by
  have ha := a.toNat_lt
  have hb := b.toNat_lt
  have hflag {report : Bool} (h : op.report? a b = some report) :
      (op.Flags a.toNat b.toNat ∧ f = 1) ∨ (¬ op.Flags a.toNat b.toNat ∧ f = 0) := by
    cases report with
    | true => exact .inl ⟨(flags_iff h).1 rfl, hf _ h⟩
    | false => exact .inr ⟨fun hflags ↦ Bool.false_ne_true ((flags_iff h).2 hflags), hf _ h⟩
  cases op with
  | copy => rfl
  | or => exact UInt8.toNat_or a b
  | and => exact UInt8.toNat_and a b
  | xor => exact UInt8.toNat_xor a b
  | add =>
    have h := hflag rfl
    have hsum : (a + b).toNat = (a.toNat + b.toNat) % 256 := UInt8.toNat_add a b
    simp only [Flags, Balances, result] at h ⊢
    omega
  | subtract =>
    have h := hflag rfl
    have hdifference : (a - b).toNat = (256 - b.toNat + a.toNat) % 256 := UInt8.toNat_sub a b
    simp only [Flags, Balances, result] at h ⊢
    omega
  | subtractFrom =>
    have h := hflag rfl
    have hdifference : (b - a).toNat = (256 - a.toNat + b.toNat) % 256 := UInt8.toNat_sub b a
    simp only [Flags, Balances, result] at h ⊢
    omega
  | shiftRight =>
    have h := hflag rfl
    have hhalf : (a >>> 1).toNat = a.toNat / 2 := by
      rw [UInt8.toNat_shiftRight]
      exact Nat.shiftRight_eq_div_pow _ 1
    simp only [Flags, Balances, result] at h ⊢
    omega
  | shiftLeft =>
    have h := hflag rfl
    have hdouble : (a <<< 1).toNat = a.toNat * 2 % 256 := by
      rw [UInt8.toNat_shiftLeft]
      exact congrArg (· % 256) (Nat.shiftLeft_eq _ 1)
    simp only [Flags, Balances, result] at h ⊢
    omega

/-! ### A register file -/

/-- The report is what the flag ends with, also if the result was put there. -/
theorem get_apply_flag (h : op.report? (r.get x) (r.get y) = some report) :
    (op.apply x y r).get Registers.flag = if report then 1 else 0 := by
  unfold apply
  simp only [h]
  rw [Registers.get_setFlag, if_pos rfl]

/-- The result is what the first register ends with, unless it is the flag and gets a report. -/
theorem get_apply_first (hx : op.reports = true → x ≠ Registers.flag) :
    (op.apply x y r).get x = op.result (r.get x) (r.get y) := by
  have hcombined (value : UInt8) : (r.set x value).get x = value := by
    rw [Registers.get_set, if_pos rfl]
  cases op with
  | copy | or | and | xor => exact hcombined _
  | add | subtract | shiftRight | subtractFrom | shiftLeft =>
    exact ((r.set x _).get_setFlag x _).trans ((if_neg (hx rfl)).trans (hcombined _))

/-- An operation that reports has a report for all bytes. -/
theorem exists_report?_of_reports (h : op.reports = true) (a b : UInt8) :
    ∃ report, op.report? a b = some report := by
  cases op with
  | copy | or | and | xor => cases h
  | add | subtract | shiftRight | subtractFrom | shiftLeft => exact ⟨_, rfl⟩

end Arithmetic

namespace Machine

variable {m : Machine} {op : Arithmetic} {x y : Digit}

/-- A cycle that combines two registers succeeds. -/
theorem Executes.cycle_arithmetic (h : m.Executes (.arithmetic op x y)) :
    m.cycle.outcome = .ok .proceed ∧ m.cycle.machine.registers = op.apply x y m.registers := by
  rw [h.cycle_of_execute rfl]
  exact ⟨rfl, rfl⟩

/-- **Arithmetic is exact under every aliasing.** Let a cycle carry out `8XYN`, and let `a` and `b` be
the numbers in the two registers before. The cycle succeeds, also in place. If the operation reports,
the flag is one or zero afterwards, and one exactly if the table says so of `a` and `b`. Unless the
report has replaced the result, the first register and the flag balance with `a` and `b`. No other
register changes, and neither does the flag if nothing is reported in it. -/
theorem Executes.arithmetic_exact (h : m.Executes (.arithmetic op x y)) :
    let a := (m.registers.get x).toNat
    let b := (m.registers.get y).toNat
    let r := m.cycle.machine.registers
    let flag := (r.get 0xF).toNat
    m.current = .ofDigits 0x8 x y op.code ∧ m.cycle.outcome = .ok .proceed ∧
      Trapping.cycle.on m = .ok (.ok .proceed, m.cycle.machine) ∧
        (op.reports = true → flag ≤ 1 ∧ (flag = 1 ↔ op.Flags a b)) ∧
          ((op.reports = true → x ≠ 0xF) → op.Balances a b (r.get x).toNat flag) ∧
            ∀ k, k ≠ x → (op.reports = true → k ≠ 0xF) → r.get k = m.registers.get k := by
  intro a b r flag
  obtain ⟨hdone, hregisters⟩ := h.cycle_arithmetic
  have hr : r = op.apply x y m.registers := hregisters
  -- What the flag is worth, if something is reported in it.
  have hflag (report : Bool)
      (hreport : op.report? (m.registers.get x) (m.registers.get y) = some report) :
      flag = if report then 1 else 0 := by
    have hget := Arithmetic.get_apply_flag hreport
    rw [← hr] at hget
    show (r.get Registers.flag).toNat = _
    rw [hget]
    cases report <;> rfl
  refine ⟨(Opcode.decode?_eq_some_iff.1 h.reads).symm, hdone, Trapping.on_cycle_of_ok hdone,
    fun hreports ↦ ?_, fun hx ↦ ?_, fun k hk hkflag ↦ ?_⟩
  · obtain ⟨report, hreport⟩ :=
      Arithmetic.exists_report?_of_reports hreports (m.registers.get x) (m.registers.get y)
    rw [hflag report hreport, ← Arithmetic.flags_iff hreport]
    cases report <;> decide
  · rw [hr, Arithmetic.get_apply_first hx]
    exact Arithmetic.balances_result op _ _ hflag
  · rw [hr, Arithmetic.get_apply hk hkflag]

/-- A program adds the flag to itself and finds the carry there. Another one subtracts the flag from a
register, and the borrow replaces what was subtracted; a third shifts the flag into itself. -/
theorem flag_as_operand :
    let sum := (powerOn .usual (.ofSeed 0)).run [.load [0x6F, 0x80, 0x8F, 0xF4], .cycle]
    let difference := (powerOn .usual (.ofSeed 0)).run
      [.load [0x61, 0x05, 0x6F, 0x07, 0x81, 0xF5], .cycle, .cycle]
    let shifted := (powerOn .usual (.ofSeed 0)).run [.load [0x6F, 0x81, 0x8F, 0x0E], .cycle]
    (sum.Executes (.arithmetic .add 0xF 0xF) ∧
      ((sum.cycle.machine.registers.get 0xF).toNat = 1 ↔ 255 < 128 + 128)) ∧
      (difference.Executes (.arithmetic .subtract 0x1 0xF) ∧
        ((difference.cycle.machine.registers.get 0x1).toNat : Int)
          - 256 * (1 - (difference.cycle.machine.registers.get 0xF).toNat) = 5 - 7) ∧
        shifted.Executes (.arithmetic .shiftLeft 0xF 0x0) ∧
          ((shifted.cycle.machine.registers.get 0xF).toNat = 1 ↔ 128 ≤ 129) := by
  intro sum difference shifted
  have hsum : sum.Executes (.arithmetic .add 0xF 0xF) := by decide
  have hdifference : difference.Executes (.arithmetic .subtract 0x1 0xF) := by decide
  have hshifted : shifted.Executes (.arithmetic .shiftLeft 0xF 0x0) := by decide
  obtain ⟨-, -, -, hcarry, -⟩ := hsum.arithmetic_exact
  obtain ⟨-, -, -, -, hborrow, -⟩ := hdifference.arithmetic_exact
  obtain ⟨-, -, -, hbit, -⟩ := hshifted.arithmetic_exact
  exact ⟨⟨hsum, (hcarry rfl).2⟩, ⟨hdifference, hborrow fun _ ↦ by decide⟩, hshifted, (hbit rfl).2⟩

end Machine

end ChipEight
