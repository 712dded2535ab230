import ChipEight.Memory.Basic

/-!
# Access to memory

Which accesses are allowed, why the others are refused, and what the allowed ones do. Every access is
**guarded**: it gives its result if a condition holds and one certain fault if not, so that a success
and a failure are each characterised by the condition. Whatever is made of a result afterwards keeps
the failure as it is.

A write is the only access that changes anything, and it has two guards; the one on where it starts is
looked at first.
-/

namespace ChipEight

section Guard

variable {ε α β : Type} {p : Prop} [Decidable p] {e e' : ε} {v v' : α}

theorem guard_eq_ok_iff : (if p then .ok v else .error e : Except ε α) = .ok v' ↔ p ∧ v' = v := by
  split <;> rename_i hp <;> simp [hp, eq_comm]

theorem guard_eq_error_iff :
    (if p then .ok v else .error e : Except ε α) = .error e' ↔ ¬ p ∧ e' = e := by
  split <;> rename_i hp <;> simp [hp, eq_comm]

theorem map_eq_ok_iff {r : Except ε α} {f : α → β} {b : β} :
    r.map f = .ok b ↔ ∃ a, r = .ok a ∧ f a = b := by
  cases r <;> simp [Except.map]

theorem map_eq_error_iff {r : Except ε α} {f : α → β} : r.map f = .error e ↔ r = .error e := by
  cases r <;> simp [Except.map]

end Guard

namespace Memory

variable {m m' : Memory} {a length : Nat} {bytes : List UInt8} {fault : Fault}

theorem slice_eq_ok_iff {found : List UInt8} :
    m.slice a length = .ok found ↔ a + length ≤ size ∧ found = m.cells a length :=
  guard_eq_ok_iff

theorem slice_eq_error_iff :
    m.slice a length = .error fault ↔
      ¬ a + length ≤ size ∧ fault = .addressOutOfRange (max a size) :=
  guard_eq_error_iff

theorem read_eq_ok_iff {byte : UInt8} : m.read a = .ok byte ↔ a < size ∧ byte = m.cell a :=
  guard_eq_ok_iff

theorem fetch_eq_ok_iff {w : UInt16} : m.fetch a = .ok w ↔ a + 2 ≤ size ∧ w = m.word a :=
  guard_eq_ok_iff

theorem fetch_eq_error_iff :
    m.fetch a = .error fault ↔ ¬ a + 2 ≤ size ∧ fault = .addressOutOfRange a :=
  guard_eq_error_iff

theorem write_eq_ok_iff :
    m.write a bytes = .ok m' ↔
      programStart ≤ a ∧ a + bytes.length ≤ size ∧ m' = m.place a bytes := by
  unfold write
  split
  · rename_i ha
    simp only [reduceCtorEq, false_iff]
    exact fun h ↦ absurd ha (Nat.not_lt.2 h.1)
  · rename_i ha
    rw [guard_eq_ok_iff, and_iff_right (Nat.not_lt.1 ha)]

theorem load_eq_ok_iff :
    m.load bytes = .ok m' ↔ bytes.length ≤ capacity ∧ m' = m.place programStart bytes :=
  guard_eq_ok_iff

theorem load_eq_error_iff :
    m.load bytes = .error fault ↔
      ¬ bytes.length ≤ capacity ∧ fault = .programTooLarge bytes.length capacity :=
  guard_eq_error_iff

/-- A write is refused for where it starts, and otherwise for where it ends. -/
theorem write_eq_error_iff :
    m.write a bytes = .error fault ↔
      (a < programStart ∧ fault = .reservedAddress a) ∨
        (programStart ≤ a ∧ ¬ a + bytes.length ≤ size ∧
          fault = .addressOutOfRange (max a size)) := by
  unfold write
  split
  · rename_i ha
    rw [and_iff_right ha, or_iff_left fun h ↦ absurd ha (Nat.not_lt.2 h.1), Except.error.injEq,
      eq_comm]
  · rename_i ha
    rw [guard_eq_error_iff, and_iff_right (Nat.not_lt.1 ha), or_iff_right fun h ↦ ha h.1]

/-- Placing bytes changes no cell in front of the first one. -/
theorem cell_place_of_lt (hend : a + bytes.length ≤ size) {c : Nat} (hc : c < a) :
    (m.place a bytes).cell c = m.cell c := by
  rw [cell_place m a bytes hend (by omega), if_neg (by omega)]

end Memory

end ChipEight
