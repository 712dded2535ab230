import ChipEight.Proofs.Machine.Footprint
import ChipEight.Proofs.Machine.Frame
import ChipEight.Proofs.Machine.TrapFree

/-!
# Registers on their way through memory

`FX55` puts the registers from V0 up to and including VX into the cells from the index register on, and
`FX65` takes them back. The index register stays where it is, so a program may do anything in between
and then load what it stored, in whole or only the first few, as long as the index register and the
cells are again as they were.

Nothing but an instruction writes the index register or a cell, unless the machine starts again. So a
place is kept over a whole history if it is **spared** at each moment of it: nothing starts again, and
what is carried out does not write it, by the table of what instructions write (`Writes`).

`FX33` writes to the same cells in another way, three decimal digits for one register.

**Main statement**: `transfer_round_trip`.
-/

namespace ChipEight

namespace Place

variable {m n p : Machine} {place : Place}

/-- A place is one of so many cells, from an address on. -/
def Within (a count : Nat) : Place → Prop
  | cell c => a ≤ c.val ∧ c.val < a + count
  | _ => False

/-- Whether a place is written by instructions and nothing else, short of a restart. -/
def instructed : Place → Bool
  | cell _ | display | index | stack | generator | config => true
  | register _ | delay | sound | held | latched | keyWait | fault => false

theorem Within.instructed {a count : Nat} (h : place.Within a count) : place.instructed = true := by
  cases place with
  | cell => rfl
  | _ => exact h.elim

theorem Kept.refl : place.Kept m m := by
  cases place <;> rfl

theorem Kept.trans (h : place.Kept m n) (h' : place.Kept n p) : place.Kept m p := by
  cases place <;> exact Eq.trans h' h

end Place

/-! ### Histories that spare a place -/

/-- Nothing starts again at a moment, and what is carried out does not write a place. -/
structure Moment.Spares (t : Moment) (place : Place) : Prop where
  goes_on : t.event.restarts = false
  not_written : ∀ op, t.carried? = some op → ¬ Writes t.machine.index op place

/-- A place that is spared is kept, if nothing but an instruction writes it. -/
theorem Moment.Spares.kept_after {t : Moment} {place : Place} (h : t.Spares place)
    (hplace : place.instructed = true) : place.Kept t.machine t.after := by
  cases hcarried : t.carried? with
  | none =>
    obtain ⟨_, _, _, _, _, hafter⟩ :=
      t.after_of_not_carried hcarried (Bool.eq_false_iff.1 h.goes_on)
    rw [hafter]
    cases place with
    | cell | display | index | stack | generator | config => rfl
    | register | delay | sound | held | latched | keyWait | fault => cases hplace
  | some op =>
    obtain ⟨signal, hdone⟩ := Moment.execute_of_carried hcarried
    by_contra changed
    have hwrites : Writes t.machine.stepOver.index op place :=
      Machine.writes_of_execute hdone (mt Place.kept_stepOver_iff.1 changed)
    exact h.not_written op hcarried hwrites

namespace Machine

variable {m n : Machine} {op : Opcode} {place : Place} {x y : Digit}

/-- **A history that spares a place keeps it.** -/
theorem kept_run_of_spares (hplace : place.instructed = true) {events : List Event}
    (h : ∀ t ∈ m.moments events, t.Spares place) : place.Kept m (m.run events) :=
  run_of_moments (P := fun n ↦ place.Kept m n) (Q := fun t ↦ t.Spares place)
    (fun _ ht hkept ↦ hkept.trans (ht.kept_after hplace)) Place.Kept.refl events h

/-! ### Storing and loading -/

/-- A cycle that stores bytes succeeds if there is room for them. They are in the cells from the index
register on, and every other place is kept. -/
theorem Executes.cycle_store {count : Nat} (h : m.Executes op) (bytes : List UInt8)
    (hcount : bytes.length = count)
    (hstore : m.stepOver.execute op = (m.stepOver.store bytes).map (.proceed, ·))
    (low : Memory.programStart ≤ m.index.val) (high : m.index.val + count ≤ Memory.size) :
    m.cycle.outcome = .ok .proceed ∧
      (∀ k < count, m.cycle.machine.memory.cell (m.index.val + k) = bytes.getD k 0) ∧
        ∀ place : Place, ¬ place.Within m.index.val count → place.Kept m m.cycle.machine := by
  subst hcount
  have hwrite : m.stepOver.store bytes =
      .ok { m.stepOver with memory := m.memory.place m.index.val bytes } :=
    map_eq_ok_iff.2 ⟨_, Memory.write_eq_ok_iff.2 ⟨low, high, rfl⟩, rfl⟩
  rw [h.cycle_of_execute (hstore.trans (map_eq_ok_iff.2 ⟨_, hwrite, rfl⟩))]
  refine ⟨rfl, fun k hk ↦ ?_, fun place hplace ↦ ?_⟩
  · show (m.memory.place m.index.val bytes).cell (m.index.val + k) = _
    rw [Memory.cell_place _ _ _ high (by omega), if_pos (by omega), Nat.add_sub_cancel_left]
  · cases place with
    | cell a =>
      have hout : ¬ (m.index.val ≤ a.val ∧ a.val < m.index.val + bytes.length) := hplace
      show (m.memory.place m.index.val bytes).cell a.val = m.memory.cell a.val
      rw [Memory.cell_place _ _ _ high a.isLt, if_neg hout]
    | _ => rfl

/-- What `FX55` leaves behind: the registers from V0 up to and including VX, one in each cell. -/
theorem Executes.cycle_storeRegisters (h : m.Executes (.storeRegisters x))
    (low : Memory.programStart ≤ m.index.val) (high : m.index.val + x.val < Memory.size) :
    m.cycle.outcome = .ok .proceed ∧
      (∀ j ≤ x, m.cycle.machine.memory.cell (m.index.val + j.val) = m.registers.get j) ∧
        ∀ place : Place, ¬ place.Within m.index.val (x.val + 1) →
          place.Kept m m.cycle.machine := by
  obtain ⟨hdone, hcells, hkept⟩ :=
    h.cycle_store (m.registers.upTo x) (m.registers.length_upTo x) rfl low high
  refine ⟨hdone, fun j hj ↦ ?_, hkept⟩
  exact (hcells j.val (Nat.lt_succ_of_le hj)).trans (m.registers.getD_upTo x j hj)

/-- A cycle that loads registers succeeds if the cells for them exist. They hold what is in these
cells, and every other place is kept. -/
theorem Executes.cycle_load (h : m.Executes (.loadRegisters y))
    (high : m.index.val + (y.val + 1) ≤ Memory.size) :
    m.cycle.outcome = .ok .proceed ∧
      (∀ k ≤ y, m.cycle.machine.registers.get k = m.memory.cell (m.index.val + k.val)) ∧
        ∀ place : Place, (∀ k ≤ y, place ≠ .register k) → place.Kept m m.cycle.machine := by
  let bytes := m.memory.cells m.index.val (y.val + 1)
  have hload : m.stepOver.loadRegisters y =
      .ok { m.stepOver with registers := m.registers.restore y bytes } :=
    map_eq_ok_iff.2 ⟨_, Memory.slice_eq_ok_iff.2 ⟨high, rfl⟩, rfl⟩
  rw [h.cycle_of_execute (map_eq_ok_iff.2 ⟨_, hload, rfl⟩)]
  refine ⟨rfl, fun k hk ↦ ?_, fun place hplace ↦ ?_⟩
  · show (m.registers.restore y bytes).get k = _
    rw [Registers.get_restore, if_pos hk, List.getD_eq_getElem?_getD, Memory.getElem?_cells,
      if_pos (Nat.lt_succ_of_le hk), Option.getD_some]
  · cases place with
    | register k =>
      show (m.registers.restore y bytes).get k = m.registers.get k
      rw [Registers.get_restore, if_neg fun hk ↦ hplace k hk rfl]
    | _ => rfl

/-- Three digits of one byte, each at most nine, are worth the byte. -/
theorem decimalDigits_spec (value : UInt8) :
    let digit k := ((decimalDigits value).getD k 0).toNat
    (∀ k < 3, digit k ≤ 9) ∧ 100 * digit 0 + 10 * digit 1 + digit 2 = value.toNat := by
  intro digit
  have hvalue := value.toNat_lt
  have hundreds : digit 0 = value.toNat / 100 := UInt8.toNat_div value 100
  have tens : digit 1 = value.toNat / 10 % 10 := by
    show (value / 10 % 10).toNat = _
    rw [UInt8.toNat_mod, UInt8.toNat_div]
    rfl
  have ones : digit 2 = value.toNat % 10 := UInt8.toNat_mod value 10
  refine ⟨fun k hk ↦ ?_, by omega⟩
  have hk : k = 0 ∨ k = 1 ∨ k = 2 := by omega
  rcases hk with rfl | rfl | rfl <;> omega

/-- What `FX33` leaves behind: three digits that are worth the register. -/
theorem Executes.cycle_storeDecimal (h : m.Executes (.storeDecimal x))
    (low : Memory.programStart ≤ m.index.val) (high : m.index.val + 3 ≤ Memory.size) :
    let digit k := (m.cycle.machine.memory.cell (m.index.val + k)).toNat
    m.cycle.outcome = .ok .proceed ∧
      ((∀ k < 3, digit k ≤ 9) ∧
        100 * digit 0 + 10 * digit 1 + digit 2 = (m.registers.get x).toNat) ∧
        ∀ place : Place, ¬ place.Within m.index.val 3 → place.Kept m m.cycle.machine := by
  intro digit
  have hlength : (decimalDigits (m.registers.get x)).length = 3 := rfl
  obtain ⟨hdone, hcells, hkept⟩ := h.cycle_store _ hlength rfl low high
  have hdigit (k : Nat) (hk : k < 3) :
      digit k = ((decimalDigits (m.registers.get x)).getD k 0).toNat :=
    congrArg UInt8.toNat (hcells k hk)
  obtain ⟨hnine, hworth⟩ := decimalDigits_spec (m.registers.get x)
  refine ⟨hdone, ⟨fun k hk ↦ (hdigit k hk).trans_le (hnine k hk), ?_⟩, hkept⟩
  rw [hdigit 0 (by decide), hdigit 1 (by decide), hdigit 2 (by decide)]
  exact hworth

/-! ### There and back -/

/-- **Registers go to memory and come back, and a byte goes there as its digits.** If `FX55` has room
for its registers, its cycle succeeds, the registers are in the cells from the index register on, and
every other place is kept. A later history keeps whichever of these cells and the index register it
spares. And if they are all as they were, in whatever way that came about, then a cycle that carries
out `FX65` for the first few of the registers gets these back and keeps every other place. If `FX33`
has room, it writes three digits that are worth the register and keeps every other place. All these
cycles come to the same in place. -/
theorem transfer_round_trip (m : Machine) :
    (∀ x, m.Executes (.storeRegisters x) → 0x200 ≤ m.index.val → m.index.val + x.val < 0x1000 →
      let s := m.cycle.machine
      m.cycle.outcome = .ok .proceed ∧ Trapping.cycle.on m = .ok (.ok .proceed, s) ∧
        (∀ j ≤ x, s.memory.cell (m.index.val + j.val) = m.registers.get j) ∧
          (∀ place : Place, ¬ place.Within m.index.val (x.val + 1) → place.Kept m s) ∧
            ∀ later : List Event,
              let n := s.run later
              let carriers (place : Place) := place = .index ∨ place.Within m.index.val (x.val + 1)
              (∀ place, carriers place → (∀ t ∈ s.moments later, t.Spares place) →
                place.Kept s n) ∧
                ((∀ place, carriers place → place.Kept s n) → ∀ y ≤ x,
                  n.Executes (.loadRegisters y) →
                    let l := n.cycle.machine
                    n.cycle.outcome = .ok .proceed ∧
                      Trapping.cycle.on n = .ok (.ok .proceed, l) ∧
                        (∀ k ≤ y, l.registers.get k = m.registers.get k) ∧
                          ∀ place : Place, (∀ k ≤ y, place ≠ .register k) → place.Kept n l)) ∧
      ∀ x, m.Executes (.storeDecimal x) → 0x200 ≤ m.index.val → m.index.val ≤ 0xFFD →
        let s := m.cycle.machine
        let digit k := (s.memory.cell (m.index.val + k)).toNat
        m.cycle.outcome = .ok .proceed ∧ Trapping.cycle.on m = .ok (.ok .proceed, s) ∧
          (∀ k < 3, digit k ≤ 9) ∧
            100 * digit 0 + 10 * digit 1 + digit 2 = (m.registers.get x).toNat ∧
              ∀ place : Place, ¬ place.Within m.index.val 3 → place.Kept m s := by
  refine ⟨fun x hop low high ↦ ?_, fun x hop low high ↦ ?_⟩
  · intro s
    obtain ⟨hdone, hstored, hkept⟩ := hop.cycle_storeRegisters low high
    refine ⟨hdone, Trapping.on_cycle_of_ok hdone, hstored, hkept, fun later ↦ ?_⟩
    intro n carriers
    refine ⟨fun place hplace hspares ↦ ?_, fun hsame y hy hload ↦ ?_⟩
    · have hinstructed : place.instructed = true := by
        rcases hplace with rfl | hplace
        · rfl
        · exact hplace.instructed
      exact kept_run_of_spares hinstructed hspares
    · intro l
      have hindex : n.index = m.index := Eq.trans (hsame .index (.inl rfl)) (hkept .index id)
      have hyx : y.val ≤ x.val := hy
      have hsize : Memory.size = 0x1000 := rfl
      obtain ⟨hdone, hregisters, hkept⟩ := hload.cycle_load (by rw [hindex]; omega)
      refine ⟨hdone, Trapping.on_cycle_of_ok hdone, fun k hk ↦ ?_, hkept⟩
      have hkx : k.val ≤ x.val := Nat.le_trans hk hyx
      -- The cell that the register is loaded from has an address, and so it is a place.
      have hcell : (Place.cell ⟨m.index.val + k.val, by omega⟩).Kept s n :=
        hsame _ (.inr ⟨Nat.le_add_right .., Nat.add_lt_add_left (Nat.lt_succ_of_le hkx) _⟩)
      calc l.registers.get k = n.memory.cell (n.index.val + k.val) := hregisters k hk
        _ = s.memory.cell (m.index.val + k.val) := by rw [hindex]; exact hcell
        _ = m.registers.get k := hstored k hkx
  · intro s digit
    have hsize : Memory.size = 0x1000 := rfl
    obtain ⟨hdone, ⟨hnine, hworth⟩, hkept⟩ := hop.cycle_storeDecimal low (by omega)
    exact ⟨hdone, Trapping.on_cycle_of_ok hdone, hnine, hworth, hkept⟩

/-- A program stores two registers and clears them, with a tick in between; then it loads the first one
again. Another one writes the digits of 254 into the last three cells. -/
theorem first_of_two_back_and_digits_at_end :
    let m := (powerOn .usual (.ofSeed 0)).run
      [.load [0x60, 0x07, 0x61, 0x09, 0xA3, 0x00, 0xF1, 0x55, 0x60, 0x00, 0x61, 0x00, 0xF0, 0x65],
        .cycle, .cycle, .cycle]
    let n := m.cycle.machine.run [.cycle, .tick, .cycle]
    let decimal := (powerOn .usual (.ofSeed 0)).run
      [.load [0x60, 0xFE, 0xAF, 0xFD, 0xF0, 0x33], .cycle, .cycle]
    (m.Executes (.storeRegisters 0x1) ∧ n.Executes (.loadRegisters 0x0) ∧ n.registers.get 0x0 = 0 ∧
      n.cycle.machine.registers.get 0x0 = m.registers.get 0x0 ∧ m.registers.get 0x0 = 7) ∧
      decimal.Executes (.storeDecimal 0x0) ∧
        100 * (decimal.cycle.machine.memory.cell (decimal.index.val + 0)).toNat +
          10 * (decimal.cycle.machine.memory.cell (decimal.index.val + 1)).toNat +
            (decimal.cycle.machine.memory.cell (decimal.index.val + 2)).toNat = 254 := by
  intro m n decimal
  have hstore : m.Executes (.storeRegisters 0x1) := by decide
  have hload : n.Executes (.loadRegisters 0x0) := by decide
  have hdigits : decimal.Executes (.storeDecimal 0x0) := by decide
  obtain ⟨-, -, -, -, hlater⟩ :=
    (transfer_round_trip m).1 0x1 hstore (by decide) (by decide)
  obtain ⟨hspared, hback⟩ := hlater [.cycle, .tick, .cycle]
  -- Only two registers are cleared at the moments in between.
  have hmoments : ∀ t ∈ m.cycle.machine.moments [.cycle, .tick, .cycle],
      t.event.restarts = false ∧ (t.carried? = none ∨ t.carried? = some (.setByte 0x0 0) ∨
        t.carried? = some (.setByte 0x1 0)) := by decide
  have hkept (place : Place)
      (hplace : place = .index ∨ place.Within m.index.val ((0x1 : Digit).val + 1)) :
      place.Kept m.cycle.machine n := by
    refine hspared place hplace fun t ht ↦ ⟨(hmoments t ht).1, fun op hop hwrites ↦ ?_⟩
    -- What is written then is a register, and that is not among the places.
    rcases (hmoments t ht).2 with h | h | h <;> rw [h] at hop <;> cases hop <;> cases hwrites <;>
      rcases hplace with hplace | hplace <;> cases hplace
  obtain ⟨-, -, hregisters, -⟩ := hback hkept 0x0 (by decide) hload
  obtain ⟨-, -, -, hworth, -⟩ :=
    (transfer_round_trip decimal).2 0x0 hdigits (by decide) (by decide)
  exact ⟨⟨hstore, hload, by decide, hregisters 0x0 (by decide), by decide⟩, hdigits, hworth⟩

end Machine

end ChipEight
