import ChipEight.Proofs.Machine.TrapFree

/-!
# The law of memory

A range of memory may be read if it ends where memory does or before, and it may be written if it
does not begin below the program area either. That holds at every boundary: a range without bytes may
lie at the very end and nowhere behind it, and one that begins too low is refused for that wherever it
ends.

What an access needs to be computed is the end of its range, a sum that has to fit the width of an
address. Given that, a procedure in place that writes, reads or loads comes to the same as the
function on memories, and it is all or nothing for bytes of any length: behind a refusal stands the
machine as it was (`Trapping.on_write`, `Trapping.on_slice`, `Trapping.on_loadProgram`).

**Main statement**: `access_law`.
-/

namespace ChipEight

/-- Steps that all succeed give the list of what they give. -/
theorem mapM_eq_ok_map {ε α β : Type} {f : α → Except ε β} {g : α → β} {l : List α}
    (h : ∀ a ∈ l, f a = .ok (g a)) : l.mapM f = .ok (l.map g) := by
  induction l with
  | nil => rfl
  | cons a l ih =>
    obtain ⟨ha, hl⟩ := List.forall_mem_cons.1 h
    rw [List.mapM_cons, ha, ih hl]
    rfl

namespace Memory

variable {m written loaded : Memory} {a length : Nat} {bytes found program : List UInt8}
  {fault : Fault}

/-! ### Writing -/

theorem exists_write_iff :
    (∃ written, m.write a bytes = .ok written) ↔ programStart ≤ a ∧ a + bytes.length ≤ size := by
  simp only [write_eq_ok_iff, exists_and_left, exists_eq, and_true]

/-- The error of a write tells of where it begins before it tells of the end. -/
theorem fault_of_write (h : m.write a bytes = .error fault) :
    fault = if a < programStart then .reservedAddress a else .addressOutOfRange (max a size) := by
  rcases write_eq_error_iff.1 h with ⟨low, rfl⟩ | ⟨high, -, rfl⟩
  · rw [if_pos low]
  · rw [if_neg (Nat.not_lt.2 high)]

theorem cell_of_write (h : m.write a bytes = .ok written) {c : Nat} (hc : c < size) :
    written.cell c = if a ≤ c ∧ c < a + bytes.length then bytes.getD (c - a) 0 else m.cell c := by
  obtain ⟨-, hend, rfl⟩ := write_eq_ok_iff.1 h
  exact m.cell_place a bytes hend hc

/-- A byte that was written is read at its place. -/
theorem read_of_write (h : m.write a bytes = .ok written) {k : Nat} (hk : k < bytes.length) :
    written.read (a + k) = .ok bytes[k] := by
  obtain ⟨-, hend, -⟩ := write_eq_ok_iff.1 h
  refine read_eq_ok_iff.2 ⟨by omega, ?_⟩
  rw [cell_of_write h (by omega), if_pos (by omega), Nat.add_sub_cancel_left,
    List.getD_eq_getElem _ _ hk]

/-- The bytes that were written are read at once. -/
theorem slice_of_write (h : m.write a bytes = .ok written) :
    written.slice a bytes.length = .ok bytes := by
  obtain ⟨-, hend, -⟩ := write_eq_ok_iff.1 h
  refine slice_eq_ok_iff.2 ⟨hend, List.ext_getElem (by rw [length_cells]) fun k hk _ ↦ ?_⟩
  obtain ⟨-, hbyte⟩ := read_eq_ok_iff.1 (read_of_write h hk)
  simp only [hbyte, cells, List.getElem_map, List.getElem_range]

/-! ### Reading -/

theorem exists_slice_iff : (∃ found, m.slice a length = .ok found) ↔ a + length ≤ size := by
  simp only [slice_eq_ok_iff, exists_and_left, exists_eq, and_true]

/-- **A range is read as its cells are, one by one.** -/
theorem mapM_read_of_slice (h : m.slice a length = .ok found) :
    ((List.range length).mapM fun k ↦ m.read (a + k)) = .ok found := by
  obtain ⟨hend, rfl⟩ := slice_eq_ok_iff.1 h
  refine mapM_eq_ok_map fun k hk ↦ read_eq_ok_iff.2 ⟨?_, rfl⟩
  have hk := List.mem_range.1 hk
  omega

/-! ### Loading -/

theorem exists_load_iff : (∃ loaded, m.load program = .ok loaded) ↔ program.length ≤ capacity := by
  simp only [load_eq_ok_iff, exists_and_left, exists_eq, and_true]

theorem cell_of_load (h : m.load program = .ok loaded) {c : Nat} (hc : c < size) :
    loaded.cell c =
      if programStart ≤ c ∧ c < programStart + program.length then program.getD (c - programStart) 0
      else m.cell c := by
  obtain ⟨hfits, rfl⟩ := load_eq_ok_iff.1 h
  have hsize : size = programStart + capacity := by decide
  exact m.cell_place programStart program (by omega) hc

end Memory

/-! ### The law -/

namespace Machine

/-- **The law of memory**, for the memory of any machine. It says of writing, reading and loading when
they succeed, what the cells are afterwards, why they are refused, and that the procedure in place
comes to the same and leaves the machine as it was if it is refused. -/
theorem access_law (n : Machine) :
    let m := n.memory
    (∀ (a : Nat) (bytes : List UInt8), a + bytes.length < 2 ^ 64 →
      ((∃ written, m.write a bytes = .ok written) ↔ 0x200 ≤ a ∧ a + bytes.length ≤ 4096) ∧
        (∀ written, m.write a bytes = .ok written →
          (∀ c < 4096, written.cell c =
            if a ≤ c ∧ c < a + bytes.length then bytes.getD (c - a) 0 else m.cell c) ∧
            written.slice a bytes.length = .ok bytes ∧
              (∀ (k : Nat) (hk : k < bytes.length), written.read (a + k) = .ok bytes[k]) ∧
                (Trapping.write a bytes).on n = .ok (.ok ⟨⟩, { n with memory := written })) ∧
          ∀ fault, m.write a bytes = .error fault →
            (fault = if a < 0x200 then .reservedAddress a else .addressOutOfRange (max a 4096)) ∧
              (Trapping.write a bytes).on n = .ok (.error fault, n)) ∧
      (∀ a length : Nat, a + length < 2 ^ 64 →
        ((∃ found, m.slice a length = .ok found) ↔ a + length ≤ 4096) ∧
          (∀ found, m.slice a length = .ok found →
            ((List.range length).mapM fun k ↦ m.read (a + k)) = .ok found ∧
              (Trapping.slice a length).on n = .ok (.ok found, n)) ∧
            ∀ fault, m.slice a length = .error fault →
              fault = .addressOutOfRange (max a 4096) ∧
                (Trapping.slice a length).on n = .ok (.error fault, n)) ∧
        ∀ program : List UInt8, 0x200 + program.length < 2 ^ 64 →
          ((∃ loaded, m.load program = .ok loaded) ↔ program.length ≤ 3584) ∧
            (∀ loaded, m.load program = .ok loaded →
              (∀ c < 4096, loaded.cell c =
                if 0x200 ≤ c ∧ c < 0x200 + program.length then program.getD (c - 0x200) 0
                else m.cell c) ∧
                (Trapping.loadProgram program).on n = .ok (.ok ⟨⟩, { n with memory := loaded })) ∧
              ∀ fault, m.load program = .error fault →
                fault = .programTooLarge program.length 3584 ∧
                  (Trapping.loadProgram program).on n = .ok (.error fault, n) := by
  intro m
  refine ⟨fun a bytes hwidth ↦ ⟨Memory.exists_write_iff, fun written h ↦ ?_, fun fault h ↦ ?_⟩,
    fun a length hwidth ↦ ⟨Memory.exists_slice_iff, fun found h ↦ ?_, fun fault h ↦ ?_⟩,
    fun program hwidth ↦ ⟨Memory.exists_load_iff, fun loaded h ↦ ?_, fun fault h ↦ ?_⟩⟩
  · refine ⟨fun c hc ↦ Memory.cell_of_write h hc, Memory.slice_of_write h,
      fun k hk ↦ Memory.read_of_write h hk, ?_⟩
    rw [Trapping.on_write hwidth, h]
    rfl
  · refine ⟨Memory.fault_of_write h, ?_⟩
    rw [Trapping.on_write hwidth, h]
    rfl
  · refine ⟨Memory.mapM_read_of_slice h, ?_⟩
    rw [Trapping.on_slice hwidth, InPlace.on_look, h]
    rfl
  · refine ⟨(Memory.slice_eq_error_iff.1 h).2, ?_⟩
    rw [Trapping.on_slice hwidth, InPlace.on_look, h]
    rfl
  · refine ⟨fun c hc ↦ Memory.cell_of_load h hc, ?_⟩
    rw [Trapping.on_loadProgram hwidth, InPlace.on_loadProgram, h]
    rfl
  · refine ⟨(Memory.load_eq_error_iff.1 h).2, ?_⟩
    rw [Trapping.on_loadProgram hwidth, InPlace.on_loadProgram, h]
    rfl

/-- No bytes at all are written behind the last cell, and one is written to it. Four thousand bytes that
begin one cell too low are refused for that. No bytes at all are refused far behind the end, and so is
a program that is one byte too long. -/
theorem boundaries_of_memory :
    let n := powerOn .usual (.ofSeed 0)
    let long : List UInt8 := .replicate 4000 0
    (∃ written, n.memory.write 4096 [] = .ok written) ∧
      (∃ written, n.memory.write 0xFFF [7] = .ok written ∧ written.read 0xFFF = .ok 7) ∧
        (n.memory.write 0x1FF long = .error (.reservedAddress 0x1FF) ∧
          (Trapping.write 0x1FF long).on n = .ok (.error (.reservedAddress 0x1FF), n)) ∧
          (Trapping.slice 5000 0).on n = .ok (.error (.addressOutOfRange 5000), n) ∧
            ¬ ∃ loaded, n.memory.load (.replicate 3585 0) = .ok loaded := by
  intro n long
  obtain ⟨hwrite, hslice, hload⟩ := access_law n
  have hlong : 0x1FF + long.length < 2 ^ 64 := by
    rw [List.length_replicate]
    decide
  have hprogram : 0x200 + (List.replicate 3585 (0 : UInt8)).length < 2 ^ 64 := by
    rw [List.length_replicate]
    decide
  obtain ⟨written, hlast⟩ := (hwrite 0xFFF [7] (by decide)).1.2 (by decide)
  obtain ⟨-, -, hread, -⟩ := (hwrite 0xFFF [7] (by decide)).2.1 written hlast
  have hlow : n.memory.write 0x1FF long = .error (.reservedAddress 0x1FF) := if_pos (by decide)
  have hbehind : n.memory.slice 5000 0 = .error (.addressOutOfRange 5000) := if_neg (by decide)
  refine ⟨(hwrite 4096 [] (by decide)).1.2 (by decide), ⟨written, hlast, hread 0 (by decide)⟩,
    ⟨hlow, ((hwrite 0x1FF long hlong).2.2 _ hlow).2⟩,
    ((hslice 5000 0 (by decide)).2.2 _ hbehind).2, fun hfits ↦ ?_⟩
  have htooLong := (hload _ hprogram).1.1 hfits
  rw [List.length_replicate] at htooLong
  exact absurd htooLong (by decide)

end Machine

end ChipEight
