import ChipEight.Opcode.Basic
import ChipEight.Opcode.Word

/-!
# The encoding of instructions

Each instruction is written as exactly one word, and a word is read as the instruction written that
way, if there is one. `decode?` sorts by the first digit and then by whatever the kind leaves open;
`encode` is the instruction table read from the other side.

**Main statement**: `decode?_eq_some_iff`, reading and writing are inverse. So no two instructions
share a word, every word that reads as an instruction is written back as itself, and the words that
read as nothing are exactly those that nothing is written as.
-/

namespace ChipEight

namespace Arithmetic

/-- The last digit of the word of an operation. -/
def code : Arithmetic → Digit
  | copy => 0x0
  | or => 0x1
  | and => 0x2
  | xor => 0x3
  | add => 0x4
  | subtract => 0x5
  | shiftRight => 0x6
  | subtractFrom => 0x7
  | shiftLeft => 0xE

/-- The operation with the given last digit. -/
def ofCode? (n : Digit) : Option Arithmetic :=
  match n with
  | 0x0 => some copy
  | 0x1 => some or
  | 0x2 => some and
  | 0x3 => some xor
  | 0x4 => some add
  | 0x5 => some subtract
  | 0x6 => some shiftRight
  | 0x7 => some subtractFrom
  | 0xE => some shiftLeft
  | _ => none

theorem ofCode?_eq_some_iff {n : Digit} {op : Arithmetic} : ofCode? n = some op ↔ op.code = n := by
  revert n op
  intro n op
  constructor
  · revert n; cases op <;> decide
  · rintro rfl; cases op <;> rfl

end Arithmetic

namespace Opcode

/-- The word of an instruction. -/
def encode : Opcode → Word
  | clearScreen => 0x00E0
  | ret => 0x00EE
  | jump target => .ofAddress 0x1 target
  | call target => .ofAddress 0x2 target
  | skip (.equalsByte x nn) => .ofByte 0x3 x nn
  | skip (.differsFromByte x nn) => .ofByte 0x4 x nn
  | skip (.equalsRegister x y) => .ofDigits 0x5 x y 0x0
  | setByte x nn => .ofByte 0x6 x nn
  | addByte x nn => .ofByte 0x7 x nn
  | arithmetic op x y => .ofDigits 0x8 x y op.code
  | skip (.differsFromRegister x y) => .ofDigits 0x9 x y 0x0
  | setIndex target => .ofAddress 0xA target
  | jumpOffset base => .ofAddress 0xB base
  | random x mask => .ofByte 0xC x mask
  | draw x y n => .ofDigits 0xD x y n
  | skip (.keyHeld x) => .ofByte 0xE x 0x9E
  | skip (.keyReleased x) => .ofByte 0xE x 0xA1
  | readDelay x => .ofByte 0xF x 0x07
  | awaitKey x => .ofByte 0xF x 0x0A
  | setDelay x => .ofByte 0xF x 0x15
  | setSound x => .ofByte 0xF x 0x18
  | addIndex x => .ofByte 0xF x 0x1E
  | pointGlyph x => .ofByte 0xF x 0x29
  | storeDecimal x => .ofByte 0xF x 0x33
  | storeRegisters x => .ofByte 0xF x 0x55
  | loadRegisters x => .ofByte 0xF x 0x65

/-- The instructions about the keys held, kind `E`, by their last two digits. -/
def keyInstruction? (x : Digit) (nn : UInt8) : Option Opcode :=
  match nn.toNat with
  | 0x9E => some (skip (.keyHeld x))
  | 0xA1 => some (skip (.keyReleased x))
  | _ => none

/-- The instructions on a single register, kind `F`, by their last two digits. -/
def registerInstruction? (x : Digit) (nn : UInt8) : Option Opcode :=
  match nn.toNat with
  | 0x07 => some (readDelay x)
  | 0x0A => some (awaitKey x)
  | 0x15 => some (setDelay x)
  | 0x18 => some (setSound x)
  | 0x1E => some (addIndex x)
  | 0x29 => some (pointGlyph x)
  | 0x33 => some (storeDecimal x)
  | 0x55 => some (storeRegisters x)
  | 0x65 => some (loadRegisters x)
  | _ => none

/-- The instruction a word is read as, if it is one. -/
def decode? (w : Word) : Option Opcode :=
  match w.kind with
  | 0x0 => if w = 0x00E0 then some clearScreen else if w = 0x00EE then some ret else none
  | 0x1 => some (jump w.nnn)
  | 0x2 => some (call w.nnn)
  | 0x3 => some (skip (.equalsByte w.x w.nn))
  | 0x4 => some (skip (.differsFromByte w.x w.nn))
  | 0x5 => if w.n = 0 then some (skip (.equalsRegister w.x w.y)) else none
  | 0x6 => some (setByte w.x w.nn)
  | 0x7 => some (addByte w.x w.nn)
  | 0x8 => (Arithmetic.ofCode? w.n).map fun op ↦ arithmetic op w.x w.y
  | 0x9 => if w.n = 0 then some (skip (.differsFromRegister w.x w.y)) else none
  | 0xA => some (setIndex w.nnn)
  | 0xB => some (jumpOffset w.nnn)
  | 0xC => some (random w.x w.nn)
  | 0xD => some (draw w.x w.y w.n)
  | 0xE => keyInstruction? w.x w.nn
  | _ => registerInstruction? w.x w.nn

/-! ### Reading and writing are inverse -/

/-- A word is put together again from its kind, its register and the number its byte stands for. -/
theorem ofByte_of_toNat_nn {w : Word} {kind : Digit} {nn : UInt8} (hk : w.kind = kind)
    (hn : w.nn.toNat = nn.toNat) : Word.ofByte kind w.x nn = w := by
  rw [← hk, ← UInt8.toNat_inj.1 hn]
  exact w.ofByte_fields

theorem encode_of_keyInstruction? {w : Word} {op : Opcode} (hk : w.kind = 0xE)
    (h : keyInstruction? w.x w.nn = some op) : op.encode = w := by
  unfold keyInstruction? at h
  split at h
  case h_3 => simp at h
  all_goals
    rename_i hn
    obtain rfl := Option.some.inj h
    exact ofByte_of_toNat_nn hk hn

theorem encode_of_registerInstruction? {w : Word} {op : Opcode} (hk : w.kind = 0xF)
    (h : registerInstruction? w.x w.nn = some op) : op.encode = w := by
  unfold registerInstruction? at h
  split at h
  case h_10 => simp at h
  all_goals
    rename_i hn
    obtain rfl := Option.some.inj h
    exact ofByte_of_toNat_nn hk hn

/-- A word that reads as an instruction is that instruction's word. -/
theorem encode_of_decode? {w : Word} {op : Opcode} (h : decode? w = some op) : op.encode = w := by
  have digits := w.ofDigits_fields
  have byte := w.ofByte_fields
  have address := w.ofAddress_fields
  unfold decode? at h
  split at h
  case h_1 =>
    split at h
    · rename_i hw; obtain rfl := Option.some.inj h; exact hw.symm
    · split at h
      · rename_i hw; obtain rfl := Option.some.inj h; exact hw.symm
      · simp at h
  case h_6 hk | h_10 hk =>
    split at h
    · rename_i hn; obtain rfl := Option.some.inj h; rw [hk, hn] at digits; exact digits
    · simp at h
  case h_9 hk =>
    obtain ⟨a, ha, rfl⟩ := Option.map_eq_some_iff.1 h
    rw [hk, ← Arithmetic.ofCode?_eq_some_iff.1 ha] at digits
    exact digits
  case h_15 hk => exact encode_of_keyInstruction? hk h
  case h_16 =>
    refine encode_of_registerInstruction? ?_ h
    have := w.kind.isLt
    simp only [imp_false, Fin.ext_iff] at *
    omega
  all_goals
    rename_i hk
    obtain rfl := Option.some.inj h
    rw [hk] at digits byte address
    first | exact address | exact byte | exact digits

/-- What is read off a word with a kind and an address. -/
theorem decode?_ofAddress (t : Address) :
    decode? (.ofAddress 0x1 t) = some (jump t) ∧ decode? (.ofAddress 0x2 t) = some (call t) ∧
      decode? (.ofAddress 0xA t) = some (setIndex t) ∧
        decode? (.ofAddress 0xB t) = some (jumpOffset t) := by
  refine ⟨?_, ?_, ?_, ?_⟩ <;>
    rw [decode?, (Word.fields_ofAddress _ t).1, (Word.fields_ofAddress _ t).2] <;> rfl

/-- What is read off a word with a kind, a register and a byte, where the byte is free. -/
theorem decode?_ofByte (x : Digit) (nn : UInt8) :
    decode? (.ofByte 0x3 x nn) = some (skip (.equalsByte x nn)) ∧
      decode? (.ofByte 0x4 x nn) = some (skip (.differsFromByte x nn)) ∧
        decode? (.ofByte 0x6 x nn) = some (setByte x nn) ∧
          decode? (.ofByte 0x7 x nn) = some (addByte x nn) ∧
            decode? (.ofByte 0xC x nn) = some (random x nn) ∧
              decode? (.ofByte 0xE x nn) = keyInstruction? x nn ∧
                decode? (.ofByte 0xF x nn) = registerInstruction? x nn := by
  refine ⟨?_, ?_, ?_, ?_, ?_, ?_, ?_⟩ <;>
    rw [decode?, (Word.fields_ofByte _ x nn).1, (Word.fields_ofByte _ x nn).2.1,
      (Word.fields_ofByte _ x nn).2.2] <;> rfl

/-- What is read off a word with a kind, two registers and a digit. -/
theorem decode?_ofDigits (x y n : Digit) :
    decode? (.ofDigits 0x5 x y 0) = some (skip (.equalsRegister x y)) ∧
      decode? (.ofDigits 0x9 x y 0) = some (skip (.differsFromRegister x y)) ∧
        decode? (.ofDigits 0x8 x y n) = (Arithmetic.ofCode? n).map (arithmetic · x y) ∧
          decode? (.ofDigits 0xD x y n) = some (draw x y n) := by
  refine ⟨?_, ?_, ?_, ?_⟩
  all_goals
    rw [decode?, (Word.fields_ofDigits _ x y _).1, (Word.fields_ofDigits _ x y _).2.1,
      (Word.fields_ofDigits _ x y _).2.2.1]
    try rw [(Word.fields_ofDigits _ x y _).2.2.2]
    rfl

/-- The word of an instruction reads as that instruction. -/
theorem decode?_encode (op : Opcode) : decode? op.encode = some op := by
  cases op with
  | clearScreen => rfl
  | ret => rfl
  | jump t => exact (decode?_ofAddress t).1
  | call t => exact (decode?_ofAddress t).2.1
  | setIndex t => exact (decode?_ofAddress t).2.2.1
  | jumpOffset t => exact (decode?_ofAddress t).2.2.2
  | skip c =>
    cases c with
    | equalsByte x nn => exact (decode?_ofByte x nn).1
    | differsFromByte x nn => exact (decode?_ofByte x nn).2.1
    | equalsRegister x y => exact (decode?_ofDigits x y 0).1
    | differsFromRegister x y => exact (decode?_ofDigits x y 0).2.1
    | keyHeld x => exact (decode?_ofByte x 0x9E).2.2.2.2.2.1
    | keyReleased x => exact (decode?_ofByte x 0xA1).2.2.2.2.2.1
  | setByte x nn => exact (decode?_ofByte x nn).2.2.1
  | addByte x nn => exact (decode?_ofByte x nn).2.2.2.1
  | random x nn => exact (decode?_ofByte x nn).2.2.2.2.1
  | draw x y n => exact (decode?_ofDigits x y n).2.2.2
  | arithmetic op x y =>
    rw [encode, (decode?_ofDigits x y op.code).2.2.1, Arithmetic.ofCode?_eq_some_iff.2 rfl]
    rfl
  | readDelay x => exact (decode?_ofByte x 0x07).2.2.2.2.2.2
  | awaitKey x => exact (decode?_ofByte x 0x0A).2.2.2.2.2.2
  | setDelay x => exact (decode?_ofByte x 0x15).2.2.2.2.2.2
  | setSound x => exact (decode?_ofByte x 0x18).2.2.2.2.2.2
  | addIndex x => exact (decode?_ofByte x 0x1E).2.2.2.2.2.2
  | pointGlyph x => exact (decode?_ofByte x 0x29).2.2.2.2.2.2
  | storeDecimal x => exact (decode?_ofByte x 0x33).2.2.2.2.2.2
  | storeRegisters x => exact (decode?_ofByte x 0x55).2.2.2.2.2.2
  | loadRegisters x => exact (decode?_ofByte x 0x65).2.2.2.2.2.2

/-- **Reading and writing are inverse**: a word reads as an instruction exactly when it is the word of
that instruction. -/
theorem decode?_eq_some_iff {w : Word} {op : Opcode} : decode? w = some op ↔ op.encode = w :=
  ⟨encode_of_decode?, fun h ↦ h ▸ decode?_encode op⟩

end Opcode

end ChipEight
