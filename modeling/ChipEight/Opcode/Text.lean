import ChipEight.Opcode.Encoding

/-!
# Instructions as text

An instruction is listed by its **name and its operands in the order they are written**. Two notations
share that description:

* a *listing*, `ALU x=1 y=2 op=Add`, for a reader of programs;
* a *record*, `ALU { x: u4(1), y: u4(2), op: Add }`, for the execution log, where digits and addresses
  carry the number of bits they have.

All numbers are decimal. A word that is no instruction is listed as `Invalid` with the word itself.
-/

namespace ChipEight

/-- One operand of an instruction. -/
inductive Operand where
  | digit (value : Digit)
  | byte (value : UInt8)
  | address (value : Address)
  | operation (value : Arithmetic)
  deriving DecidableEq, Repr

namespace Arithmetic

/-- The name an operation is listed under. -/
def name : Arithmetic → String
  | copy => "Set"
  | or => "Or"
  | and => "And"
  | xor => "Xor"
  | add => "Add"
  | subtract => "Sub"
  | shiftRight => "ShiftRight"
  | subtractFrom => "SubReverse"
  | shiftLeft => "ShiftLeft"

end Arithmetic

namespace Operand

/-- An operand as a bare value. -/
def plain : Operand → String
  | digit value => toString value.val
  | byte value => toString value.toNat
  | address value => toString value.val
  | operation value => value.name

/-- An operand with its width, where that is not eight bits. -/
def sized : Operand → String
  | digit value => s!"u4({value.val})"
  | address value => s!"u12({value.val})"
  | operand => operand.plain

end Operand

namespace Opcode

/-- The name an instruction is listed under. -/
def name : Opcode → String
  | clearScreen => "ClearDisplay"
  | ret => "Return"
  | jump _ => "Jump"
  | jumpOffset _ => "JumpWithOffset"
  | call _ => "Call"
  | skip (.equalsByte ..) => "SkipRegEqualImm"
  | skip (.differsFromByte ..) => "SkipRegNotEqualImm"
  | skip (.equalsRegister ..) => "SkipRegEqualReg"
  | skip (.differsFromRegister ..) => "SkipRegNotEqualReg"
  | skip (.keyHeld _) => "SkipIfPressed"
  | skip (.keyReleased _) => "SkipIfNotPressed"
  | setByte .. => "SetRegImm"
  | addByte .. => "AddRegImm"
  | arithmetic .. => "ALU"
  | random .. => "Random"
  | setIndex _ => "SetIndexImm"
  | addIndex _ => "AddIndexReg"
  | pointGlyph _ => "FontChar"
  | draw .. => "Draw"
  | awaitKey _ => "WaitForKey"
  | readDelay _ => "ReadDelayTimer"
  | setDelay _ => "SetDelayTimer"
  | setSound _ => "SetSoundTimer"
  | storeDecimal _ => "BCD"
  | storeRegisters _ => "StoreRegs"
  | loadRegisters _ => "LoadRegs"

/-- The operands of an instruction with their labels, in the order they are listed. -/
def operands : Opcode → List (String × Operand)
  | clearScreen | ret => []
  | jump nnn | jumpOffset nnn | call nnn | setIndex nnn => [("nnn", .address nnn)]
  | skip (.equalsByte x nn) | skip (.differsFromByte x nn) | setByte x nn | addByte x nn
  | random x nn => [("x", .digit x), ("nn", .byte nn)]
  | skip (.equalsRegister x y) | skip (.differsFromRegister x y) =>
    [("x", .digit x), ("y", .digit y)]
  | arithmetic op x y => [("x", .digit x), ("y", .digit y), ("op", .operation op)]
  | draw x y n => [("x", .digit x), ("y", .digit y), ("n", .digit n)]
  | skip (.keyHeld x) | skip (.keyReleased x) | addIndex x | pointGlyph x | awaitKey x
  | readDelay x | setDelay x | setSound x | storeDecimal x | storeRegisters x
  | loadRegisters x => [("x", .digit x)]

/-- An instruction as a listing: its name, then each operand after its label. -/
def listing (op : Opcode) : String :=
  String.intercalate " " (op.name :: op.operands.map fun (label, value) ↦ label ++ "=" ++ value.plain)

/-- An instruction as a record: its name, and its operands in braces if it has any. -/
def record (op : Opcode) : String :=
  match op.operands with
  | [] => op.name
  | operands =>
    op.name ++ " \x7b "
      ++ String.intercalate ", " (operands.map fun (label, value) ↦ label ++ ": " ++ value.sized)
      ++ " \x7d"

end Opcode

namespace Word

/-- A word listed as the instruction it reads as. -/
def listing (w : Word) : String :=
  match Opcode.decode? w with
  | some op => op.listing
  | none => s!"Invalid {w.toNat}"

end Word

end ChipEight
