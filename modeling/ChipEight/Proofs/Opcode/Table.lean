import ChipEight.Opcode.Encoding

/-!
# The instruction table

The instruction set as it is documented: one **row** for each instruction, showing which digits of its
words are fixed and which are free. There are thirty-four rows of four shapes, and a row says nothing
about what the instruction does.

**Main statement**: `isSome_decode?_iff`, a word reads as an instruction exactly when some row of the
table matches it. Reading sorts words by digits and the table does not, so each is a check on the
other: no word is read that the table does not list, and none it lists is left unread.
-/

namespace ChipEight

/-- A row of the instruction table, by the digits that its words have in common. -/
inductive Row where
  /-- All four digits are fixed, as in `00E0`. -/
  | word (word : Word)
  /-- The first digit is fixed, as in `6XNN`. -/
  | kind (kind : Digit)
  /-- The first and the last digit are fixed, as in `5XY0`. -/
  | last (kind n : Digit)
  /-- The first digit and the last two are fixed, as in `FX33`. -/
  | byte (kind : Digit) (nn : UInt8)
  deriving DecidableEq, Repr

namespace Row

/-- Whether a word has the digits a row asks for. -/
def Matches (w : Word) : Row → Prop
  | word v => w = v
  | kind k => w.kind = k
  | last k n => w.kind = k ∧ w.n = n
  | byte k nn => w.kind = k ∧ w.nn = nn

instance (w : Word) : (row : Row) → Decidable (row.Matches w)
  | word v => inferInstanceAs (Decidable (w = v))
  | kind k => inferInstanceAs (Decidable (w.kind = k))
  | last k n => inferInstanceAs (Decidable (w.kind = k ∧ w.n = n))
  | byte k nn => inferInstanceAs (Decidable (w.kind = k ∧ w.nn = nn))

/-- The instruction table, in the order of the words. -/
def table : List Row :=
  [word 0x00E0, word 0x00EE,
   kind 0x1, kind 0x2, kind 0x3, kind 0x4, last 0x5 0x0, kind 0x6, kind 0x7,
   last 0x8 0x0, last 0x8 0x1, last 0x8 0x2, last 0x8 0x3, last 0x8 0x4, last 0x8 0x5, last 0x8 0x6,
   last 0x8 0x7, last 0x8 0xE,
   last 0x9 0x0, kind 0xA, kind 0xB, kind 0xC, kind 0xD,
   byte 0xE 0x9E, byte 0xE 0xA1,
   byte 0xF 0x07, byte 0xF 0x0A, byte 0xF 0x15, byte 0xF 0x18, byte 0xF 0x1E, byte 0xF 0x29,
   byte 0xF 0x33, byte 0xF 0x55, byte 0xF 0x65]

end Row

namespace Opcode

/-- The row of an instruction. -/
def row : Opcode → Row
  | clearScreen => .word 0x00E0
  | ret => .word 0x00EE
  | jump _ => .kind 0x1
  | call _ => .kind 0x2
  | skip (.equalsByte ..) => .kind 0x3
  | skip (.differsFromByte ..) => .kind 0x4
  | skip (.equalsRegister ..) => .last 0x5 0x0
  | setByte .. => .kind 0x6
  | addByte .. => .kind 0x7
  | arithmetic op _ _ => .last 0x8 op.code
  | skip (.differsFromRegister ..) => .last 0x9 0x0
  | setIndex _ => .kind 0xA
  | jumpOffset _ => .kind 0xB
  | random .. => .kind 0xC
  | draw .. => .kind 0xD
  | skip (.keyHeld _) => .byte 0xE 0x9E
  | skip (.keyReleased _) => .byte 0xE 0xA1
  | readDelay _ => .byte 0xF 0x07
  | awaitKey _ => .byte 0xF 0x0A
  | setDelay _ => .byte 0xF 0x15
  | setSound _ => .byte 0xF 0x18
  | addIndex _ => .byte 0xF 0x1E
  | pointGlyph _ => .byte 0xF 0x29
  | storeDecimal _ => .byte 0xF 0x33
  | storeRegisters _ => .byte 0xF 0x55
  | loadRegisters _ => .byte 0xF 0x65

/-- Every instruction has its row in the table. -/
theorem row_mem_table (op : Opcode) : op.row ∈ Row.table := by
  cases op with
  | skip condition => cases condition <;> simp [row, Row.table]
  | arithmetic op => cases op <;> simp [row, Row.table, Arithmetic.code]
  | _ => simp [row, Row.table]

/-- The word of an instruction has the digits its row asks for. -/
theorem matches_row_encode (op : Opcode) : op.row.Matches op.encode := by
  cases op with
  | clearScreen | ret => rfl
  | jump t | call t | setIndex t | jumpOffset t => exact (Word.fields_ofAddress _ t).1
  | setByte x nn | addByte x nn | random x nn => exact (Word.fields_ofByte _ x nn).1
  | draw x y n => exact (Word.fields_ofDigits _ x y n).1
  | arithmetic op x y =>
    exact ⟨(Word.fields_ofDigits _ x y _).1, (Word.fields_ofDigits _ x y _).2.2.2⟩
  | skip condition =>
    cases condition with
    | equalsByte x nn | differsFromByte x nn => exact (Word.fields_ofByte _ x nn).1
    | equalsRegister x y | differsFromRegister x y =>
      exact ⟨(Word.fields_ofDigits _ x y _).1, (Word.fields_ofDigits _ x y _).2.2.2⟩
    | keyHeld x | keyReleased x =>
      exact ⟨(Word.fields_ofByte _ x _).1, (Word.fields_ofByte _ x _).2.2⟩
  | readDelay x | awaitKey x | setDelay x | setSound x | addIndex x | pointGlyph x
  | storeDecimal x | storeRegisters x | loadRegisters x =>
    exact ⟨(Word.fields_ofByte _ x _).1, (Word.fields_ofByte _ x _).2.2⟩

/-- A word that reads as an instruction matches its row. -/
theorem matches_row_of_decode? {w : Word} {op : Opcode} (h : decode? w = some op) :
    op.row.Matches w := by
  obtain rfl := decode?_eq_some_iff.1 h
  exact op.matches_row_encode

/-- What a word of the last kind reads as is a matter of its register and its last two digits. -/
theorem decode?_of_matches_register {w : Word} {nn : UInt8} (h : (Row.byte 0xF nn).Matches w) :
    decode? w = registerInstruction? w.x nn := by
  obtain ⟨hk, rfl⟩ := h
  simp [decode?, hk]

/-! ### Nothing in the table is left unread -/

/-- A word that some row of the table matches reads as an instruction of that row. -/
theorem exists_decode?_of_matches {row : Row} (hrow : row ∈ Row.table) {w : Word}
    (h : row.Matches w) : ∃ op, decode? w = some op ∧ op.row = row := by
  simp only [Row.table, List.mem_cons, List.not_mem_nil, or_false] at hrow
  -- By the shape of the row: of the whole table only the rows of that shape are left in `hrow`, and
  -- each of them fixes the digits that reading looks at.
  cases row with
  | word v =>
    simp only [Row.word.injEq, reduceCtorEq, or_false] at hrow
    obtain rfl : w = v := h
    rcases hrow with rfl | rfl <;> exact ⟨_, rfl, rfl⟩
  | kind k =>
    simp only [Row.kind.injEq, reduceCtorEq, or_false, false_or] at hrow
    have hk : w.kind = k := h
    rcases hrow with rfl | rfl | rfl | rfl | rfl | rfl | rfl | rfl | rfl | rfl <;>
      simp [decode?, hk, Opcode.row]
  | last k n =>
    simp only [Row.last.injEq, reduceCtorEq, or_false, false_or] at hrow
    obtain ⟨hk, hn⟩ := h
    rcases hrow with ⟨rfl, rfl⟩ | ⟨rfl, rfl⟩ | ⟨rfl, rfl⟩ | ⟨rfl, rfl⟩ | ⟨rfl, rfl⟩ | ⟨rfl, rfl⟩ |
        ⟨rfl, rfl⟩ | ⟨rfl, rfl⟩ | ⟨rfl, rfl⟩ | ⟨rfl, rfl⟩ | ⟨rfl, rfl⟩ <;>
      simp [decode?, hk, hn, Arithmetic.ofCode?, Opcode.row, Arithmetic.code]
  | byte k nn =>
    simp only [Row.byte.injEq, reduceCtorEq, false_or] at hrow
    obtain ⟨hk, hn⟩ := h
    rcases hrow with ⟨rfl, rfl⟩ | ⟨rfl, rfl⟩ | ⟨rfl, rfl⟩ | ⟨rfl, rfl⟩ | ⟨rfl, rfl⟩ | ⟨rfl, rfl⟩ |
        ⟨rfl, rfl⟩ | ⟨rfl, rfl⟩ | ⟨rfl, rfl⟩ | ⟨rfl, rfl⟩ | ⟨rfl, rfl⟩ <;>
      simp [decode?, hk, hn, keyInstruction?, registerInstruction?, Opcode.row]

/-- **No word is in two rows of the table**: the instruction it reads as has the row that matches. -/
theorem row_eq_of_matches {w : Word} {op : Opcode} (reads : decode? w = some op) {row : Row}
    (hrow : row ∈ Row.table) (h : row.Matches w) : op.row = row := by
  obtain ⟨op', hop', rfl⟩ := exists_decode?_of_matches hrow h
  rw [Option.some.inj (reads.symm.trans hop')]

/-- **The table lists exactly the words that read as instructions.** -/
theorem isSome_decode?_iff {w : Word} : (decode? w).isSome ↔ ∃ row ∈ Row.table, row.Matches w := by
  constructor
  · intro h
    obtain ⟨op, hop⟩ := Option.isSome_iff_exists.1 h
    exact ⟨op.row, op.row_mem_table, matches_row_of_decode? hop⟩
  · rintro ⟨row, hrow, h⟩
    obtain ⟨op, hop, -⟩ := exists_decode?_of_matches hrow h
    exact Option.isSome_iff_exists.2 ⟨op, hop⟩

/-- A word reads as nothing exactly when no row of the table matches it. -/
theorem decode?_eq_none_iff {w : Word} :
    decode? w = none ↔ ∀ row ∈ Row.table, ¬ row.Matches w := by
  rw [← Option.not_isSome_iff_eq_none, isSome_decode?_iff]
  simp

end Opcode

end ChipEight
