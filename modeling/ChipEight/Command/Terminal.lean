/-!
# Text without terminal control

A message can quote what was typed, and what was typed can hold control characters and whole control
sequences, which would take effect on the terminal of whoever reads the message. `Terminal.printable`
leaves them out.

**What a control sequence is** is a question of its form, whether or not it means anything:

| begins with          | ends with                                                        |
|----------------------|------------------------------------------------------------------|
| escape               | the first character from `0` to `~`                              |
| escape `[`           | the first character from `@` to `~`                              |
| escape `]`           | a bell                                                           |
| escape `P`           | once its head is over, a character with byte `0x9C` in its code  |
| escape `X`, `^`, `_` | a character with byte `0x9C` in its code                         |

Another escape ends any of them and begins the next, and the characters cancel and substitute end any of
them for good. The codes meant are those of UTF-8.

**Blanks are kept.** Tabs and the characters that end lines or pages are text. Inside one of the first
two forms such a blank lets text through again, up to the next control character, where the sequence
goes on; unless a character beyond ASCII has come by, which makes it forgotten.
-/

namespace ChipEight.Terminal

/-- What a reader of terminal text is in the middle of. -/
inductive Mode where
  | text
  /-- Behind an escape. -/
  | escape
  /-- Behind an escape and a character that does not yet end the sequence. -/
  | escapeLong
  /-- Behind escape `[`. -/
  | control
  /-- At the head of a sequence that began with escape `P`. -/
  | deviceHead
  /-- At the numbers of such a head. -/
  | deviceNumbers
  /-- At what comes behind the numbers. -/
  | deviceLate
  /-- In the body of such a sequence. -/
  | device
  /-- Behind escape `X`, `^` or `_`. -/
  | message
  /-- Behind escape `]`. -/
  | system
  deriving DecidableEq, Repr

/-- Whether a character is a control character of ASCII, the deletion included. -/
def isControl (c : Char) : Bool := decide (c.toNat < 0x20) || decide (c.toNat = 0x7F)

/-- Whether a control character is text nevertheless. -/
def isBlank (c : Char) : Bool := c == '\t' || c == '\n' || c == '\x0c' || c == '\r'

/-- Whether a character is text where no sequence has begun. -/
def isText (c : Char) : Bool := !isControl c || isBlank c

/-- Whether a character ends the body of a sequence by one of its bytes. -/
def isTerminator (c : Char) : Bool := (String.utf8EncodeChar c).contains 0x9C

namespace Mode

/-- Whether a character is written. -/
def writes (c : Char) : Mode → Bool
  | text => isText c
  | escape | escapeLong | control => isBlank c
  | deviceHead | deviceNumbers | deviceLate | device | message | system => false

/-- What a reader is in the middle of behind an escape and another character. -/
def afterEscape (c : Char) : Mode :=
  if c.toNat < 0x30 then escapeLong
  else
    match c with
    | '[' => control
    | ']' => system
    | 'P' => deviceHead
    | 'X' | '^' | '_' => message
    | _ => text

/-- What a reader is in the middle of after a character. -/
def next (c : Char) (mode : Mode) : Mode :=
  let n := c.toNat
  if n = 0x1B then escape
  else if n = 0x18 ∨ n = 0x1A then text
  else
    match mode with
    | text => text
    | escape => if 0x20 ≤ n ∧ n ≤ 0x7E then afterEscape c else escape
    | escapeLong => if 0x30 ≤ n ∧ n ≤ 0x7E then text else escapeLong
    | control => if 0x40 ≤ n ∧ n ≤ 0x7E then text else control
    | deviceHead =>
      if n < 0x20 ∨ 0x7E < n then deviceHead
      else if n < 0x30 then deviceLate
      else if n < 0x40 then deviceNumbers
      else device
    | deviceNumbers =>
      if n < 0x20 ∨ 0x7E < n then deviceNumbers
      else if n < 0x30 then deviceLate
      else if n < 0x3C then deviceNumbers
      else device
    | deviceLate => if n < 0x30 ∨ 0x7E < n then deviceLate else device
    | device => if isTerminator c then text else device
    | message => if isTerminator c then text else message
    | system => if n = 0x07 then text else system

end Mode

/-- What of some characters is written. While text comes through, nothing is taken for part of a
sequence. -/
def strip (mode : Mode) (through : Bool) : List Char → List Char
  | [] => []
  | c :: cs =>
    if through && isText c then c :: strip (if c.toNat < 0x80 then mode else .text) true cs
    else if mode.writes c then c :: strip (mode.next c) true cs
    else strip (mode.next c) false cs

/-- A text without control characters and control sequences. -/
def printable (text : String) : String := String.ofList (strip .text false text.toList)

end ChipEight.Terminal
