import ChipEight.Digit

/-!
# The keypad

Sixteen keys. A program can ask whether a key is held down at this moment, and it can wait for a key
to be **pressed**, which is a different thing: a press is the change from released to held. Presses
are latched as they happen, so a key that is tapped and let go between two cycles is not lost, and a
key that was down all along never counts as pressed.

Sets of keys are sixteen bits, bit `k` standing for key `k`.
-/

namespace ChipEight

/-- A set of keys. -/
structure KeySet where
  mask : BitVec 16
  deriving DecidableEq, Repr

namespace KeySet

/-- No key. -/
def empty : KeySet := ⟨0⟩

variable (s : KeySet)

/-- Whether a key is in the set. -/
def has (k : Digit) : Bool := s.mask.getLsbD k.val

/-- The set with one key added. -/
def insert (k : Digit) : KeySet := ⟨s.mask ||| BitVec.twoPow 16 k.val⟩

/-- The set with one key removed. -/
def erase (k : Digit) : KeySet := ⟨s.mask &&& ~~~(BitVec.twoPow 16 k.val)⟩

/-- The smallest key in the set. -/
def least? : Option Digit := (List.finRange 16).find? s.has

@[simp] theorem has_empty (k : Digit) : empty.has k = false := by
  simp [empty, has]

@[simp] theorem has_insert (k j : Digit) : (s.insert k).has j = (s.has j || decide (j = k)) := by
  simp [insert, has, Fin.ext_iff, eq_comm]

@[simp] theorem has_erase (k j : Digit) : (s.erase k).has j = (s.has j && decide (j ≠ k)) := by
  simp [erase, has, Fin.ext_iff, eq_comm]

/-- Sets with the same keys are the same set. -/
theorem ext_has {s t : KeySet} (h : ∀ k, s.has k = t.has k) : s = t := by
  cases s; cases t
  congr 1
  refine BitVec.eq_of_getLsbD_eq fun i hi ↦ ?_
  exact h ⟨i, hi⟩

theorem least?_eq_none_iff : s.least? = none ↔ ∀ k, s.has k = false := by
  simp [least?]

/-- The smallest key is in the set, and no smaller one is. -/
theorem least?_eq_some_iff {k : Digit} :
    s.least? = some k ↔ s.has k = true ∧ ∀ j < k, s.has j = false := by
  rw [least?, List.find?_eq_some_iff_getElem]
  simp only [List.getElem_finRange, Fin.ext_iff]
  constructor
  · rintro ⟨h, i, hi, hik, below⟩
    have hik : i = k.val := by simpa using hik
    refine ⟨h, fun j hj ↦ ?_⟩
    have := below j.val (hik ▸ hj)
    simpa using this
  · rintro ⟨h, below⟩
    refine ⟨h, k.val, by simp, by simp, fun j hj ↦ ?_⟩
    simpa using below ⟨j, by omega⟩ hj

end KeySet

/-- The keys held down, and the presses nobody has asked about yet. -/
structure Keypad where
  held : KeySet
  latched : KeySet
  deriving DecidableEq, Repr

namespace Keypad

/-- Nothing held, nothing latched. -/
def released : Keypad := ⟨.empty, .empty⟩

variable (p : Keypad)

/-- Whether a key is held down. -/
def isHeld (k : Digit) : Bool := p.held.has k

/-- Press or release a key. Only a change from released to held is a press; repeating a press of a
held key latches nothing. -/
def set (k : Digit) (down : Bool) : Keypad :=
  { held := if down then p.held.insert k else p.held.erase k
    latched := if down && !p.isHeld k then p.latched.insert k else p.latched }

/-- Forget every latched press. -/
def clearPresses : Keypad := { p with latched := .empty }

/-- Take the smallest latched press, leaving the others. -/
def takePress : Option (Digit × Keypad) :=
  p.latched.least?.map fun k ↦ (k, { p with latched := p.latched.erase k })

@[simp] theorem isHeld_set (k j : Digit) (down : Bool) :
    (p.set k down).isHeld j = if j = k then down else p.isHeld j := by
  cases down <;> by_cases h : j = k <;> simp [set, isHeld, h]

/-- A key is latched by going down, and by nothing else. -/
theorem has_latched_set (k j : Digit) (down : Bool) :
    (p.set k down).latched.has j
      = (p.latched.has j || (decide (j = k) && down && !p.isHeld k)) := by
  cases down <;> cases h : p.isHeld k <;> simp [set, h]

end Keypad

end ChipEight
