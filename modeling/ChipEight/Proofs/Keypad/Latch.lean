import ChipEight.Proofs.Machine.Checked
import ChipEight.Proofs.Machine.Moments

/-!
# What a keypad remembers

A keypad keeps two sets of sixteen bits, and everything it is asked is answered from them. What they
are has to be said of all that was ever done to it. A key is **held** as it was last set since the last
reset. A key is **latched** if it was pressed, that is, went down and was not held, after it was last
**forgotten**: everything is forgotten by a reset and when the presses are cleared, and a single key
when it is taken.

Taking gives the smallest latched key and forgets no other. So to take again and again gives every
latched key once, in ascending order, and then none (`take_all`). And a press is neither lost nor given
twice: a latched key stays so until it is taken, unless everything is forgotten (`latched_or_taken`),
and between two takes that give a key it is pressed (`pressed_between`). The last two are read off
`has_latched_run`, which says it for every keypad to begin with.

**Main statement**: `run_released_remembers`.
-/

namespace ChipEight

namespace KeySet

variable {s : KeySet} {k : Digit} {keys : List Digit}

/-- The keys of a set, in ascending order. -/
structure Lists (s : KeySet) (keys : List Digit) : Prop where
  ascending : keys.Pairwise (· < ·)
  mem_iff : ∀ k, k ∈ keys ↔ s.has k = true

theorem exists_lists (s : KeySet) : ∃ keys, s.Lists keys :=
  ⟨(List.finRange 16).filter s.has, (List.pairwise_lt_finRange 16).filter _, fun k ↦ by simp⟩

theorem Lists.eq_empty (h : s.Lists []) : s = .empty :=
  ext_has fun k ↦ (Bool.eq_false_iff.2 fun hk ↦ List.not_mem_nil ((h.mem_iff k).2 hk)).trans
    (has_empty k).symm

/-- The first key of a set is the smallest one. -/
theorem Lists.least?_eq (h : s.Lists (k :: keys)) : s.least? = some k := by
  refine s.least?_eq_some_iff.2 ⟨(h.mem_iff k).1 List.mem_cons_self, fun j hj ↦ ?_⟩
  refine Bool.eq_false_iff.2 fun hhas ↦ ?_
  rcases List.mem_cons.1 ((h.mem_iff j).2 hhas) with rfl | hmem
  · exact Nat.lt_irrefl _ hj
  · exact Nat.lt_asymm hj ((List.pairwise_cons.1 h.ascending).1 j hmem)

/-- The keys behind the first one are those of the set without it. -/
theorem Lists.tail (h : s.Lists (k :: keys)) : (s.erase k).Lists keys := by
  obtain ⟨hbelow, ascending⟩ := List.pairwise_cons.1 h.ascending
  refine ⟨ascending, fun j ↦ ?_⟩
  rw [has_erase, Bool.and_eq_true, ← h.mem_iff, decide_eq_true_iff, List.mem_cons]
  constructor
  · exact fun hmem ↦ ⟨.inr hmem, fun heq ↦ Nat.lt_irrefl _ (heq ▸ hbelow j hmem)⟩
  · exact fun hmem ↦ hmem.1.resolve_left hmem.2

end KeySet

namespace Keypad

/-- Something that is done to a keypad. -/
inductive Act where
  | set (k : Digit) (down : Bool)
  | clear
  | take
  | reset
  deriving DecidableEq, Repr

/-- What an act sets a key to, if it does. -/
def Act.value? (k : Digit) : Act → Option Bool
  | set j down => if j = k then some down else none
  | clear | take | reset => none

variable (p : Keypad)

/-- The key that is given to whoever takes one. -/
def taken? : Option Digit := p.takePress.map Prod.fst

/-- The keypad after an act. -/
def apply : Act → Keypad
  | .set k down => p.set k down
  | .clear => p.clearPresses
  | .take =>
    match p.takePress with
    | some (_, next) => next
    | none => p
  | .reset => released

/-- The keypad after a history. -/
def run (acts : List Act) : Keypad := acts.foldl apply p

/-- An act of a history, and the keypad it is done to. -/
structure Moment where
  keypad : Keypad
  act : Act

/-- The moments of a history, in order. -/
def moments : Keypad → List Act → List Moment
  | _, [] => []
  | p, act :: acts => ⟨p, act⟩ :: moments (p.apply act) acts

namespace Moment

variable (t : Moment)

/-- A key goes down that was not held. -/
def Presses (k : Digit) : Prop := t.act = .set k true ∧ t.keypad.isHeld k = false

/-- A key is taken. -/
def Takes (k : Digit) : Prop := t.act = .take ∧ t.keypad.taken? = some k

/-- A press of a key does not count any more. -/
def Forgets (k : Digit) : Prop := t.act = .clear ∨ t.act = .reset ∨ t.Takes k

/-- What is given at a moment to whoever takes a key, if one is to be taken. -/
def answer? : Option (Option Digit) :=
  match t.act with
  | .take => some t.keypad.taken?
  | .set .. | .clear | .reset => none

instance (k : Digit) : Decidable (t.Presses k) :=
  inferInstanceAs (Decidable (t.act = .set k true ∧ t.keypad.isHeld k = false))

instance (k : Digit) : Decidable (t.Takes k) :=
  inferInstanceAs (Decidable (t.act = .take ∧ t.keypad.taken? = some k))

instance (k : Digit) : Decidable (t.Forgets k) :=
  inferInstanceAs (Decidable (t.act = .clear ∨ t.act = .reset ∨ t.Takes k))

end Moment

/-- What is given in the course of a history to whoever takes keys, in order. -/
def answers (acts : List Act) : List (Option Digit) := (p.moments acts).filterMap Moment.answer?

/-- The acts since the last reset, or all of them if there was none. -/
def sinceReset (acts : List Act) : List Act := since (fun act ↦ act = .reset) acts

/-- The moments since a key was last forgotten, or all of them if it never was. -/
def sinceForgotten (k : Digit) (ts : List Moment) : List Moment := since (fun t ↦ t.Forgets k) ts

/-- Let the acts of a history be done to a keypad, with its bits shifted, masked and counted. -/
def runBits : Keypad → List Act → Checked (List (Option Digit) × Keypad)
  | p, [] => return ([], p)
  | p, .set k down :: acts => do
    runBits (← Checked.setKey p k down) acts
  | p, .clear :: acts => runBits { p with latched := ⟨0⟩ } acts
  | p, .take :: acts => do
    match ← Checked.takePress p with
    | some (k, next) =>
      let (answers, last) ← runBits next acts
      return (some k :: answers, last)
    | none =>
      let (answers, last) ← runBits p acts
      return (none :: answers, last)
  | _, .reset :: acts => runBits ⟨⟨0⟩, ⟨0⟩⟩ acts

variable {p} {k : Digit}

/-! ### Histories -/

theorem run_cons (act : Act) (acts : List Act) : p.run (act :: acts) = (p.apply act).run acts := rfl

theorem run_append (before after : List Act) : p.run (before ++ after) = (p.run before).run after := by
  simp [run]

theorem moments_cons (act : Act) (acts : List Act) :
    p.moments (act :: acts) = ⟨p, act⟩ :: (p.apply act).moments acts := rfl

theorem moments_append (before after : List Act) :
    p.moments (before ++ after) = p.moments before ++ (p.run before).moments after := by
  induction before generalizing p with
  | nil => rfl
  | cons act before ih => rw [List.cons_append, moments_cons, ih, run_cons, moments_cons]; rfl

theorem run_concat (acts : List Act) (act : Act) : p.run (acts ++ [act]) = (p.run acts).apply act :=
  run_append acts [act]

theorem moments_concat (acts : List Act) (act : Act) :
    p.moments (acts ++ [act]) = p.moments acts ++ [⟨p.run acts, act⟩] :=
  moments_append acts [act]

theorem act_mem_of_mem_moments {acts : List Act} {t : Moment} (ht : t ∈ p.moments acts) :
    t.act ∈ acts := by
  induction acts generalizing p with
  | nil => cases ht
  | cons act acts ih =>
    rcases List.mem_cons.1 ht with rfl | ht
    · exact List.mem_cons_self
    · exact List.mem_cons_of_mem _ (ih ht)

/-- What presses a key does not forget it. -/
theorem Moment.Presses.not_forgets {t : Moment} (h : t.Presses k) : ¬ t.Forgets k := by
  rw [Forgets, Takes, h.1]
  simp

/-! ### Taking -/

/-- **What is taken is the smallest latched key**, and no other is forgotten. -/
theorem takePress_eq_some_iff {next : Keypad} :
    p.takePress = some (k, next) ↔
      (p.latched.has k = true ∧ ∀ j < k, p.latched.has j = false) ∧ next.held = p.held ∧
        ∀ j, next.latched.has j = (p.latched.has j && decide (j ≠ k)) := by
  rw [takePress, Option.map_eq_some_iff]
  constructor
  · rintro ⟨j, hleast, hpair⟩
    obtain ⟨rfl, rfl⟩ := Prod.mk.inj hpair
    exact ⟨p.latched.least?_eq_some_iff.1 hleast, rfl, p.latched.has_erase j⟩
  · rintro ⟨hleast, hheld, hlatched⟩
    have herase : p.latched.erase k = next.latched :=
      KeySet.ext_has fun j ↦ (p.latched.has_erase k j).trans (hlatched j).symm
    refine ⟨k, p.latched.least?_eq_some_iff.2 hleast, ?_⟩
    rw [herase, ← hheld]

theorem takePress_eq_none_iff : p.takePress = none ↔ ∀ k, p.latched.has k = false := by
  rw [takePress, Option.map_eq_none_iff, KeySet.least?_eq_none_iff]

theorem taken?_eq : p.taken? = p.latched.least? := by
  rw [taken?, takePress, Option.map_map]
  exact Option.map_id'

/-- Taking forgets the smallest latched key, if there is one, and leaves what is held. -/
theorem apply_take :
    p.apply .take = { p with latched := p.latched.least?.elim p.latched p.latched.erase } := by
  rw [apply, takePress]
  cases p.latched.least? <;> rfl

/-! ### What is held -/

theorem isHeld_apply (act : Act) (k : Digit) :
    (p.apply act).isHeld k =
      if act = .reset then false else (act.value? k).getD (p.isHeld k) := by
  cases act with
  | set j down =>
    rw [apply, isHeld_set, Act.value?]
    by_cases hkey : j = k
    · simp [hkey]
    · simp [hkey, Ne.symm hkey]
  | clear => rfl
  | take => rw [apply_take]; rfl
  | reset => exact KeySet.has_empty k

theorem sinceReset_concat (acts : List Act) (act : Act) :
    sinceReset (acts ++ [act]) = if act = .reset then [] else sinceReset acts ++ [act] := by
  simp only [sinceReset, since_concat, decide_eq_true_eq]

/-- **A key is held as it was last set** since the last reset, and not held if it was not set since. -/
theorem isHeld_run_released (acts : List Act) (k : Digit) :
    (released.run acts).isHeld k =
      ((sinceReset acts).filterMap (Act.value? k)).getLast?.getD false := by
  induction acts using List.reverseRecOn with
  | nil => exact KeySet.has_empty k
  | append_singleton acts act ih =>
    rw [run_concat, sinceReset_concat, isHeld_apply]
    split
    · rfl
    · rw [ih, List.filterMap_append, List.getLast?_append]
      cases hvalue : act.value? k <;> simp [hvalue]

/-! ### What is latched -/

/-- An act latches the key it presses and keeps the others, unless it forgets them. -/
theorem has_latched_apply (act : Act) (k : Digit) :
    (p.apply act).latched.has k = true ↔
      Moment.Presses ⟨p, act⟩ k ∨ (p.latched.has k = true ∧ ¬ Moment.Forgets ⟨p, act⟩ k) := by
  cases act with
  | set j down =>
    have hforgets : ¬ Moment.Forgets ⟨p, .set j down⟩ k := by simp [Moment.Forgets, Moment.Takes]
    rw [apply, has_latched_set, and_iff_left hforgets, Moment.Presses]
    simp only [Bool.or_eq_true, Bool.and_eq_true, decide_eq_true_eq, Bool.not_eq_true',
      Act.set.injEq]
    -- The two sides name the key in the two orders, and say the same of it.
    constructor
    · rintro (hlatched | ⟨⟨rfl, rfl⟩, hheld⟩)
      · exact .inr hlatched
      · exact .inl ⟨⟨rfl, rfl⟩, hheld⟩
    · rintro (⟨⟨rfl, rfl⟩, hheld⟩ | hlatched)
      · exact .inr ⟨⟨rfl, rfl⟩, hheld⟩
      · exact .inl hlatched
  | clear | reset =>
    have hempty : KeySet.empty.has k = false := KeySet.has_empty k
    simp [apply, clearPresses, released, hempty, Moment.Presses, Moment.Forgets]
  | take =>
    rw [apply_take, Moment.Forgets, Moment.Takes, taken?_eq]
    cases p.latched.least? with
    | none => simp [Moment.Presses]
    | some j =>
      have hkey : some j = some k ↔ k = j := by rw [Option.some.injEq, eq_comm]
      simp [Moment.Presses, hkey]

theorem sinceForgotten_concat (k : Digit) (ts : List Moment) (t : Moment) :
    sinceForgotten k (ts ++ [t]) = if t.Forgets k then [] else sinceForgotten k ts ++ [t] := by
  simp only [sinceForgotten, since_concat, decide_eq_true_eq]

/-- **The keys latched are those pressed since they were last forgotten**, and those that were latched
to begin with and were never forgotten. -/
theorem has_latched_run (p : Keypad) (acts : List Act) (k : Digit) :
    (p.run acts).latched.has k = true ↔
      (∃ t ∈ sinceForgotten k (p.moments acts), t.Presses k) ∨
        (p.latched.has k = true ∧ ∀ t ∈ p.moments acts, ¬ t.Forgets k) := by
  induction acts using List.reverseRecOn with
  | nil => simp [run, moments, sinceForgotten]
  | append_singleton acts act ih =>
    rw [run_concat, moments_concat, sinceForgotten_concat, has_latched_apply, ih]
    by_cases hforgets : Moment.Forgets ⟨p.run acts, act⟩ k
    · have hpresses : ¬ Moment.Presses ⟨p.run acts, act⟩ k := fun h ↦ h.not_forgets hforgets
      simp [hforgets, hpresses]
    · simp only [hforgets, not_false_eq_true, and_true, if_false, List.mem_append,
        List.mem_singleton, or_and_right, exists_or, exists_eq_left, or_imp, forall_and, forall_eq]
      exact or_assoc.symm.trans (or_congr_left or_comm)

/-- **No press is lost.** A latched key stays latched until it is taken, unless everything is
forgotten. -/
theorem latched_or_taken (latched : p.latched.has k = true) {acts : List Act}
    (h : ∀ act ∈ acts, act ≠ .clear ∧ act ≠ .reset) :
    (p.run acts).latched.has k = true ∨ ∃ t ∈ p.moments acts, t.Takes k := by
  rw [or_iff_not_imp_right]
  intro huntaken
  refine (has_latched_run p acts k).2 (.inr ⟨latched, fun t ht hforgets ↦ ?_⟩)
  have hact := h t.act (act_mem_of_mem_moments ht)
  rcases hforgets with hclear | hreset | htakes
  · exact hact.1 hclear
  · exact hact.2 hreset
  · exact huntaken ⟨t, ht, htakes⟩

/-- **No press is given twice.** Between two takes that give a key it is pressed. -/
theorem pressed_between (first : p.taken? = some k) {acts : List Act}
    (second : ((p.apply .take).run acts).taken? = some k) :
    ∃ t ∈ (p.apply .take).moments acts, t.Presses k := by
  have hunlatched : ¬ (p.apply .take).latched.has k = true := fun h ↦ by
    rcases (has_latched_apply .take k).1 h with hpresses | ⟨-, hforgets⟩
    · cases hpresses.1
    · exact hforgets (.inr (.inr ⟨rfl, first⟩))
  have hlatched : ((p.apply .take).run acts).latched.has k = true :=
    ((KeySet.least?_eq_some_iff _).1 (taken?_eq ▸ second)).1
  obtain ⟨t, ht, hpresses⟩ | ⟨h, -⟩ := (has_latched_run _ acts k).1 hlatched
  · exact ⟨t, mem_of_mem_since ht, hpresses⟩
  · exact absurd h hunlatched

/-! ### Taking all there is -/

theorem answers_take (acts : List Act) :
    p.answers (.take :: acts) = p.taken? :: (p.apply .take).answers acts := rfl

/-- Where nothing is latched, nothing is given and nothing changes. -/
theorem take_of_unlatched (unlatched : ∀ k, p.latched.has k = false) (n : Nat) :
    let takes := List.replicate n Act.take
    p.answers takes = List.replicate n none ∧ p.run takes = p := by
  have hleast : p.latched.least? = none := (KeySet.least?_eq_none_iff _).2 unlatched
  have htake : p.apply .take = p := by simp only [apply_take, hleast, Option.elim_none]
  induction n with
  | zero => exact ⟨rfl, rfl⟩
  | succ n ih =>
    obtain ⟨hanswers, hrun⟩ := ih
    simp only [List.replicate_succ]
    rw [answers_take, run_cons, htake, taken?_eq, hleast, hanswers, hrun]
    exact ⟨rfl, rfl⟩

/-- **To take again and again gives every latched key once, in ascending order, and then none**, and
leaves none latched. -/
theorem take_all {keys : List Digit} (h : p.latched.Lists keys) (n : Nat) :
    let takes := List.replicate (keys.length + n) Act.take
    p.answers takes = keys.map some ++ List.replicate n none ∧ p.run takes = p.clearPresses := by
  induction keys generalizing p with
  | nil =>
    show p.answers (List.replicate (0 + n) .take) = List.replicate n none ∧
      p.run (List.replicate (0 + n) .take) = p.clearPresses
    have hempty : p.latched = .empty := h.eq_empty
    obtain ⟨hanswers, hrun⟩ := take_of_unlatched (fun k ↦ hempty ▸ KeySet.has_empty k) n
    rw [Nat.zero_add, clearPresses, ← hempty]
    exact ⟨hanswers, hrun⟩
  | cons k keys ih =>
    have htake : p.apply .take = { p with latched := p.latched.erase k } := by
      rw [apply_take, h.least?_eq, Option.elim_some]
    obtain ⟨hanswers, hrun⟩ := ih (p := { p with latched := p.latched.erase k }) h.tail
    have htakes : List.replicate ((k :: keys).length + n) Act.take =
        .take :: List.replicate (keys.length + n) .take := by
      rw [List.length_cons, Nat.succ_add, List.replicate_succ]
    simp only [htakes]
    rw [answers_take, run_cons, taken?_eq, h.least?_eq, htake, hanswers, hrun]
    exact ⟨rfl, rfl⟩

/-! ### The bits -/

/-- **What the bits come to is what the sets of keys come to**, and nothing in it traps. -/
theorem runBits_eq (p : Keypad) (acts : List Act) :
    runBits p acts = .ok (p.answers acts, p.run acts) := by
  induction acts generalizing p with
  | nil => rfl
  | cons act acts ih =>
    cases act with
    | set k down =>
      rw [runBits, Checked.setKey_eq, Checked.bind_ok, ih]
      rfl
    | clear | reset =>
      rw [runBits, ih]
      rfl
    | take =>
      rw [runBits, Checked.takePress_eq, Checked.bind_ok, answers_take, run_cons, apply, taken?]
      cases p.takePress <;> simp only [ih] <;> rfl

/-- **What a keypad remembers** of any history of a new one. A key is held as it was last set since the
last reset. It is latched exactly if it was pressed since it was last forgotten. Taking gives the
smallest latched key and forgets no other, or none if none is latched; so it gives all of them once and
in ascending order, and then none. What is latched stays so until it is taken, unless everything is
forgotten, and what has been taken is not given again before it is pressed again. A keypad whose bits
are shifted, masked and counted answers the same and is left the same. -/
theorem run_released_remembers (acts : List Act) :
    let p := released.run acts
    (∀ k, p.isHeld k = ((sinceReset acts).filterMap (Act.value? k)).getLast?.getD false) ∧
      (∀ k, p.latched.has k = true ↔
        ∃ t ∈ sinceForgotten k (released.moments acts), t.Presses k) ∧
      (∀ k next, p.takePress = some (k, next) ↔
        (p.latched.has k = true ∧ ∀ j < k, p.latched.has j = false) ∧ next.held = p.held ∧
          ∀ j, next.latched.has j = (p.latched.has j && decide (j ≠ k))) ∧
      (p.takePress = none ↔ ∀ k, p.latched.has k = false) ∧
      (∃ keys : List Digit, keys.Pairwise (· < ·) ∧ (∀ k, k ∈ keys ↔ p.latched.has k = true) ∧
        ∀ n, let takes := List.replicate (keys.length + n) Act.take
          p.answers takes = keys.map some ++ List.replicate n none ∧ p.run takes = p.clearPresses) ∧
      (∀ k later, p.latched.has k = true → (∀ act ∈ later, act ≠ .clear ∧ act ≠ .reset) →
        (p.run later).latched.has k = true ∨ ∃ t ∈ p.moments later, t.Takes k) ∧
      (∀ k later, p.taken? = some k → ((p.apply .take).run later).taken? = some k →
        ∃ t ∈ (p.apply .take).moments later, t.Presses k) ∧
      runBits released acts = .ok (released.answers acts, p) := by
  intro p
  refine ⟨isHeld_run_released acts, fun k ↦ ?_, fun k next ↦ takePress_eq_some_iff,
    takePress_eq_none_iff, ?_, fun k later latched hkept ↦ latched_or_taken latched hkept,
    fun k later first second ↦ pressed_between first second, runBits_eq released acts⟩
  · rw [has_latched_run]
    exact or_iff_left fun h ↦ Bool.false_ne_true ((KeySet.has_empty k).symm.trans h.1)
  · obtain ⟨keys, hkeys⟩ := p.latched.exists_lists
    exact ⟨keys, hkeys.ascending, hkeys.mem_iff, take_all hkeys⟩

/-- Key 4 is held when the presses are cleared, key 3 is pressed twice and taken once, and key 12 is
reported down once more. Only 12 is latched by then; it waits while key 0 is pressed and taken, and when
it has been taken itself, it is released and pressed again. -/
theorem key_12_taken_twice :
    let acts : List Act :=
      [.set 4 true, .clear, .set 4 true, .set 12 true, .set 3 true, .set 3 false, .set 3 true, .take,
        .set 12 true]
    let p := released.run acts
    let waiting : List Act := [.set 0 true, .take]
    let again : List Act := [.set 12 false, .set 12 true]
    p.isHeld 4 = true ∧ p.latched.has 4 = false ∧ p.latched.has 12 = true ∧
      p.answers [.take, .take, .take] = [some 12, none, none] ∧
      ((p.run waiting).latched.has 12 = true ∨ ∃ t ∈ p.moments waiting, t.Takes 12) ∧
        (p.taken? = some 12 ∧ ((p.apply .take).run again).taken? = some 12) ∧
          ∃ t ∈ (p.apply .take).moments again, t.Presses 12 := by
  intro acts p waiting again
  obtain ⟨-, -, -, -, -, hkept, hpressed, -⟩ := run_released_remembers acts
  exact ⟨by decide, by decide, by decide, by decide, hkept 12 waiting (by decide) (by decide),
    ⟨by decide, by decide⟩, hpressed 12 again (by decide) (by decide)⟩

end Keypad

end ChipEight
