import ChipEight.Proofs.Machine.Moments

/-!
# Calls and returns

A program may call and return in any order, and nothing asks that its returns match its calls. They do
nevertheless: a return takes the newest return address and nothing else reaches into the call stack, so
what lies below a return address stays there as long as that address does, and the cycle that takes
it is a return to it.

What is kept is a lower part of the stack, the return address with all that lay below it at the call.
Frames are listed newest first, so a lower part is a suffix of them. A cycle either keeps it or is the
return that ends the call (`suffix_frames_cycle`), and which of the two it is can be seen from the
number of frames alone.

**Main statement**: `Executes.call_returns`.
-/

namespace ChipEight

namespace Machine

variable {m next : Machine} {op : Opcode} {back : UInt16} {base : List UInt16}

/-- A cycle is the return from a call: it goes back to where the call was made, and leaves the frames
there were. -/
structure Returns (m : Machine) (back : UInt16) (base : List UInt16) : Prop where
  executes : m.Executes .ret
  outcome_eq : m.cycle.outcome = .ok .proceed
  frames_eq : m.cycle.machine.stack.frames = base
  pc_eq : m.cycle.machine.pc = back

/-- An instruction keeps the lower part of the call stack, or takes its topmost address and goes
there. -/
theorem Effect.suffix_frames (effect : Effect m op next) (h : back :: base <:+ m.stack.frames) :
    back :: base <:+ next.stack.frames ∨
      op = .ret ∧ next.stack.frames = base ∧ next.pc = back := by
  cases effect with
  | call hpush =>
    obtain ⟨-, rfl⟩ := CallStack.push_eq_ok_iff.1 hpush
    exact .inl (h.trans (List.suffix_cons _ _))
  | ret hpop =>
    obtain ⟨hframes, -⟩ := CallStack.pop_eq_ok_iff.1 hpop
    rw [hframes, List.suffix_cons_iff] at h
    rcases h with htop | hbelow
    · obtain ⟨rfl, rfl⟩ := List.cons.inj htop
      exact .inr ⟨rfl, rfl, rfl⟩
    · exact .inl hbelow
  | _ => exact .inl h

/-- **A cycle keeps the lower part of the call stack, or it is the return from its topmost call.** -/
theorem suffix_frames_cycle (h : back :: base <:+ m.stack.frames) :
    back :: base <:+ m.cycle.machine.stack.frames ∨ m.Returns back base := by
  cases m.beat with
  | halted _ result | unfetched _ _ _ result | unread _ _ _ _ result | refused _ _ result =>
    left
    rw [result]
    exact h
  | @polled x _ _ result =>
    left
    obtain ⟨_, _, _, hpoll⟩ := m.pollKey_frame x
    rw [result, hpoll]
    exact h
  | @done op signal next hop done result =>
    rcases (effect_of_execute done).suffix_frames (m := m.stepOver) h with hkept | ⟨rfl, hbase, hback⟩
    · left
      rw [result]
      exact hkept
    · right
      obtain ⟨_, -, hsignal⟩ := map_eq_ok_iff.1 done
      obtain ⟨rfl, -⟩ := Prod.mk.inj hsignal
      exact ⟨hop, congrArg Cycle.outcome result, by rw [result]; exact hbase,
        by rw [result]; exact hback⟩

/-- The lower part of the call stack is kept at every moment but a restart after which the frames have
not fallen back to what lies below its topmost address. -/
theorem suffix_frames_after {t : Moment} (hrestart : ¬ t.event.restarts)
    (deeper : t.after.stack.frames.length ≠ base.length)
    (h : back :: base <:+ t.machine.stack.frames) : back :: base <:+ t.after.stack.frames := by
  obtain ⟨m, event⟩ := t
  cases event with
  | load program => rwa [Moment.after, apply_load_of_not_restarts hrestart]
  | reset => exact absurd rfl hrestart
  | cycle =>
    rcases suffix_frames_cycle h with hkept | hreturns
    · exact hkept
    · exact absurd (congrArg List.length hreturns.frames_eq) deeper
  | tick | key => exact h

/-- **The lower part of the call stack is kept until the frames have fallen back** to what lies below
its topmost address. -/
theorem suffix_frames_run (h : back :: base <:+ m.stack.frames) {events : List Event}
    (hrestart : ∀ event ∈ events, ¬ event.restarts)
    (deeper : ∀ t ∈ m.moments events, t.after.stack.frames.length ≠ base.length) :
    back :: base <:+ (m.run events).stack.frames :=
  run_of_moments (P := fun m ↦ back :: base <:+ m.stack.frames)
    (Q := fun t ↦ ¬ t.event.restarts ∧ t.after.stack.frames.length ≠ base.length)
    (fun _ hQ hsuffix ↦ suffix_frames_after hQ.1 hQ.2 hsuffix) h events
    fun t ht ↦ ⟨hrestart _ (event_mem_of_mem_moments ht), deeper t ht⟩

/-- A call that succeeds leaves the address behind it on top of the frames there were. -/
theorem Executes.frames_cycle_call {target : Address} {signal : Signal}
    (h : m.Executes (.call target)) (done : m.cycle.outcome = .ok signal) :
    m.cycle.machine.stack.frames = (m.pc + 2) :: m.stack.frames := by
  rcases hx : m.stepOver.execute (.call target) with fault | ⟨_, next⟩
  · rw [h.cycle_of_refusal (execute_eq_error_iff.1 hx)] at done
    cases done
  · obtain ⟨stack, hpush, hnext⟩ := map_eq_ok_iff.1 hx
    obtain ⟨-, rfl⟩ := Prod.mk.inj hnext
    obtain ⟨-, rfl⟩ := CallStack.push_eq_ok_iff.1 hpush
    rw [h.cycle_of_execute hx]
    rfl

/-- **Calls and returns match, whatever the program does.** Let a call be made with frames `s`, oldest
first. As long as the machine is not restarted and the number of frames is not that of `s` again, the
frames begin with `s` and the address behind the call; and the first cycle that brings the number back
is a return, which leaves exactly `s` and goes to that address. -/
theorem Executes.call_returns {target : Address} {signal : Signal} (h : m.Executes (.call target))
    (done : m.cycle.outcome = .ok signal) :
    let s := m.stack.toList
    let c := m.cycle.machine
    (m.pc + 2).toNat = m.pc.toNat + 2 ∧ c.stack.toList = s ++ [m.pc + 2] ∧
      ∀ later : List Event, (∀ event ∈ later, ¬ event.restarts) →
        (∀ t ∈ c.moments later, t.after.stack.toList.length ≠ s.length) →
          let n := c.run later
          s ++ [m.pc + 2] <+: n.stack.toList ∧
            (n.cycle.machine.stack.toList.length = s.length →
              n.Executes .ret ∧ n.cycle.outcome = .ok .proceed ∧
                n.cycle.machine.stack.toList = s ∧ n.cycle.machine.pc = m.pc + 2) := by
  intro s c
  have hcall : c.stack.frames = (m.pc + 2) :: m.stack.frames := h.frames_cycle_call done
  have hlength (stack : CallStack) : stack.toList.length = stack.frames.length :=
    List.length_reverse
  have hlower : s ++ [m.pc + 2] = ((m.pc + 2) :: m.stack.frames).reverse := List.reverse_cons.symm
  refine ⟨h.toNat_pc_add_two, ?_, fun later hlater deeper ↦ ?_⟩
  · rw [hlower, ← hcall]
    rfl
  · simp only [s, hlength] at deeper ⊢
    have hlow : (m.pc + 2) :: m.stack.frames <:+ c.stack.frames := ⟨[], hcall.symm⟩
    have hkept := suffix_frames_run hlow hlater deeper
    refine ⟨hlower ▸ List.reverse_prefix.2 hkept, fun hback ↦ ?_⟩
    rcases suffix_frames_cycle hkept with hdeeper | hreturns
    · have hlonger := hdeeper.length_le
      rw [List.length_cons, hback] at hlonger
      exact absurd hlonger (Nat.not_succ_le_self _)
    · exact ⟨hreturns.executes, hreturns.outcome_eq, congrArg List.reverse hreturns.frames_eq,
        hreturns.pc_eq⟩

/-- A subroutine calls another one, which calls a third. The third returns, the timers tick, and then
the second returns to where it was called, with the frame of the first still there. -/
theorem nested_call_returns :
    let m := (powerOn .usual (.ofSeed 0)).run
      [.load [0x22, 0x02, 0x22, 0x06, 0x00, 0x00, 0x22, 0x0A, 0x00, 0xEE, 0x00, 0xEE], .cycle]
    let later : List Event := [.cycle, .cycle, .tick]
    let n := m.cycle.machine.run later
    m.Executes (.call 0x206) ∧ m.cycle.outcome = .ok .proceed ∧ m.stack.toList = [0x202] ∧
      [0x202, 0x204] <+: n.stack.toList ∧ n.Executes .ret ∧
        n.cycle.machine.stack.toList = [0x202] ∧ n.cycle.machine.pc = 0x204 := by
  intro m later n
  have h : m.Executes (.call 0x206) := by decide
  have done : m.cycle.outcome = .ok .proceed := by unfold m; rfl
  obtain ⟨-, -, hlater⟩ := h.call_returns done
  obtain ⟨hkept, hback⟩ := hlater later (by decide) (by decide)
  obtain ⟨hret, -, hframes, hpc⟩ := hback (by decide)
  exact ⟨h, done, by decide, hkept, hret, hframes, hpc⟩

end Machine

end ChipEight
