import ChipEight.Command.Session
import ChipEight.Proofs.Pacer.Frames
import ChipEight.Proofs.Pacer.Ticks

/-!
# Sessions without a window

A session without a window lets one frame pass after the other, and a frame is exactly one timer period.
So the frames are what `update_of_running` cuts a single long update into: as long as no frame fails,
they come to that update, with the same lines in the log (`passFrames_eq`); and the first frame that
fails does so with the fault of the long update, since a fault in a part of an update is the fault of the
whole.

That a frame and a timer period are rounded alike is what the argument rests on. With any other length
the frames would end within slices of the long update, and a wait or a fault would throw away another
part of them.

**Main statement**: `frames_as_one_update`.
-/

namespace ChipEight

namespace Pacer

variable {p : Pacer}

/-- One more frame is one more timer period in front. -/
theorem succ_mul_tickPeriod (n : Nat) : (n + 1) * tickPeriod = tickPeriod + n * tickPeriod := by
  rw [Nat.succ_mul, Nat.add_comm]

/-- Frames that pass without a fault come to the update that takes as long. -/
theorem run_frames {n : Nat} (h : n * tickPeriod ≤ longest)
    (running : (p.advance (n * tickPeriod)).fault = none) :
    p.run (List.replicate n (.update tickPeriod)) = (p.advance (n * tickPeriod)).pacer := by
  induction n generalizing p with
  | zero =>
    rw [Nat.zero_mul]
    rfl
  | succ n ih =>
    rw [succ_mul_tickPeriod] at h running ⊢
    rw [List.replicate_succ, run_cons, apply]
    rcases hfirst : (p.advance tickPeriod).fault with - | fault
    · have hwhole := advance_add (Nat.dvd_refl _) h hfirst
      rw [hwhole, Progress.fault_map] at running
      rw [hwhole, Progress.pacer_map]
      exact ih (Nat.le_of_add_left_le h) running
    · have hfault := fault_update_add (Nat.dvd_refl _) h hfirst
      exact absurd (running.symm.trans hfault) (Option.some_ne_none fault).symm

/-- There is a tick in every frame, whatever the program does. -/
theorem count_tick_frames (m : Machine) (n : Nat) :
    ((new m).history (List.replicate n (.update tickPeriod))).count .tick = n := by
  have htotal : Request.total (List.replicate n (.update tickPeriod)) = n * tickPeriod := by
    induction n with
    | zero =>
      rw [Nat.zero_mul]
      rfl
    | succ n ih =>
      rw [List.replicate_succ, Request.total, ih, succ_mul_tickPeriod]
      rfl
  have hnone : Request.machine .tick ∉ List.replicate n (.update tickPeriod) := by
    intro hmem
    cases List.eq_of_mem_replicate hmem
  have hkeeps : ∀ request ∈ List.replicate n (Request.update tickPeriod), request.KeepsTime := by
    intro request hmem
    rw [List.eq_of_mem_replicate hmem]
    show tickPeriod ≤ longest
    decide
  rw [count_ticks (p := new m) tickPeriod_pos hkeeps hnone, htotal]
  show (0 + n * tickPeriod) / tickPeriod = n
  rw [Nat.zero_add, Nat.mul_div_cancel n tickPeriod_pos]

end Pacer

namespace Command

open Pacer

/-- What is kept in the log of a move. -/
def logMove (keeps : Filter) (lines : List LogLine) (move : Move) : List LogLine :=
  keeps.log lines move.journal

/-- After a frame that has failed no other passes. -/
theorem passFrames_of_fault {keeps : Filter} {s : Progress (List LogLine)} {fault : Fault}
    (h : s.fault = some fault) (n : Nat) : passFrames keeps s n = s := by
  cases n with
  | zero => rfl
  | succ n => rw [passFrames, h]

/-- **Frames fail as the update that takes as long does, and if they do not fail, they come to the same
machine, clocks and log.** -/
theorem passFrames_eq (keeps : Filter) (p : Pacer) (lines : List LogLine) {n : Nat}
    (h : n * tickPeriod ≤ longest) :
    let frames := passFrames keeps ⟨p, none, lines⟩ n
    let whole := p.update (logMove keeps) lines (n * tickPeriod)
    frames.fault = whole.fault ∧ (whole.fault = none → frames = whole) := by
  induction n generalizing p lines with
  | zero =>
    rw [Nat.zero_mul]
    exact ⟨rfl, fun _ ↦ rfl⟩
  | succ n ih =>
    rw [succ_mul_tickPeriod] at h ⊢
    have hstep : passFrames keeps ⟨p, none, lines⟩ (n + 1)
        = passFrames keeps (p.update (logMove keeps) lines tickPeriod) n := by
      rw [passFrames]
      rfl
    rw [hstep]
    rcases hfirst : (p.update (logMove keeps) lines tickPeriod).fault with - | fault
    · rw [update_of_running (Nat.dvd_refl _) h hfirst]
      generalize p.update (logMove keeps) lines tickPeriod = first at hfirst
      obtain ⟨q, fault, lines'⟩ := first
      obtain rfl : fault = none := hfirst
      exact ih q lines' (Nat.le_of_add_left_le h)
    · have hfault := fault_update_add (Nat.dvd_refl _) h hfirst
      rw [passFrames_of_fault hfirst]
      exact ⟨hfirst.trans hfault.symm, fun hnone ↦ nomatch hfault.symm.trans hnone⟩

/-- A number of frames takes no longer than an update may. -/
theorem frames_le_longest (frames : UInt32) : frames.toNat * tickPeriod ≤ longest := by
  have hperiod : tickPeriod = 16666666 := rfl
  have hlongest : longest = 18446744073709551615 := rfl
  have hframes := frames.toNat_lt
  rw [hperiod]
  omega

/-- A session without a window shows the display after its frames, or fails with the fault of one. -/
theorem play_eq {settings : Settings} {frames : UInt32} (hframes : settings.frames = some frames)
    (keeps : Filter) (m : Machine) :
    let s := passFrames keeps ⟨new m, none, []⟩ frames.toNat
    (∀ fault, (play settings keeps m).result = .error (.execution fault) ↔ s.fault = some fault) ∧
      (s.fault = none → (play settings keeps m).result = .ok s.pacer.machine.display.text) := by
  unfold play
  simp only [hframes]
  generalize passFrames keeps ⟨new m, none, []⟩ frames.toNat = s
  rcases s.fault with - | fault
  · exact ⟨fun _ ↦ iff_of_false nofun nofun, fun _ ↦ rfl⟩
  · refine ⟨fun fault' ↦ ?_, nofun⟩
    rw [Except.error.injEq, Failure.execution.injEq, Option.some.injEq]

/-- **Frame after frame is as good as one update.** An update of `k` timer periods that succeeds and
then one of `b` nanoseconds leave the machine and both clocks as the update of the sum does, and end as
it does: with the same fault, or with the summary of the sum. So a session without a window fails with
a fault exactly if one update over all its frames does, and never for having halted if its program has
just been loaded. Otherwise there has been one tick in each frame, and the display is shown that the
one update leaves. -/
theorem frames_as_one_update :
    (∀ (p : Pacer) (k b : Nat) (first : Summary), k * tickPeriod + b ≤ longest →
      (p.advance (k * tickPeriod)).outcome = .ok first →
        let rest := (p.advance (k * tickPeriod)).pacer.advance b
        let whole := p.advance (k * tickPeriod + b)
        whole.pacer = rest.pacer ∧ whole.outcome = rest.outcome.map first.join) ∧
      ∀ (settings : Settings) (keeps : Filter) (m : Machine) (frames : UInt32),
        settings.frames = some frames →
          let whole := (new m).advance (frames.toNat * tickPeriod)
          let requests := List.replicate frames.toNat (Request.update tickPeriod)
          let result := (play settings keeps m).result
          (∀ fault, result = .error (.execution fault) ↔ whole.outcome = .error fault) ∧
            (∀ (before : Machine) program, before.load program = .ok m →
              whole.outcome ≠ .error .halted) ∧
            ∀ summary, whole.outcome = .ok summary →
              result = .ok whole.pacer.machine.display.text ∧ whole.pacer = (new m).run requests ∧
                ((new m).history requests).count .tick = frames.toNat := by
  refine ⟨fun p k b first h hfirst ↦ ?_, fun settings keeps m frames hframes ↦ ?_⟩
  · obtain ⟨running, rfl⟩ := Progress.outcome_eq_ok_iff.1 hfirst
    rw [advance_add (Nat.dvd_mul_left _ _) h running]
    exact ⟨rfl, Progress.outcome_map _ _⟩
  · have hlongest := frames_le_longest frames
    obtain ⟨hfault, hsame⟩ := passFrames_eq keeps (new m) [] hlongest
    obtain ⟨hpacer, hlogged⟩ :=
      (new m).update_agree (logMove keeps) [] (frames.toNat * tickPeriod)
    obtain ⟨hfails, hshows⟩ := play_eq hframes keeps m
    rw [hlogged] at hfault hsame
    refine ⟨fun fault ↦ ?_, fun before program hload hhalted ↦ ?_, fun summary hok ↦ ?_⟩
    · rw [hfails, hfault, Progress.outcome_eq_error_iff]
    · have running : m.fault = none := by
        obtain ⟨memory, -, rfl⟩ := map_eq_ok_iff.1 hload
        rfl
      exact fault_advance_ne_halted (p := new m) running _ (Progress.outcome_eq_error_iff.1 hhalted)
    · obtain ⟨running, -⟩ := Progress.outcome_eq_ok_iff.1 hok
      rw [hsame running, hpacer] at hshows
      exact ⟨hshows (hlogged.trans running), (run_frames hlongest running).symm,
        count_tick_frames m frames.toNat⟩

/-- A program that sets the delay timer and waits for a key, in two frames and five milliseconds; and
one that runs into a word that is no instruction, in a session of three frames. -/
theorem two_frames_and_a_session_of_three :
    let start := Machine.powerOn { Config.usual with cpuHz := 100 } (.ofSeed 0)
    let p := new (start.run [.load [0x60, 0x05, 0xF0, 0x15, 0xF1, 0x0A]])
    let m := start.run [.load [0x60, 0x05, 0xF0, 0x15, 0x51, 0x21]]
    let settings : Settings := ⟨100, none, some 3, 10, "program"⟩
    (p.advance (2 * tickPeriod)).outcome = .ok ⟨2, 2, false, true⟩ ∧
      (p.advance (2 * tickPeriod + 5000000)).outcome
        = ((p.advance (2 * tickPeriod)).pacer.advance 5000000).outcome.map
            (Summary.join ⟨2, 2, false, true⟩) ∧
      (play settings (fun _ ↦ true) m).result = .error (.execution (.invalidInstruction 0x5121)) := by
  intro start p m settings
  obtain ⟨hjoin, hsession⟩ := frames_as_one_update
  have hfirst : (p.advance (2 * tickPeriod)).outcome = .ok ⟨2, 2, false, true⟩ :=
    Progress.outcome_eq_ok_iff.2 ⟨by decide, by decide⟩
  have hfault : ((new m).advance ((3 : UInt32).toNat * tickPeriod)).outcome
      = .error (.invalidInstruction 0x5121) :=
    Progress.outcome_eq_error_iff.2 (by decide)
  obtain ⟨-, hsame⟩ := hjoin p 2 5000000 _ (by decide) hfirst
  obtain ⟨hfails, -⟩ := hsession settings (fun _ ↦ true) m 3 rfl
  exact ⟨hfirst, hsame, (hfails _).2 hfault⟩

end Command

end ChipEight
