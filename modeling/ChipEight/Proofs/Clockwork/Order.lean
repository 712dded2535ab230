import ChipEight.Clockwork.Basic

/-!
# Clocks in order

Every clock that was ever started looks at the same flag, and the flag is raised again at each start.
What keeps the clocks of one start apart from those of the next is the order in which the controller
does things: it lets go of a clock only once it has finished, and it starts clocks only when it holds
none. So a clock that it does not hold has finished, and there is no way back from there.

`Orderly` says so of one state, together with what it takes to be kept: the clocks held and the clocks
still to be started have different duties, the flag is up exactly while clocks are to run, and until
it comes down there is a timer clock that has not finished. What each action can do is said once
(`Deed`), and every action keeps that order (`Orderly.deed`), so it holds after every interleaving
(`orderly_performAll`).
-/

namespace ChipEight

namespace Clockwork

variable {c d : Clockwork} {action : Action} {clock : Clock}

/-! ### What an action can do -/

/-- A clock that has not finished can take its turn, and one that has cannot. -/
theorem turn_eq_none_iff : c.turn clock = none ↔ clock.phase = .finished := by
  obtain ⟨duty, phase⟩ := clock
  cases phase with
  | looking => exact ⟨nofun, nofun⟩
  | finished => exact ⟨fun _ ↦ rfl, fun _ ↦ rfl⟩
  | working =>
    cases duty with
    | timers => exact ⟨nofun, nofun⟩
    | instructions =>
      refine ⟨fun h ↦ ?_, nofun⟩
      simp only [turn] at h
      split at h <;> cases h

/-- As long as the flag is up, a turn does not finish a timer clock. -/
theorem phase_of_turn_timers {before after : Phase} {machine : Machine} (running : c.running = true)
    (h : c.turn ⟨.timers, before⟩ = some (after, machine)) : after ≠ .finished := by
  cases before with
  | looking =>
    simp only [turn, running] at h
    obtain ⟨rfl, -⟩ := Prod.mk.inj (Option.some.inj h)
    exact nofun
  | working =>
    obtain ⟨rfl, -⟩ := Prod.mk.inj (Option.some.inj h)
    exact nofun
  | finished => cases h

/-- What an action does, where it is possible. -/
inductive Deed (c : Clockwork) : Action → Clockwork → Prop where
  /-- A clock that has not finished takes its turn. -/
  | turn {i : Nat} {clock : Clock} {phase : Phase} {machine : Machine}
      (there : c.clocks[i]? = some clock) (h : c.turn clock = some (phase, machine)) :
      Deed c (.clock i) { c with machine, clocks := c.clocks.set i { clock with phase } }
  /-- Clocks are held, and starting does nothing. -/
  | startAgain (idle : c.call = none) (holds : c.held ≠ []) : Deed c .start c
  /-- No clock is held, and the flag is raised. -/
  | start (idle : c.call = none) (free : c.held = []) :
      Deed c .start { c with running := true, call := some (.start [.instructions, .timers]) }
  /-- The next clock is set going. -/
  | spawn {duty : Duty} {pending : List Duty} (h : c.call = some (.start (duty :: pending))) :
      Deed c .proceed
        { c with
          clocks := c.clocks ++ [⟨duty, .looking⟩]
          held := c.held ++ [c.clocks.length]
          call := some (.start pending) }
  /-- All clocks are going, and the call returns. -/
  | started (h : c.call = some (.start [])) : Deed c .proceed { c with call := none }
  /-- The flag is taken down, if it was up for some clock. -/
  | stop {purpose : Purpose} (idle : c.call = none) :
      Deed c (.stop purpose)
        { c with running := c.running && c.held.isEmpty, call := some (.stop purpose) }
  /-- A clock that has finished is let go of. -/
  | letGo {purpose : Purpose} {i : Nat} {held : List Nat} (h : c.call = some (.stop purpose))
      (first : c.held = i :: held)
      (finished : ∀ clock, c.clocks[i]? = some clock → clock.phase = .finished) :
      Deed c .proceed { c with held }
  /-- No clock is held any more. The purpose is attended to, and the call returns. -/
  | stopped {purpose : Purpose} (h : c.call = some (.stop purpose)) (free : c.held = []) :
      Deed c .proceed { c with machine := purpose.act c.machine, call := none }
  /-- A key goes down or up. -/
  | key {k : Digit} {down : Bool} (idle : c.call = none) :
      Deed c (.key k down) { c with machine := c.machine.setKey k down }

/-- A call that goes on starts or lets go of a clock, or returns. -/
theorem deed_of_proceed (h : c.proceed = some d) : Deed c .proceed d := by
  unfold proceed at h
  split at h
  · cases h
  · rename_i hcall
    obtain rfl := Option.some.inj h
    exact .started hcall
  · rename_i hcall
    obtain rfl := Option.some.inj h
    exact .spawn hcall
  · rename_i hcall
    split at h
    · rename_i hfree
      obtain rfl := Option.some.inj h
      exact .stopped hcall hfree
    · rename_i hfirst
      split at h
      · rename_i hfinished
        obtain rfl := Option.some.inj h
        refine .letGo hcall hfirst fun clock hclock ↦ ?_
        rw [hclock] at hfinished
        exact beq_iff_eq.1 hfinished
      · cases h

/-- **Every action that is performed is one of the deeds.** -/
theorem deed_of_perform (h : c.perform action = some d) : Deed c action d := by
  cases action with
  | clock i =>
    obtain ⟨clock, hthere, h⟩ := Option.bind_eq_some_iff.1 h
    obtain ⟨⟨phase, machine⟩, hturn, rfl⟩ := Option.map_eq_some_iff.1 h
    exact .turn hthere hturn
  | proceed => exact deed_of_proceed h
  | start =>
    simp only [perform] at h
    split at h
    · cases h
    · rename_i hidle
      have hidle : c.call = none := Option.not_isSome_iff_eq_none.1 hidle
      split at h
      · rename_i hfree
        obtain rfl := Option.some.inj h
        exact .start hidle (List.isEmpty_iff.1 hfree)
      · rename_i hholds
        obtain rfl := Option.some.inj h
        exact .startAgain hidle fun hfree ↦ hholds (List.isEmpty_iff.2 hfree)
  | stop purpose =>
    simp only [perform] at h
    split at h
    · cases h
    · rename_i hidle
      obtain rfl := Option.some.inj h
      exact .stop (Option.not_isSome_iff_eq_none.1 hidle)
  | key k down =>
    simp only [perform] at h
    split at h
    · cases h
    · rename_i hidle
      obtain rfl := Option.some.inj h
      exact .key (Option.not_isSome_iff_eq_none.1 hidle)

/-- There is a clock of some duty in a place, and it has not finished. -/
def Live (c : Clockwork) (i : Nat) (duty : Duty) : Prop :=
  ∃ phase, c.clocks[i]? = some ⟨duty, phase⟩ ∧ phase ≠ .finished

/-- **Nothing but a stop keeps a timer clock from going on.** -/
theorem Deed.timers {j : Nat} (deed : Deed c action d) (hstop : ∀ purpose, action ≠ .stop purpose)
    (running : c.running = true) (live : c.Live j .timers) :
    d.running = true ∧ d.Live j .timers := by
  obtain ⟨before, hbefore, hlive⟩ := live
  cases deed with
  | @turn i other phase machine there hturn =>
    refine ⟨running, ?_⟩
    by_cases hji : j = i
    · subst hji
      obtain rfl := Option.some.inj (there.symm.trans hbefore)
      obtain ⟨hlt, -⟩ := List.getElem?_eq_some_iff.1 there
      exact ⟨phase, List.getElem?_set_self hlt, phase_of_turn_timers running hturn⟩
    · exact ⟨before, (List.getElem?_set_ne (Ne.symm hji)).trans hbefore, hlive⟩
  | spawn =>
    obtain ⟨hlt, -⟩ := List.getElem?_eq_some_iff.1 hbefore
    exact ⟨running, before, (List.getElem?_append_left hlt).trans hbefore, hlive⟩
  | stop => exact absurd rfl (hstop _)
  | start => exact ⟨rfl, before, hbefore, hlive⟩
  | startAgain | started | letGo | stopped | key => exact ⟨running, before, hbefore, hlive⟩

/-- **What every deed preserves is preserved by every interleaving.** -/
theorem performAll_of_deed {P : Clockwork → Prop} {Q : Action → Prop}
    (step : ∀ {c action d}, Q action → Deed c action d → P c → P d) {actions : List Action}
    (hQ : ∀ action ∈ actions, Q action) (h : P c) (hall : c.performAll actions = some d) : P d := by
  induction actions generalizing c with
  | nil =>
    obtain rfl := Option.some.inj hall
    exact h
  | cons action actions ih =>
    rw [List.forall_mem_cons] at hQ
    obtain ⟨next, hperform, hrest⟩ := Option.bind_eq_some_iff.1 hall
    exact ih hQ.2 (step hQ.1 (deed_of_perform hperform) h) hrest

/-! ### Order -/

/-- The duties of the clocks that are still to be started. -/
def pending (c : Clockwork) : List Duty :=
  match c.call with
  | some (.start pending) => pending
  | _ => []

/-- Whether clocks are to run: they are being started, or were started and are not being stopped. -/
def wanted (c : Clockwork) : Bool :=
  match c.call with
  | some (.start _) => true
  | some (.stop _) => false
  | none => !c.held.isEmpty

/-- Clocks and controller are in order. -/
structure Orderly (c : Clockwork) : Prop where
  /-- A clock that is not held has finished. -/
  finished : ∀ i clock, c.clocks[i]? = some clock → i ∉ c.held → clock.phase = .finished
  /-- Two clocks that are held have two duties. -/
  apart : ∀ i ∈ c.held, ∀ j ∈ c.held, ∀ a b, c.clocks[i]? = some a → c.clocks[j]? = some b →
    a.duty = b.duty → i = j
  /-- No clock that is held has the duty of one that is still to be started. -/
  fresh : ∀ i ∈ c.held, ∀ clock, c.clocks[i]? = some clock → clock.duty ∉ c.pending
  nodup : c.pending.Nodup
  /-- The flag is up while clocks are to run. -/
  flag : c.running = c.wanted
  /-- Until the flag comes down the timer clock goes on, once it was started. -/
  timers : c.running = true → .timers ∈ c.pending ∨ ∃ i ∈ c.held, c.Live i .timers

theorem orderly_new (m : Machine) : (new m).Orderly where
  finished := nofun
  apart := nofun
  fresh := nofun
  nodup := List.nodup_nil
  flag := rfl
  timers := nofun

/-- A turn changes the phase of one clock. -/
theorem getElem?_turn {i j : Nat} {b : Clock} {phase : Phase} (there : c.clocks[i]? = some clock)
    (h : (c.clocks.set i { clock with phase })[j]? = some b) :
    (j = i ∧ b = { clock with phase }) ∨ (j ≠ i ∧ c.clocks[j]? = some b) := by
  by_cases hj : j = i
  · subst hj
    obtain ⟨hlt, -⟩ := List.getElem?_eq_some_iff.1 there
    rw [List.getElem?_set_self hlt] at h
    exact .inl ⟨rfl, (Option.some.inj h).symm⟩
  · rw [List.getElem?_set_ne (Ne.symm hj)] at h
    exact .inr ⟨hj, h⟩

/-- A turn changes no duty. -/
theorem duty_of_turn {i j : Nat} {b : Clock} {phase : Phase} (there : c.clocks[i]? = some clock)
    (h : (c.clocks.set i { clock with phase })[j]? = some b) :
    ∃ a, c.clocks[j]? = some a ∧ a.duty = b.duty := by
  rcases getElem?_turn there h with ⟨rfl, rfl⟩ | ⟨-, h⟩
  · exact ⟨clock, there, rfl⟩
  · exact ⟨b, h, rfl⟩

/-- **A turn of a clock keeps the order.** -/
theorem Orderly.turn {i : Nat} {phase : Phase} {machine : Machine} (h : c.Orderly)
    (there : c.clocks[i]? = some clock) (hturn : c.turn clock = some (phase, machine)) :
    Orderly { c with machine, clocks := c.clocks.set i { clock with phase } } where
  finished j b hj hfree := by
    rcases getElem?_turn there hj with ⟨rfl, -⟩ | ⟨-, hj⟩
    · -- A clock that is not held has no turn.
      rw [turn_eq_none_iff.2 (h.finished j clock there hfree)] at hturn
      cases hturn
    · exact h.finished j b hj hfree
  apart j hj k hk a b ha hb hduty := by
    obtain ⟨a', ha', hsame⟩ := duty_of_turn there ha
    obtain ⟨b', hb', hsame'⟩ := duty_of_turn there hb
    exact h.apart j hj k hk a' b' ha' hb' (hsame.trans (hduty.trans hsame'.symm))
  fresh j hj b hb := by
    obtain ⟨b', hb', hsame⟩ := duty_of_turn there hb
    exact hsame ▸ h.fresh j hj b' hb'
  nodup := h.nodup
  flag := h.flag
  timers (running : c.running = true) := by
    rcases h.timers running with hpending | ⟨j, hj, live⟩
    · exact .inl hpending
    · obtain ⟨-, live'⟩ := (Deed.turn there hturn).timers nofun running live
      exact .inr ⟨j, hj, live'⟩

/-- A clock that is held once another was started was held before, or is the new one. -/
theorem mem_held_of_spawn {i : Nat} {a : Clock} {duty : Duty} (hi : i ∈ c.held ++ [c.clocks.length])
    (ha : (c.clocks ++ [⟨duty, .looking⟩])[i]? = some a) :
    (i ∈ c.held ∧ c.clocks[i]? = some a) ∨ (i = c.clocks.length ∧ a = ⟨duty, .looking⟩) := by
  by_cases hlt : i < c.clocks.length
  · rw [List.getElem?_append_left hlt] at ha
    rcases List.mem_append.1 hi with hi | hi
    · exact .inl ⟨hi, ha⟩
    · exact absurd (List.mem_singleton.1 hi) (Nat.ne_of_lt hlt)
  · rw [List.getElem?_append_right (Nat.not_lt.1 hlt), List.getElem?_singleton] at ha
    split at ha
    · rename_i hzero
      have hlast : i = c.clocks.length := Nat.le_antisymm (Nat.sub_eq_zero_iff_le.1 hzero)
        (Nat.not_lt.1 hlt)
      exact .inr ⟨hlast, (Option.some.inj ha).symm⟩
    · cases ha

/-- **Setting a clock going keeps the order.** -/
theorem Orderly.spawn {duty : Duty} {rest : List Duty} (h : c.Orderly)
    (hcall : c.call = some (.start (duty :: rest))) :
    Orderly
      { c with
        clocks := c.clocks ++ [⟨duty, .looking⟩]
        held := c.held ++ [c.clocks.length]
        call := some (.start rest) } := by
  have hpending : c.pending = duty :: rest := by rw [pending, hcall]
  obtain ⟨hother, hnodup⟩ := List.nodup_cons.1 (hpending ▸ h.nodup)
  have hdiffers : ∀ i ∈ c.held, ∀ a, c.clocks[i]? = some a → a.duty ≠ duty ∧ a.duty ∉ rest := by
    intro i hi a ha
    have hfresh := h.fresh i hi a ha
    rw [hpending, List.mem_cons, not_or] at hfresh
    exact hfresh
  constructor
  case finished =>
    intro i a ha hfree
    obtain ⟨hheld, hnew⟩ := not_or.1 (mt List.mem_append.2 hfree)
    have hlt : i < c.clocks.length := by
      obtain ⟨hlt, -⟩ := List.getElem?_eq_some_iff.1 ha
      rw [List.length_append, List.length_singleton] at hlt
      exact Nat.lt_of_le_of_ne (Nat.lt_succ_iff.1 hlt) fun heq ↦ hnew (List.mem_singleton.2 heq)
    exact h.finished i a (List.getElem?_append_left hlt ▸ ha) hheld
  case apart =>
    intro i hi j hj a b ha hb hduty
    rcases mem_held_of_spawn hi ha with ⟨hi, ha⟩ | ⟨rfl, rfl⟩ <;>
      rcases mem_held_of_spawn hj hb with ⟨hj, hb⟩ | ⟨rfl, rfl⟩
    · exact h.apart i hi j hj a b ha hb hduty
    · exact absurd hduty (hdiffers i hi a ha).1
    · exact absurd hduty.symm (hdiffers j hj b hb).1
    · rfl
  case fresh =>
    intro i hi a ha
    rcases mem_held_of_spawn hi ha with ⟨hi, ha⟩ | ⟨rfl, rfl⟩
    · exact (hdiffers i hi a ha).2
    · exact hother
  case nodup => exact hnodup
  case flag =>
    have hflag := h.flag
    rw [wanted, hcall] at hflag
    exact hflag
  case timers =>
    intro running
    rcases h.timers running with hmem | ⟨i, hi, live⟩
    · rw [hpending, List.mem_cons] at hmem
      rcases hmem with rfl | hmem
      · -- It is the timer clock that is set going.
        exact .inr ⟨c.clocks.length, List.mem_append_right _ List.mem_cons_self, .looking,
          List.getElem?_concat_length, nofun⟩
      · exact .inl hmem
    · obtain ⟨-, live'⟩ := (Deed.spawn hcall).timers nofun running live
      exact .inr ⟨i, List.mem_append_left _ hi, live'⟩

/-- **Every action keeps the order.** -/
theorem Orderly.deed (h : c.Orderly) (deed : Deed c action d) : d.Orderly := by
  cases deed with
  | turn there hturn => exact h.turn there hturn
  | spawn hcall => exact h.spawn hcall
  | startAgain => exact h
  | key => exact ⟨h.finished, h.apart, h.fresh, h.nodup, h.flag, h.timers⟩
  | start _ free =>
    have hnone : ∀ i, i ∉ c.held := by
      rw [free]
      exact fun _ ↦ List.not_mem_nil
    have hnodup : [Duty.instructions, Duty.timers].Nodup := by decide
    exact ⟨h.finished, h.apart, fun i hi ↦ absurd hi (hnone i), hnodup, rfl,
      fun _ ↦ .inl (List.mem_cons_of_mem _ List.mem_cons_self)⟩
  | started hcall =>
    have hpending : c.pending = [] := by rw [Clockwork.pending, hcall]
    have hflag := h.flag
    rw [wanted, hcall] at hflag
    rcases h.timers hflag with hmem | ⟨i, hi, hlive⟩
    · rw [hpending] at hmem
      cases hmem
    · have hheld : c.held.isEmpty = false := List.isEmpty_eq_false_iff.2 (List.ne_nil_of_mem hi)
      refine ⟨h.finished, h.apart, fun _ _ _ _ ↦ List.not_mem_nil, List.nodup_nil, ?_,
        fun _ ↦ .inr ⟨i, hi, hlive⟩⟩
      show c.running = !c.held.isEmpty
      rw [hflag, hheld]
      rfl
  | stop idle =>
    have hflag := h.flag
    rw [wanted, idle] at hflag
    have hdown : (c.running && c.held.isEmpty) = false := by
      rw [hflag, Bool.not_and_self]
    refine ⟨h.finished, h.apart, fun _ _ _ _ ↦ List.not_mem_nil, List.nodup_nil, hdown,
      fun running ↦ ?_⟩
    exact absurd (hdown.symm.trans running) Bool.false_ne_true
  | @letGo purpose i held hcall first hfinished =>
    have hflag := h.flag
    rw [wanted, hcall] at hflag
    have hsub : ∀ j ∈ held, j ∈ c.held := fun j hj ↦ first ▸ List.mem_cons_of_mem _ hj
    refine ⟨fun j b hb hfree ↦ ?_, fun j hj k hk ↦ h.apart j (hsub j hj) k (hsub k hk),
      fun j hj ↦ h.fresh j (hsub j hj), h.nodup, ?_, fun running ↦ ?_⟩
    · by_cases hji : j = i
      · exact hfinished b (hji ▸ hb)
      · refine h.finished j b hb fun hj ↦ ?_
        rw [first, List.mem_cons] at hj
        exact hj.elim hji hfree
    · show c.running = wanted _
      rw [hflag, wanted, hcall]
    · exact absurd (hflag.symm.trans running) Bool.false_ne_true
  | stopped hcall free =>
    have hflag := h.flag
    rw [wanted, hcall] at hflag
    refine ⟨h.finished, h.apart, fun _ _ _ _ ↦ List.not_mem_nil, List.nodup_nil, ?_,
      fun running ↦ absurd (hflag.symm.trans running) Bool.false_ne_true⟩
    show c.running = !c.held.isEmpty
    rw [hflag, free]
    rfl

/-- **Clocks and controller are in order after every interleaving.** -/
theorem orderly_performAll {m : Machine} {actions : List Action}
    (hall : (new m).performAll actions = some c) : c.Orderly :=
  performAll_of_deed (Q := fun _ ↦ True) (fun _ deed h ↦ h.deed deed) (fun _ _ ↦ trivial)
    (orderly_new m) hall

end Clockwork

end ChipEight
