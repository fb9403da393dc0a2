/-
A sporadic timer and its owner, step by step.

The thread of a sporadic timer sends a firing, calls `Halt` and then polls its
pipe; these are separate steps, and the owner, who starts the timer again after
each firing it has received, may call `Start` between any two of them.  `Start`
and `Halt` do nothing unless `has_started_` has the other value.

* `Phase` — the abstract timer: what the thread, the flag and the pipe can be
  like together, and how a step moves it (`inPhase_next`);
* `iteration_of_steps` — without a call in between, the three steps are one
  iteration of the loop;
* `restarts_kept_iff` — no restart is lost iff no `Start` comes between a firing
  and the `Halt` that belongs to it.
-/
import RiapsCore.PeriodicTimer

open Runs

namespace Riaps

/-- Where the thread is in its loop. -/
inductive LoopPoint where
  | top
  | halting
  | polling
deriving DecidableEq

/-- The thread, how many firings the owner has received, and how many times it
is still to call `Start`: once at first and once for each firing received. -/
structure SporadicTimer where
  actor : TimerActor
  point : LoopPoint
  received : ℕ
  owed : ℕ
deriving DecidableEq

namespace SporadicTimer

/-- A timer with the interval 0 whose delay has been set. -/
def init (delay now clock : Timespec) : SporadicTimer :=
  ⟨.init ((PeriodicTimer.new 0 now).setDelay delay) clock, .top, 0, 1⟩

/-- A step of the thread, or of the owner. -/
inductive Event where
  | fire (clock : Timespec)
  | halt
  | poll (clock : Timespec)
  | receive
  | start (clock : Timespec)

/-- The step function.  A thread that is not started goes on to poll. -/
def next (s : SporadicTimer) : Event → Option SporadicTimer
  | .fire clock =>
    if s.point = .top ∧ s.actor.started ∧ ¬ s.actor.skips then
      some { s with actor := s.actor.fire clock, point := .halting }
    else none
  | .halt =>
    if s.point = .halting then
      some { s with actor := s.actor.haltSporadic, point := .polling }
    else none
  | .poll clock =>
    if s.point = .polling ∨ s.point = .top ∧ ¬ s.actor.started then
      some { s with actor := s.actor.poll clock, point := .top }
    else none
  | .receive =>
    if s.received < s.actor.frames.length then
      some { s with received := s.received + 1, owed := s.owed + 1 }
    else none
  | .start clock =>
    if 0 < s.owed then
      some { s with
        actor := { s.actor with timer := s.actor.timer.start clock }, owed := s.owed - 1 }
    else none

/-- The step is a call of `Start`. -/
def Event.isStart : Event → Bool
  | .start _ => true
  | _ => false

/-- Without a step of the owner in between, the steps of the thread make up one
iteration of its loop. -/
theorem iteration_of_steps {s : SporadicTimer} (htop : s.point = .top)
    (hskips : s.actor.skips = false) (clock : TimerClock) :
    (if s.actor.started then
        (next s (.fire clock.atFire)).bind fun s =>
          (next s .halt).bind fun s => next s (.poll clock.atStart)
      else next s (.poll clock.atStart))
      = some { s with actor := s.actor.iteration clock } := by
  by_cases hstarted : s.actor.started = true
  · simp [TimerActor.iteration, next, htop, hstarted, hskips]
  · simp [TimerActor.iteration, next, htop, hstarted, hskips]

/-! ### The phases of a timer -/

/-- What thread, flag and pipe are like together.  The last three are those of a
timer whose restart is lost. -/
inductive Phase where
  | idle
  | commanded
  | armed
  | fired
  | halted
  | restarted
  | lostFired
  | lostHalted
  | lost
deriving DecidableEq

namespace Phase

def point : Phase → LoopPoint
  | .fired | .lostFired => .halting
  | .halted | .restarted | .lostHalted => .polling
  | _ => .top

/-- The `started` of the thread. -/
def started : Phase → Bool
  | .idle | .commanded | .lost => false
  | _ => true

def hasStarted : Phase → Bool
  | .idle | .halted | .lostHalted | .lost => false
  | _ => true

def pipe : Phase → List TimerCommand
  | .commanded => [.start]
  | .halted | .lostHalted => [.halt]
  | .restarted => [.halt, .start]
  | _ => []

/-- How many calls of `Start` are to come. -/
def outstanding : Phase → ℕ
  | .idle | .fired | .halted => 1
  | _ => 0

/-- The phases without a way back. -/
def isLost : Phase → Bool
  | .lostFired | .lostHalted | .lost => true
  | _ => false

/-- There has been a firing for sure. -/
def hasFired (p : Phase) : Bool := p.isLost || p = .fired

/-- The phase after a step. -/
def after : Phase → Event → Phase
  | .idle, .start _ => .commanded
  | .commanded, .poll _ => .armed
  | .armed, .fire _ => .fired
  | .fired, .halt => .halted
  | .fired, .start _ => .lostFired
  | .halted, .poll _ => .idle
  | .halted, .start _ => .restarted
  | .restarted, .poll _ => .commanded
  | .lostFired, .halt => .lostHalted
  | .lostHalted, .poll _ => .lost
  | p, _ => p

end Phase

/-- The state is in a phase. -/
structure InPhase (p : Phase) (s : SporadicTimer) : Prop where
  sporadic : s.actor.timer.hasDelay = true
  delay : s.actor.timer.delay ≠ ⟨0, 0⟩
  point : s.point = p.point
  started : s.actor.started = p.started
  hasStarted : s.actor.timer.hasStarted = p.hasStarted
  pipe : s.actor.timer.pipe = p.pipe
  received : s.received ≤ s.actor.frames.length
  outstanding : s.owed + s.actor.frames.length = p.outstanding + s.received
  hasFired : p.hasFired = true → s.actor.frames ≠ []

section

variable {p : Phase} {s s' : SporadicTimer} {clock : Timespec}

theorem inPhase_init {delay : Timespec} (hdelay : delay ≠ ⟨0, 0⟩) (now clock : Timespec) :
    InPhase .idle (init delay now clock) :=
  ⟨rfl, hdelay, rfl, rfl, rfl, rfl, le_rfl, rfl, fun hp => by cases hp⟩

/-- Only an armed timer fires. -/
theorem inPhase_fire (h : InPhase p s) (hs : next s (.fire clock) = some s') :
    InPhase (p.after (.fire clock)) s' := by
  rw [next, Option.ite_none_right_eq_some, Option.some_inj] at hs
  obtain ⟨⟨hpoint, hstarted, -⟩, rfl⟩ := hs
  rw [h.point] at hpoint
  rw [h.started] at hstarted
  cases p with
  | armed =>
    have hout : s.owed + s.actor.frames.length = 0 + s.received := h.outstanding
    have hlen : (s.actor.fire clock).frames.length = s.actor.frames.length + 1 := by
      simp [TimerActor.fire]
    have hrec := h.received
    refine ⟨h.sporadic, h.delay, rfl, h.started, h.hasStarted, h.pipe, ?_, ?_, fun _ => ?_⟩
    · show s.received ≤ (s.actor.fire clock).frames.length
      omega
    · show s.owed + (s.actor.fire clock).frames.length = 1 + s.received
      omega
    · exact List.append_ne_nil_of_right_ne_nil _ (List.cons_ne_nil _ _)
  | idle | commanded | lost => simp [Phase.started] at hstarted
  | fired | halted | restarted | lostFired | lostHalted => simp [Phase.point] at hpoint

/-- `Halt` sends its command in both phases that it can be called in. -/
theorem inPhase_halt (h : InPhase p s) (hs : next s .halt = some s') :
    InPhase (p.after .halt) s' := by
  rw [next, Option.ite_none_right_eq_some, Option.some_inj] at hs
  obtain ⟨hpoint, rfl⟩ := hs
  rw [h.point] at hpoint
  have hhalt : p.hasStarted = true → s.actor.haltSporadic =
      { s.actor with
        timer :=
          { s.actor.timer with hasStarted := false, pipe := s.actor.timer.pipe ++ [.halt] } } := by
    intro hp
    rw [TimerActor.haltSporadic, if_pos h.sporadic, PeriodicTimer.halt,
      if_pos (h.hasStarted.trans hp)]
  cases p with
  | fired =>
    rw [hhalt rfl, h.pipe]
    exact ⟨h.sporadic, h.delay, rfl, h.started, rfl, rfl, h.received, h.outstanding,
      fun hp => by cases hp⟩
  | lostFired =>
    rw [hhalt rfl, h.pipe]
    exact ⟨h.sporadic, h.delay, rfl, h.started, rfl, rfl, h.received, h.outstanding, h.hasFired⟩
  | idle | commanded | armed | halted | restarted | lostHalted | lost =>
    simp [Phase.point] at hpoint

/-- A poll takes the command that the phase says. -/
theorem inPhase_poll (h : InPhase p s) (hs : next s (.poll clock) = some s') :
    InPhase (p.after (.poll clock)) s' := by
  rw [next, Option.ite_none_right_eq_some, Option.some_inj] at hs
  obtain ⟨hpoint, rfl⟩ := hs
  rw [h.point, h.started] at hpoint
  cases p with
  | idle | lost =>
    rw [TimerActor.poll_nil h.pipe]
    exact ⟨h.sporadic, h.delay, rfl, h.started, h.hasStarted, h.pipe, h.received, h.outstanding,
      h.hasFired⟩
  | commanded | halted | restarted =>
    obtain ⟨now, hpoll, -⟩ := TimerActor.poll_cons h.pipe clock
    rw [hpoll]
    exact ⟨h.sporadic, h.delay, rfl, rfl, h.hasStarted, rfl, h.received, h.outstanding,
      fun hp => by cases hp⟩
  | lostHalted =>
    obtain ⟨now, hpoll, -⟩ := TimerActor.poll_cons h.pipe clock
    rw [hpoll]
    exact ⟨h.sporadic, h.delay, rfl, rfl, h.hasStarted, rfl, h.received, h.outstanding, h.hasFired⟩
  | armed | fired | lostFired => simp [Phase.point, Phase.started] at hpoint

theorem inPhase_receive (h : InPhase p s) (hs : next s .receive = some s') : InPhase p s' := by
  rw [next, Option.ite_none_right_eq_some, Option.some_inj] at hs
  obtain ⟨hlt, rfl⟩ := hs
  refine ⟨h.sporadic, h.delay, h.point, h.started, h.hasStarted, h.pipe, hlt, ?_, h.hasFired⟩
  have hout := h.outstanding
  show s.owed + 1 + s.actor.frames.length = p.outstanding + (s.received + 1)
  omega

/-- `Start` sends its command unless the timer has fired and not been halted. -/
theorem inPhase_start (h : InPhase p s) (hs : next s (.start clock) = some s') :
    InPhase (p.after (.start clock)) s' := by
  rw [next, Option.ite_none_right_eq_some, Option.some_inj] at hs
  obtain ⟨howed, rfl⟩ := hs
  have hout := h.outstanding
  have hrec := h.received
  have hless : s.owed - 1 + s.actor.frames.length = p.outstanding - 1 + s.received := by omega
  cases p with
  | idle | halted =>
    have hstart : s.actor.timer.start clock =
        { s.actor.timer with
          hasStarted := true, now := clock, pipe := s.actor.timer.pipe ++ [.start] } := by
      rw [PeriodicTimer.start, if_pos (by rw [h.hasStarted]; decide)]
    rw [hstart, h.pipe]
    exact ⟨h.sporadic, h.delay, h.point, h.started, rfl, rfl, h.received, hless,
      fun hp => by cases hp⟩
  | fired =>
    have hstart : s.actor.timer.start clock = s.actor.timer := by
      rw [PeriodicTimer.start, if_neg (by rw [h.hasStarted]; decide)]
    rw [hstart]
    exact ⟨h.sporadic, h.delay, h.point, h.started, h.hasStarted, h.pipe, h.received, hless,
      fun _ => h.hasFired rfl⟩
  | commanded | armed | restarted | lostFired | lostHalted | lost =>
    simp only [Phase.outstanding] at hout
    omega

/-- **A step moves the timer to the next phase.** -/
theorem inPhase_next {e : Event} (h : InPhase p s) (hs : next s e = some s') :
    InPhase (p.after e) s' := by
  cases e with
  | fire clock => exact inPhase_fire h hs
  | halt => exact inPhase_halt h hs
  | poll clock => exact inPhase_poll h hs
  | receive =>
    have hsame : p.after .receive = p := by cases p <;> rfl
    rw [hsame]
    exact inPhase_receive h hs
  | start clock => exact inPhase_start h hs

/-! ### Restarts -/

/-- If the owner has answered the last firing, the `Halt` that belongs to it is
done and the pipe is drained, then the timer is started. -/
def RestartKept (s : SporadicTimer) : Prop :=
  s.actor.frames ≠ [] → s.received = s.actor.frames.length → s.owed = 0 → s.point ≠ .halting →
    s.actor.timer.pipe = [] → s.actor.started = true

instance (s : SporadicTimer) : Decidable (RestartKept s) :=
  inferInstanceAs (Decidable (_ → _))

/-- A restart is lost by a call of `Start` between a firing and its `Halt`. -/
theorem Phase.after_isLost (p : Phase) (e : Event) :
    (p.after e).isLost = true ↔ p.isLost = true ∨ e.isStart = true ∧ p.point = .halting := by
  cases p <;> cases e <;> simp [Phase.after, Phase.isLost, Event.isStart, Phase.point]

theorem restartKept_of_inPhase (h : InPhase p s) (hp : p.isLost = false) : RestartKept s := by
  intro _ hreceived howed hpoint hpipe
  have hout := h.outstanding
  rw [h.point] at hpoint
  rw [h.pipe] at hpipe
  rw [h.started]
  cases p with
  | idle =>
    simp only [Phase.outstanding] at hout
    omega
  | commanded | halted | restarted => cases hpipe
  | armed => rfl
  | fired => exact absurd rfl hpoint
  | lostFired | lostHalted | lost => cases hp

/-- A timer in the last phase has lost a restart. -/
theorem not_restartKept_of_lost (h : InPhase .lost s) : ¬ RestartKept s := by
  intro hkept
  have hout : s.owed + s.actor.frames.length = 0 + s.received := h.outstanding
  have hrec := h.received
  have hstarted := hkept (h.hasFired rfl) (by omega) (by omega) (by rw [h.point]; nofun) h.pipe
  rw [h.started] at hstarted
  cases hstarted

/-- From a lost phase the thread alone reaches the last one. -/
theorem exists_run_lost (h : InPhase p s) (hp : p.isLost = true) :
    ∃ tr s', Run next s tr s' ∧ (∀ t ∈ tr, t.label.isStart = false) ∧ InPhase .lost s' := by
  have hhalted : ∀ s, InPhase .lostHalted s → ∃ tr s', Run next s tr s' ∧
      (∀ t ∈ tr, t.label.isStart = false) ∧ InPhase .lost s' := by
    intro s h
    have hs : next s (.poll ⟨0, 0⟩) =
        some { s with actor := s.actor.poll ⟨0, 0⟩, point := .top } := by
      rw [next, if_pos (.inl h.point)]
    exact ⟨_, _, .snoc .nil hs, by simp [Event.isStart], inPhase_next h hs⟩
  cases p with
  | lostFired =>
    have hs : next s .halt = some { s with actor := s.actor.haltSporadic, point := .polling } := by
      have hpoint : s.point = .halting := h.point
      rw [next, if_pos hpoint]
    obtain ⟨tr, s', hrun, htr, hlost⟩ := hhalted _ (inPhase_next h hs)
    refine ⟨_, s', hrun.cons hs, ?_, hlost⟩
    rw [List.forall_mem_cons]
    exact ⟨rfl, htr⟩
  | lostHalted => exact hhalted s h
  | lost => exact ⟨[], s, .nil, by simp, h⟩
  | idle | commanded | armed | fired | halted | restarted => cases hp

variable {delay now : Timespec} {tr : List (Transition SporadicTimer Event)}

/-- The phase that a run ends in. -/
theorem phase_of_run (hdelay : delay ≠ ⟨0, 0⟩) (h : Run next (init delay now clock) tr s) :
    ∃ p, InPhase p s ∧ (p.isLost = true ↔
      ∃ t ∈ tr, t.label.isStart = true ∧ t.pre.point = .halting) := by
  induction h with
  | nil => exact ⟨.idle, inPhase_init hdelay now clock, by simp [Phase.isLost]⟩
  | @snoc tr s s' e _ hs ih =>
    obtain ⟨p, hp, hlost⟩ := ih
    refine ⟨p.after e, inPhase_next hp hs, ?_⟩
    rw [Phase.after_isLost, hlost, ← hp.point]
    simp [or_and_right, exists_or]

/-- Without such a call, the state at the end has lost no restart. -/
theorem restartKept_of_run (hdelay : delay ≠ ⟨0, 0⟩) (h : Run next (init delay now clock) tr s)
    (hstarts : ∀ t ∈ tr, t.label.isStart = true → t.pre.point ≠ .halting) : RestartKept s := by
  obtain ⟨p, hp, hlost⟩ := phase_of_run hdelay h
  refine restartKept_of_inPhase hp ?_
  rw [← Bool.not_eq_true, hlost]
  rintro ⟨t, ht, hstart, hpoint⟩
  exact hstarts t ht hstart hpoint

/-- **When no restart is lost.**  All states of a run, and all that the thread
reaches from its end while the owner makes no further call, keep the restarts of
the owner iff no call of `Start` in the run came between a firing and the `Halt`
that belongs to it. -/
theorem restarts_kept_iff (hdelay : delay ≠ ⟨0, 0⟩) (h : Run next (init delay now clock) tr s) :
    ((∀ t ∈ tr, RestartKept t.post) ∧
      ∀ tr' s', Run next s tr' s' → (∀ t ∈ tr', t.label.isStart = false) → RestartKept s') ↔
      ∀ t ∈ tr, t.label.isStart = true → t.pre.point ≠ .halting := by
  constructor
  · rintro ⟨-, hlater⟩ t ht hstart hpoint
    obtain ⟨p, hp, hlost⟩ := phase_of_run hdelay h
    obtain ⟨tr', s', hrun, htr', hend⟩ := exists_run_lost hp (hlost.mpr ⟨t, ht, hstart, hpoint⟩)
    exact not_restartKept_of_lost hend (hlater tr' s' hrun htr')
  · intro hstarts
    constructor
    · intro t ht
      obtain ⟨tr₁, tr₂, rfl⟩ := List.append_of_mem ht
      obtain ⟨hrun, hs, -⟩ := h.at_split
      refine restartKept_of_run hdelay (.snoc hrun hs) fun u hu => hstarts u ?_
      rcases List.mem_append.mp hu with hu | hu
      · exact List.mem_append_left _ hu
      · rw [List.mem_singleton.mp hu]
        exact ht
    · intro tr' s' hrun htr'
      refine restartKept_of_run hdelay (h.append hrun) fun u hu hstart => ?_
      rcases List.mem_append.mp hu with hu | hu
      · exact hstarts u hu hstart
      · rw [htr' u hu] at hstart
        cases hstart

/-- The owner answers a firing after the `Halt`: the timer is started again. -/
theorem restart_after_halt :
    ∃ tr s, Run next (init ⟨1, 0⟩ ⟨0, 0⟩ ⟨0, 0⟩) tr s ∧ s.actor.frames.length = 1 ∧
      s.received = 1 ∧ s.owed = 0 ∧ s.actor.timer.pipe = [] ∧ s.actor.started = true := by
  obtain ⟨tr, s, hrun, hfired, hreceived, howed, hpoint, hpipe, hstarts⟩ :=
    exists_run_of_replay next (init ⟨1, 0⟩ ⟨0, 0⟩ ⟨0, 0⟩)
      (fun tr s => s.actor.frames.length = 1 ∧ s.received = 1 ∧ s.owed = 0 ∧ s.point ≠ .halting ∧
        s.actor.timer.pipe = [] ∧
        ∀ t ∈ tr, t.label.isStart = true → t.pre.point ≠ .halting)
      [.start ⟨0, 0⟩, .poll ⟨0, 0⟩, .fire ⟨0, 0⟩, .receive, .halt, .start ⟨2, 0⟩, .poll ⟨2, 0⟩,
        .poll ⟨2, 0⟩] (by decide)
  have hkept : RestartKept s :=
    ((restarts_kept_iff (by decide) hrun).mpr hstarts).2 [] s .nil (by simp)
  have hframes : s.actor.frames ≠ [] := List.ne_nil_of_length_eq_add_one hfired
  exact ⟨tr, s, hrun, hfired, hreceived, howed, hpipe,
    hkept hframes (hreceived.trans hfired.symm) howed hpoint hpipe⟩

/-- The owner answers before the `Halt`: the timer stays halted. -/
theorem restart_before_halt_lost :
    ∃ tr s, Run next (init ⟨1, 0⟩ ⟨0, 0⟩ ⟨0, 0⟩) tr s ∧ s.actor.frames.length = 1 ∧
      s.received = 1 ∧ s.owed = 0 ∧ s.point = .top ∧ s.actor.timer.pipe = [] ∧
      s.actor.started = false ∧ ¬ RestartKept s :=
  exists_run_of_replay next (init ⟨1, 0⟩ ⟨0, 0⟩ ⟨0, 0⟩)
    (fun _ s => s.actor.frames.length = 1 ∧ s.received = 1 ∧ s.owed = 0 ∧ s.point = .top ∧
      s.actor.timer.pipe = [] ∧ s.actor.started = false ∧ ¬ RestartKept s)
    [.start ⟨0, 0⟩, .poll ⟨0, 0⟩, .fire ⟨0, 0⟩, .receive, .start ⟨2, 0⟩, .halt, .poll ⟨2, 0⟩]
    (by decide)

end

end SporadicTimer

end Riaps
