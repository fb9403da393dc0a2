/-
The timer port of a component (`PeriodicTimer` and its thread `ptimeractor`,
`src/componentmodel/ports/r_periodictimer.cc`).

The owner and the thread share the members of the timer.  The owner's `Start`,
`Halt` and `Stop` send a command on the pipe of the thread, which takes one
command in each iteration of its loop.  A timer with a period fires at multiples
of it; one with the period 0 is sporadic: it fires once after the delay that is
set, and its thread then calls `Halt` itself.

* `advance_spec` — adding a period with a carry, exactly;
* `frames_exact` — after `START` the frames carry the multiples of the period;
* `exits_iff` — which queues of commands the thread reads to the end: it never
  reads one again once it is started with a delay of zero.
-/
import RiapsCore.Runs
import RiapsCore.Timespecs
import Mathlib.Tactic.Ring

open Runs

namespace Riaps

/-- A command on the pipe: `CMD_START`, `CMD_HALT` and `$TERM`. -/
inductive TimerCommand where
  | start
  | halt
  | term
deriving DecidableEq

/-- The members of `PeriodicTimer`, with what is on the pipe to its thread. -/
structure PeriodicTimer where
  interval : UInt64
  delay : Timespec
  hasStarted : Bool
  now : Timespec
  pipe : List TimerCommand
deriving DecidableEq

namespace PeriodicTimer

/-- The constructor, which does not initialise `now_`. -/
def new (period : UInt64) (now : Timespec) : PeriodicTimer := ⟨period, ⟨0, 0⟩, false, now, []⟩

/-- `has_delay()`: the timer is sporadic. -/
def hasDelay (t : PeriodicTimer) : Bool := t.interval = 0

/-- `delay(value)`. -/
def setDelay (t : PeriodicTimer) (value : Timespec) : PeriodicTimer := { t with delay := value }

/-- `Start()`, which reads the clock. -/
def start (t : PeriodicTimer) (clock : Timespec) : PeriodicTimer :=
  if ¬ t.hasStarted then
    { t with hasStarted := true, now := clock, pipe := t.pipe ++ [.start] }
  else t

/-- `Halt()`. -/
def halt (t : PeriodicTimer) : PeriodicTimer :=
  if t.hasStarted then { t with hasStarted := false, pipe := t.pipe ++ [.halt] } else t

/-- `Stop()`: `zactor_destroy` sends `$TERM` and waits for the thread. -/
def stop (t : PeriodicTimer) : PeriodicTimer := { t with pipe := t.pipe ++ [.term] }

/-- The period of the timer as a `timespec`. -/
def period (t : PeriodicTimer) : Timespec :=
  ⟨(t.interval / 1000).toInt64, (t.interval % 1000 * 1000000).toInt64⟩

end PeriodicTimer

/-- Add `period` to `now`, with the carry of a second.  The source compares and
subtracts with the `double` `1E9`, which is exact for times in normal form. -/
def advance (now period : Timespec) : Timespec :=
  let tvSec := now.tvSec + period.tvSec
  if now.tvNsec + period.tvNsec ≥ Int64.ofNat billion then
    ⟨tvSec + 1, now.tvNsec + period.tvNsec - Int64.ofNat billion⟩
  else ⟨tvSec, now.tvNsec + period.tvNsec⟩

/-- The thread: the timer it was given and its local variables.  `frames` are the
frames it has sent and `taken` the commands it has received. -/
structure TimerActor where
  timer : PeriodicTimer
  period : Timespec
  started : Bool
  terminated : Bool
  frames : List Timespec
  taken : List TimerCommand
deriving DecidableEq

/-- What an iteration reads from the clock, before it fires and when it receives
`START`. -/
structure TimerClock where
  atFire : Timespec
  atStart : Timespec
deriving DecidableEq

namespace TimerActor

/-- The thread before its loop. -/
def init (t : PeriodicTimer) (clock : Timespec) : TimerActor :=
  ⟨{ t with now := clock }, t.period, false, false, [], []⟩

/-- The loop leaves the iteration with `continue`: the delay is zero. -/
def skips (a : TimerActor) : Bool := a.started && a.timer.hasDelay && a.timer.delay = ⟨0, 0⟩

/-- Choose the period, advance `now` and send a frame with it. -/
def fire (a : TimerActor) (clock : Timespec) : TimerActor :=
  let period := if a.timer.hasDelay then a.timer.delay else a.period
  let now := advance (if a.timer.hasDelay then clock else a.timer.now) period
  { a with timer := { a.timer with now := now }, period := period, frames := a.frames ++ [now] }

/-- A sporadic timer halts itself when it has fired. -/
def haltSporadic (a : TimerActor) : TimerActor :=
  if a.timer.hasDelay then { a with timer := a.timer.halt } else a

/-- Take one command from the pipe, if there is one. -/
def poll (a : TimerActor) (clock : Timespec) : TimerActor :=
  match a.timer.pipe with
  | [] => a
  | c :: pipe =>
    let a := { a with timer := { a.timer with pipe := pipe }, taken := a.taken ++ [c] }
    match c with
    | .term => { a with terminated := true }
    | .start => { a with started := true, timer := { a.timer with now := clock } }
    | .halt => { a with started := false }

/-- One iteration of the loop. -/
def iteration (a : TimerActor) (clock : TimerClock) : TimerActor :=
  if a.skips then { a with period := a.timer.delay }
  else if a.started then ((a.fire clock.atFire).haltSporadic).poll clock.atStart
  else a.poll clock.atStart

/-- The loop, for as many iterations as there are clock readings. -/
def loop (a : TimerActor) (clocks : List TimerClock) : TimerActor :=
  clocks.foldl (fun a clock => if a.terminated then a else a.iteration clock) a

/-- An iteration of the thread, or a call of the owner. -/
inductive Event where
  | iteration (clock : TimerClock)
  | start (clock : Timespec)
  | halt
  | stop
  | setDelay (value : Timespec)

/-- The step function of runs of a timer. -/
def next (a : TimerActor) : Event → Option TimerActor
  | .iteration clock => if a.terminated then none else some (a.iteration clock)
  | .start clock => some { a with timer := a.timer.start clock }
  | .halt => some { a with timer := a.timer.halt }
  | .stop => some { a with timer := a.timer.stop }
  | .setDelay value => some { a with timer := a.timer.setDelay value }

end TimerActor

/-! ### Periods -/

theorem PeriodicTimer.hasDelay_eq_false {t : PeriodicTimer} (h : t.interval ≠ 0) :
    t.hasDelay = false :=
  decide_eq_false h

/-- The period in nanoseconds. -/
theorem PeriodicTimer.period_spec (t : PeriodicTimer) :
    t.period.Normalised ∧ 0 ≤ t.period.tvSec.toInt ∧ t.period.ns = t.interval.toNat * 1000000 := by
  have hlt := t.interval.toNat_lt
  have hdiv : (t.interval / 1000).toNat = t.interval.toNat / 1000 := UInt64.toNat_div _ _
  have hmod : (t.interval % 1000).toNat = t.interval.toNat % 1000 := UInt64.toNat_mod _ _
  have hmul : (t.interval % 1000 * 1000000).toNat = t.interval.toNat % 1000 * 1000000 := by
    rw [UInt64.toNat_mul, hmod]
    exact Nat.mod_eq_of_lt (show t.interval.toNat % 1000 * 1000000 < 2 ^ 64 by omega)
  have hsec : t.period.tvSec.toInt = t.interval.toNat / 1000 := by
    rw [period, toInt_toInt64_of_lt (by omega), hdiv]
    omega
  have hnsec : t.period.tvNsec.toInt = t.interval.toNat % 1000 * 1000000 := by
    rw [period, toInt_toInt64_of_lt (by omega), hmul]
    omega
  rw [Timespec.normalised_iff, Timespec.ns_eq, hsec, hnsec]
  omega

/-- One carry is enough, and the sum is exact while its seconds fit. -/
theorem advance_spec {now period : Timespec} (hnow : now.Normalised) (hperiod : period.Normalised)
    (hsec : 0 ≤ period.tvSec.toInt) (hfits : (now.ns + period.ns) / billion < 2 ^ 63) :
    (advance now period).Normalised ∧ (advance now period).ns = now.ns + period.ns := by
  have hlow := now.tvSec.le_toInt
  simp only [Timespec.normalised_iff, Timespec.ns_eq, billion] at hnow hperiod hfits ⊢
  have hnsec : (now.tvNsec + period.tvNsec).toInt = now.tvNsec.toInt + period.tvNsec.toInt :=
    toInt_add_of_fits rfl (by omega) (by omega)
  have hsum : (now.tvSec + period.tvSec).toInt = now.tvSec.toInt + period.tvSec.toInt :=
    toInt_add_of_fits rfl (by omega) (by omega)
  by_cases hcarry : now.tvNsec + period.tvNsec ≥ Int64.ofNat billion
  · rw [advance, if_pos hcarry]
    rw [ge_iff_le, Int64.le_iff_toInt_le, hnsec, toInt_billion] at hcarry
    have hsec' : (now.tvSec + period.tvSec + 1).toInt
        = now.tvSec.toInt + period.tvSec.toInt + 1 :=
      toInt_add_of_fits (by rw [hsum, toInt_one]) (by omega) (by omega)
    have hnsec' : (now.tvNsec + period.tvNsec - Int64.ofNat billion).toInt
        = now.tvNsec.toInt + period.tvNsec.toInt - 1000000000 :=
      toInt_sub_of_fits (by rw [hnsec, toInt_billion]) (by omega) (by omega)
    simp only [hsec', hnsec']
    omega
  · rw [advance, if_neg hcarry]
    rw [ge_iff_le, Int64.le_iff_toInt_le, hnsec, toInt_billion] at hcarry
    simp only [hsum, hnsec]
    omega

/-! ### The loop -/

namespace TimerActor

variable {a : TimerActor}

/-- What halting itself does to the timer: `HALT` may be sent. -/
theorem haltSporadic_spec (a : TimerActor) :
    ∃ own started, a.haltSporadic =
      { a with timer := { a.timer with hasStarted := started, pipe := a.timer.pipe ++ own } } := by
  rw [haltSporadic, PeriodicTimer.halt]
  split
  · split
    · exact ⟨[.halt], false, rfl⟩
    · exact ⟨[], a.timer.hasStarted, by simp⟩
  · exact ⟨[], a.timer.hasStarted, by simp⟩

/-- Whether the timer is started after a command. -/
def startedAfter (started : Bool) : TimerCommand → Bool
  | .term => started
  | .start => true
  | .halt => false

/-- What taking a command does. -/
theorem poll_cons {c : TimerCommand} {pipe : List TimerCommand} (h : a.timer.pipe = c :: pipe)
    (clock : Timespec) :
    ∃ now, a.poll clock =
      { a with
        timer := { a.timer with now := now, pipe := pipe }
        started := startedAfter a.started c
        terminated := a.terminated || c = .term
        taken := a.taken ++ [c] } ∧ (c = .start → now = clock) := by
  rw [poll, h]
  cases c with
  | term => exact ⟨a.timer.now, by simp [startedAfter], by simp⟩
  | start => exact ⟨clock, by simp [startedAfter], by simp⟩
  | halt => exact ⟨a.timer.now, by simp [startedAfter], by simp⟩

theorem poll_nil (h : a.timer.pipe = []) (clock : Timespec) : a.poll clock = a := by
  rw [poll, h]

/-- An iteration that does not skip takes the next command. -/
theorem iteration_cons {c : TimerCommand} {pipe : List TimerCommand} (hskips : a.skips = false)
    (h : a.timer.pipe = c :: pipe) (clock : TimerClock) :
    ∃ own, (a.iteration clock).timer.pipe = pipe ++ own ∧
      (a.iteration clock).timer.interval = a.timer.interval ∧
      (a.iteration clock).timer.delay = a.timer.delay ∧
      (a.iteration clock).started = startedAfter a.started c ∧
      (a.iteration clock).terminated = (a.terminated || c = .term) ∧
      (a.iteration clock).taken = a.taken ++ [c] := by
  rw [iteration, if_neg (by rw [hskips]; exact Bool.false_ne_true)]
  split
  · obtain ⟨own, started, hhalt⟩ := (a.fire clock.atFire).haltSporadic_spec
    have hpipe : (a.fire clock.atFire).haltSporadic.timer.pipe = c :: (pipe ++ own) := by
      rw [hhalt]
      show a.timer.pipe ++ own = _
      rw [h, List.cons_append]
    obtain ⟨now, hpoll, -⟩ := poll_cons hpipe clock.atStart
    rw [hpoll, hhalt]
    exact ⟨own, rfl, rfl, rfl, rfl, rfl, rfl⟩
  · obtain ⟨now, hpoll, -⟩ := poll_cons h clock.atStart
    rw [hpoll]
    exact ⟨[], (List.append_nil pipe).symm, rfl, rfl, rfl, rfl, rfl⟩

theorem loop_cons (halive : a.terminated = false) (clock : TimerClock) (clocks : List TimerClock) :
    a.loop (clock :: clocks) = (a.iteration clock).loop clocks := by
  rw [loop, List.foldl_cons, halive]
  rfl

/-! ### The end of the thread -/

/-- The timer is sporadic and its delay is zero. -/
def ZeroDelay (a : TimerActor) : Prop := a.timer.hasDelay = true ∧ a.timer.delay = ⟨0, 0⟩

instance (a : TimerActor) : Decidable a.ZeroDelay :=
  inferInstanceAs (Decidable (_ ∧ _))

theorem skips_iff (a : TimerActor) : a.skips = true ↔ a.started = true ∧ a.ZeroDelay := by
  rw [skips, Bool.and_eq_true, Bool.and_eq_true, decide_eq_true_eq, ZeroDelay, and_assoc]

theorem zeroDelay_congr {a' : TimerActor} (hinterval : a'.timer.interval = a.timer.interval)
    (hdelay : a'.timer.delay = a.timer.delay) : a'.ZeroDelay ↔ a.ZeroDelay := by
  rw [ZeroDelay, ZeroDelay, PeriodicTimer.hasDelay, PeriodicTimer.hasDelay, hinterval, hdelay]

/-- Whether a thread that takes the commands of the queue is started in between. -/
def Starts (started : Bool) (queue : List TimerCommand) : Prop := started = true ∨ .start ∈ queue

theorem starts_cons {started : Bool} {c : TimerCommand} {queue : List TimerCommand}
    (h : started = false) (hterm : c ≠ .term) :
    Starts started (c :: queue) ↔ Starts (startedAfter started c) queue := by
  cases c with
  | term => exact absurd rfl hterm
  | start => simp [Starts, startedAfter]
  | halt => simp [Starts, startedAfter, h]

theorem skips_eq_false {queue : List TimerCommand} (h : ¬ (a.ZeroDelay ∧ Starts a.started queue)) :
    a.skips = false := by
  rw [← Bool.not_eq_true, skips_iff]
  exact fun hskips => h ⟨hskips.2, .inl hskips.1⟩

/-- A thread that never starts with a delay of zero takes one command in each
iteration, up to `$TERM`. -/
theorem loop_exits {queue rest : List TimerCommand} (hqueue : .term ∉ queue)
    (hpipe : a.timer.pipe = queue ++ .term :: rest) (halive : a.terminated = false)
    (hstarts : ¬ (a.ZeroDelay ∧ Starts a.started queue)) (clocks : List TimerClock)
    (hlen : clocks.length = queue.length + 1) :
    (a.loop clocks).terminated = true ∧ (a.loop clocks).taken = a.taken ++ (queue ++ [.term]) := by
  -- on the queue; an iteration may put a `HALT` of its own behind `$TERM`
  induction queue generalizing a rest clocks with
  | nil =>
    obtain ⟨clock, rfl⟩ := List.length_eq_one_iff.mp hlen
    obtain ⟨own, -, -, -, -, hterm, htaken⟩ :=
      iteration_cons (skips_eq_false hstarts) hpipe clock
    rw [loop_cons halive]
    exact ⟨by rw [loop, List.foldl_nil, hterm]; simp, htaken⟩
  | cons c queue ih =>
    obtain ⟨clock, clocks, rfl⟩ := List.exists_cons_of_length_eq_add_one hlen
    rw [List.cons_append] at hpipe
    have hc : c ≠ .term := fun h => hqueue (h ▸ List.mem_cons_self)
    obtain ⟨own, hpipe', hinterval, hdelay, hstarted, hterm, htaken⟩ :=
      iteration_cons (skips_eq_false hstarts) hpipe clock
    have halive' : (a.iteration clock).terminated = false := by
      rw [hterm, halive]
      simp [hc]
    have hstarts' : ¬ ((a.iteration clock).ZeroDelay ∧
        Starts (a.iteration clock).started queue) := by
      rw [zeroDelay_congr hinterval hdelay, hstarted]
      rintro ⟨hzero, hqueue'⟩
      have hfalse : a.started = false := by
        rw [← Bool.not_eq_true]
        exact fun h => hstarts ⟨hzero, .inl h⟩
      exact hstarts ⟨hzero, (starts_cons hfalse hc).mpr hqueue'⟩
    rw [List.append_assoc, List.cons_append] at hpipe'
    obtain ⟨hexit, hread⟩ := ih (fun h => hqueue (List.mem_cons_of_mem c h)) hpipe' halive'
      hstarts' clocks (Nat.succ.inj hlen)
    rw [loop_cons halive]
    refine ⟨hexit, ?_⟩
    rw [hread, htaken, List.append_assoc, List.singleton_append, List.cons_append]

/-- Once it is started with a delay of zero, the thread reads no command. -/
theorem loop_spins {queue rest : List TimerCommand} (hqueue : .term ∉ queue)
    (hpipe : a.timer.pipe = queue ++ rest) (halive : a.terminated = false)
    (hzero : a.ZeroDelay) (hstarts : Starts a.started queue) (clocks : List TimerClock) :
    (a.loop clocks).terminated = false := by
  induction clocks generalizing a queue rest with
  | nil => exact halive
  | cons clock clocks ih =>
    rw [loop_cons halive]
    by_cases hstarted : a.started = true
    · have hskip : a.iteration clock = { a with period := a.timer.delay } := by
        rw [iteration, if_pos ((skips_iff a).mpr ⟨hstarted, hzero⟩)]
      rw [hskip]
      exact ih hqueue hpipe halive hzero (.inl hstarted)
    · rw [Bool.not_eq_true] at hstarted
      have hskips : a.skips = false := by
        rw [skips, hstarted]
        rfl
      obtain ⟨c, queue, rfl⟩ : ∃ c tail, queue = c :: tail := by
        refine List.exists_cons_of_ne_nil ?_
        rintro rfl
        simp [Starts, hstarted] at hstarts
      rw [List.cons_append] at hpipe
      have hc : c ≠ .term := fun h => hqueue (h ▸ List.mem_cons_self)
      obtain ⟨own, hpipe', hinterval, hdelay, hstarted', hterm, -⟩ :=
        iteration_cons hskips hpipe clock
      rw [List.append_assoc] at hpipe'
      refine ih (fun h => hqueue (List.mem_cons_of_mem c h)) hpipe' ?_
        ((zeroDelay_congr hinterval hdelay).mpr hzero) ?_
      · rw [hterm, halive]
        simp [hc]
      · rw [hstarted']
        exact (starts_cons hstarted hc).mp hstarts

/-- **When the timer thread stops.**  With any finite queue of commands that ends
in `$TERM`, in any state, the thread reads the queue and ends after finitely many
iterations, whatever the clock shows, iff it is not sporadic with a delay of zero
and started, now or by a command of the queue. -/
theorem exits_iff (queue : List TimerCommand) (hqueue : .term ∉ queue)
    (hpipe : a.timer.pipe = queue ++ [.term]) (halive : a.terminated = false) :
    (∃ n, ∀ clocks : List TimerClock, clocks.length = n →
        (a.loop clocks).terminated = true ∧
          (a.loop clocks).taken = a.taken ++ (queue ++ [.term])) ↔
      ¬ (a.timer.hasDelay = true ∧ a.timer.delay = ⟨0, 0⟩ ∧
        (a.started = true ∨ .start ∈ queue)) := by
  constructor
  · rintro ⟨n, hexits⟩ ⟨hdelay, hzero, hstarts⟩
    have hspins := loop_spins hqueue hpipe halive ⟨hdelay, hzero⟩ hstarts
      (List.replicate n ⟨⟨0, 0⟩, ⟨0, 0⟩⟩)
    rw [(hexits _ List.length_replicate).1] at hspins
    exact Bool.noConfusion hspins
  · intro hstarts
    refine ⟨queue.length + 1, fun clocks hlen => ?_⟩
    exact loop_exits hqueue hpipe halive (fun h => hstarts ⟨h.1.1, h.1.2, h.2⟩) clocks hlen

/-- A sporadic timer that has no delay yet is halted and stopped. -/
theorem exits_halted :
    ∃ n, ∀ clocks : List TimerClock, clocks.length = n →
      ((init ⟨0, ⟨0, 0⟩, false, ⟨0, 0⟩, [.halt, .term]⟩ ⟨5, 0⟩).loop clocks).terminated = true ∧
        ((init ⟨0, ⟨0, 0⟩, false, ⟨0, 0⟩, [.halt, .term]⟩ ⟨5, 0⟩).loop clocks).taken
          = [.halt, .term] :=
  (exits_iff (a := init ⟨0, ⟨0, 0⟩, false, ⟨0, 0⟩, [.halt, .term]⟩ ⟨5, 0⟩) [.halt]
    (by decide) rfl rfl).mpr (by decide)

/-- It is started and stopped: `START` is read, `$TERM` never is. -/
theorem start_without_delay_hangs :
    (((PeriodicTimer.new 0 ⟨0, 0⟩).start ⟨1, 0⟩).stop).pipe = [.start, .term] ∧
      ∀ clocks : List TimerClock,
        ((init ((PeriodicTimer.new 0 ⟨0, 0⟩).start ⟨1, 0⟩).stop ⟨0, 0⟩).loop clocks).terminated
          = false :=
  ⟨rfl, loop_spins (show .term ∉ [TimerCommand.start] by decide) rfl rfl (by decide)
    (.inr List.mem_cons_self)⟩

/-! ### The frames of a periodic timer -/

/-- The local `period` of a timer that is not sporadic is the one of its interval. -/
def KeepsPeriod (interval : UInt64) (a : TimerActor) : Prop :=
  a.timer.interval = interval ∧ a.period = a.timer.period

/-- What an iteration leaves alone. -/
theorem iteration_interval (a : TimerActor) (clock : TimerClock) :
    (a.iteration clock).timer.interval = a.timer.interval ∧
      (a.timer.hasDelay = false → (a.iteration clock).period = a.period) := by
  have hpoll : ∀ b : TimerActor, (b.poll clock.atStart).timer.interval = b.timer.interval ∧
      (b.poll clock.atStart).period = b.period := by
    intro b
    rcases hpipe : b.timer.pipe with _ | ⟨c, pipe⟩
    · rw [poll_nil hpipe]
      exact ⟨rfl, rfl⟩
    · obtain ⟨now, hb, -⟩ := poll_cons hpipe clock.atStart
      rw [hb]
      exact ⟨rfl, rfl⟩
  rw [iteration]
  split
  · rename_i hskips
    exact ⟨rfl, fun h => absurd ((skips_iff a).mp hskips).2.1 (by simp [h])⟩
  · split
    · obtain ⟨own, started, hhalt⟩ := (a.fire clock.atFire).haltSporadic_spec
      rw [(hpoll _).1, (hpoll _).2, hhalt]
      exact ⟨rfl, fun h => by simp [fire, h]⟩
    · exact ⟨(hpoll a).1, fun _ => (hpoll a).2⟩

/-- No step of a run changes the period. -/
theorem keepsPeriod {interval : UInt64} {now clock : Timespec}
    {tr : List (Transition TimerActor Event)} (hinterval : interval ≠ 0)
    (h : Run next (init (PeriodicTimer.new interval now) clock) tr a) :
    KeepsPeriod interval a := by
  refine (h.invariant (KeepsPeriod interval) (fun _ _ => True) ⟨rfl, rfl⟩ ?_ fun _ _ => trivial).1
  rintro b e b' - ⟨hint, hperiod⟩ hs
  cases e with
  | iteration clock =>
    rw [next, Option.ite_none_left_eq_some, Option.some_inj] at hs
    rw [← hs.2]
    obtain ⟨hint', hperiod'⟩ := b.iteration_interval clock
    have hdelay := PeriodicTimer.hasDelay_eq_false (hint.trans_ne hinterval)
    refine ⟨hint'.trans hint, ?_⟩
    rw [hperiod' hdelay, hperiod, PeriodicTimer.period, PeriodicTimer.period, hint']
  | start clock =>
    rw [← Option.some_inj.mp hs, PeriodicTimer.start]
    split
    · exact ⟨hint, hperiod⟩
    · exact ⟨hint, hperiod⟩
  | halt =>
    rw [← Option.some_inj.mp hs, PeriodicTimer.halt]
    split
    · exact ⟨hint, hperiod⟩
    · exact ⟨hint, hperiod⟩
  | stop =>
    rw [← Option.some_inj.mp hs]
    exact ⟨hint, hperiod⟩
  | setDelay value =>
    rw [← Option.some_inj.mp hs]
    exact ⟨hint, hperiod⟩

/-- The thread after a periodic firing. -/
def ticked (a : TimerActor) : TimerActor :=
  { a with
    timer := { a.timer with now := advance a.timer.now a.period }
    frames := a.frames ++ [advance a.timer.now a.period] }

/-- An iteration of a periodic timer. -/
theorem iteration_periodic (hdelay : a.timer.hasDelay = false) (clock : TimerClock) :
    a.iteration clock = (if a.started then a.ticked else a).poll clock.atStart := by
  have hskips : ¬ a.skips = true := by
    rw [skips_iff]
    exact fun h => absurd h.2.1 (by simp [hdelay])
  have hfire : (a.fire clock.atFire).haltSporadic = a.ticked := by
    have hdelay' : (a.fire clock.atFire).timer.hasDelay = false := hdelay
    rw [haltSporadic, hdelay', fire, hdelay]
    rfl
  rw [iteration, if_neg hskips, hfire]
  split
  · rfl
  · rfl

/-- The iteration that receives `START`, after a firing or without one. -/
theorem iteration_start (hdelay : a.timer.hasDelay = false) (hpipe : a.timer.pipe = [.start])
    (clock : TimerClock) :
    (a.iteration clock).timer = { a.timer with now := clock.atStart, pipe := [] } ∧
      (a.iteration clock).period = a.period ∧ (a.iteration clock).started = true ∧
      (a.iteration clock).terminated = a.terminated := by
  have hpoll : ∀ b : TimerActor, b.timer.pipe = [.start] →
      b.poll clock.atStart =
        { b with
          timer := { b.timer with now := clock.atStart, pipe := [] }
          started := true
          taken := b.taken ++ [.start] } := by
    intro b hb
    rw [poll, hb]
  rw [iteration_periodic hdelay]
  split
  · rw [hpoll a.ticked hpipe]
    exact ⟨rfl, rfl, rfl, rfl⟩
  · rw [hpoll a hpipe]
    exact ⟨rfl, rfl, rfl, rfl⟩

/-- The frames of as many iterations as there are clock readings. -/
theorem loop_frames (hdelay : a.timer.hasDelay = false) (hstarted : a.started = true)
    (hpipe : a.timer.pipe = []) (halive : a.terminated = false) (hnow : a.timer.now.Normalised)
    (hperiod : a.period.Normalised) (hsec : 0 ≤ a.period.tvSec.toInt) (clocks : List TimerClock)
    (hfits : (a.timer.now.ns + clocks.length * a.period.ns) / billion < 2 ^ 63) :
    ∃ frames, (a.loop clocks).frames = a.frames ++ frames ∧ frames.length = clocks.length ∧
      ∀ (k : ℕ) (t : Timespec), frames[k]? = some t →
        t.Normalised ∧ t.ns = a.timer.now.ns + (k + 1) * a.period.ns := by
  induction clocks generalizing a with
  | nil => exact ⟨[], by simp [loop], rfl, by simp⟩
  | cons clock clocks ih =>
    have hpos : 0 ≤ a.period.ns := by
      rw [Timespec.normalised_iff] at hperiod
      rw [Timespec.ns_eq]
      omega
    have hfits' : (a.timer.now.ns + a.period.ns + clocks.length * a.period.ns) / billion
        < 2 ^ 63 := by
      rw [List.length_cons, Nat.cast_add_one, add_mul, one_mul, add_comm (_ * _), ← add_assoc]
        at hfits
      exact hfits
    have hrest : 0 ≤ clocks.length * a.period.ns := Int.mul_nonneg (Int.natCast_nonneg _) hpos
    have hle : (a.timer.now.ns + a.period.ns) / billion
        ≤ (a.timer.now.ns + a.period.ns + clocks.length * a.period.ns) / billion :=
      Int.ediv_le_ediv (by decide) (le_add_of_nonneg_right hrest)
    obtain ⟨hnorm, hns⟩ := advance_spec hnow hperiod hsec (hle.trans_lt hfits')
    rw [loop_cons halive, iteration_periodic hdelay clock, if_pos hstarted,
      poll_nil (a := a.ticked) hpipe]
    obtain ⟨frames, hframes, hlen, hall⟩ :=
      ih (a := a.ticked) hdelay hstarted hpipe halive hnorm hperiod hsec
        (by rw [← hns] at hfits'; exact hfits')
    refine ⟨advance a.timer.now a.period :: frames, ?_, by rw [List.length_cons, hlen]; rfl, ?_⟩
    · rw [hframes]
      exact List.append_assoc _ _ _
    · intro k t hk
      rcases k with _ | k
      · obtain rfl : advance a.timer.now a.period = t := Option.some_inj.mp hk
        rw [Nat.cast_zero, zero_add, one_mul]
        exact ⟨hnorm, hns⟩
      · obtain ⟨ht, htns⟩ := hall k t hk
        refine ⟨ht, ?_⟩
        rw [htns]
        show (advance a.timer.now a.period).ns + (k + 1) * a.period.ns = _
        rw [hns]
        push_cast
        ring

/-- **Periodic firings do not drift.**  When a thread of any run receives `START`
at the time `T0` and no further command comes, the frames of the iterations that
follow carry `T0` and one, two, ... intervals, in normal form, as long as the
seconds fit. -/
theorem frames_exact {interval : UInt64} {now clock : Timespec}
    {tr : List (Transition TimerActor Event)} (hinterval : interval ≠ 0)
    (h : Run next (init (PeriodicTimer.new interval now) clock) tr a)
    (halive : a.terminated = false) (hpipe : a.timer.pipe = [.start]) (read : TimerClock)
    (hT0 : read.atStart.Normalised) (clocks : List TimerClock)
    (hfits : (read.atStart.ns + clocks.length * (interval.toNat * 1000000)) / billion < 2 ^ 63) :
    ∃ frames, ((a.iteration read).loop clocks).frames = (a.iteration read).frames ++ frames ∧
      frames.length = clocks.length ∧
      ∀ (k : ℕ) (t : Timespec), frames[k]? = some t →
        t.ns = read.atStart.ns + (k + 1) * (interval.toNat * 1000000) ∧
          0 ≤ t.tvNsec.toInt ∧ t.tvNsec.toInt < billion := by
  obtain ⟨hint, hperiod⟩ := keepsPeriod hinterval h
  have hdelay := PeriodicTimer.hasDelay_eq_false (hint.trans_ne hinterval)
  obtain ⟨htimer, hlocal, hstarted, hterm⟩ := iteration_start hdelay hpipe read
  obtain ⟨hnorm, hsec, hns⟩ := a.timer.period_spec
  rw [hint] at hns
  rw [hperiod] at hlocal
  obtain ⟨frames, hframes, hlen, hall⟩ :=
    loop_frames (a := a.iteration read) (by rw [htimer]; exact hdelay) hstarted
      (by rw [htimer]) (hterm.trans halive) (by rw [htimer]; exact hT0)
      (by rw [hlocal]; exact hnorm) (by rw [hlocal]; exact hsec) clocks
      (by rw [htimer, hlocal, hns]; exact hfits)
  refine ⟨frames, hframes, hlen, fun k t hk => ?_⟩
  obtain ⟨ht, htns⟩ := hall k t hk
  rw [htimer, hlocal, hns] at htns
  exact ⟨htns, ht⟩

/-- Two firings of a period of 1.5 s, started shortly before a full second. -/
theorem frames_exact_carry :
    ∃ tr a, Run next (init (PeriodicTimer.new 1500 ⟨0, 0⟩) ⟨0, 0⟩) tr a ∧
      ∃ t₁ t₂, ((a.iteration ⟨⟨0, 0⟩, ⟨7, 900000000⟩⟩).loop
          (List.replicate 2 ⟨⟨0, 0⟩, ⟨0, 0⟩⟩)).frames = [t₁, t₂] ∧
        t₁.ns = (⟨7, 900000000⟩ : Timespec).ns + 1500000000 ∧
        t₂.ns = (⟨7, 900000000⟩ : Timespec).ns + 3000000000 := by
  obtain ⟨tr, a, hrun, halive, hpipe, hnone⟩ :=
    exists_run_of_replay next (init (PeriodicTimer.new 1500 ⟨0, 0⟩) ⟨0, 0⟩)
      (fun _ a => a.terminated = false ∧ a.timer.pipe = [.start] ∧
        (a.iteration ⟨⟨0, 0⟩, ⟨7, 900000000⟩⟩).frames = [])
      [.start ⟨6, 0⟩] (by decide)
  obtain ⟨frames, hframes, hlen, hall⟩ :=
    frames_exact (by decide) hrun halive hpipe ⟨⟨0, 0⟩, ⟨7, 900000000⟩⟩ (by decide)
      (List.replicate 2 ⟨⟨0, 0⟩, ⟨0, 0⟩⟩) (by decide)
  obtain ⟨t₁, t₂, rfl⟩ := List.length_eq_two.mp hlen
  rw [hnone, List.nil_append] at hframes
  exact ⟨tr, a, hrun, t₁, t₂, hframes, (hall 0 t₁ rfl).1, (hall 1 t₂ rfl).1⟩

end TimerActor

end Riaps
