/-
The one-shot timers of a component (`ScheduleAbsTimer`, `ScheduleAction` and the
branch of `component_actor` for the one-shot timer channel,
`src/componentmodel/r_componentbase.cc`).

Each scheduling function starts a thread that sleeps and then sends the id of
the timer on the channel.  The action is not stored with the timer: all of them
share the member `scheduled_action_`, which the component's loop calls with the
id it receives.  Any pending timer may fire next.

* `wakeup_exact` — every thread sleeps until exactly `wakeupOffset` before its
  time;
* `scheduledAction_eq` — what is called is the action of the last call of
  `ScheduleAction`, whatever fires;
* `timers_iff` — every timer of a run does what it was scheduled for iff each
  one that fires is of `ScheduleAction` and its action is also the one of the
  last such call.
-/
import RiapsCore.Runs
import RiapsCore.Timespecs

open Runs

namespace Riaps

/-- The time until which the thread of a timer sleeps. -/
def earlyWakeup (tp : Timespec) (wakeupOffset : UInt64) : Timespec :=
  let tvSec := tp.tvSec - (wakeupOffset / UInt64.ofNat billion).toInt64
  let tvNsec := tp.tvNsec - (wakeupOffset % UInt64.ofNat billion).toInt64
  if tvNsec < 0 then ⟨tvSec - 1, tvNsec + Int64.ofNat billion⟩ else ⟨tvSec, tvNsec⟩

/-! ### The wake-up time -/

/-- The subtractions are made on unsigned integers and are read back as signed
ones. -/
theorem earlyWakeup_eq (tp : Timespec) (wakeupOffset : UInt64) :
    earlyWakeup tp wakeupOffset = Timespec.borrow
      ⟨(tp.tvSec.toUInt64 - wakeupOffset / UInt64.ofNat billion).toInt64,
        (tp.tvNsec.toUInt64 - wakeupOffset % UInt64.ofNat billion).toInt64⟩ := rfl

/-- The time to wake up is in normal form and has the exact value, as far as its
seconds fit. -/
theorem earlyWakeup_spec {tp : Timespec} {wakeupOffset : UInt64} (htp : tp.Normalised)
    (hfits : -2 ^ 63 ≤ (tp.ns - wakeupOffset.toNat) / billion) :
    (earlyWakeup tp wakeupOffset).Normalised ∧
      (earlyWakeup tp wakeupOffset).ns = tp.ns - wakeupOffset.toNat := by
  have hoffset := wakeupOffset.toNat_lt
  have hdiv : (wakeupOffset / UInt64.ofNat billion).toNat = wakeupOffset.toNat / 1000000000 :=
    UInt64.toNat_div _ _
  have hmod : (wakeupOffset % UInt64.ofNat billion).toNat = wakeupOffset.toNat % 1000000000 :=
    UInt64.toNat_mod _ _
  have hdiv' : (wakeupOffset / UInt64.ofNat billion).toInt64.toInt
      = wakeupOffset.toNat / 1000000000 := by
    rw [toInt_toInt64_of_lt (by omega), hdiv]
    omega
  have hmod' : (wakeupOffset % UInt64.ofNat billion).toInt64.toInt
      = wakeupOffset.toNat % 1000000000 := by
    rw [toInt_toInt64_of_lt (by omega), hmod]
    omega
  have hlt := tp.tvSec.toInt_lt
  rw [Timespec.normalised_iff] at htp
  rw [Timespec.ns_eq] at hfits
  have hsec : (tp.tvSec - (wakeupOffset / UInt64.ofNat billion).toInt64).toInt
      = tp.tvSec.toInt - wakeupOffset.toNat / 1000000000 :=
    toInt_sub_of_fits (by rw [hdiv']) (by simp only [billion] at hfits; omega) (by omega)
  have hnsec : (tp.tvNsec - (wakeupOffset % UInt64.ofNat billion).toInt64).toInt
      = tp.tvNsec.toInt - wakeupOffset.toNat % 1000000000 :=
    toInt_sub_of_fits (by rw [hmod']) (by omega) (by omega)
  simp only [earlyWakeup_eq, UInt64.toInt64_sub, Int64.toInt64_toUInt64]
  generalize tp.tvSec - (wakeupOffset / UInt64.ofNat billion).toInt64 = tvSec at hsec ⊢
  generalize tp.tvNsec - (wakeupOffset % UInt64.ofNat billion).toInt64 = tvNsec at hnsec ⊢
  obtain ⟨hnorm, hns⟩ := Timespec.borrow_spec (t := ⟨tvSec, tvNsec⟩) (by simp only [hnsec]; omega)
    (by simp only [hnsec]; omega) (by simp only [hnsec, hsec, billion] at hfits ⊢; omega)
  refine ⟨hnorm, ?_⟩
  rw [hns, Timespec.ns_eq, Timespec.ns_eq, hsec, hnsec]
  omega

/-! ### Timers -/

/-- What a timer was scheduled for. -/
inductive Scheduled (Action : Type*) where
  | absTimer
  | action (a : Action)
deriving DecidableEq

/-- A thread that has not sent yet.  It knows its id and when to wake up;
`scheduled` is for the reader and is not looked at by the program. -/
structure PendingTimer (Action : Type*) where
  timerId : UInt64
  wakeup : Timespec
  scheduled : Scheduled Action
deriving DecidableEq

/-- `timer_counter_` and `scheduled_action_`, empty at first, with the threads
that have been started. -/
structure Timers (Action : Type*) where
  timerCounter : UInt64
  scheduledAction : Option Action
  pending : List (PendingTimer Action)
  /-- The process has not ended. -/
  alive : Bool

/-- What the component's loop does with an id from the channel. -/
inductive Firing (Action : Type*) where
  | invoke (a : Action) (timerId : UInt64)
  | onScheduledTimer (timerId : UInt64)
  /-- The empty `std::function` throws `std::bad_function_call`. -/
  | badFunctionCall
deriving DecidableEq

namespace Timers

variable {Action : Type*}

/-- A new component.  The constructor does not initialise `timer_counter_`. -/
def init (timerCounter : UInt64) : Timers Action := ⟨timerCounter, none, [], true⟩

/-- Start the thread of a timer and count it. -/
def start (s : Timers Action) (wakeup : Timespec) (scheduled : Scheduled Action) :
    UInt64 × Timers Action :=
  (s.timerCounter,
    { s with
      pending := s.pending ++ [⟨s.timerCounter, wakeup, scheduled⟩]
      timerCounter := s.timerCounter + 1 })

/-- `ScheduleAbsTimer(tp, wakeupOffset)`. -/
def scheduleAbsTimer (s : Timers Action) (tp : Timespec) (wakeupOffset : UInt64) :
    UInt64 × Timers Action :=
  s.start (earlyWakeup tp wakeupOffset) .absTimer

/-- `ScheduleAction(tp, action, wakeupOffset)`. -/
def scheduleAction (s : Timers Action) (tp : Timespec) (action : Action)
    (wakeupOffset : UInt64) : UInt64 × Timers Action :=
  { s with scheduledAction := some action }.start (earlyWakeup tp wakeupOffset) (.action action)

/-- The one-shot branch of the loop: `comp->scheduled_action_(*timerId)`. -/
def dispatch (s : Timers Action) (timerId : UInt64) : Firing Action :=
  match s.scheduledAction with
  | some a => .invoke a timerId
  | none => .badFunctionCall

/-- A call, or the firing of the pending timer at a position. -/
inductive Event (Action : Type*) where
  | scheduleAbsTimer (tp : Timespec) (wakeupOffset : UInt64)
  | scheduleAction (tp : Timespec) (action : Action) (wakeupOffset : UInt64)
  | fire (k : ℕ)

/-- The step function of runs of a component.  A call of an empty function ends
the process. -/
def next (s : Timers Action) (e : Event Action) : Option (Timers Action) :=
  if ¬ s.alive then none
  else
    match e with
    | .scheduleAbsTimer tp wakeupOffset => some (s.scheduleAbsTimer tp wakeupOffset).2
    | .scheduleAction tp action wakeupOffset => some (s.scheduleAction tp action wakeupOffset).2
    | .fire k =>
      s.pending[k]?.map fun p =>
        { s with
          pending := s.pending.eraseIdx k
          alive := match s.dispatch p.timerId with
            | .badFunctionCall => false
            | _ => true }

/-- **The early wake-up time is exact.**  Both scheduling functions start one
thread, which sleeps until `wakeupOffset` nanoseconds before the time it was
given, as far as the seconds of that time fit in the type. -/
theorem wakeup_exact (s : Timers Action) (tp : Timespec) (action : Action) (wakeupOffset : UInt64)
    (htp : tp.Normalised) (hfits : -2 ^ 63 ≤ (tp.ns - wakeupOffset.toNat) / billion) :
    ∀ s' ∈ [(s.scheduleAbsTimer tp wakeupOffset).2, (s.scheduleAction tp action wakeupOffset).2],
      ∃ p : PendingTimer Action, s'.pending = s.pending ++ [p] ∧
        p.wakeup.ns = tp.ns - wakeupOffset.toNat ∧
        0 ≤ p.wakeup.tvNsec.toInt ∧ p.wakeup.tvNsec.toInt < billion := by
  obtain ⟨⟨hlo, hhi⟩, hns⟩ := earlyWakeup_spec htp hfits
  rw [List.forall_mem_cons, List.forall_mem_singleton]
  exact ⟨⟨_, rfl, hns, hlo, hhi⟩, ⟨_, rfl, hns, hlo, hhi⟩⟩

/-- A wake-up time before the epoch. -/
theorem wakeup_exact_borrow :
    ∃ p : PendingTimer String,
      ((init 0).scheduleAction ⟨1, 500000000⟩ "open" 2600000000).2.pending = [p] ∧
        p.wakeup = ⟨-2, 900000000⟩ ∧
        p.wakeup.ns = (⟨1, 500000000⟩ : Timespec).ns - (2600000000 : UInt64).toNat := by
  obtain ⟨p, hpending, hns, -⟩ :=
    wakeup_exact (init 0 : Timers String) ⟨1, 500000000⟩ "open" 2600000000 (by decide) (by decide) _
      (List.mem_cons_of_mem _ List.mem_cons_self)
  have hp : [p] = [⟨0, ⟨-2, 900000000⟩, .action "open"⟩] := hpending.symm.trans (by decide)
  refine ⟨p, hpending, ?_, hns⟩
  rw [List.singleton_inj.mp hp]

/-! ### What a timer is scheduled for -/

/-- What the firing of a timer should do. -/
def PendingTimer.intended (p : PendingTimer Action) : Firing Action :=
  match p.scheduled with
  | .absTimer => .onScheduledTimer p.timerId
  | .action a => .invoke a p.timerId

/-- The timer that a step fires. -/
def fired (s : Timers Action) : Event Action → Option (PendingTimer Action)
  | .fire k => s.pending[k]?
  | _ => none

/-- A timer that fires does what it was scheduled for. -/
def DoesIntended (t : Transition (Timers Action) (Event Action)) : Prop :=
  ∀ p ∈ fired t.pre t.label, t.pre.dispatch p.timerId = PendingTimer.intended p

/-- The action that a call of `ScheduleAction` brings. -/
def Event.action : Event Action → Option Action
  | .scheduleAction _ action _ => some action
  | _ => none

/-- The action of the last call of `ScheduleAction`. -/
def lastAction (tr : List (Transition (Timers Action) (Event Action))) : Option Action :=
  tr.foldl (fun acc t => t.label.action.or acc) none

/-- A timer that fires is of `ScheduleAction`, and no other action has been
scheduled since. -/
def StillScheduled (past : List (Transition (Timers Action) (Event Action)))
    (t : Transition (Timers Action) (Event Action)) : Prop :=
  ∀ p ∈ fired t.pre t.label, ∃ a ∈ lastAction past, p.scheduled = .action a

instance [DecidableEq Action] (t : Transition (Timers Action) (Event Action)) :
    Decidable (DoesIntended t) :=
  inferInstanceAs (Decidable (∀ p ∈ fired t.pre t.label, _))

instance [DecidableEq Action] (past : List (Transition (Timers Action) (Event Action)))
    (t : Transition (Timers Action) (Event Action)) : Decidable (StillScheduled past t) :=
  inferInstanceAs (Decidable (∀ p ∈ fired t.pre t.label, _))

variable {s : Timers Action} {tr : List (Transition (Timers Action) (Event Action))}
  {timerCounter : UInt64}

/-- The shared slot holds the action of the last `ScheduleAction`. -/
theorem scheduledAction_eq (h : Run next (init timerCounter) tr s) :
    s.scheduledAction = lastAction tr := by
  induction h with
  | nil => rfl
  | @snoc tr s s' l _ hs ih =>
    rw [lastAction, List.foldl_append]
    show s'.scheduledAction = l.action.or (lastAction tr)
    rw [next.eq_def] at hs
    split at hs
    · simp at hs
    · cases l with
      | scheduleAbsTimer tp wakeupOffset =>
        rw [← Option.some_inj.mp hs]
        exact ih
      | scheduleAction tp action wakeupOffset =>
        rw [← Option.some_inj.mp hs]
        rfl
      | fire k =>
        obtain ⟨p, -, rfl⟩ := Option.map_eq_some_iff.mp hs
        exact ih

/-- The dispatcher does what a timer was scheduled for iff the slot holds the
action of that timer. -/
theorem dispatch_eq_intended_iff (s : Timers Action) (p : PendingTimer Action) :
    s.dispatch p.timerId = PendingTimer.intended p ↔
      ∃ a ∈ s.scheduledAction, p.scheduled = .action a := by
  rw [dispatch, PendingTimer.intended]
  rcases hslot : s.scheduledAction with _ | a
  · rcases hp : p.scheduled with _ | b
    · simp
    · simp
  · rcases hp : p.scheduled with _ | b
    · simp
    · simp [eq_comm]

/-- **When timers run what they were scheduled with.**  In a run, every timer
that fires does so iff each of them was scheduled by `ScheduleAction` with the
action that the last call of `ScheduleAction` has passed as well. -/
theorem timers_iff (h : Run next (init timerCounter) tr s) :
    (∀ t ∈ tr, DoesIntended t) ↔ Along StillScheduled tr := by
  induction h with
  | nil => simp [Along, AlongFrom]
  | @snoc tr s s' l hrun hs ih =>
    rw [along_snoc, ← ih, List.forall_mem_append]
    refine and_congr_right fun _ => ?_
    rw [List.forall_mem_singleton]
    refine forall₂_congr fun p _ => ?_
    rw [← scheduledAction_eq hrun]
    exact dispatch_eq_intended_iff s p

/-- One action scheduled twice, the later timer firing first. -/
theorem timers_same_action :
    ∃ tr s, Run next (init 0 : Timers String) tr s ∧ tr.length = 4 ∧ ∀ t ∈ tr, DoesIntended t := by
  obtain ⟨tr, s, hrun, hlen, hstill⟩ :=
    exists_run_of_replay next (init 0 : Timers String)
      (fun tr _ => tr.length = 4 ∧ Along StillScheduled tr)
      [.scheduleAction ⟨10, 0⟩ "open" 2000000, .scheduleAction ⟨5, 0⟩ "open" 2000000, .fire 1,
        .fire 0] (by decide)
  exact ⟨tr, s, hrun, hlen, (timers_iff hrun).mpr hstill⟩

/-- Two actions: the timer of the first runs the second. -/
theorem timer_runs_other_action :
    ∃ tr t, Run next (init 0 : Timers String) (tr ++ [t]) t.post ∧
      fired t.pre t.label = some ⟨0, ⟨9, 998000000⟩, .action "open"⟩ ∧
      t.pre.dispatch 0 = .invoke "close" 0 ∧ ¬ DoesIntended t :=
  exists_run_snoc_of_replay next (init 0 : Timers String)
    (fun _ t =>
      fired t.pre t.label = some ⟨0, ⟨9, 998000000⟩, .action "open"⟩ ∧
        t.pre.dispatch 0 = .invoke "close" 0 ∧ ¬ DoesIntended t)
    [.scheduleAction ⟨10, 0⟩ "open" 2000000, .scheduleAction ⟨20, 0⟩ "close" 2000000] (.fire 0)
    (by decide)

end Timers

end Riaps
