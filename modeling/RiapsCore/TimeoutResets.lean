/-
When a `Timeout` expires, over sequences of constructor and `Reset` calls.

The class keeps a start point, a duration and an end point, and has eight entry
points that are chosen by the types of their arguments.  Three of them (`Reset`
with an `int64_t`, and both forms with two bounds) store the duration only.

* `holds_of_run` — what the members hold after a sequence of calls: the duration
  set most recently, and the end point of the last call that restarts;
* `answers_iff` — every `IsTimeout()` answers by the last call iff each query
  follows one that restarts, or does not fall between the two end points.
-/
import RiapsCore.Runs
import RiapsCore.Timeout

open Runs

namespace Riaps

namespace Timeout

/-- A constructor or a `Reset`; `drawn` is the random number between the bounds. -/
inductive Call where
  | new
  | newDuration (timeout : ℤ)
  | newCount (timeout : ℤ)
  | newBounds (lowerBound upperBound drawn : ℤ)
  | reset
  | resetDuration (timeout : ℤ)
  | resetCount (timeout : ℤ)
  | resetBounds (lowerBound upperBound drawn : ℤ)
deriving DecidableEq

/-- A call or a query, at a clock time. -/
inductive Event where
  | call (c : Call) (now : ℤ)
  | isTimeout (now : ℤ)
deriving DecidableEq

variable {tick : ℤ}

/-- What a constructor makes, or a `Reset` makes of `t`. -/
def Call.apply (t : Timeout tick) (now : ℤ) : Call → Timeout tick
  | .new => ofDefault now
  | .newDuration timeout => ofDuration now timeout
  | .newCount timeout => ofCount now timeout
  | .newBounds _ _ drawn => ofBounds drawn
  | .reset => t.reset now
  | .resetDuration timeout => t.resetDuration now timeout
  | .resetCount timeout => t.resetCount timeout
  | .resetBounds _ _ drawn => t.resetBounds drawn

/-- The call is a constructor. -/
def Call.isNew : Call → Bool
  | .new | .newDuration _ | .newCount _ | .newBounds _ _ _ => true
  | _ => false

/-- The number drawn is between the bounds. -/
def Call.WithinBounds : Call → Prop
  | .newBounds lowerBound upperBound drawn | .resetBounds lowerBound upperBound drawn =>
    lowerBound ≤ drawn ∧ drawn ≤ upperBound
  | _ => True

instance : ∀ c : Call, Decidable c.WithinBounds
  | .newBounds _ _ _ => inferInstanceAs (Decidable (_ ∧ _))
  | .resetBounds _ _ _ => inferInstanceAs (Decidable (_ ∧ _))
  | .new | .newDuration _ | .newCount _ | .reset | .resetDuration _ | .resetCount _ =>
    inferInstanceAs (Decidable True)

/-- The step function; there is no timeout before the first constructor. -/
def next (s : Option (Timeout tick)) : Event → Option (Option (Timeout tick))
  | .call c now =>
    if c.WithinBounds then
      if c.isNew then some (some (c.apply blank now)) else s.map fun t => some (c.apply t now)
    else none
  | .isTimeout _ => s.map some

/-! ### What the calls say -/

/-- The duration that a call sets. -/
def Call.sets : Call → Option ℤ
  | .new => some 0
  | .newDuration timeout | .newCount timeout => some timeout
  | .newBounds _ _ drawn => some drawn
  | .reset => none
  | .resetDuration timeout | .resetCount timeout => some timeout
  | .resetBounds _ _ drawn => some drawn

/-- The call restarts the timeout. -/
def Call.restarts : Call → Bool
  | .newBounds _ _ _ | .resetCount _ | .resetBounds _ _ _ => false
  | _ => true

/-- The duration that was set most recently.  The latest event comes first. -/
def lastSet : List Event → ℤ
  | [] => 0
  | .call c _ :: earlier => c.sets.getD (lastSet earlier)
  | .isTimeout _ :: earlier => lastSet earlier

/-- The clock time of the last call. -/
def lastTime : List Event → ℤ
  | [] => 0
  | .call _ now :: _ => now
  | .isTimeout _ :: earlier => lastTime earlier

/-- The last call restarts the timeout. -/
def lastRestarts : List Event → Bool
  | [] => false
  | .call c _ :: _ => c.restarts
  | .isTimeout _ :: earlier => lastRestarts earlier

/-- When the timeout expires by its last call. -/
def due (tick : ℤ) (events : List Event) : ℤ := lastTime events + lastSet events * tick

/-- When it expires by the last call that restarts it; a timeout made with two
bounds has the epoch of the clock as its end point until then. -/
def restartDue (tick : ℤ) : List Event → ℤ
  | [] => 0
  | .call c now :: earlier =>
    if c.restarts then due tick (.call c now :: earlier)
    else if c.isNew then 0
    else restartDue tick earlier
  | .isTimeout _ :: earlier => restartDue tick earlier

/-- The events of a run, the latest first. -/
def history (tr : List (Transition (Option (Timeout tick)) Event)) : List Event :=
  (tr.map fun t => t.label).reverse

theorem history_snoc (tr : List (Transition (Option (Timeout tick)) Event))
    (t : Transition (Option (Timeout tick)) Event) :
    history (tr ++ [t]) = t.label :: history tr := by
  simp [history]

/-- The clock time of an event. -/
def Event.now : Event → ℤ
  | .call _ now | .isTimeout now => now

/-- The clock time of a query. -/
def Event.query : Event → Option ℤ
  | .call _ _ => none
  | .isTimeout now => some now

/-- A query answers whether the timeout has expired by its last call. -/
def AnswersByLastCall (past : List (Transition (Option (Timeout tick)) Event))
    (t : Transition (Option (Timeout tick)) Event) : Prop :=
  ∀ now ∈ t.label.query, ∀ timeout ∈ t.pre,
    (timeout.isTimeout now ↔ due tick (history past) < now)

/-- A query follows a call that restarts, or does not fall between the two times
that the timeout might expire at. -/
def QueriedInTime (past : List (Transition (Option (Timeout tick)) Event))
    (t : Transition (Option (Timeout tick)) Event) : Prop :=
  ∀ now ∈ t.label.query,
    lastRestarts (history past) = true ∨
      now ≤ min (due tick (history past)) (restartDue tick (history past)) ∨
      max (due tick (history past)) (restartDue tick (history past)) < now

instance (past : List (Transition (Option (Timeout tick)) Event))
    (t : Transition (Option (Timeout tick)) Event) : Decidable (AnswersByLastCall past t) :=
  inferInstanceAs (Decidable (∀ now ∈ t.label.query, _))

instance (past : List (Transition (Option (Timeout tick)) Event))
    (t : Transition (Option (Timeout tick)) Event) : Decidable (QueriedInTime past t) :=
  inferInstanceAs (Decidable (∀ now ∈ t.label.query, _))

/-! ### What the members hold -/

/-- The members of a timeout after the events. -/
def Holds (events : List Event) (t : Timeout tick) : Prop :=
  t.timeout = lastSet events ∧ t.endPoint = restartDue tick events

theorem holds_call {c : Call} {now : ℤ} {events : List Event} {t : Timeout tick}
    (h : c.isNew = false → Holds events t) : Holds (.call c now :: events) (c.apply t now) := by
  cases c with
  | new | newDuration timeout | newCount timeout => exact ⟨rfl, rfl⟩
  | newBounds lowerBound upperBound drawn => exact ⟨rfl, rfl⟩
  | reset =>
    obtain ⟨hset, -⟩ := h rfl
    refine ⟨hset, ?_⟩
    show now + t.timeout * tick = now + lastSet events * tick
    rw [hset]
  | resetDuration timeout => exact ⟨rfl, rfl⟩
  | resetCount timeout => exact ⟨rfl, (h rfl).2⟩
  | resetBounds lowerBound upperBound drawn => exact ⟨rfl, (h rfl).2⟩

variable {tr : List (Transition (Option (Timeout tick)) Event)} {s : Option (Timeout tick)}

/-- **The members after a run.** -/
theorem holds_of_run (h : Run next none tr s) : ∀ t ∈ s, Holds (history tr) t := by
  induction h with
  | nil => simp
  | @snoc tr s s' e _ hs ih =>
    intro t ht
    rw [history_snoc]
    cases e with
    | call c now =>
      rw [next, Option.ite_none_right_eq_some] at hs
      obtain ⟨-, hs⟩ := hs
      split at hs
      · rename_i hnew
        rw [← Option.some_inj.mp hs, Option.mem_some_iff] at ht
        rw [← ht]
        exact holds_call fun hold => absurd (hold.symm.trans hnew) Bool.false_ne_true
      · obtain ⟨t₀, ht₀, rfl⟩ := Option.map_eq_some_iff.mp hs
        rw [Option.mem_some_iff] at ht
        rw [← ht]
        exact holds_call fun _ => ih t₀ ht₀
    | isTimeout now =>
      obtain ⟨t₀, ht₀, rfl⟩ := Option.map_eq_some_iff.mp hs
      rw [Option.mem_some_iff] at ht
      rw [← ht]
      exact ih t₀ ht₀

/-- After a call that restarts, the two times are one. -/
theorem restartDue_eq_due {events : List Event} (h : lastRestarts events = true) :
    restartDue tick events = due tick events := by
  induction events with
  | nil => cases h
  | cons e earlier ih =>
    cases e with
    | call c now =>
      have hc : c.restarts = true := h
      rw [restartDue, if_pos hc]
    | isTimeout now => exact ih h

/-- **When a timeout expires by its last call.**  In a run, every query answers
whether more than the duration set most recently has passed since the last
constructor or `Reset` iff each of them follows a call that restarts, or does not
fall between that time and the end point of the last call that restarts. -/
theorem answers_iff (h : Run next (none : Option (Timeout tick)) tr s) :
    Along AnswersByLastCall tr ↔ Along QueriedInTime tr := by
  induction h with
  | nil => exact Iff.rfl
  | @snoc tr s s' e hrun hs ih =>
    rw [along_snoc, along_snoc, ih]
    refine and_congr_right fun _ => forall₂_congr fun now hnow => ?_
    cases e with
    | call c now => cases hnow
    | isTimeout now' =>
      obtain ⟨t, rfl, -⟩ := Option.map_eq_some_iff.mp hs
      obtain ⟨-, hend⟩ := holds_of_run hrun t rfl
      have hone : (∀ timeout ∈ (some t : Option (Timeout tick)),
          (timeout.isTimeout now ↔ due tick (history tr) < now)) ↔
          (restartDue tick (history tr) < now ↔ due tick (history tr) < now) := by
        rw [← hend]
        simp [isTimeout_iff]
      refine hone.trans ?_
      by_cases hlast : lastRestarts (history tr) = true
      · simp [hlast, restartDue_eq_due hlast]
      · simp only [hlast, Bool.false_eq_true, false_or]
        omega

/-- A stored duration counts from the next restart on. -/
theorem answers_after_reset :
    ∃ tr s, Run next (none : Option (Timeout milliseconds)) tr s ∧ tr.length = 5 ∧
      Along AnswersByLastCall tr := by
  obtain ⟨tr, s, hrun, hlen, hqueries⟩ :=
    exists_run_of_replay next (none : Option (Timeout milliseconds))
      (fun tr _ => tr.length = 5 ∧ Along QueriedInTime tr)
      [.call (.newDuration 1000) 0, .call (.resetBounds 3000 6000 5000) 500000000,
        .isTimeout 900000000, .call .reset 1200000000, .isTimeout 5000000000] (by decide)
  exact ⟨tr, s, hrun, hlen, (answers_iff hrun).mpr hqueries⟩

/-- One second, and a `Reset` to five seconds after half of it: the timeout
expires after the first second all the same. -/
theorem expires_by_earlier_call :
    ∃ tr t, Run next (none : Option (Timeout milliseconds)) (tr ++ [t]) t.post ∧
      ClockFrom Event.now 0 (tr ++ [t]) ∧ (∃ timeout ∈ t.pre, timeout.isTimeout 1200000000) ∧
      due milliseconds (history tr) = 5500000000 ∧ ¬ AnswersByLastCall tr t :=
  exists_run_snoc_of_replay next (none : Option (Timeout milliseconds))
    (fun tr t => ClockFrom Event.now 0 (tr ++ [t]) ∧
      (∃ timeout ∈ t.pre, timeout.isTimeout 1200000000) ∧
      due milliseconds (history tr) = 5500000000 ∧ ¬ AnswersByLastCall tr t)
    [.call (.newDuration 1000) 0, .call (.resetCount 5000) 500000000] (.isTimeout 1200000000)
    (by decide)

end Timeout

end Riaps
