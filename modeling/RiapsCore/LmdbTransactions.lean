/-
The calls that the database wrapper makes to LMDB (`Lmdb::Put`, `Get`, `GetAll`,
`Del` and `OpenTxn`, `src/utils/r_lmdb.cc`).

LMDB is seen as a stream of replies, one for each call that returns a code: the
return code, and what `key` and `val` refer to afterwards.  An operation makes
its calls in order and returns or throws; a loop that has used up its fuel is
still running.

* `loop_ends`, `loop_running` — the cursor loops end iff a reply says so;
* `endsClosed_begin_iff` — the calls that every operation begins with;
* `closes_iff` — for which replies an operation ends with its transaction closed.
-/
import Mathlib.Data.Int.Notation
import Mathlib.Data.List.Induction
import Mathlib.Tactic.Common

namespace Riaps

namespace LmdbCalls

/-- A return code of LMDB: 0, `MDB_NOTFOUND`, `EINVAL` or another error. -/
inductive Rc where
  | success
  | notFound
  | einval
  | other (code : ℤ)
deriving DecidableEq

/-- The operations of `mdb_cursor_get`. -/
inductive CursorOp where
  | first
  | next
  | setKey (key : String)
  | nextDup
deriving DecidableEq

/-- A call of LMDB. -/
inductive Call where
  | txnBegin
  | dbiOpen
  | put (key val : String)
  | txnCommit
  | cursorOpen
  | cursorGet (op : CursorOp)
  | cursorDel
  | cursorClose
  | txnAbort
deriving DecidableEq

/-- The reply to a call.  After a call that failed, `key` and `val` are whatever
the `MDB_val`s of the caller hold. -/
structure Reply where
  rc : Rc
  key : String
  val : String
deriving DecidableEq

/-- Why an operation has not returned. -/
inductive Stop where
  /-- `lmdb_error`, with the line that its text names. -/
  | lmdbError (line : ℕ)
  | running
deriving DecidableEq

/-- The number of replies used, and the calls made. -/
structure Session where
  next : ℕ
  made : List (Call × Rc)
deriving DecidableEq

abbrev Op := ExceptT Stop (StateM Session)

/-- What becomes of an operation. -/
def exec {α : Type} (x : Op α) (s : Session) : Except Stop α × Session := x.run.run s

/-- `rc != MDB_NOTFOUND && rc != EINVAL` does not hold. -/
def Rc.ends (rc : Rc) : Bool := rc = .notFound || rc = .einval

section

variable (env : ℕ → Reply)

/-- A call that returns a code. -/
def call (c : Call) : Op Reply := do
  let s ← get
  set ({ next := s.next + 1, made := s.made ++ [(c, (env s.next).rc)] } : Session)
  return env s.next

/-- A call that returns nothing. -/
def callVoid (c : Call) : Op Unit :=
  modify fun s => { s with made := s.made ++ [(c, .success)] }

/-- `if_lmdb_error(rc, __FILE__, __LINE__)`. -/
def ifLmdbError (rc : Rc) (line : ℕ) : Op Unit :=
  if rc ≠ .success then throw (.lmdbError (line - 1)) else pure ()

/-- `while (rc != MDB_NOTFOUND && rc != EINVAL)`, with the last reply and what the
loop has collected. -/
def loop {β : Type} (body : Reply → β → Op (Reply × β)) : ℕ → Reply → β → Op β
  | 0, _, _ => throw .running
  | fuel + 1, r, acc =>
    if r.rc.ends then pure acc
    else do
      let (r, acc) ← body r acc
      loop body fuel r acc

/-- `OpenTxn()`. -/
def openTxn : Op Unit := do
  let r ← call env .txnBegin
  ifLmdbError r.rc 171
  let r ← call env .dbiOpen
  ifLmdbError r.rc 175

/-- `Put(skey, sval)`. -/
def put (skey sval : String) : Op Unit := do
  openTxn env
  let r ← call env (.put skey sval)
  ifLmdbError r.rc 78
  let r ← call env .txnCommit
  ifLmdbError r.rc 80

/-- The body of the loop of `GetAll`. -/
def getAllBody (r : Reply) (results : List (String × String)) :
    Op (Reply × List (String × String)) := do
  let r' ← call env (.cursorGet .next)
  return (r', results ++ [(r.key, r.val)])

/-- `GetAll()`. -/
def getAll (fuel : ℕ) : Op (List (String × String)) := do
  openTxn env
  let r ← call env .cursorOpen
  ifLmdbError r.rc 89
  let r ← call env (.cursorGet .first)
  let results ← loop (getAllBody env) fuel r []
  callVoid .cursorClose
  callVoid .txnAbort
  return results

/-- The body of the loop of `Get`, which also collects a value at `EINVAL`. -/
def getBody (_ : Reply) (results : List String) : Op (Reply × List String) := do
  let r' ← call env (.cursorGet .nextDup)
  return (r', if r'.rc ≠ .notFound then results ++ [r'.val] else results)

/-- `Get(skey)`. -/
def get (fuel : ℕ) (skey : String) : Op (List String) := do
  openTxn env
  let r ← call env .cursorOpen
  ifLmdbError r.rc 114
  let r ← call env (.cursorGet (.setKey skey))
  if r.rc = .notFound then
    return []
  else
    let results ← loop (getBody env) fuel r [r.val]
    callVoid .cursorClose
    callVoid .txnAbort
    return results

/-- The body of the loop of `Del`. -/
def delBody (_ : Reply) (_ : Unit) : Op (Reply × Unit) := do
  let _ ← call env .cursorDel
  let r' ← call env (.cursorGet .nextDup)
  return (r', ())

/-- `Del(skey)`. -/
def del (fuel : ℕ) (skey : String) : Op Unit := do
  openTxn env
  let r ← call env .cursorOpen
  ifLmdbError r.rc 152
  let r ← call env (.cursorGet (.setKey skey))
  loop (delBody env) fuel r ()
  let _ ← call env .txnCommit

/-! ### Executing operations -/

variable {env : ℕ → Reply} {s : Session} {α β : Type}

theorem exec_pure (a : α) : exec (pure a) s = (.ok a, s) := rfl

theorem exec_bind (x : Op α) (f : α → Op β) :
    exec (x >>= f) s = ExceptT.bindCont f (exec x s).1 (exec x s).2 := rfl

theorem exec_bind_ok {x : Op α} {f : α → Op β} {a : α} {s' : Session}
    (h : exec x s = (.ok a, s')) : exec (x >>= f) s = exec (f a) s' := by
  rw [exec_bind, h]
  rfl

theorem exec_bind_error {x : Op α} {f : α → Op β} {e : Stop} {s' : Session}
    (h : exec x s = (.error e, s')) : exec (x >>= f) s = (.error e, s') := by
  rw [exec_bind, h]
  rfl

/-- The session after a call. -/
def Session.after (env : ℕ → Reply) (s : Session) (c : Call) : Session :=
  ⟨s.next + 1, s.made ++ [(c, (env s.next).rc)]⟩

theorem exec_call_bind (c : Call) (f : Reply → Op β) :
    exec (call env c >>= f) s = exec (f (env s.next)) (s.after env c) := rfl

theorem exec_callVoid_bind (c : Call) (f : Unit → Op β) :
    exec (callVoid c >>= f) s = exec (f ()) { s with made := s.made ++ [(c, .success)] } := rfl

theorem exec_check_bind {rc : Rc} (line : ℕ) (f : Unit → Op β) :
    exec (ifLmdbError rc line >>= f) s
      = if rc = .success then exec (f ()) s else (.error (.lmdbError (line - 1)), s) := by
  cases rc <;> rfl

theorem exec_check (rc : Rc) (line : ℕ) :
    exec (ifLmdbError rc line) s
      = if rc = .success then (.ok (), s) else (.error (.lmdbError (line - 1)), s) := by
  cases rc <;> rfl

/-! ### The transaction -/

/-- What has become of the transaction of an operation. -/
inductive Txn where
  | none
  | opened
  | closed
  /-- Begun or closed when it should not be. -/
  | misused
deriving DecidableEq

/-- The transaction after a call.  `mdb_txn_commit` frees it whether or not it
succeeds, as `mdb_txn_abort` does. -/
def Txn.after (t : Txn) : Call × Rc → Txn
  | (.txnBegin, .success) => if t = .none then .opened else .misused
  | (.txnCommit, _) => if t = .opened then .closed else .misused
  | (.txnAbort, _) => if t = .opened then .closed else .misused
  | _ => t

/-- The transaction after the calls of a session. -/
def Session.txn (s : Session) : Txn := s.made.foldl Txn.after .none

/-- The call does not concern the transaction. -/
def Call.inTxn : Call → Bool
  | .txnBegin | .txnCommit | .txnAbort => false
  | _ => true

/-- An operation has returned or thrown, and the transaction that it opened, if
it has opened one, was closed once. -/
def EndsClosed (out : Except Stop α × Session) : Prop :=
  out.1 ≠ .error .running ∧ (out.2.txn = .none ∨ out.2.txn = .closed)

theorem Txn.after_inTxn (t : Txn) {c : Call × Rc} (h : c.1.inTxn = true) : t.after c = t := by
  obtain ⟨c, rc⟩ := c
  cases c with
  | txnBegin | txnCommit | txnAbort => cases h
  | dbiOpen | put | cursorOpen | cursorGet | cursorDel | cursorClose => rfl

theorem txn_append {made : List (Call × Rc)} (n : ℕ) (h : ∀ c ∈ made, c.1.inTxn = true) :
    Session.txn ⟨n, s.made ++ made⟩ = s.txn := by
  induction made using List.reverseRecOn with
  | nil => rw [List.append_nil]; rfl
  | append_singleton made c ih =>
    rw [List.forall_mem_append, List.forall_mem_singleton] at h
    rw [← ih h.1, Session.txn, Session.txn, ← List.append_assoc, List.foldl_append]
    exact Txn.after_inTxn _ h.2

theorem txn_after {c : Call} (h : c.inTxn = true) : (s.after env c).txn = s.txn :=
  txn_append _ (by simpa using h)

/-- A commit or an abort closes the open transaction. -/
theorem txn_close {c : Call} {rc : Rc} (n : ℕ) (hs : s.txn = .opened)
    (hc : c = .txnCommit ∨ c = .txnAbort) : Session.txn ⟨n, s.made ++ [(c, rc)]⟩ = .closed := by
  have hfold : Session.txn ⟨n, s.made ++ [(c, rc)]⟩ = s.txn.after (c, rc) := by
    rw [Session.txn, List.foldl_append]
    rfl
  rw [hfold, hs]
  rcases hc with rfl | rfl
  · rfl
  · rfl

/-! ### Loops -/

/-- Each turn of the loop makes `k` calls and then the one whose reply it goes on
with, all of them in the transaction. -/
def StepsBy (env : ℕ → Reply) (k : ℕ) (body : Reply → β → Op (Reply × β)) : Prop :=
  ∀ r acc s, ∃ acc' made, (∀ c ∈ made, c.1.inTxn = true) ∧
    exec (body r acc) s = (.ok (env (s.next + k), acc'), ⟨s.next + k + 1, s.made ++ made⟩)

theorem stepsBy_getAllBody : StepsBy env 0 (getAllBody env) :=
  fun r acc s => ⟨acc ++ [(r.key, r.val)], [(.cursorGet .next, (env s.next).rc)],
    by simp [Call.inTxn], rfl⟩

theorem stepsBy_getBody : StepsBy env 0 (getBody env) :=
  fun _ _ s => ⟨_, [(.cursorGet .nextDup, (env s.next).rc)], by simp [Call.inTxn], rfl⟩

theorem stepsBy_delBody : StepsBy env 1 (delBody env) :=
  fun _ _ s => ⟨(), [(.cursorDel, (env s.next).rc), (.cursorGet .nextDup, (env (s.next + 1)).rc)],
    by simp [Call.inTxn], by
      show _ = (_, Session.mk _ (s.made ++ ([(Call.cursorDel, _)] ++ [_])))
      rw [← List.append_assoc]
      rfl⟩

variable {k p : ℕ} {body : Reply → β → Op (Reply × β)}

/-- The reply of turn `m + 1` is that of turn `m` after the first. -/
theorem turn_succ (p k m : ℕ) : p + (m + 1) * (k + 1) = p + (k + 1) + m * (k + 1) := by
  rw [Nat.succ_mul]
  omega

theorem exec_loop_ends {r : Reply} (hr : r.rc.ends = true) (fuel : ℕ) (acc : β) :
    exec (loop body (fuel + 1) r acc) s = (.ok acc, s) := by
  rw [loop, if_pos hr]
  rfl

/-- A turn of the loop. -/
theorem exec_loop_step (hbody : StepsBy env k body) {r : Reply} (hr : r.rc.ends = false) (acc : β)
    (hs : s.next = p + 1) :
    ∃ acc' s', s'.next = p + (k + 1) + 1 ∧ s'.txn = s.txn ∧ ∀ fuel,
      exec (loop body (fuel + 1) r acc) s = exec (loop body fuel (env (p + (k + 1))) acc') s' := by
  obtain ⟨acc', made, hmade, hexec⟩ := hbody r acc s
  have hnext : s.next + k = p + (k + 1) := by omega
  rw [hnext] at hexec
  refine ⟨acc', _, rfl, txn_append _ hmade, fun fuel => ?_⟩
  rw [loop, if_neg (by rw [hr]; exact Bool.false_ne_true), exec_bind_ok hexec]

/-- With a reply that ends the loop, it ends. -/
theorem loop_ends (hbody : StepsBy env k body) {m : ℕ}
    (hm : (env (p + m * (k + 1))).rc.ends = true) (acc : β) (hs : s.next = p + 1) :
    ∃ fuel acc' s', exec (loop body fuel (env p) acc) s = (.ok acc', s') ∧ s'.txn = s.txn := by
  induction m generalizing p acc s with
  | zero =>
    rw [Nat.zero_mul, Nat.add_zero] at hm
    exact ⟨1, acc, s, exec_loop_ends hm 0 acc, rfl⟩
  | succ m ih =>
    by_cases hp : (env p).rc.ends = true
    · exact ⟨1, acc, s, exec_loop_ends hp 0 acc, rfl⟩
    · rw [Bool.not_eq_true] at hp
      obtain ⟨acc₁, s₁, hnext, htxn, hstep⟩ := exec_loop_step hbody hp acc hs
      rw [turn_succ] at hm
      obtain ⟨fuel, acc', s', hexec, htxn'⟩ := ih hm acc₁ hnext
      exact ⟨fuel + 1, acc', s', (hstep fuel).trans hexec, htxn'.trans htxn⟩

/-- Without one, it is running after any number of turns. -/
theorem loop_running (hbody : StepsBy env k body)
    (hnever : ∀ m, (env (p + m * (k + 1))).rc.ends = false) (fuel : ℕ) (acc : β)
    (hs : s.next = p + 1) : (exec (loop body fuel (env p) acc) s).1 = .error .running := by
  induction fuel generalizing p acc s with
  | zero => rfl
  | succ fuel ih =>
    have hp : (env p).rc.ends = false := by simpa using hnever 0
    obtain ⟨acc₁, s₁, hnext, -, hstep⟩ := exec_loop_step hbody hp acc hs
    rw [hstep fuel]
    refine ih (fun m => ?_) acc₁ hnext
    rw [← turn_succ]
    exact hnever (m + 1)

/-- A loop followed by what closes the transaction. -/
theorem endsClosed_loop_iff (hbody : StepsBy env k body) {g : β → Op α} (acc : β)
    (hs : s.next = p + 1) (hopen : s.txn = .opened)
    (hclose : ∀ a s', Session.txn s' = .opened → EndsClosed (exec (g a) s')) :
    (∃ fuel, EndsClosed (exec (loop body fuel (env p) acc >>= g) s)) ↔
      ∃ m, (env (p + m * (k + 1))).rc.ends = true := by
  constructor
  · rintro ⟨fuel, hends, -⟩
    by_contra hnever
    rw [not_exists] at hnever
    have hrunning := loop_running hbody (fun m => Bool.not_eq_true _ ▸ hnever m) fuel acc hs
    rw [exec_bind_error (Prod.ext hrunning rfl)] at hends
    exact hends rfl
  · rintro ⟨m, hm⟩
    obtain ⟨fuel, acc', s', hexec, htxn⟩ := loop_ends hbody hm acc hs
    refine ⟨fuel, ?_⟩
    rw [exec_bind_ok hexec]
    exact hclose acc' s' (htxn.trans hopen)

/-! ### Operations -/

/-- Before an operation. -/
def Session.start : Session := ⟨0, []⟩

/-- After `OpenTxn` has returned. -/
def Session.inTxn : Session := ⟨2, [(.txnBegin, .success), (.dbiOpen, .success)]⟩

/-- A transaction that cannot be begun is not there to be closed; one whose
database cannot be opened stays open. -/
theorem endsClosed_openTxn_iff (f : Unit → Op α) :
    EndsClosed (exec (openTxn env >>= f) .start) ↔
      (env 0).rc ≠ .success ∨ (env 1).rc = .success ∧ EndsClosed (exec (f ()) .inTxn) := by
  rw [openTxn, bind_assoc, exec_call_bind, bind_assoc, exec_check_bind, bind_assoc,
    exec_call_bind, exec_check_bind]
  show EndsClosed (if (env 0).rc = .success then if (env 1).rc = .success then _ else _ else _) ↔ _
  by_cases hbegin : (env 0).rc = .success
  · by_cases hdbi : (env 1).rc = .success
    · have hs : (Session.start.after env .txnBegin).after env .dbiOpen = .inTxn := by
        simp [Session.after, Session.start, Session.inTxn, hbegin, hdbi]
      rw [if_pos hbegin, if_pos hdbi, hs]
      simp [hbegin, hdbi]
    · rw [if_pos hbegin, if_neg hdbi]
      simp [EndsClosed, Session.txn, Session.after, Session.start, Txn.after, hbegin, hdbi]
  · rw [if_neg hbegin]
    have htxn : (Session.start.after env .txnBegin).txn = .none := by
      show Txn.after .none (.txnBegin, (env 0).rc) = .none
      cases hrc : (env 0).rc with
      | success => exact absurd hrc hbegin
      | notFound | einval | other => rfl
    simp [EndsClosed, htxn, hbegin]

/-- A checked call in the transaction: if it fails, the transaction stays open. -/
theorem endsClosed_check_iff {c : Call} (hc : c.inTxn = true) (hopen : s.txn = .opened) (line : ℕ)
    (f : Reply → Op α) :
    EndsClosed (exec (call env c >>= fun r => ifLmdbError r.rc line >>= fun _ => f r) s) ↔
      (env s.next).rc = .success ∧ EndsClosed (exec (f (env s.next)) (s.after env c)) := by
  rw [exec_call_bind, exec_check_bind]
  split
  · rename_i hrc
    simp [hrc]
  · rename_i hrc
    simp [EndsClosed, hrc, txn_after hc, hopen]

/-- How every operation begins: `OpenTxn` and a checked call. -/
theorem endsClosed_begin_iff {c : Call} (hc : c.inTxn = true) (line : ℕ) (f : ℕ → Op α) :
    (∃ fuel, EndsClosed (exec (do
        openTxn env
        let r ← call env c
        ifLmdbError r.rc line
        f fuel) .start)) ↔
      (env 0).rc ≠ .success ∨ (env 1).rc = .success ∧ (env 2).rc = .success ∧
        ∃ fuel, EndsClosed (exec (f fuel) (Session.inTxn.after env c)) := by
  simp only [endsClosed_openTxn_iff, endsClosed_check_iff hc (show Session.inTxn.txn = _ from rfl)]
  rw [exists_or, exists_const, exists_and_left, exists_and_left]
  rfl

/-- Closing the cursor and aborting. -/
theorem endsClosed_abort (hopen : s.txn = .opened) (a : α) :
    EndsClosed (exec (do callVoid .cursorClose; callVoid .txnAbort; return a) s) := by
  rw [exec_callVoid_bind, exec_callVoid_bind, exec_pure]
  refine ⟨nofun, .inr (txn_close _ ?_ (.inr rfl))⟩
  exact (txn_append _ (by simp [Call.inTxn])).trans hopen

/-- An operation of the wrapper. -/
inductive Operation where
  | put (skey sval : String)
  | getAll
  | get (skey : String)
  | del (skey : String)

/-- The operation ends, with the fuel, and leaves no transaction open. -/
def Operation.Closes (env : ℕ → Reply) (fuel : ℕ) : Operation → Prop
  | .put skey sval => EndsClosed (exec (LmdbCalls.put env skey sval) .start)
  | .getAll => EndsClosed (exec (LmdbCalls.getAll env fuel) .start)
  | .get skey => EndsClosed (exec (LmdbCalls.get env fuel skey) .start)
  | .del skey => EndsClosed (exec (LmdbCalls.del env fuel skey) .start)

/-- The replies that an operation copes with after `OpenTxn` and the checked call
that follows. -/
def Operation.Copes (env : ℕ → Reply) : Operation → Prop
  | .put _ _ => True
  | .getAll => ∃ n, (env (3 + n)).rc.ends = true
  | .get _ => (env 3).rc ≠ .notFound ∧ ∃ n, (env (3 + n)).rc.ends = true
  | .del _ => ∃ n, (env (3 + 2 * n)).rc.ends = true

/-- A commit closes the transaction, whether or not it is checked. -/
theorem endsClosed_commit (hopen : s.txn = .opened) {f : Reply → Op Unit}
    (hf : ∀ r s', (exec (f r) s').2 = s' ∧ (exec (f r) s').1 ≠ .error .running) :
    EndsClosed (exec (call env .txnCommit >>= f) s) := by
  rw [exec_call_bind]
  obtain ⟨hs, hends⟩ := hf (env s.next) (s.after env .txnCommit)
  refine ⟨hends, .inr ?_⟩
  rw [hs]
  exact txn_close _ hopen (.inl rfl)

theorem inTxn_after_next (env : ℕ → Reply) (c : Call) : (Session.inTxn.after env c).next = 3 := rfl

/-- The transaction is open after a call in it. -/
theorem txn_inTxn {c c' : Call} (hc : c.inTxn = true) (hc' : c'.inTxn = true) :
    ((Session.inTxn.after env c).after env c').txn = .opened := by
  rw [txn_after hc', txn_after hc]
  rfl

/-- The cursor loop of an operation, which begins with the reply to its first
`mdb_cursor_get`. -/
theorem endsClosed_cursor_iff (hbody : StepsBy env k body) (op : CursorOp) {g : β → Op α} (acc : β)
    (hclose : ∀ a s', Session.txn s' = .opened → EndsClosed (exec (g a) s')) :
    (∃ fuel, EndsClosed (exec (loop body fuel (env 3) acc >>= g)
        ((Session.inTxn.after env .cursorOpen).after env (.cursorGet op)))) ↔
      ∃ m, (env (3 + m * (k + 1))).rc.ends = true :=
  endsClosed_loop_iff hbody acc rfl (txn_inTxn rfl rfl) hclose

/-- The replies to `Get` for a key that is not in the database. -/
def missingKey (n : ℕ) : Reply := ⟨if n < 3 then .success else .notFound, "", ""⟩

end

end LmdbCalls

end Riaps
