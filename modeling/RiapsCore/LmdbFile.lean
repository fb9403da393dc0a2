/-
What LMDB does at the calls of the database wrapper, and the runs of the wrapper
over it (`src/utils/r_lmdb.cc`).

LMDB is taken as its interface documents it: one write transaction at a time, in
which a call that fails changes nothing; `mdb_put` adds a value to a key; a cursor
moves in the order of the database, and a cursor call returns `MDB_NOTFOUND` where
there is no entry.  `mdb_txn_begin` waits while a transaction is open, and the
calls that may fail are `mdb_txn_begin`, `mdb_dbi_open`, `mdb_put`,
`mdb_cursor_open` and `mdb_txn_commit`.

* `LmdbFile.answer` — a call and its reply;
* `Answered` — the replies of a session are those of LMDB;
* `Ensures` — pre- and postconditions for the operations, with their rules;
* `DbCall.next` — one operation of the wrapper, as a step on the file.
-/
import Mathlib.Data.String.Basic
import RiapsCore.Discovery
import RiapsCore.LmdbTransactions
import RiapsCore.Runs
import RiapsCore.SortedDups

open SortedDups

namespace Riaps

namespace LmdbCalls

/-- An open write transaction: the contents it sees, and its cursor. -/
structure WriteTxn where
  contents : Lmdb
  cursor : Option (Cursor String String)
deriving DecidableEq

/-- The database file: what is committed, and the write transaction that is open. -/
structure LmdbFile where
  contents : Lmdb
  txn : Option WriteTxn
deriving DecidableEq

/-- `mdb_cursor_get`. -/
def CursorOp.move (db : Lmdb) (cur : Cursor String String) :
    CursorOp → Option ((String × String) × Cursor String String)
  | .first => Cursor.first db
  | .next => cur.next db
  | .setKey key => Cursor.setKey db key
  | .nextDup => cur.nextDup

/-- The reply to a cursor call that finds an entry, or none. -/
def Reply.Finds (r : Reply) : Option (String × String) → Bool
  | some e => r = ⟨.success, e.1, e.2⟩
  | none => r.rc = .notFound

/-- The file after a call that was answered with `r`; `none` if LMDB does not
answer it so, or not at all. -/
def LmdbFile.answer (f : LmdbFile) (c : Call) (r : Reply) : Option LmdbFile :=
  match f.txn with
  | none =>
    match c with
    | .txnBegin => some (if r.rc = .success then { f with txn := some ⟨f.contents, none⟩ } else f)
    | _ => none
  | some t =>
    match c with
    -- the writer's lock is held
    | .txnBegin => none
    | .dbiOpen => some f
    | .put key val =>
      if r.rc ≠ .success then some f
      else if key = "" then none
      else some { f with txn := some { t with contents := t.contents.put key val } }
    | .txnCommit => some ⟨if r.rc = .success then t.contents else f.contents, none⟩
    | .cursorOpen =>
      some (if r.rc = .success then { f with txn := some { t with cursor := some .unset } } else f)
    | .cursorGet op =>
      -- an empty key is not a key
      if op = .setKey "" then none
      else
        t.cursor.bind fun cur =>
          match op.move t.contents cur with
          | some (e, cur') =>
            if r.Finds (some e) then some { f with txn := some { t with cursor := some cur' } }
            else none
          | none => if r.Finds none then some f else none
    | .cursorDel =>
      t.cursor.bind fun cur => (cur.delDups t.contents).bind fun d =>
        if r.rc = .success then some { f with txn := some ⟨d.1, some d.2⟩ } else none
    | .cursorClose => some { f with txn := some { t with cursor := none } }
    | .txnAbort => some { f with txn := none }

/-- The call returns a code. -/
def Call.returns : Call → Bool
  | .cursorClose | .txnAbort => false
  | _ => true

/-- The next call of a session, answered with the next reply if it returns a code. -/
def LmdbFile.take (env : ℕ → Reply) (x : ℕ × LmdbFile) (c : Call × Rc) : Option (ℕ × LmdbFile) :=
  if c.1.returns then (x.2.answer c.1 (env x.1)).map fun f => (x.1 + 1, f)
  else (x.2.answer c.1 ⟨.success, "", ""⟩).map fun f => (x.1, f)

/-- The file after the calls of a session, which have used its replies. -/
def LmdbFile.serve (env : ℕ → Reply) (f : LmdbFile) (s : Session) : Option LmdbFile :=
  (s.made.foldlM (LmdbFile.take env) (0, f)).bind fun x =>
    if x.1 = s.next then some x.2 else none

/-- What an operation returns. -/
inductive Result where
  | done
  | entries (results : List (String × String))
  | values (results : List String)
deriving DecidableEq

/-- An operation and what becomes of it. -/
def Operation.exec (env : ℕ → Reply) (fuel : ℕ) : Operation → Except Stop Result × Session
  | .put skey sval => LmdbCalls.exec ((fun _ => .done) <$> LmdbCalls.put env skey sval) .start
  | .getAll => LmdbCalls.exec (.entries <$> LmdbCalls.getAll env fuel) .start
  | .get skey => LmdbCalls.exec (.values <$> LmdbCalls.get env fuel skey) .start
  | .del skey => LmdbCalls.exec ((fun _ => .done) <$> LmdbCalls.del env fuel skey) .start

/-- An operation with the replies it gets. -/
structure DbCall where
  op : Operation
  replies : List Reply
  fuel : ℕ

namespace DbCall

/-- The replies as a stream. -/
def env (l : DbCall) (n : ℕ) : Reply := l.replies.getD n ⟨.notFound, "", ""⟩

/-- What the operation returns or throws. -/
def out (l : DbCall) : Except Stop Result := (l.op.exec l.env l.fuel).1

/-- The calls it makes. -/
def session (l : DbCall) : Session := (l.op.exec l.env l.fuel).2

/-- One operation of the wrapper, with more turns for its loop than the file has
entries. -/
def next (f : LmdbFile) (l : DbCall) : Option LmdbFile :=
  if f.contents.card < l.fuel then f.serve l.env l.session else none

end DbCall

/-! ### Sessions that LMDB answers -/

/-- The replies of the session are those of LMDB, and the file is now `f`. -/
def Answered (env : ℕ → Reply) (f₀ : LmdbFile) (s : Session) (f : LmdbFile) : Prop :=
  f₀.serve env s = some f

variable {env : ℕ → Reply} {f₀ f f' : LmdbFile} {s : Session} {c : Call} {α β : Type}

theorem answered_iff :
    Answered env f₀ s f ↔ s.made.foldlM (LmdbFile.take env) (0, f₀) = some (s.next, f) := by
  rw [Answered, LmdbFile.serve, Option.bind_eq_some_iff]
  constructor
  · rintro ⟨⟨n, f₁⟩, hfold, hn⟩
    rw [Option.ite_none_right_eq_some, Option.some.injEq] at hn
    obtain ⟨rfl, rfl⟩ := hn
    exact hfold
  · intro h
    exact ⟨_, h, if_pos rfl⟩

/-- A call that returns a code. -/
theorem answered_after (hc : c.returns = true) :
    Answered env f₀ (s.after env c) f' ↔
      ∃ f, Answered env f₀ s f ∧ f.answer c (env s.next) = some f' := by
  simp only [answered_iff, Session.after, List.foldlM_append, List.foldlM_cons, List.foldlM_nil,
    bind_pure, Option.bind_eq_bind, Option.bind_eq_some_iff, LmdbFile.take, hc, if_true,
    Option.map_eq_some_iff, Prod.mk.injEq]
  constructor
  · rintro ⟨⟨n, f₁⟩, hfold, f₂, hans, hn, rfl⟩
    obtain rfl : n = s.next := Nat.succ.inj hn
    exact ⟨f₁, hfold, hans⟩
  · rintro ⟨f₁, hfold, hans⟩
    exact ⟨(s.next, f₁), hfold, f', hans, rfl, rfl⟩

/-- A call that returns nothing. -/
theorem answered_afterVoid (hc : c.returns = false) {rc : Rc} :
    Answered env f₀ { s with made := s.made ++ [(c, rc)] } f' ↔
      ∃ f, Answered env f₀ s f ∧ f.answer c ⟨.success, "", ""⟩ = some f' := by
  simp only [answered_iff, List.foldlM_append, List.foldlM_cons, List.foldlM_nil,
    bind_pure, Option.bind_eq_bind, Option.bind_eq_some_iff, LmdbFile.take, hc,
    Bool.false_eq_true, if_false, Option.map_eq_some_iff, Prod.mk.injEq]
  constructor
  · rintro ⟨⟨n, f₁⟩, hfold, f₂, hans, rfl, rfl⟩
    exact ⟨f₁, hfold, hans⟩
  · rintro ⟨f₁, hfold, hans⟩
    exact ⟨(s.next, f₁), hfold, f', hans, rfl, rfl⟩

/-! ### Pre- and postconditions -/

/-- Before an operation. -/
abbrev Pre := LmdbFile → Prop

/-- After it: the outcome, the session and the file. -/
abbrev Post (α : Type) := Except Stop α → Session → LmdbFile → Prop

/-- A session of `x` that LMDB has answered was answered up to `x`, and if the
file met `P` there, then what became of `x` meets `Q`. -/
def Ensures (env : ℕ → Reply) (P : Pre) (x : Op α) (Q : Post α) : Prop :=
  ∀ f₀ s f', Answered env f₀ (exec x s).2 f' →
    ∃ f, Answered env f₀ s f ∧ (P f → Q (exec x s).1 (exec x s).2 f')

namespace Ensures

variable {P P' : Pre} {Q : Post α}

theorem mono {x : Op α} (h : Ensures env P' x Q) (hP : ∀ f, P f → P' f) : Ensures env P x Q := by
  intro f₀ s f' hans
  obtain ⟨f, hf, hQ⟩ := h f₀ s f' hans
  exact ⟨f, hf, fun hPf => hQ (hP f hPf)⟩

/-- What does not depend on the file is kept. -/
theorem frame {x : Op α} (h : Ensures env P x Q) (R : Prop) :
    Ensures env (fun f => R ∧ P f) x fun out s f => R ∧ Q out s f := by
  intro f₀ s f' hans
  obtain ⟨f, hf, hQ⟩ := h f₀ s f' hans
  exact ⟨f, hf, fun hPf => ⟨hPf.1, hQ hPf.2⟩⟩

theorem done {a : α} (h : ∀ f s, P f → Q (.ok a) s f) : Ensures env P (pure a) Q :=
  fun _ s f' hans => ⟨f', hans, h f' s⟩

theorem thrown {e : Stop} (h : ∀ f s, P f → Q (.error e) s f) :
    Ensures env P (throw e : Op α) Q :=
  fun _ s f' hans => ⟨f', hans, h f' s⟩

/-- What follows a call, with the reply. -/
theorem call_bind (hc : c.returns = true) {g : Reply → Op α}
    (h : ∀ r, Ensures env (fun f' => ∃ f, P f ∧ f.answer c r = some f') (g r) Q) :
    Ensures env P (call env c >>= g) Q := by
  intro f₀ s f' hans
  rw [exec_call_bind] at hans ⊢
  obtain ⟨f₁, hf₁, hQ⟩ := h (env s.next) f₀ (s.after env c) f' hans
  obtain ⟨f, hf, hcall⟩ := (answered_after hc).mp hf₁
  exact ⟨f, hf, fun hP => hQ ⟨f, hP, hcall⟩⟩

theorem callVoid_bind (hc : c.returns = false) {g : Unit → Op α}
    (h : Ensures env (fun f' => ∃ f, P f ∧ f.answer c ⟨.success, "", ""⟩ = some f') (g ()) Q) :
    Ensures env P (callVoid c >>= g) Q := by
  intro f₀ s f' hans
  rw [exec_callVoid_bind] at hans ⊢
  obtain ⟨f₁, hf₁, hQ⟩ := h f₀ _ f' hans
  obtain ⟨f, hf, hcall⟩ := (answered_afterVoid hc).mp hf₁
  exact ⟨f, hf, fun hP => hQ ⟨f, hP, hcall⟩⟩

/-- A call that nothing but its own outcome follows: it is the last of the session. -/
theorem last_call (hc : c.returns = true) {g : Reply → Op α} {o : Reply → Except Stop α}
    (hg : ∀ r s, exec (g r) s = (o r, s))
    (h : ∀ r s f f', P f → f.answer c r = some f' →
      s.made.getLast? = some (c, r.rc) → Q (o r) s f') :
    Ensures env P (call env c >>= g) Q := by
  intro f₀ s f' hans
  rw [exec_call_bind, hg] at hans ⊢
  obtain ⟨f, hf, hcall⟩ := (answered_after hc).mp hans
  refine ⟨f, hf, fun hP => h _ _ f f' hP hcall ?_⟩
  rw [Session.after, List.getLast?_append, List.getLast?_singleton, Option.some_or]

theorem bind {x : Op β} {M : Except Stop β → LmdbFile → Prop} {g : β → Op α}
    (hx : Ensures env P x fun out _ f => M out f)
    (hg : ∀ b, Ensures env (M (.ok b)) (g b) Q) (he : ∀ e s f, M (.error e) f → Q (.error e) s f) :
    Ensures env P (x >>= g) Q := by
  intro f₀ s f' hans
  cases hout : exec x s with
  | mk out s₁ =>
    cases out with
    | error e =>
      rw [exec_bind_error hout] at hans ⊢
      obtain ⟨f, hf, hM⟩ := hx f₀ s f' (by rw [hout]; exact hans)
      rw [hout] at hM
      exact ⟨f, hf, fun hP => he e s₁ f' (hM hP)⟩
    | ok b =>
      rw [exec_bind_ok hout] at hans ⊢
      obtain ⟨f₁, hf₁, hQ⟩ := hg b f₀ s₁ f' hans
      obtain ⟨f, hf, hM⟩ := hx f₀ s f₁ (by rw [hout]; exact hf₁)
      rw [hout] at hM
      exact ⟨f, hf, fun hP => hQ (hM hP)⟩

/-- A checked call: if it fails, it is the last of the session. -/
theorem checked (hc : c.returns = true) {line : ℕ} {g : Reply → Op α}
    (hok : ∀ r, r.rc = .success →
      Ensures env (fun f' => ∃ f, P f ∧ f.answer c r = some f') (g r) Q)
    (hfail : ∀ r s f f', r.rc ≠ .success → P f → f.answer c r = some f' →
      s.made.getLast? = some (c, r.rc) → Q (.error (.lmdbError (line - 1))) s f') :
    Ensures env P (call env c >>= fun r => ifLmdbError r.rc line >>= fun _ => g r) Q := by
  intro f₀ s f' hans
  rw [exec_call_bind, exec_check_bind] at hans ⊢
  by_cases hrc : (env s.next).rc = .success
  · rw [if_pos hrc] at hans ⊢
    obtain ⟨f₁, hf₁, hQ⟩ := hok _ hrc f₀ _ f' hans
    obtain ⟨f, hf, hcall⟩ := (answered_after hc).mp hf₁
    exact ⟨f, hf, fun hP => hQ ⟨f, hP, hcall⟩⟩
  · rw [if_neg hrc] at hans ⊢
    obtain ⟨f, hf, hcall⟩ := (answered_after hc).mp hans
    refine ⟨f, hf, fun hP => hfail _ _ f f' hrc hP hcall ?_⟩
    rw [Session.after, List.getLast?_append, List.getLast?_singleton, Option.some_or]

end Ensures

end LmdbCalls

end Riaps
