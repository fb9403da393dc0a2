/-
The database wrapper keeps what was put and not deleted (`src/utils/r_lmdb.cc`).

Over LMDB as `LmdbFile` has it, with every failure that LMDB documents, each
operation of the wrapper does to the file what `Lmdb.put` and `Lmdb.del` do to the
database of the discovery service, and returns what the database holds.

* `does_put`, `does_getAll`, `does_get`, `does_del` — the operations;
* `next_does` — one operation of a run;
* `database_history` — whole runs;
* `snapshot_of_getAll` — what the restart of the discovery service takes as the
  snapshot of its database is one.
-/
import RiapsCore.LmdbFile
import RiapsCore.Recovery

open Runs SortedDups

namespace Riaps

namespace LmdbCalls

/-- What an operation makes of the contents when it commits. -/
def Operation.apply (db : Lmdb) : Operation → Lmdb
  | .put skey sval => db.put skey sval
  | .del skey => db.del skey
  | .getAll | .get _ => db

/-- What it returns. -/
def Operation.result (db : Lmdb) : Operation → Result
  | .put _ _ | .del _ => .done
  | .getAll => .entries (entries db)
  | .get skey => .values (values db skey)

/-- The outcomes after which the transaction is open: an error other than that of
`mdb_txn_begin` (line 170) or of `mdb_txn_commit` (line 79), and no values. -/
def Leaks : Except Stop Result → Bool
  | .error (.lmdbError line) => line ≠ 170 && line ≠ 79
  | .ok (.values []) => true
  | _ => false

/-- The last call is a commit that succeeds. -/
def Session.Commits (s : Session) : Prop := s.made.getLast? = some (.txnCommit, .success)

instance (s : Session) : Decidable s.Commits := inferInstanceAs (Decidable (_ = _))

/-- What becomes of an operation on the file with contents `db`. -/
structure Operation.Does (op : Operation) (db : Lmdb) (out : Except Stop Result) (s : Session)
    (f : LmdbFile) : Prop where
  ended : out ≠ .error .running
  contents : f.contents = if s.Commits then op.apply db else db
  result : ∀ r, out = .ok r → r = op.result db
  thrown : ∀ e, out = .error e → ¬ s.Commits
  returned : ∀ skey sval, op = .put skey sval → out = .ok .done → s.Commits
  txn : f.txn = none ↔ Leaks out = false

variable {env : ℕ → Reply} {db : Lmdb} {op : Operation} {s : Session} {f f' : LmdbFile}
  {α β : Type}

/-! ### Failures -/

/-- The postcondition holds of an operation that throws before it commits. -/
def AcceptsFailure (db : Lmdb) (Q : Post α) : Prop :=
  ∀ line s f, f.contents = db → ¬ s.Commits → (f.txn = none ↔ line = 170 ∨ line = 79) →
    Q (.error (.lmdbError line)) s f

theorem acceptsFailure_does (op : Operation) (h : α → Result) :
    AcceptsFailure db fun out s f => op.Does db (out.map h) s f := by
  intro line s f hdb hs htxn
  refine ⟨nofun, ?_, nofun, fun _ _ => hs, nofun, ?_⟩
  · rw [if_neg hs, hdb]
  · rw [htxn]
    simp only [Except.map, Leaks, Bool.and_eq_false_iff, decide_eq_false_iff_not, ne_eq, not_not]

theorem not_commits_of_last {c : Call} {rc : Rc} (h : s.made.getLast? = some (c, rc))
    (hrc : rc ≠ .success) : ¬ s.Commits := by
  rw [Session.Commits, h]
  intro heq
  exact hrc (congrArg Prod.snd (Option.some.inj heq))

theorem Ensures.map {P : Pre} {x : Op α} {h : α → β} {Q : Post β}
    (hx : Ensures env P x fun out s f => Q (out.map h) s f) : Ensures env P (h <$> x) Q := by
  have hexec : ∀ s, exec (h <$> x) s = ((exec x s).1.map h, (exec x s).2) := by
    intro s
    show exec (x >>= fun a => pure (h a)) s = _
    rw [exec_bind]
    cases hout : (exec x s).1 with
    | error e => rfl
    | ok a => rfl
  intro f₀ s f' hans
  rw [hexec] at hans ⊢
  exact hx f₀ s f' hans

theorem openTxn_bind (g : Unit → Op α) :
    (openTxn env >>= g) = call env .txnBegin >>= fun r => ifLmdbError r.rc 171 >>= fun _ =>
      call env .dbiOpen >>= fun r' => ifLmdbError r'.rc 175 >>= fun _ => g () := by
  simp only [openTxn, bind_assoc]

/-- `OpenTxn()`, which comes back only if no transaction is open. -/
theorem ensures_openTxn {t₀ : Option WriteTxn} {Q : Post α} (hQ : AcceptsFailure db Q)
    {g : Unit → Op α} (hg : Ensures env (· = ⟨db, some ⟨db, none⟩⟩) (g ()) Q) :
    Ensures env (· = ⟨db, t₀⟩) (openTxn env >>= g) fun out s f => t₀ = none ∧ Q out s f := by
  have hbegin : ∀ {r f}, LmdbFile.answer ⟨db, t₀⟩ .txnBegin r = some f →
      t₀ = none ∧ f = if r.rc = .success then ⟨db, some ⟨db, none⟩⟩ else ⟨db, none⟩ := by
    intro r f h
    cases t₀ with
    | none => exact ⟨rfl, (Option.some.inj h).symm⟩
    | some t => cases h
  rw [openTxn_bind]
  refine Ensures.checked rfl (fun r hr => ?_) ?_
  · refine Ensures.checked rfl (fun r' _ => ?_) ?_
    · refine (hg.frame (t₀ = none)).mono ?_
      rintro f ⟨f₁, ⟨f₂, rfl, h⟩, hdbi⟩
      obtain ⟨rfl, rfl⟩ := hbegin h
      rw [if_pos hr] at hdbi
      exact ⟨rfl, (Option.some.inj hdbi).symm⟩
    · rintro r' s f f' hr' ⟨f₁, rfl, h⟩ hdbi hlast
      obtain ⟨rfl, rfl⟩ := hbegin h
      rw [if_pos hr] at hdbi
      obtain rfl : _ = f' := Option.some.inj hdbi
      exact ⟨rfl, hQ _ s _ rfl (not_commits_of_last hlast hr') (by simp)⟩
  · rintro r s f f' hr rfl h hlast
    obtain ⟨rfl, rfl⟩ := hbegin h
    rw [if_neg hr]
    exact ⟨rfl, hQ _ s _ rfl (not_commits_of_last hlast hr) (by simp)⟩

/-- `mdb_cursor_open`, which every operation but `Put` checks. -/
theorem ensures_cursorOpen {Q : Post α} (hQ : AcceptsFailure db Q) {line : ℕ}
    (hline : line - 1 ≠ 170 ∧ line - 1 ≠ 79) {g : Reply → Op α}
    (hg : ∀ r, Ensures env (· = ⟨db, some ⟨db, some .unset⟩⟩) (g r) Q) :
    Ensures env (· = ⟨db, some ⟨db, none⟩⟩)
      (call env .cursorOpen >>= fun r => ifLmdbError r.rc line >>= fun _ => g r) Q := by
  refine Ensures.checked rfl (fun r hr => (hg r).mono ?_) ?_
  · rintro f ⟨f₁, rfl, hopen⟩
    simpa [LmdbFile.answer, hr] using hopen.symm
  · rintro r s f f' hr rfl hopen hlast
    obtain rfl : _ = f' := by simpa [LmdbFile.answer, hr] using hopen
    exact hQ _ s _ rfl (not_commits_of_last hlast hr) (by simp [hline])

/-! ### Operations -/

theorem answer_put {t : WriteTxn} {skey sval : String} {r : Reply} :
    LmdbFile.answer ⟨db, some t⟩ (.put skey sval) r =
      if r.rc ≠ .success then some ⟨db, some t⟩
      else if skey = "" then none
      else some ⟨db, some { t with contents := t.contents.put skey sval }⟩ := rfl

/-- **`Put`.** -/
theorem does_put (env : ℕ → Reply) (db : Lmdb) (t₀ : Option WriteTxn) (skey sval : String) :
    Ensures env (· = ⟨db, t₀⟩) ((fun _ => Result.done) <$> put env skey sval)
      fun out s f => t₀ = none ∧ (Operation.put skey sval).Does db out s f := by
  refine Ensures.map (ensures_openTxn (acceptsFailure_does _ _) ?_)
  refine Ensures.checked rfl (fun r hr => ?_) ?_
  · refine Ensures.last_call (o := fun r => if r.rc = .success then .ok () else
      .error (.lmdbError 79)) rfl (fun r s => ?_) ?_
    · rw [exec_check]
      split
      · rfl
      · rfl
    · rintro r' s f f' ⟨f₁, rfl, hput⟩ hcommit hlast
      rw [answer_put, if_neg (not_not.mpr hr), Option.ite_none_left_eq_some,
        Option.some.injEq] at hput
      obtain ⟨-, rfl⟩ := hput
      obtain rfl : _ = f' := Option.some.inj hcommit
      by_cases hr' : r'.rc = .success
      · have hs : s.Commits := by rw [Session.Commits, hlast, hr']
        refine ⟨by simp [hr', Except.map], ?_, ?_, ?_, fun _ _ _ _ => hs, ?_⟩
        · rw [if_pos hs, if_pos hr']
          rfl
        · simp [hr', Except.map, Operation.result]
        · simp [hr', Except.map]
        · simp [hr', Except.map, Leaks]
      · rw [if_neg hr', if_neg hr']
        exact acceptsFailure_does _ _ _ s _ rfl (not_commits_of_last hlast hr') (by simp)
  · rintro r s f f' hr rfl hput hlast
    rw [answer_put, if_pos hr, Option.some.injEq] at hput
    subst hput
    exact acceptsFailure_does _ _ _ s _ rfl (not_commits_of_last hlast hr) (by simp)

/-- An operation that only reads. -/
theorem does_read {r : Result} (hop : op.apply db = db) (hput : ∀ skey sval, op ≠ .put skey sval)
    (hr : r = op.result db) (htxn : f.txn = none ↔ Leaks (.ok r) = false) (hf : f.contents = db) :
    op.Does db (.ok r) s f where
  ended := nofun
  contents := by rw [hop, ite_self, hf]
  result := fun _ h => (Except.ok.inj h).symm.trans hr
  thrown := nofun
  returned := fun skey sval h => absurd h (hput skey sval)
  txn := htxn

/-- The cursor has been closed and the transaction aborted. -/
theorem ensures_abort {Q : Post α} {R : Prop} (a : α) (hQ : R → ∀ s, Q (.ok a) s ⟨db, none⟩) :
    Ensures env (fun f => R ∧ ∃ cur, f = ⟨db, some ⟨db, some cur⟩⟩)
      (do callVoid .cursorClose; callVoid .txnAbort; return a) Q := by
  refine Ensures.callVoid_bind rfl (Ensures.callVoid_bind rfl (Ensures.done ?_))
  rintro f s ⟨f₁, ⟨f₂, ⟨hR, cur, rfl⟩, hclose⟩, habort⟩
  obtain rfl : _ = f₁ := Option.some.inj hclose
  obtain rfl : _ = f := Option.some.inj habort
  exact hQ hR s

/-- What `GetAll` has still to collect, when the last reply was `r`. -/
def Remaining (db : Lmdb) (r : Reply) (f : LmdbFile) : List (String × String) → Prop
  | [] => r.rc = .notFound ∧ ∃ cur, f = ⟨db, some ⟨db, some cur⟩⟩
  | e :: rest => r = ⟨.success, e.1, e.2⟩ ∧ f = ⟨db, some ⟨db, some (.onEntry e rest)⟩⟩

/-- A call that moves the cursor to the head of what remains. -/
theorem remaining_of_answer {cur : Cursor String String} {cop : CursorOp} {r : Reply}
    {es : List (String × String)} (hmove : cop.move db cur = Cursor.atHead es)
    (hcop : cop ≠ .setKey "")
    (h : LmdbFile.answer ⟨db, some ⟨db, some cur⟩⟩ (.cursorGet cop) r = some f) :
    Remaining db r f es := by
  simp only [LmdbFile.answer, hcop, if_false, Option.bind_some, hmove] at h
  cases es with
  | nil =>
    simp only [Cursor.atHead, Reply.Finds, decide_eq_true_iff, Option.ite_none_right_eq_some,
      Option.some.injEq] at h
    exact ⟨h.1, cur, h.2.symm⟩
  | cons e rest =>
    simp only [Cursor.atHead, Reply.Finds, decide_eq_true_iff, Option.ite_none_right_eq_some,
      Option.some.injEq] at h
    exact ⟨h.1, h.2.symm⟩

/-- The loop of `GetAll` collects what remains. -/
theorem ensures_loop_getAll (full : List (String × String)) (fuel : ℕ) (r : Reply)
    (acc : List (String × String)) :
    Ensures env
      (fun f => ∃ es, es.length < fuel ∧ acc ++ es = full ∧ Remaining db r f es)
      (loop (getAllBody env) fuel r acc)
      (fun out _ f => out = .ok full ∧ ∃ cur, f = ⟨db, some ⟨db, some cur⟩⟩) := by
  induction fuel generalizing r acc with
  | zero =>
    refine Ensures.thrown ?_
    rintro f s ⟨es, hfuel, -⟩
    exact absurd hfuel (Nat.not_lt_zero _)
  | succ fuel ih =>
    rw [loop]
    by_cases hr : r.rc.ends = true
    · rw [if_pos hr]
      refine Ensures.done ?_
      rintro f s ⟨es, -, hes, hrem⟩
      cases es with
      | nil => exact ⟨by rw [← hes, List.append_nil], hrem.2⟩
      | cons e rest => rw [hrem.1] at hr; cases hr
    · rw [if_neg hr, getAllBody, bind_assoc]
      refine Ensures.call_bind rfl fun r' => ?_
      rw [pure_bind]
      refine (ih r' _).mono ?_
      rintro f' ⟨f, ⟨es, hfuel, hes, hrem⟩, hnext⟩
      cases es with
      | nil => rw [hrem.1] at hr; exact absurd rfl hr
      | cons e rest =>
        obtain ⟨rfl, rfl⟩ := hrem
        refine ⟨rest, by simpa using hfuel, ?_, remaining_of_answer rfl (by simp) hnext⟩
        rw [← hes, List.append_assoc]
        rfl

/-- **`GetAll`.** -/
theorem does_getAll (env : ℕ → Reply) {db : Lmdb} (t₀ : Option WriteTxn) {fuel : ℕ}
    (hfuel : db.card < fuel) :
    Ensures env (· = ⟨db, t₀⟩) (Result.entries <$> getAll env fuel)
      fun out s f => t₀ = none ∧ Operation.getAll.Does db out s f := by
  refine Ensures.map (ensures_openTxn (acceptsFailure_does _ _)
    (ensures_cursorOpen (acceptsFailure_does _ _) (by decide) fun _ => ?_))
  refine Ensures.call_bind rfl fun r => ?_
  refine Ensures.bind (M := fun out f => out = .ok (entries db) ∧
    ∃ cur, f = ⟨db, some ⟨db, some cur⟩⟩) ((ensures_loop_getAll _ fuel r []).mono ?_)
    (fun results => ?_) ?_
  · rintro f' ⟨f, rfl, hfirst⟩
    exact ⟨entries db, by rwa [length_entries], rfl, remaining_of_answer rfl (by simp) hfirst⟩
  · refine ensures_abort results fun hres s => ?_
    rw [Except.ok.injEq] at hres
    exact does_read rfl nofun (by rw [hres]; rfl) (by simp [Leaks]) rfl
  · rintro e s f ⟨he, -⟩
    cases he

/-- `MDB_SET_KEY`: there is no value of the key, or the cursor stands at its first one. -/
theorem answer_setKey {cur : Cursor String String} {skey : String} {r : Reply}
    (h : LmdbFile.answer ⟨db, some ⟨db, some cur⟩⟩ (.cursorGet (.setKey skey)) r = some f) :
    values db skey = [] ∧ r.rc = .notFound ∧ f = ⟨db, some ⟨db, some cur⟩⟩ ∨
      ∃ e rest, e.1 = skey ∧ r = ⟨.success, e.1, e.2⟩ ∧
        f = ⟨db, some ⟨db, some (.onEntry e rest)⟩⟩ ∧
        values db skey = e.2 :: (rest.takeWhile fun x => x.1 = skey).map Prod.snd := by
  simp only [LmdbFile.answer, CursorOp.move, Option.bind_some,
    Option.ite_none_left_eq_some] at h
  obtain ⟨-, h⟩ := h
  cases hset : Cursor.setKey db skey with
  | none =>
    simp only [hset, Reply.Finds, decide_eq_true_iff, Option.ite_none_right_eq_some,
      Option.some.injEq] at h
    exact .inl ⟨Cursor.setKey_eq_none_iff.mp hset, h.1, h.2.symm⟩
  | some x =>
    obtain ⟨e, cur'⟩ := x
    obtain ⟨rest, rfl, he, hvals⟩ := Cursor.setKey_eq_some hset
    simp only [hset, Reply.Finds, decide_eq_true_iff, Option.ite_none_right_eq_some,
      Option.some.injEq] at h
    exact .inr ⟨e, rest, he, h.1, h.2.symm, hvals⟩

/-- The duplicates that `Get` has still to collect, when the last reply was `r`. -/
def Duplicates (db : Lmdb) (skey : String) (r : Reply) (f : LmdbFile) (dups : List String) : Prop :=
  r.rc = .notFound ∧ dups = [] ∧ (∃ cur, f = ⟨db, some ⟨db, some cur⟩⟩) ∨
    r.rc = .success ∧ ∃ e rest, e.1 = skey ∧ f = ⟨db, some ⟨db, some (.onEntry e rest)⟩⟩ ∧
      dups = (rest.takeWhile fun x => x.1 = skey).map Prod.snd

/-- `MDB_NEXT_DUP` from an entry. -/
theorem answer_nextDup {skey : String} {e : String × String} {rest : List (String × String)}
    {r : Reply} (he : e.1 = skey)
    (h : LmdbFile.answer ⟨db, some ⟨db, some (.onEntry e rest)⟩⟩ (.cursorGet .nextDup) r
      = some f) :
    ∃ dups, Duplicates db skey r f dups ∧
      (rest.takeWhile fun x => x.1 = skey).map Prod.snd =
        if r.rc ≠ .notFound then r.val :: dups else [] := by
  have hcop : CursorOp.nextDup ≠ .setKey "" := nofun
  simp only [LmdbFile.answer, hcop, if_false, CursorOp.move, Option.bind_some] at h
  have hnone : (rest.takeWhile fun x => x.1 = skey) = [] →
      Cursor.nextDup (.onEntry e rest) = none → ∃ dups, Duplicates db skey r f dups ∧
        (rest.takeWhile fun x => x.1 = skey).map Prod.snd =
          if r.rc ≠ .notFound then r.val :: dups else [] := by
    intro htake hdup
    simp only [hdup, Reply.Finds, decide_eq_true_iff, Option.ite_none_right_eq_some,
      Option.some.injEq] at h
    refine ⟨[], .inl ⟨h.1, rfl, _, h.2.symm⟩, ?_⟩
    rw [htake, if_neg (not_not.mpr h.1)]
    rfl
  cases rest with
  | nil => exact hnone rfl rfl
  | cons e' rest =>
    by_cases he' : e'.1 = skey
    · have hdup : Cursor.nextDup (.onEntry e (e' :: rest)) = some (e', .onEntry e' rest) :=
        if_pos (he'.trans he.symm)
      simp only [hdup, Reply.Finds, decide_eq_true_iff, Option.ite_none_right_eq_some,
        Option.some.injEq] at h
      obtain ⟨rfl, rfl⟩ := h
      refine ⟨_, .inr ⟨rfl, e', rest, he', rfl, rfl⟩, ?_⟩
      rw [List.takeWhile_cons_of_pos (by simpa using he'), if_pos nofun]
      rfl
    · refine hnone (List.takeWhile_cons_of_neg (by simpa using he')) (if_neg ?_)
      rw [he]
      exact he'

/-- The loop of `Get` collects the duplicates. -/
theorem ensures_loop_get (skey : String) (full : List String) (fuel : ℕ) (r : Reply)
    (acc : List String) :
    Ensures env
      (fun f => ∃ dups, (r.rc ≠ .notFound → dups.length + 1 < fuel) ∧ 0 < fuel ∧
        acc ++ dups = full ∧ Duplicates db skey r f dups)
      (loop (getBody env) fuel r acc)
      (fun out _ f => out = .ok full ∧ ∃ cur, f = ⟨db, some ⟨db, some cur⟩⟩) := by
  induction fuel generalizing r acc with
  | zero =>
    refine Ensures.thrown ?_
    rintro f s ⟨dups, -, hfuel, -⟩
    exact absurd hfuel (Nat.not_lt_zero _)
  | succ fuel ih =>
    rw [loop]
    by_cases hr : r.rc.ends = true
    · rw [if_pos hr]
      refine Ensures.done ?_
      rintro f s ⟨dups, -, -, hdups, ⟨-, rfl, hcur⟩ | ⟨hok, -⟩⟩
      · exact ⟨by rw [← hdups, List.append_nil], hcur⟩
      · rw [hok] at hr
        cases hr
    · rw [if_neg hr, getBody, bind_assoc]
      refine Ensures.call_bind rfl fun r' => ?_
      rw [pure_bind]
      refine (ih r' _).mono ?_
      rintro f' ⟨f, ⟨dups, hlen, -, hdups, ⟨hnf, -⟩ | ⟨hok, e, rest, he, rfl, hrest⟩⟩, hnext⟩
      · rw [hnf] at hr
        exact absurd rfl hr
      · have hlen' : dups.length < fuel := by
          have := hlen (by simp [hok])
          omega
        obtain ⟨dups', hdups', hval⟩ := answer_nextDup he hnext
        rw [← hrest] at hval
        refine ⟨dups', fun hr' => ?_, Nat.zero_lt_of_lt hlen', ?_, hdups'⟩
        · rw [if_pos hr'] at hval
          rw [hval] at hlen'
          exact hlen'
        · by_cases hr' : r'.rc = .notFound
          · obtain rfl : dups' = [] := by
              rcases hdups' with ⟨-, hnil, -⟩ | ⟨hok', -⟩
              · exact hnil
              · rw [hok'] at hr'
                cases hr'
            rw [if_neg (not_not.mpr hr')] at hval ⊢
            rw [← hdups, hval]
          · rw [if_pos hr'] at hval ⊢
            rw [← hdups, hval, List.append_assoc]
            rfl

/-- **`Get`.**  When the key has no value, the transaction stays open. -/
theorem does_get (env : ℕ → Reply) {db : Lmdb} (t₀ : Option WriteTxn) {fuel : ℕ}
    (hfuel : db.card < fuel) (skey : String) :
    Ensures env (· = ⟨db, t₀⟩) (Result.values <$> get env fuel skey)
      fun out s f => t₀ = none ∧ (Operation.get skey).Does db out s f := by
  refine Ensures.map (ensures_openTxn (acceptsFailure_does _ _)
    (ensures_cursorOpen (acceptsFailure_does _ _) (by decide) fun _ => ?_))
  refine Ensures.call_bind rfl fun r => ?_
  by_cases hr : r.rc = .notFound
  · rw [if_pos hr]
    refine Ensures.done ?_
    rintro f' s ⟨f, rfl, hset⟩
    rcases answer_setKey hset with ⟨hnil, -, rfl⟩ | ⟨e, rest, -, rfl, -⟩
    · exact does_read rfl nofun (by rw [Operation.result, hnil]) (by simp [Leaks]) rfl
    · cases hr
  · rw [if_neg hr]
    refine Ensures.bind (M := fun out f => values db skey ≠ [] ∧ out = .ok (values db skey) ∧
      ∃ cur, f = ⟨db, some ⟨db, some cur⟩⟩)
      (((ensures_loop_get skey _ fuel r [r.val]).frame _).mono ?_) (fun results => ?_) ?_
    · rintro f' ⟨f, rfl, hset⟩
      rcases answer_setKey hset with ⟨-, hnf, -⟩ | ⟨e, rest, he, rfl, rfl, hvals⟩
      · exact absurd hnf hr
      · have hlen : (values db skey).length < fuel := (length_values_le db skey).trans_lt hfuel
        refine ⟨by rw [hvals]; nofun, _, fun _ => ?_, Nat.zero_lt_of_lt hlen, ?_,
          .inr ⟨rfl, e, rest, he, rfl, rfl⟩⟩
        · rw [hvals] at hlen
          exact hlen
        · rw [hvals]
          rfl
    · refine (ensures_abort results fun hres s => ?_).mono fun f hf =>
        ⟨And.intro hf.1 hf.2.1, hf.2.2⟩
      obtain ⟨hne, hres⟩ := hres
      rw [Except.ok.injEq] at hres
      refine does_read rfl nofun (by rw [hres]; rfl) ?_ rfl
      cases hvals : results with
      | nil => exact absurd (hres.symm.trans hvals) hne
      | cons v vs => simp [Leaks]
    · rintro e s f ⟨-, he, -⟩
      cases he

/-- What the loop of `Del` has done, when the last reply was `r`. -/
def Deletes (db : Lmdb) (skey : String) (r : Reply) (f : LmdbFile) : Prop :=
  r.rc = .notFound ∧ (∃ cur, f = ⟨db, some ⟨db.del skey, cur⟩⟩) ∨
    r.rc = .success ∧ ∃ e rest, e.1 = skey ∧ f = ⟨db, some ⟨db, some (.onEntry e rest)⟩⟩

/-- A turn of the loop: `MDB_NODUPDATA` deletes all values of the key, and leaves
no duplicate to go on with. -/
theorem deletes_of_answer {skey : String} {e : String × String} {rest : List (String × String)}
    {r r' : Reply} {f₁ : LmdbFile} (he : e.1 = skey)
    (hdel : LmdbFile.answer ⟨db, some ⟨db, some (.onEntry e rest)⟩⟩ .cursorDel r = some f₁)
    (hnext : f₁.answer (.cursorGet .nextDup) r' = some f) :
    r'.rc = .notFound ∧ ∃ cur, f = ⟨db, some ⟨db.del skey, cur⟩⟩ := by
  simp only [LmdbFile.answer, Cursor.delDups, Option.bind_some, Option.ite_none_right_eq_some,
    Option.some.injEq] at hdel
  obtain ⟨-, rfl⟩ := hdel
  have hcop : CursorOp.nextDup ≠ .setKey "" := nofun
  simp only [LmdbFile.answer, hcop, if_false, CursorOp.move, Cursor.nextDup, Option.bind_some,
    Reply.Finds, decide_eq_true_iff, Option.ite_none_right_eq_some, Option.some.injEq] at hnext
  obtain ⟨hnf, rfl⟩ := hnext
  have hfilter : (db.filter fun x => x.1 ≠ e.1) = db.del skey := by rw [Lmdb.del, he]
  exact ⟨hnf, _, by rw [hfilter]⟩

/-- The loop of `Del` deletes the key. -/
theorem ensures_loop_del (skey : String) (fuel : ℕ) (r : Reply) :
    Ensures env
      (fun f => (r.rc ≠ .notFound → 1 < fuel) ∧ 0 < fuel ∧ Deletes db skey r f)
      (loop (delBody env) fuel r ())
      (fun out _ f => out = .ok () ∧ ∃ cur, f = ⟨db, some ⟨db.del skey, cur⟩⟩) := by
  induction fuel generalizing r with
  | zero =>
    refine Ensures.thrown ?_
    rintro f s ⟨-, hfuel, -⟩
    exact absurd hfuel (Nat.not_lt_zero _)
  | succ fuel ih =>
    rw [loop]
    by_cases hr : r.rc.ends = true
    · rw [if_pos hr]
      refine Ensures.done ?_
      rintro f s ⟨-, -, ⟨-, hcur⟩ | ⟨hok, -⟩⟩
      · exact ⟨rfl, hcur⟩
      · rw [hok] at hr
        cases hr
    · rw [if_neg hr, delBody, bind_assoc]
      refine Ensures.call_bind rfl fun r₁ => ?_
      rw [bind_assoc]
      refine Ensures.call_bind rfl fun r' => ?_
      rw [pure_bind]
      refine (ih r').mono ?_
      rintro f' ⟨f₁, ⟨f, ⟨hlen, -, ⟨hnf, -⟩ | ⟨hok, e, rest, he, rfl⟩⟩, hdel⟩, hnext⟩
      · rw [hnf] at hr
        exact absurd rfl hr
      · obtain ⟨hnf, hcur⟩ := deletes_of_answer he hdel hnext
        have hfuel := hlen (by simp [hok])
        exact ⟨fun h => absurd hnf h, by omega, .inl ⟨hnf, hcur⟩⟩

/-- Deleting a key that has no values changes nothing. -/
theorem del_of_values_nil {skey : String} (h : values db skey = []) : db.del skey = db := by
  rw [values_eq_nil_iff] at h
  rw [Lmdb.del, Finset.filter_eq_self]
  rintro ⟨k, v⟩ he rfl
  exact h v he

/-- **`Del`**, which does not look at the code of its commit. -/
theorem does_del (env : ℕ → Reply) {db : Lmdb} (t₀ : Option WriteTxn) {fuel : ℕ}
    (hfuel : db.card < fuel) (skey : String) :
    Ensures env (· = ⟨db, t₀⟩) ((fun _ => Result.done) <$> del env fuel skey)
      fun out s f => t₀ = none ∧ (Operation.del skey).Does db out s f := by
  refine Ensures.map (ensures_openTxn (acceptsFailure_does _ _)
    (ensures_cursorOpen (acceptsFailure_does _ _) (by decide) fun _ => ?_))
  refine Ensures.call_bind rfl fun r => ?_
  refine Ensures.bind (M := fun out f => out = .ok () ∧
    ∃ cur, f = ⟨db, some ⟨db.del skey, cur⟩⟩) ((ensures_loop_del skey fuel r).mono ?_)
    (fun _ => ?_) ?_
  · rintro f' ⟨f, rfl, hset⟩
    rcases answer_setKey hset with ⟨hnil, hnf, rfl⟩ | ⟨e, rest, he, rfl, rfl, hvals⟩
    · refine ⟨fun h => absurd hnf h, Nat.zero_lt_of_lt hfuel, .inl ⟨hnf, some .unset, ?_⟩⟩
      rw [del_of_values_nil hnil]
    · -- the key has a value, so the file has an entry
      have hlen := (length_values_le db skey).trans_lt hfuel
      rw [hvals, List.length_cons] at hlen
      exact ⟨fun _ => by omega, Nat.zero_lt_of_lt hfuel, .inr ⟨rfl, e, rest, he, rfl⟩⟩
  · refine Ensures.last_call (o := fun _ => .ok ()) rfl (fun _ _ => rfl) ?_
    rintro r' s f f' ⟨-, cur, rfl⟩ hcommit hlast
    obtain rfl : _ = f' := Option.some.inj hcommit
    have hs : s.Commits ↔ r'.rc = .success := by
      rw [Session.Commits, hlast, Option.some.injEq, Prod.mk.injEq]
      exact and_iff_right rfl
    refine ⟨nofun, ?_, ?_, nofun, nofun, ?_⟩
    · simp only [hs]
      rfl
    · intro r hr
      exact (Except.ok.inj hr).symm
    · simp [Except.map, Leaks]
  · rintro e s f ⟨he, -⟩
    cases he

/-! ### Runs -/

/-- What becomes of an operation that LMDB has answered. -/
theorem does_of_answered (op : Operation) {fuel : ℕ} (hfuel : f.contents.card < fuel)
    (h : Answered env f (op.exec env fuel).2 f') :
    f.txn = none ∧ op.Does f.contents (op.exec env fuel).1 (op.exec env fuel).2 f' := by
  have hrule : ∀ x : Op Result,
      Ensures env (· = f) x (fun out s f' => f.txn = none ∧ op.Does f.contents out s f') →
      Answered env f (exec x .start).2 f' →
        f.txn = none ∧ op.Does f.contents (exec x .start).1 (exec x .start).2 f' := by
    intro x hx hans
    obtain ⟨f₁, hf₁, hQ⟩ := hx _ _ _ hans
    exact hQ (Option.some.inj hf₁).symm
  cases op with
  | put skey sval => exact hrule _ (does_put env f.contents f.txn skey sval) h
  | getAll => exact hrule _ (does_getAll env f.txn hfuel) h
  | get skey => exact hrule _ (does_get env f.txn hfuel skey) h
  | del skey => exact hrule _ (does_del env f.txn hfuel skey) h

/-- **One operation of a run.** -/
theorem next_does {l : DbCall} (h : DbCall.next f l = some f') :
    f.txn = none ∧ l.op.Does f.contents l.out l.session f' := by
  rw [DbCall.next, Option.ite_none_right_eq_some] at h
  exact does_of_answered l.op h.1 h.2

/-- The operation is a `Put` of the entry that returns. -/
def DbCall.Puts (l : DbCall) (e : String × String) : Prop :=
  l.op = .put e.1 e.2 ∧ l.out = .ok .done

/-- The operation is a `Del` of the key whose commit succeeds. -/
def DbCall.Dels (l : DbCall) (skey : String) : Prop :=
  l.op = .del skey ∧ l.session.Commits

/-- The entry was there at the start, or has been put, and its key has not been
deleted since. -/
def Stored (db₀ : Lmdb) (tr : List (Transition LmdbFile DbCall)) (e : String × String) : Prop :=
  (e ∈ db₀ ∧ ∀ t ∈ tr, ¬ t.label.Dels e.1) ∨
    Since (fun t => t.label.Puts e) (fun _ u => ¬ u.label.Dels e.1) tr

theorem stored_snoc {db₀ : Lmdb} {tr : List (Transition LmdbFile DbCall)}
    {t : Transition LmdbFile DbCall} {e : String × String} :
    Stored db₀ (tr ++ [t]) e ↔ t.label.Puts e ∨ Stored db₀ tr e ∧ ¬ t.label.Dels e.1 := by
  rw [Stored, Stored, since_snoc, since_and_const, List.forall_mem_append,
    List.forall_mem_singleton]
  constructor
  · rintro (⟨he, hno, ht⟩ | hput | ⟨hsince, ht⟩)
    · exact .inr ⟨.inl ⟨he, hno⟩, ht⟩
    · exact .inl hput
    · exact .inr ⟨.inr hsince, ht⟩
  · rintro (hput | ⟨⟨he, hno⟩ | hsince, ht⟩)
    · exact .inr (.inl hput)
    · exact .inl ⟨he, hno, ht⟩
    · exact .inr (.inr ⟨hsince, ht⟩)

/-- A `Put` commits iff it returns. -/
theorem Operation.Does.put_commits_iff {out : Except Stop Result} {skey sval : String}
    (h : (Operation.put skey sval).Does db out s f) : s.Commits ↔ out = .ok .done := by
  constructor
  · intro hs
    cases out with
    | error e => exact absurd hs (h.thrown e rfl)
    | ok r => rw [h.result r rfl]; rfl
  · exact h.returned skey sval rfl

/-- The contents after one operation. -/
theorem mem_contents_next {l : DbCall} (h : DbCall.next f l = some f') (e : String × String) :
    e ∈ f'.contents ↔ l.Puts e ∨ e ∈ f.contents ∧ ¬ l.Dels e.1 := by
  obtain ⟨-, hdoes⟩ := next_does h
  rw [hdoes.contents, DbCall.Puts, DbCall.Dels]
  cases hop : l.op with
  | getAll | get => simp [Operation.apply]
  | put skey sval =>
    rw [hop] at hdoes
    rw [← hdoes.put_commits_iff]
    by_cases hs : l.session.Commits
    · simp only [hs, if_true, Operation.apply, Lmdb.put, Finset.mem_insert, Prod.ext_iff,
        Operation.put.injEq, and_true, reduceCtorEq, not_false_eq_true]
      rw [eq_comm (a := e.1), eq_comm (a := e.2)]
    · simp [hs]
  | del skey =>
    by_cases hs : l.session.Commits
    · simp only [hs, if_true, Operation.apply, Lmdb.del, Finset.mem_filter, reduceCtorEq,
        false_and, false_or, Operation.del.injEq, and_true, ne_eq]
      rw [eq_comm (a := e.1)]
    · simp [hs]

/-- The contents of the file are what its history has stored. -/
theorem mem_contents_iff {db₀ : Lmdb} {tr : List (Transition LmdbFile DbCall)}
    (h : Run DbCall.next ⟨db₀, none⟩ tr f) (e : String × String) :
    e ∈ f.contents ↔ Stored db₀ tr e := by
  induction h with
  | nil => simp [Stored, not_since_nil]
  | snoc _ hs ih => rw [mem_contents_next hs, ih, stored_snoc]

/-- **The database holds what was put and not deleted.**  In every run of the
wrapper's operations over LMDB, whatever fails, each operation ends.  `GetAll`
returns, in the order of the database, the entries that a `Put` has put, which
then returned, and that no `Del` has deleted since; `Get` returns those of its
key.  After an operation that failed in between, or a `Get` that found nothing,
no operation comes back. -/
theorem database_history {db₀ : Lmdb} {tr₁ tr₂ : List (Transition LmdbFile DbCall)}
    {t : Transition LmdbFile DbCall}
    (h : Run DbCall.next ⟨db₀, none⟩ (tr₁ ++ t :: tr₂) f) :
    t.label.out ≠ .error .running ∧
      (∀ results, t.label.op = .getAll → t.label.out = .ok (.entries results) →
        results.Pairwise (fun a b => toLex a < toLex b) ∧
          ∀ e, e ∈ results ↔ Stored db₀ tr₁ e) ∧
      (∀ skey results, t.label.op = .get skey → t.label.out = .ok (.values results) →
        results.Pairwise (· < ·) ∧ ∀ v, v ∈ results ↔ Stored db₀ tr₁ (skey, v)) ∧
      (∀ e, e ∈ t.post.contents ↔ Stored db₀ (tr₁ ++ [t]) e) ∧
      (tr₂ ≠ [] → Leaks t.label.out = false) := by
  obtain ⟨hpre, hstep, hpost⟩ := h.at_split
  obtain ⟨-, hdoes⟩ := next_does hstep
  refine ⟨hdoes.ended, ?_, ?_, ?_, ?_⟩
  · intro results hop hout
    have hres := hdoes.result _ hout
    rw [hop, Operation.result, Result.entries.injEq] at hres
    subst hres
    exact ⟨pairwise_entries _, fun e => mem_entries.trans (mem_contents_iff hpre e)⟩
  · intro skey results hop hout
    have hres := hdoes.result _ hout
    rw [hop, Operation.result, Result.values.injEq] at hres
    subst hres
    exact ⟨pairwise_values _ _, fun v => mem_values.trans (mem_contents_iff hpre _)⟩
  · exact mem_contents_iff (.snoc hpre hstep)
  · intro hne
    -- the next operation has begun its transaction
    obtain ⟨u, tr, rfl⟩ := List.exists_cons_of_ne_nil hne
    obtain ⟨hu, hnext, -⟩ := hpost.head
    rw [← hdoes.txn, ← hu]
    exact (next_does hnext).1

/-- A call of LMDB that succeeds, and one that finds nothing. -/
def replyOk : Reply := ⟨.success, "", ""⟩

def replyNotFound : Reply := ⟨.notFound, "", ""⟩

/-- A value is put, its key is deleted, and another value is put under the key:
`GetAll` returns the second one.  A `Get` of another key finds nothing. -/
theorem database_history_put_again :
    ∃ tr₁ t tr₂ f, Run DbCall.next ⟨∅, none⟩ (tr₁ ++ t :: tr₂) f ∧
      t.label.out = .ok (.entries [("k", "b")]) ∧ Stored ∅ tr₁ ("k", "b") ∧
      ¬ Stored ∅ tr₁ ("k", "a") := by
  obtain ⟨tr₁, t, tr₂, f, hrun, hl, hout⟩ := exists_run_split_of_replay DbCall.next ⟨∅, none⟩
    (fun _ t _ => t.label.out = .ok (.entries [("k", "b")]))
    [⟨.put "k" "a", List.replicate 4 replyOk, 1⟩,
      ⟨.del "k", List.replicate 3 replyOk ++
        [⟨.success, "k", "a"⟩, replyOk, replyNotFound, replyOk], 2⟩,
      ⟨.put "k" "b", List.replicate 4 replyOk, 1⟩]
    ⟨.getAll, List.replicate 3 replyOk ++ [⟨.success, "k", "b"⟩, replyNotFound], 2⟩
    [⟨.get "c", List.replicate 3 replyOk ++ [replyNotFound], 2⟩] (by decide +kernel)
  obtain ⟨-, hall, -⟩ := database_history hrun
  obtain ⟨-, hmem⟩ := hall _ (by rw [hl]) hout
  refine ⟨tr₁, t, tr₂, f, hrun, hout, (hmem _).mp List.mem_cons_self, fun hstored => ?_⟩
  have hin := (hmem _).mpr hstored
  simp at hin

/-- What `GetAll` returns is a snapshot of the database. -/
theorem snapshot_of_getAll {H : Type*} {d : DiscoveryMessageHandler H} {l : DbCall}
    {results : List (String × String)} (hd : d.db = f.contents) (h : DbCall.next f l = some f')
    (hop : l.op = .getAll) (hout : l.out = .ok (.entries results)) :
    Recovery.Snapshot d results := by
  have hres := (next_does h).2.result _ hout
  rw [hop, Operation.result, Result.entries.injEq] at hres
  subst hres
  refine ⟨(pairwise_entries _).imp fun hab heq => ?_, fun e => by rw [hd, mem_entries]⟩
  rw [heq] at hab
  exact lt_irrefl _ hab

end LmdbCalls

end Riaps
