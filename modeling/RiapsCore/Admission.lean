/-
How a node is admitted with security on (`src/discoveryd/r_validator.cc`,
`src/discoveryd/r_discoveryd.cc`).

The first beacon of a node makes the validator ask it to identify itself; the
signed address that it sends back makes its entry valid, and the next beacon that
carries the address is heard.

* `isValid_fresh` — an entry whose check period runs is left alone;
* `Pending.step` — what an iteration does to the entry of a node that was asked;
* `identity_verifies` — what a node sends when it is asked verifies;
* `admitted` — a node that answers within the shortest check period is heard and
  joined.
-/
import RiapsCore.Presence

open Runs StdString

namespace Riaps

namespace DiscoveryValidator

variable {env : ValidatorEnv} {v : DiscoveryValidator} {now : ℤ} {period : CheckPeriod}
  {a b : String} {node : NodeInfo} {r : IsValidResult}

/-! ### Entries -/

/-- `IsValid` leaves an entry whose check period runs as it is, and returns
whether it is validated. -/
theorem isValid_fresh (h : v.isValid env now period b = .ok r)
    (hnode : v.clusterNodes.lookup a = some node) (hfresh : ¬ node.checkPeriod.isTimeout now) :
    r.validator.clusterNodes.lookup a = some node ∧
      (b = a → v.hasSecurity = true → isValidZmqAddress env.inetPton a = .ok true →
        r.answer = node.validated) := by
  have hkept : (v.deleteOldNodes now).clusterNodes.lookup a = some node :=
    lookup_deleteOldNodes_iff.mpr ⟨hnode, fun _ => hfresh⟩
  have hchecked : (v.checkNode now period b).validator.clusterNodes.lookup a = some node ∧
      (b = a → (v.checkNode now period b).answer = node.validated) := by
    by_cases hab : a = b
    · subst hab
      rw [checkNode]
      simp only [hkept, Option.getD_some, validate_of_not_isTimeout hfresh, ite_self,
        AList.lookup_insert]
      exact ⟨trivial, fun _ => trivial⟩
    · exact ⟨(lookup_checkNode_of_ne v now period hab).trans hkept, fun h => absurd h.symm hab⟩
  rw [isValid] at h
  split at h
  · rename_i hsec
    obtain rfl := Except.ok.inj h
    exact ⟨hnode, fun _ hsec' => absurd hsec' hsec⟩
  · split at h
    · cases h
    · rename_i haddr
      obtain rfl := Except.ok.inj h
      refine ⟨hnode, fun hab _ haddr' => ?_⟩
      rw [hab, haddr'] at haddr
      cases haddr
    · obtain rfl := Except.ok.inj h
      exact ⟨hchecked.1, fun hab _ _ => hchecked.2 hab⟩

/-- The check periods of the entries are drawn between the bounds. -/
def PeriodsBounded (v : DiscoveryValidator) : Prop :=
  ∀ a node, v.clusterNodes.lookup a = some node → 45 ≤ node.checkPeriod.timeout

/-- The entry that a call ends with has the period of the one it begins with. -/
theorem checkNode_entry (v : DiscoveryValidator) (now : ℤ) (period : CheckPeriod) (a : String) :
    ∃ node, (v.checkNode now period a).validator.clusterNodes.lookup a = some node ∧
      node.checkPeriod.timeout = (((v.deleteOldNodes now).clusterNodes.lookup a).getD
        (.createNode period)).checkPeriod.timeout ∧
      ((v.checkNode now period a).identifies = true →
        node = askedNode now node.checkPeriod.timeout) := by
  generalize hnode : ((v.deleteOldNodes now).clusterNodes.lookup a).getD (.createNode period) = node
  by_cases hto : node.checkPeriod.isTimeout now
  · have hr : v.checkNode now period a = ⟨false, { v.deleteOldNodes now with
        clusterNodes := (v.deleteOldNodes now).clusterNodes.insert a
          (askedNode now node.checkPeriod.timeout) }, true⟩ := by
      simp [checkNode, hnode, hto, validate_of_isTimeout hto, askedNode]
    rw [hr]
    exact ⟨_, AList.lookup_insert _, rfl, fun _ => rfl⟩
  · have hr : v.checkNode now period a = ⟨node.validated, { v.deleteOldNodes now with
        clusterNodes := (v.deleteOldNodes now).clusterNodes.insert a node }, false⟩ := by
      simp [checkNode, hnode, validate_of_not_isTimeout hto]
    rw [hr]
    exact ⟨_, AList.lookup_insert _, rfl, fun h => absurd h Bool.false_ne_true⟩

theorem PeriodsBounded.entry (hv : v.PeriodsBounded) (now : ℤ) (period : CheckPeriod)
    (a : String) :
    ∃ node, (v.checkNode now period a).validator.clusterNodes.lookup a = some node ∧
      45 ≤ node.checkPeriod.timeout ∧
      ((v.checkNode now period a).identifies = true →
        node = askedNode now node.checkPeriod.timeout) := by
  obtain ⟨node, hnode, hperiod, hasked⟩ := checkNode_entry v now period a
  refine ⟨node, hnode, ?_, hasked⟩
  rw [hperiod]
  rcases hlook : (v.deleteOldNodes now).clusterNodes.lookup a with _ | old
  · exact period.2.1
  · exact hv a old (lookup_deleteOldNodes_iff.mp hlook).1

theorem PeriodsBounded.isValid (hv : v.PeriodsBounded) (h : v.isValid env now period b = .ok r) :
    r.validator.PeriodsBounded := by
  rcases isValid_cases h with ⟨-, rfl⟩ | ⟨-, rfl | rfl⟩
  · exact hv
  · exact hv
  · intro a node hnode
    by_cases hab : a = b
    · subst hab
      obtain ⟨node', hnode', hbound, -⟩ := hv.entry now period a
      rw [hnode', Option.some.injEq] at hnode
      rw [← hnode]
      exact hbound
    · rw [lookup_checkNode_of_ne v now period hab] at hnode
      exact hv a node (lookup_deleteOldNodes_iff.mp hnode).1

/-- A node is asked to identify itself only at a well-formed address. -/
theorem isValid_identifies (h : v.isValid env now period a = .ok r) (hident : r.identifies = true) :
    isValidZmqAddress env.inetPton a = .ok true ∧ r = v.checkNode now period a := by
  rw [isValid] at h
  split at h
  · obtain rfl := Except.ok.inj h
    cases hident
  · split at h
    · cases h
    · obtain rfl := Except.ok.inj h
      cases hident
    · rename_i haddr
      exact ⟨haddr, (Except.ok.inj h).symm⟩

theorem isValid_signature (h : v.isValid env now period a = .ok r) :
    r.validator.signature = v.signature := by
  rcases isValid_cases h with ⟨-, rfl⟩ | ⟨-, rfl | rfl⟩
  · rfl
  · rfl
  · rfl

/-- The identity that `ReplyAll` sends out is the validator's own. -/
theorem replyAll_identity {arrived : Arrived} {signature : Blob}
    (h : (v.replyAll env arrived).2 = some (b, signature)) : signature = v.signature := by
  unfold replyAll at h
  split at h
  · cases h
  · cases arrived with
    | nothing => cases h
    | request command =>
      dsimp only at h
      split at h
      · exact (Prod.mk.inj (Option.some.inj h)).2.symm
      · cases h
    | reply address signature' =>
      dsimp only at h
      split at h
      · cases h
      · split at h
        · cases h
        · cases h

/-- What `ReplyAll` does to an entry: a reply of the node that verifies validates it. -/
theorem lookup_replyAll (env : ValidatorEnv) (v : DiscoveryValidator) (arrived : Arrived)
    (a : String) :
    (v.replyAll env arrived).1.clusterNodes.lookup a = v.clusterNodes.lookup a ∨
      ∃ node, v.clusterNodes.lookup a = some node ∧
        (v.replyAll env arrived).1.clusterNodes.lookup a
          = some { node with validated := true } := by
  unfold replyAll
  split
  · exact .inl rfl
  · cases arrived with
    | nothing => exact .inl rfl
    | request command => exact .inl rfl
    | reply b signature =>
      dsimp only
      split
      · exact .inl rfl
      · rename_i node hnode
        split
        · by_cases hab : a = b
          · subst hab
            exact .inr ⟨node, hnode, AList.lookup_insert _⟩
          · exact .inl (AList.lookup_insert_ne hab)
        · exact .inl rfl

theorem lookup_replyAll_reply {signature : Blob} (hsec : v.hasSecurity = true)
    (hsig : env.key.checkSignature (toBlob a) signature = true)
    (hnode : v.clusterNodes.lookup a = some node) :
    (v.replyAll env (.reply a signature)).1.clusterNodes.lookup a
      = some { node with validated := true } := by
  have hno : ¬ ¬ v.hasSecurity = true := not_not.mpr hsec
  simp only [replyAll, if_neg hno, hnode, hsig, if_true, AList.lookup_insert]

theorem PeriodsBounded.replyAll (hv : v.PeriodsBounded) (arrived : Arrived) :
    (v.replyAll env arrived).1.PeriodsBounded := by
  intro a node hnode
  rcases lookup_replyAll env v arrived a with hsame | ⟨old, hold, hnew⟩
  · exact hv a node (hsame ▸ hnode)
  · rw [hnew, Option.some.injEq] at hnode
    rw [← hnode]
    exact hv a old hold

end DiscoveryValidator

namespace Discoveryd

open DiscoveryValidator

variable {env : ValidatorEnv} {s s' : Discoveryd} {it : MainIteration} {joins : List String}
  {ip address a : String} {tr : List (Transition Discoveryd MainIteration)}
  {t : Transition Discoveryd MainIteration}

/-! ### Iterations -/

/-- What an iteration does to the validator. -/
theorem Iterated.validator_cases (h : Iterated env s it s' joins) :
    s'.validator = (replied env s it).validator ∨
      ∃ b r, (replied env s it).validator.isValid env it.now it.period b = .ok r ∧
        s'.validator = r.validator := by
  cases h with
  | control hw => exact .inl (handleControl_validator _ _ _)
  | unchecked hw hp => exact .inl rfl
  | rejected hw hp hr hno => exact .inr ⟨_, _, hr, rfl⟩
  | accepted hw hp hr hyes => exact .inr ⟨_, _, hr, handleValidBeacon_validator _ _ _⟩
  | timeout hw => exact .inl rfl

theorem periodsBounded_run {v : DiscoveryValidator} (h : Run (next env) (init address v) tr s)
    (hv : v.PeriodsBounded) : s.validator.PeriodsBounded := by
  induction h with
  | nil => exact hv
  | @snoc tr s s'' l _ hs ih =>
    obtain ⟨⟨s', eff⟩, hit, rfl⟩ := Option.map_eq_some_iff.mp hs
    have hreplied : (replied env s l).validator.PeriodsBounded := ih.replyAll l.arrived
    rcases (iterated hit).validator_cases with hsame | ⟨b, r, hr, hsame⟩
    · rw [hsame]
      exact hreplied
    · rw [hsame]
      exact hreplied.isValid hr

/-- The entry of a node that was asked to identify itself: its check period runs
until `e` at least, and it is validated if the node has answered. -/
def Pending (a : String) (e : ℤ) (answered : Prop) (v : DiscoveryValidator) : Prop :=
  ∃ node, v.clusterNodes.lookup a = some node ∧ e ≤ node.checkPeriod.endPoint ∧
    (answered → node.validated = true)

/-- The iteration finds a reply of the node that verifies. -/
def Verifies (env : ValidatorEnv) (a : String) (it : MainIteration) : Prop :=
  ∃ signature, it.arrived = .reply a signature ∧
    env.key.checkSignature (toBlob a) signature = true

/-- `ReplyAll` keeps the entry, and validates it with a reply of the node. -/
theorem Pending.replied {e : ℤ} {answered : Prop} (h : Pending a e answered s.validator)
    (hsec : s.validator.hasSecurity = true) (env : ValidatorEnv) (it : MainIteration) :
    Pending a e (answered ∨ Verifies env a it) (replied env s it).validator := by
  obtain ⟨node, hnode, he, hval⟩ := h
  by_cases hreply : Verifies env a it
  · obtain ⟨signature, harrived, hsig⟩ := hreply
    refine ⟨{ node with validated := true }, ?_, he, fun _ => rfl⟩
    show (s.validator.replyAll env it.arrived).1.clusterNodes.lookup a = _
    rw [harrived]
    exact lookup_replyAll_reply hsec hsig hnode
  · rcases lookup_replyAll env s.validator it.arrived a with hsame | ⟨old, hold, hnew⟩
    · exact ⟨node, hsame.trans hnode, he, fun h => hval (h.resolve_right hreply)⟩
    · rw [hnode, Option.some.injEq] at hold
      exact ⟨_, hnew, hold ▸ he, fun _ => rfl⟩

/-- **One iteration.**  Until the check period has passed, the entry stays. -/
theorem Pending.step {e : ℤ} {answered : Prop} (h : Pending a e answered s.validator)
    (hsec : s.validator.hasSecurity = true) (hnow : it.now ≤ e)
    (hit : Iterated env s it s' joins) :
    Pending a e (answered ∨ Verifies env a it) s'.validator := by
  have hreplied := h.replied hsec env it
  rcases hit.validator_cases with hsame | ⟨b, r, hr, hsame⟩
  · rw [hsame]
    exact hreplied
  · obtain ⟨node, hnode, he, hval⟩ := hreplied
    have hfresh : ¬ node.checkPeriod.isTimeout it.now := by
      rw [Timeout.isTimeout_iff]
      omega
    rw [hsame]
    exact ⟨node, (isValid_fresh hr hnode hfresh).1, he, hval⟩

/-- The iteration asks the node to identify itself. -/
def Asks (env : ValidatorEnv) (a : String) (t : Transition Discoveryd MainIteration) : Prop :=
  ∃ ip r, t.label.polled = .beacon ip (some a) ∧
    (replied env t.pre t.label).validator.isValid env t.label.now t.label.period a = .ok r ∧
    r.identifies = true

/-- A beacon with a payload is checked. -/
theorem Iterated.checked {payload : String} (h : Iterated env s it s' joins)
    (hsec : s.validator.hasSecurity = true) (hw : it.polled = .beacon ip (some payload)) :
    ∃ r, (replied env s it).validator.isValid env it.now it.period payload = .ok r ∧
      answer env s it = some r.answer ∧ s'.validator = r.validator := by
  have hreplied : (replied env s it).validator.hasSecurity = true :=
    (replyAll_hasSecurity env s.validator it.arrived).trans hsec
  have hchecked : (replied env s it).checkedPayload (some payload) = some payload := by
    rw [checkedPayload, if_pos hreplied]
  cases h with
  | control hw' => rw [hw'] at hw; cases hw
  | @unchecked ip' sent hw' hp =>
    obtain ⟨-, rfl⟩ := Polled.beacon.inj (hw'.symm.trans hw)
    rw [hchecked] at hp
    cases hp
  | @rejected ip' payload' sent r hw' hp hr hno =>
    obtain ⟨-, rfl⟩ := Polled.beacon.inj (hw'.symm.trans hw)
    obtain rfl := Option.some.inj (hp.symm.trans hchecked)
    exact ⟨r, hr, answer_of_isValid hw' hp hr, rfl⟩
  | @accepted ip' payload' sent r hw' hp hr hyes =>
    obtain ⟨-, rfl⟩ := Polled.beacon.inj (hw'.symm.trans hw)
    obtain rfl := Option.some.inj (hp.symm.trans hchecked)
    exact ⟨r, hr, answer_of_isValid hw' hp hr, handleValidBeacon_validator _ _ _⟩
  | timeout hw' => rw [hw'] at hw; cases hw

/-- The entry after the node was asked. -/
theorem pending_of_asks (hnext : next env t.pre t.label = some t.post)
    (hsec : t.pre.validator.hasSecurity = true) (hbounds : t.pre.validator.PeriodsBounded)
    (hasks : Asks env a t) :
    isValidZmqAddress env.inetPton a = .ok true ∧
      Pending a (t.label.now + 45 * seconds) False t.post.validator := by
  obtain ⟨⟨s', eff⟩, hit, heq⟩ := Option.map_eq_some_iff.mp hnext
  obtain rfl : s' = t.post := heq
  obtain ⟨ip, r, hw, hr, hident⟩ := hasks
  obtain ⟨r', hr', -, hpost⟩ := (iterated hit).checked hsec hw
  obtain rfl : r = r' := Except.ok.inj (hr.symm.trans hr')
  obtain ⟨haddr, rfl⟩ := isValid_identifies hr hident
  have hreplied : (replied env t.pre t.label).validator.PeriodsBounded :=
    hbounds.replyAll t.label.arrived
  obtain ⟨node, hnode, hbound, hasked⟩ := hreplied.entry t.label.now t.label.period a
  refine ⟨haddr, node, hpost ▸ hnode, ?_, False.elim⟩
  rw [hasked hident]
  have hcount : 45 * seconds ≤ node.checkPeriod.timeout * seconds :=
    Int.mul_le_mul_of_nonneg_right hbound (by decide)
  exact (Int.add_le_add_iff_left _).mpr hcount

/-- **A run.**  The entry stays while its check period runs, and is validated once
the node has answered. -/
theorem Pending.run {s₁ : Discoveryd} {e : ℤ} (h : Run (next env) s₁ tr s)
    (hpending : Pending a e False s₁.validator) (hsec : s₁.validator.hasSecurity = true)
    (htime : ∀ u ∈ tr, u.label.now ≤ e) :
    Pending a e (∃ u ∈ tr, Verifies env a u.label) s.validator := by
  induction h with
  | nil =>
    obtain ⟨node, hnode, he, -⟩ := hpending
    exact ⟨node, hnode, he, by simp⟩
  | @snoc tr s s'' l hrun hs ih =>
    rw [List.forall_mem_append, List.forall_mem_singleton] at htime
    obtain ⟨⟨s', eff⟩, hit, rfl⟩ := Option.map_eq_some_iff.mp hs
    have hstep := (ih htime.1).step (hasSecurity_run hrun hsec) htime.2 (iterated hit)
    simpa only [List.mem_append, List.mem_singleton, or_and_right, exists_or, exists_eq_left]
      using hstep

/-! ### What a node sends when it is asked -/

/-- A node whose validator is bound to `a` has sent the signature. -/
def Identity (env : ValidatorEnv) (a : String) (signature : Blob) : Prop :=
  ∃ address now₀ draw tr s it s' eff,
    Run (next env) (init address (.initWithSecurity env now₀ draw a)) tr s ∧
      s.iterate env it = some (s', eff) ∧ eff.identity = some (a, signature)

/-- An iteration keeps the signature, and sends no other. -/
theorem signature_iterate {eff : MainEffects} (h : s.iterate env it = some (s', eff)) :
    s'.validator.signature = s.validator.signature ∧
      ∀ b signature, eff.identity = some (b, signature) → signature = s.validator.signature := by
  have hreplied : (replied env s it).validator.signature = s.validator.signature := by
    obtain ⟨nodes, heq⟩ := replyAll_eq env s.validator it.arrived
    show (s.validator.replyAll env it.arrived).1.signature = _
    rw [heq]
  constructor
  · rcases (iterated h).validator_cases with hsame | ⟨b, r, hr, hsame⟩
    · rw [hsame, hreplied]
    · rw [hsame, isValid_signature hr, hreplied]
  · intro b signature hident
    obtain ⟨r, -, heq⟩ := Option.map_eq_some_iff.mp h
    have hidentity : (s.validator.replyAll env it.arrived).2 = some (b, signature) := by
      rw [← hident]
      exact congrArg MainEffects.identity (Prod.mk.inj heq).2
    exact replyAll_identity hidentity

/-- **What a node sends verifies.** -/
theorem identity_verifies (hkey : env.key.Lawful) {signature : Blob}
    (h : Identity env a signature) : env.key.checkSignature (toBlob a) signature = true := by
  obtain ⟨address, now₀, draw, tr, s, it, s', eff, hrun, hit, hident⟩ := h
  have hsig : s.validator.signature = env.key.sign draw (toBlob a) := by
    clear hit hident
    induction hrun with
    | nil => rfl
    | snoc _ hs ih =>
      obtain ⟨⟨s', eff⟩, hit, rfl⟩ := Option.map_eq_some_iff.mp hs
      exact (signature_iterate hit).1.trans ih
  rw [(signature_iterate hit).2 a signature hident, hsig]
  exact hkey.checkSignature_sign draw (toBlob a)

/-! ### Admission -/

theorem address_run {v : DiscoveryValidator} (h : Run (next env) (init address v) tr s) :
    s.address = address := by
  induction h with
  | nil => rfl
  | @snoc tr s s' l _ hs ih => exact (next_cache (t := ⟨s, l, s'⟩) hs).1.trans ih

/-- **A node that answers is admitted.**  In every run of the main loop with
security on, a node that was asked to identify itself and whose answer has arrived
is heard with the next beacon that carries its address, within the shortest check
period, and joined if it is not present. -/
theorem admitted {now₀ : ℤ} {draw : ℕ} {endpoint : String}
    {tr₁ tr₂ : List (Transition Discoveryd MainIteration)}
    {w : Transition Discoveryd MainIteration} (hkey : env.key.Lawful)
    (h : Run (next env) (init address (.initWithSecurity env now₀ draw endpoint))
      (tr₁ ++ t :: (tr₂ ++ [w])) s)
    (hasks : Asks env a t)
    (hreply : ∃ u ∈ tr₂ ++ [w], ∃ signature, u.label.arrived = .reply a signature ∧
      Identity env a signature)
    (htime : ∀ u ∈ tr₂ ++ [w], u.label.now ≤ t.label.now + 45 * seconds)
    (hw : w.label.polled = .beacon ip (some a)) (hip : ip ≠ address) :
    Hears env ip w ∧
      (ip ∈ Discoveryd.joins env w ↔ ¬ Present env ip (tr₁ ++ t :: tr₂)) := by
  obtain ⟨hrun₁, hnext, hrun₂⟩ := h.at_split
  obtain ⟨hrun₃, hlast, -⟩ := hrun₂.last
  have hsec : t.pre.validator.hasSecurity = true := hasSecurity_run hrun₁ rfl
  have hrunt : Run (next env) t.pre [t] t.post := .snoc .nil hnext
  have hsec' : t.post.validator.hasSecurity = true := hasSecurity_run hrunt hsec
  have hbounds : t.pre.validator.PeriodsBounded := periodsBounded_run hrun₁ nofun
  obtain ⟨haddr, hpending⟩ := pending_of_asks hnext hsec hbounds hasks
  rw [List.forall_mem_append, List.forall_mem_singleton] at htime
  -- the entry when the last iteration calls `IsValid`
  have hreplied := (hpending.run hrun₃ hsec' htime.1).replied (hasSecurity_run hrun₃ hsec') env
    w.label
  obtain ⟨node, hnode, he, hval⟩ := hreplied
  have hanswered : (∃ u ∈ tr₂, Verifies env a u.label) ∨ Verifies env a w.label := by
    obtain ⟨u, hu, signature, harrived, hident⟩ := hreply
    have hverifies : Verifies env a u.label :=
      ⟨signature, harrived, identity_verifies hkey hident⟩
    rcases List.mem_append.mp hu with hu | hu
    · exact .inl ⟨u, hu, hverifies⟩
    · rw [List.mem_singleton.mp hu] at hverifies
      exact .inr hverifies
  have hfresh : ¬ node.checkPeriod.isTimeout w.label.now := by
    rw [Timeout.isTimeout_iff]
    have hle := htime.2
    omega
  obtain ⟨⟨s', eff⟩, hit, heq⟩ := Option.map_eq_some_iff.mp hlast
  have hsecw : w.pre.validator.hasSecurity = true := hasSecurity_run hrun₃ hsec'
  have hsecr : (replied env w.pre w.label).validator.hasSecurity = true :=
    (replyAll_hasSecurity env w.pre.validator w.label.arrived).trans hsecw
  obtain ⟨r, hr, hanswer, -⟩ := (iterated hit).checked hsecw hw
  have htrue : r.answer = true :=
    ((isValid_fresh hr hnode hfresh).2 rfl hsecr haddr).trans (hval hanswered)
  rw [htrue] at hanswer
  -- the run up to the last iteration
  have hrun : Run (next env) (init address (.initWithSecurity env now₀ draw endpoint))
      (tr₁ ++ t :: tr₂) w.pre := hrun₁.append (.cons hnext hrun₃)
  have hhears : Hears env ip w := ⟨⟨some a, hw⟩, hanswer, by rw [address_run hrun]; exact hip⟩
  refine ⟨hhears, ?_⟩
  rw [(joins_next hlast).2, mem_ipcache_iff hrun]
  simp [hhears, Commands, hw]

/-- The node with the toy key identifies itself. -/
theorem identity_otherNode :
    Identity toyEnv otherNode (DhtData.toyKey.sign 0 (toBlob otherNode)) :=
  ⟨"10.0.0.2", 1, 0, [], _, ⟨.timeout, .request identifyMessage, 1, shortPeriod⟩, _, _, .nil, rfl,
    rfl⟩

/-- The node is heard with its second beacon. -/
theorem admitted_second_beacon :
    ∃ tr₁ t w s, Run (next toyEnv) start (tr₁ ++ t :: ([] ++ [w])) s ∧
      Asks toyEnv otherNode t ∧ Hears toyEnv "10.0.0.2" w := by
  obtain ⟨tr₁, t, tr₂, s, hrun, hl, hident, hrest⟩ :=
    exists_run_split_of_replay (next toyEnv) start
      (fun _ t tr₂ =>
        ((replied toyEnv t.pre t.label).validator.isValid toyEnv t.label.now t.label.period
          otherNode).toOption.map IsValidResult.identifies = some true ∧
        tr₂.map (fun w => (w.label.polled, w.label.arrived, w.label.now)) =
          [(Polled.beacon "10.0.0.2" (some otherNode), otherReply, 2000)])
      [] ⟨.beacon "10.0.0.2" (some otherNode), .nothing, 1000, shortPeriod⟩
      [⟨.beacon "10.0.0.2" (some otherNode), otherReply, 2000, shortPeriod⟩] (by decide)
  obtain ⟨w, rfl, hw⟩ := List.map_eq_singleton_iff.mp hrest
  rw [Prod.mk.injEq, Prod.mk.injEq] at hw
  obtain ⟨hwpolled, hwarrived, hwnow⟩ := hw
  have hasks : Asks toyEnv otherNode t := by
    rcases hr : (replied toyEnv t.pre t.label).validator.isValid toyEnv t.label.now
      t.label.period otherNode with e | r
    · rw [hr] at hident
      cases hident
    · rw [hr] at hident
      exact ⟨"10.0.0.2", r, by rw [hl], hr, Option.some.inj hident⟩
  have htime : ∀ u ∈ [] ++ [w], u.label.now ≤ t.label.now + 45 * seconds := by
    intro u hu
    rw [List.mem_singleton.mp hu, hwnow, hl]
    decide
  exact ⟨tr₁, t, w, s, hrun, hasks, (admitted DhtData.toyKey_lawful hrun hasks
    ⟨w, by simp, _, hwarrived, identity_otherNode⟩ htime hwpolled (by decide)).1⟩

end Discoveryd

end Riaps
