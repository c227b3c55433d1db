import TrustTunnel.Vpn.Invariant

/-!
# Vpn.Attempts

How a session under each retry policy makes its attempts to connect.
-/

namespace TrustTunnel

open Lib List

def Task.isRetry : Task → Bool
  | .retryConnect => true
  | _ => false

def Out.isPingStarted : Out → Bool
  | .pingStarted _ _ => true
  | _ => false

namespace Vpn

/-! ## Several attempts -/

/-- The attempts that are counted and have yet to be started. -/
def pendingRetries (v : Vpn) : Nat := v.queue.countP Task.isRetry

open Out

/-- The attempts to connect a call started: the pings in `CONNECTING`. The pings of a recovery are
not counted by `attempts_left`. -/
def attemptsIn (r : Vpn × List Out) : Nat :=
  if r.1.state = .connecting then r.2.countP isPingStarted else 0

def attemptsStarted (h : List (Record Vpn Call Out)) : Nat :=
  (h.map fun r => attemptsIn (r.after, r.outs)).sum

theorem decrement_lt {m : Nat} (h : m ≠ 0) : decrement m + 1 ≤ m := by
  unfold decrement
  omega

theorem run_retryInfo {act : Action} (h : act ≠ .retryConnect) (a : EventArg) (v : Vpn) :
    (run act a v).1.connectRetryInfo = v.connectRetryInfo := by
  cases act <;> simp_all [run]

attribute [local simp] Task.isRetry

theorem addedTasks_retries (act : Action) (a : EventArg) (v : Vpn) :
    (addedTasks act a v).countP Task.isRetry = if act = .retryConnect then 1 else 0 := by
  unfold addedTasks
  split <;> try split
  all_goals simp_all

attribute [local simp] Out.isPingStarted

theorem pings_eq_zero {outs : List Out} (h : ∀ o ∈ outs, o.kind ≠ .ping) : outs.countP isPingStarted = 0 := by
  rw [countP_eq_zero]
  intro o ho hp
  refine h o ho ?_
  cases o <;> simp_all [kind]

theorem attemptsIn_eq_zero {r : Vpn × List Out} (h : ∀ o ∈ r.2, o.kind ≠ .ping) : attemptsIn r = 0 := by
  rw [attemptsIn, pings_eq_zero h, ite_self]

theorem enter_pings (q : VpnSessionState) (v : Vpn) : (enter q v).2.countP isPingStarted = 0 := by
  refine pings_eq_zero fun o ho => ?_
  rcases enter_kinds q v o ho with h | h <;> simp [h]

theorem run_pings {act : Action} (h : act ≠ .runPing) (a : EventArg) (v : Vpn) :
    (run act a v).2.countP isPingStarted = 0 := by
  refine pings_eq_zero fun o ho hk => ?_
  have hmem := run_kinds act a v o ho
  cases act <;> simp_all [Action.kinds]

open Machine

/-- The rows that start another attempt: where no attempts are left another row is taken, except
for an endpoint that was abandoned. -/
theorem retry_rows : ∀ r ∈ transitionTable, r.before = some .retryConnect →
    shadowed transitionTable r .noConnectAttempts = true ∨
      (r.event = .abandonEndpoint ∧ r.source = some .connecting ∧
        shadowed transitionTable r .isFatalError = true) := by
  decide

theorem ping_rows : ∀ r ∈ transitionTable, r.before = some .runPing →
    r.event = .doConnect ∨ (r.event = .retryConnect ∧ r.target = none) ∨ r.target = some .recovering := by
  decide

section Several

variable {v : Vpn} {m : Nat} {e : ConnectEvent} {a : EventArg}

theorem before_attempts (hm : v.connectRetryInfo = .severalAttempts m)
    (habandon : e = .abandonEndpoint → v.state = .connecting → isFatalError a.data v = false → m ≠ 0)
    {r : Row VpnSessionState ConnectEvent Condition Action} (hr : machine.Taken r e a v)
    (hmem : r ∈ transitionTable) : ∃ m', (runBefore r a v).1.connectRetryInfo = .severalAttempts m' ∧ m' ≤ m ∧
      m' + (runBefore r a v).1.pendingRetries ≤ m + v.pendingRetries ∧
      ((runBefore r a v).2.countP isPingStarted = 0 ∨
        (r.before = some .runPing ∧ (runBefore r a v).2.countP isPingStarted = 1)) := by
  cases hb : r.before with
  | none => exact ⟨m, by simp [runBefore_none hb, hm]⟩
  | some act =>
    rw [runBefore_some hb]
    have hq : (run act a v).1.pendingRetries = v.pendingRetries + if act = .retryConnect then 1 else 0 := by
      simp [pendingRetries, run_queue, countP_append, addedTasks_retries]
    by_cases hretry : act = .retryConnect
    · subst hretry
      have hleft : m ≠ 0 := by
        rcases retry_rows r hmem hb with hsh | ⟨hev, hsrc, hfatal⟩
        · have hno := not_holds_of_shadowed hr hsh
          simpa [machine, holds, noConnectAttempts, hm] using hno
        · exact habandon (hr.event.symm.trans hev) (hr.state_eq hsrc) (not_holds_of_shadowed hr hfatal)
      have hless := decrement_lt hleft
      refine ⟨decrement m, by simp [run, hm, countAttempt], by omega, ?_, .inl (run_pings (by simp) a v)⟩
      rw [hq, if_pos rfl]
      omega
    · refine ⟨m, by rw [run_retryInfo hretry, hm], Nat.le_refl m, by rw [hq, if_neg hretry]; omega, ?_⟩
      by_cases hping : act = .runPing
      · subst hping
        exact .inr ⟨rfl, by simp [run]⟩
      · exact .inl (run_pings hping a v)

/-- An event counts what it starts: the attempts left, those pending and those just started do not
grow, but for the attempt of `CE_RETRY_CONNECT`, which was pending before. -/
theorem perform_attempts (hm : v.connectRetryInfo = .severalAttempts m) (he : e ≠ .doConnect)
    (habandon : e = .abandonEndpoint → v.state = .connecting → isFatalError a.data v = false → m ≠ 0) :
    ∃ m', (performTransition e a v).1.connectRetryInfo = .severalAttempts m' ∧ m' ≤ m ∧
      m' + (performTransition e a v).1.pendingRetries + attemptsIn (performTransition e a v) ≤
        m + v.pendingRetries + if e = .retryConnect then 1 else 0 := by
  rcases perform_cases e a v with ⟨h, -⟩ | ⟨r, hr, hmem, ⟨ht, h⟩ | ⟨q, ht, h⟩⟩
  · exact ⟨m, by simp [h, hm, attemptsIn]⟩
  · obtain ⟨m', hinfo, hmono, hle, hpings⟩ := before_attempts hm habandon hr hmem
    rw [h]
    refine ⟨m', hinfo, hmono, ?_⟩
    have hstarted : attemptsIn (runBefore r a v) ≤ if e = .retryConnect then 1 else 0 := by
      rcases hpings with h0 | ⟨hping, h1⟩
      · simp [attemptsIn, h0]
      rcases ping_rows r hmem hping with hev | ⟨hev, -⟩ | hrec
      · exact absurd (hr.event.symm.trans hev) he
      · rw [if_pos (hr.event.symm.trans hev), attemptsIn]
        split <;> omega
      · rw [ht] at hrec
        cases hrec
    omega
  · obtain ⟨m', hinfo, hmono, hle, hpings⟩ := before_attempts hm habandon hr hmem
    have hstarted : attemptsIn (performTransition e a v) = 0 := by
      rw [h, attemptsIn, andDo_snd, countP_append, enter_pings]
      rcases hpings with h0 | ⟨hping, -⟩
      · simp [h0]
      -- a ping with a target is one of the recovery
      rcases ping_rows r hmem hping with hev | ⟨-, hnone⟩ | hrec
      · exact absurd (hr.event.symm.trans hev) he
      · rw [hnone] at ht
        cases ht
      · rw [hrec] at ht
        cases ht
        simp
    rw [hstarted, h]
    refine ⟨m', by simpa using hinfo, hmono, ?_⟩
    have hpending : (andDo (runBefore r a v) (enter q)).1.pendingRetries = (runBefore r a v).1.pendingRetries := by
      simp [pendingRetries]
    omega

end Several

/-- The loop abandons the selected endpoint in `CONNECTING`, the location has another one of its
family, and no attempts are left. -/
def AbandonsLastAttempt (v : Vpn) (c : Call) : Prop :=
  (v.taskOf c).any v.abandonsCurrent = true ∧ v.state = .connecting ∧ v.noConnectAttempts = true

instance (v : Vpn) (c : Call) : Decidable (v.AbandonsLastAttempt c) :=
  inferInstanceAs (Decidable (_ ∧ _))

theorem abandonEndpoint_event {v : Vpn} {n : VpnEndpoint} {env : Env} {e : ConnectEvent}
    {a : EventArg} (h : (v.abandonEndpoint n env).event = some (e, a)) :
    isFatalError a.data (v.abandonEndpoint n env).vpn = true ∨ v.abandonsCurrent (.abandonEndpoint n) = true := by
  unfold abandonEndpoint at h ⊢
  dsimp only at h ⊢
  split at h
  · next hall =>
    rw [if_pos hall]
    cases h
    exact .inl rfl
  · next hall =>
    split at h
    · cases h
    next hsel =>
    right
    simp only [all_eq_true, not_forall] at hall
    obtain ⟨i, hi, hfam⟩ := hall
    simp only [mem_filter] at hi
    simp only [abandonsCurrent, Bool.and_eq_true, any_eq_true]
    refine ⟨by simpa using hsel, i, hi.1, ?_⟩
    simpa [hi.2] using hfam

theorem abandons_of_event {v : Vpn} {t : Task} {rest : List Task} {env : Env}
    {ea : ConnectEvent × EventArg} (hq : v.queue = t :: rest) (hl : v.loop.runs = true)
    (he : ((v.pop rest).runTask env t).event = some ea) (h : ea.1 = .abandonEndpoint)
    (hfatal : isFatalError ea.2.data ((v.pop rest).runTask env t).vpn = false) :
    (v.taskOf (.runTask env)).any v.abandonsCurrent = true := by
  obtain ⟨-, -, habandon, -⟩ := runTask_event he
  obtain ⟨n, rfl⟩ := habandon h
  rcases abandonEndpoint_event he with hfatal' | hcurrent
  · exact absurd (hfatal.symm.trans hfatal') (by simp)
  · rw [taskOf, if_pos hl, hq]
    exact hcurrent

theorem no_retries {q : List Task} (h : ∀ t ∈ q, t.isInternal = false) : q.countP Task.isRetry = 0 := by
  rw [countP_eq_zero]
  intro t ht hretry
  have hint := h t ht
  cases t <;> simp_all [Task.isInternal]

theorem Noted.pendingRetries {v : Vpn} {c : Call} {i : Intake} (h : Noted v c i) :
    i.vpn.pendingRetries = v.pendingRetries := by
  obtain ⟨l, hq, hl⟩ := h.queue
  rw [Vpn.pendingRetries, hq, countP_append, no_retries fun t ht => Task.not_internal_of_request (hl t ht)]
  rfl

theorem finish_attempts {i : Intake} {m : Nat} (houts : ∀ o ∈ i.outs, o.kind ≠ .ping)
    (hm : i.vpn.connectRetryInfo = .severalAttempts m)
    (hevent : ∀ e a, i.event = some (e, a) → e ≠ .doConnect ∧ (e = .abandonEndpoint →
      i.vpn.state = .connecting → isFatalError a.data i.vpn = false → m ≠ 0)) :
    ∃ m', (finish i).1.connectRetryInfo = .severalAttempts m' ∧ m' ≤ m ∧
      m' + (finish i).1.pendingRetries + attemptsIn (finish i) ≤
        m + i.vpn.pendingRetries + i.event.elim 0 fun ea => if ea.1 = .retryConnect then 1 else 0 := by
  have hnone := pings_eq_zero houts
  unfold finish
  split
  · next he => exact ⟨m, hm, Nat.le_refl m, by simp [attemptsIn, hnone]⟩
  next e a he =>
  obtain ⟨hconnect, habandon⟩ := hevent e a he
  obtain ⟨m', hm', hmono, hle⟩ := perform_attempts hm hconnect habandon
  exact ⟨m', hm', hmono, by simpa [he, attemptsIn, hnone] using hle⟩

theorem attempts_step {v : Vpn} {m : Nat} (hbusy : ¬v.Starting)
    (hm : v.connectRetryInfo = .severalAttempts m) (c : Call) (hc : c ≠ .stopped) (hab : ¬v.AbandonsLastAttempt c) :
    ∃ m', (v.step c).1.connectRetryInfo = .severalAttempts m' ∧ m' ≤ m ∧
      m' + (v.step c).1.pendingRetries + attemptsIn (v.step c) ≤ m + v.pendingRetries := by
  have hdoes := does_step v c
  generalize v.step c = r at hdoes ⊢
  cases hdoes with
  | notes c i hn =>
    have hreport := fun e a he => ConnectEvent.of_report (hn.event e a he)
    obtain ⟨m', hm', hmono, hle⟩ := finish_attempts (hn.kind_ne (by simp) (by simp))
      (by rw [hn.vpn]; exact hm) fun e a he => ⟨(hreport e a he).1, fun h => absurd h (hreport e a he).2.2.1⟩
    refine ⟨m', hm', hmono, ?_⟩
    rw [hn.pendingRetries] at hle
    cases he : i.event with
    | none => simpa [he] using hle
    | some ea => simpa [he, (hreport ea.1 ea.2 he).2.1] using hle
  | starts p hl => exact absurd (.inl hl) hbusy
  | stops hl =>
    refine ⟨m, hm, Nat.le_refl m, ?_⟩
    rw [attemptsIn_eq_zero (by simp)]
    simp [submit, pendingRetries]
  | resets c hreset => simp [hc, not_starting_runs hbusy] at hreset
  | task t rest env hq hl =>
    have hnot : t.isConnect = false := not_starting_queue hbusy t (by simp [hq])
    have hinfo : ((v.pop rest).runTask env t).vpn.connectRetryInfo = .severalAttempts m :=
      (runTask_retryInfo hnot (v.pop rest) env).trans hm
    have hstate : ((v.pop rest).runTask env t).vpn.state = v.state := by rw [runTask_vpn]; rfl
    have hrest : ((v.pop rest).runTask env t).vpn.queue = rest := by rw [runTask_vpn]; rfl
    obtain ⟨m', hm', hmono, hle⟩ := finish_attempts (by simp [runTask_outs]) hinfo fun e a he =>
      ⟨fun h => absurd ((runTask_event he).1 h) (by simp [hnot]), fun h hs hfatal h0 =>
        hab ⟨abandons_of_event hq hl he h hfatal, hstate ▸ hs, by simp [noConnectAttempts, hm, h0]⟩⟩
    refine ⟨m', hm', hmono, Nat.le_trans hle ?_⟩
    have hpending : v.pendingRetries = rest.countP Task.isRetry + if t.isRetry then 1 else 0 := by
      rw [pendingRetries, hq, countP_cons]
    rw [hpending, pendingRetries, hrest]
    cases he : ((v.pop rest).runTask env t).event with
    | none => simp
    | some ea =>
      by_cases hr : ea.1 = .retryConnect
      · rw [(runTask_event he).2.1 hr]
        simp [hr, Nat.add_assoc]
      · simp [hr]
  | timer ht =>
    refine ⟨m, by simpa using hm, Nat.le_refl m, ?_⟩
    rw [attemptsIn_eq_zero fun o ho => by simp [timer_kinds v o ho]]
    simp [pendingRetries]

/-! ## Sessions -/

attribute [local simp] configured

/-- In a session with several attempts that never abandons its endpoint without attempts left:
every attempt is counted, and the counter never grows. -/
theorem attempts_run {k : Bool} {n : Nat} {v : Vpn} (hv : v.Ordered) (hn : n ≠ 0)
    (hw : v.Waiting (.severalAttempts n)) (es : List Call)
    (hes : (system k).Meets (fun v c => c.isStopped = false ∧ ¬v.AbandonsLastAttempt c) v es) :
    (((system k).exec v es).Waiting (.severalAttempts n) ∧ attemptsStarted ((system k).trace v es) = 0 ∨
      ¬((system k).exec v es).Starting ∧ ∃ m, ((system k).exec v es).connectRetryInfo = .severalAttempts m ∧
          m + ((system k).exec v es).pendingRetries + attemptsStarted ((system k).trace v es) ≤ n) ∧
    ∀ r ∈ (system k).trace v es, ¬r.before.Starting →
      ∃ m m', r.before.connectRetryInfo = .severalAttempts m ∧
        r.after.connectRetryInfo = .severalAttempts m' ∧ m' ≤ m := by
  have hrun := (system k).inv_from (J := fun h v => v.Ordered ∧
      (v.Waiting (.severalAttempts n) ∧ attemptsStarted h = 0 ∨
        ¬v.Starting ∧ ∃ m, v.connectRetryInfo = .severalAttempts m ∧
          m + v.pendingRetries + attemptsStarted h ≤ n) ∧
      ∀ r ∈ h, ¬r.before.Starting → ∃ m m', r.before.connectRetryInfo = .severalAttempts m ∧
          r.after.connectRetryInfo = .severalAttempts m' ∧ m' ≤ m)
    ⟨hv, .inl ⟨hw, rfl⟩, by simp⟩ ?_ es hes
  · exact hrun.2
  rintro h v c ⟨hord, hphase, htrace⟩ ⟨hc, hab⟩
  have hc := Call.ne_stopped hc
  have happend : attemptsStarted (h ++ [(system k).record v c]) = attemptsStarted h + attemptsIn (v.step c) := by
    simp only [attemptsStarted, map_append, sum_append, map_singleton, sum_singleton]
    rfl
  rcases hphase with ⟨hwait, h0⟩ | ⟨hbusy, m, hm, hle⟩
  · -- until the connect task is run nothing is started
    have hbefore := forall_mem_append.mpr ⟨htrace, forall_mem_singleton.mpr
      fun hnot : ¬((system k).record v c).before.Starting => absurd hwait.starting hnot⟩
    rcases waiting_step hord hwait c hc with ⟨hwait', houts⟩ | ⟨cfg, rest, env, hrest, hbusy, hstep⟩
    · refine ⟨ordered_step hord c, .inl ⟨hwait', ?_⟩, hbefore⟩
      rw [happend, h0, attemptsIn_eq_zero]
      intro o ho
      rcases houts o ho with hk | hk <;> simp [hk]
    · refine ⟨ordered_step hord c, .inr ⟨hbusy, decrement n, ?_, ?_⟩, hbefore⟩
      · show (v.step c).1.connectRetryInfo = _
        rw [hstep]
        simp [run, countAttempt]
      have hpending : (v.step c).1.pendingRetries = 0 := by
        rw [hstep]
        simpa [pendingRetries, run, pop, updateUpstreamConfig] using no_retries hrest
      have hone : attemptsIn (v.step c) = 1 := by
        rw [hstep, attemptsIn, andDo_snd, countP_append, enter_pings]
        simp [run]
      have hless := decrement_lt hn
      show decrement n + (v.step c).1.pendingRetries + _ ≤ n
      omega
  · obtain ⟨m', hm', hmono, hle'⟩ := attempts_step hbusy hm c hc hab
    refine ⟨ordered_step hord c, .inr ⟨busy_step hbusy c hc, m', hm', ?_⟩, ?_⟩
    · show m' + (v.step c).1.pendingRetries + _ ≤ n
      omega
    · exact forall_mem_append.mpr ⟨htrace, forall_mem_singleton.mpr fun _ => ⟨m, m', hm, hm', hmono⟩⟩

/-- A session with `n` attempts starts at most that many, those started and those left are never more
than `n`, and the counter never wraps, whatever happened before `vpn_connect`. -/
theorem attempts_bounded (k : Bool) (earlier : List Call) (p : ConnectParameters) (n : Int)
    (es : List Call) (hrests : ((system k).exec (system k).init earlier).loop.runs = false)
    (hvalid : validateUpstreamConfig p.upstreamConfig = none) (hp : p.retryPolicy = .severalAttempts n)
    (hes : (system k).Meets (fun v c => c.isStopped = false ∧ ¬v.AbandonsLastAttempt c)
      (sessionStart k earlier p) es) :
    attemptsStarted (sessionTrace k earlier p es) ≤ (if n ≤ 0 then 5 else n.toNat) ∧
    (¬(sessionEnd k earlier p es).Starting →
      ∃ m, (sessionEnd k earlier p es).connectRetryInfo = .severalAttempts m ∧
        m + attemptsStarted (sessionTrace k earlier p es) ≤ (if n ≤ 0 then 5 else n.toNat)) ∧
    ∀ r ∈ sessionTrace k earlier p es,
      ¬r.before.Starting → ∃ m m', r.before.connectRetryInfo = .severalAttempts m ∧
        r.after.connectRetryInfo = .severalAttempts m' ∧ m' ≤ m := by
  have hord := sessionStart_ordered k earlier p
  have hwait := started_waiting (ordered_exec k earlier) hrests hvalid
  rw [hp] at hwait
  obtain ⟨hphase, htrace⟩ := attempts_run hord (by split <;> omega) hwait es hes
  rcases hphase with ⟨hwait', h0⟩ | ⟨-, m, hm, hle⟩
  · replace h0 : attemptsStarted (sessionTrace k earlier p es) = 0 := h0
    exact ⟨by omega, fun hnot => absurd hwait'.starting hnot, htrace⟩
  · replace hle : m + (sessionEnd k earlier p es).pendingRetries +
        attemptsStarted (sessionTrace k earlier p es) ≤ _ := hle
    exact ⟨by omega, fun _ => ⟨m, hm, by omega⟩, htrace⟩

def countedAttempts : List Call :=
  [.runTask (goodEnv 1), .pingerResult pinged (goodEnv 2), .abandonEndpoint someEndpoint,
   .runTask (goodEnv 3), .runTask (goodEnv 4), .notifyNetworkChange .notConnected,
   .runTask (goodEnv 5), .notifyNetworkChange .connected, .runTask (goodEnv 6), .runTask (goodEnv 7)]

theorem attempts_bounded_three :
    attemptsStarted (sessionTrace false [] ⟨someConfig, .severalAttempts 3⟩ countedAttempts) = 3 ∧
    attemptsStarted (sessionTrace false [] ⟨someConfig, .severalAttempts 3⟩ countedAttempts) ≤ 3 :=
  ⟨by decide +kernel,
    (attempts_bounded false [] ⟨someConfig, .severalAttempts 3⟩ 3 countedAttempts rfl
      (by decide +kernel) rfl (by decide +kernel)).1⟩

def abandonedAttempt : List Call :=
  [.runTask (goodEnv 1), .pingerResult pinged (goodEnv 2), .abandonEndpoint someEndpoint,
   .runTask (goodEnv 3), .runTask (goodEnv 4)]

/-- The counter wraps, and a second attempt is started. -/
theorem attempts_wrap : (sessionEnd false [] ⟨someConfig, .severalAttempts 1⟩ abandonedAttempt).connectRetryInfo =
      .severalAttempts 18446744073709551615 ∧
    attemptsStarted (sessionTrace false [] ⟨someConfig, .severalAttempts 1⟩ abandonedAttempt) = 2 := by
  decide +kernel

/-! ## Falling into recovery -/

/-- The rows that retry: all but two give way to one that falls into recovery. -/
theorem retry_rows_fall : ∀ r ∈ transitionTable, r.before = some .retryConnect →
    shadowed transitionTable r .fallIntoRecovery = true ∨
      (r.event = .abandonEndpoint ∧ r.source = some .connecting ∧
        shadowed transitionTable r .isFatalError = true) ∨
      (r.event = .networkChange ∧ r.source = some .waitingForNetwork ∧
        shadowed transitionTable r .networkLost = true ∧ shadowed transitionTable r .connectedOnce = true) := by
  decide

/-- The loop abandons the selected endpoint in `CONNECTING`, and the location has another one of its
family. -/
def AbandonsConnecting (v : Vpn) (c : Call) : Prop :=
  (v.taskOf c).any v.abandonsCurrent = true ∧ v.state = .connecting

/-- The loop tells the session that the network is back while it waits for it and has never been
connected. -/
def RegainsUnconnected (v : Vpn) (c : Call) : Prop :=
  (v.taskOf c).any isNetworkRegained = true ∧ v.state = .waitingForNetwork ∧ v.connectedOnce = false

instance (v : Vpn) (c : Call) : Decidable (v.AbandonsConnecting c) :=
  inferInstanceAs (Decidable (_ ∧ _))

instance (v : Vpn) (c : Call) : Decidable (v.RegainsUnconnected c) :=
  inferInstanceAs (Decidable (_ ∧ _))

section Fall

variable {v : Vpn} {e : ConnectEvent} {a : EventArg}

theorem not_retry_row (hinfo : v.connectRetryInfo = .fallIntoRecovery)
    (habandon : e = .abandonEndpoint → v.state = .connecting → isFatalError a.data v = true)
    (hregain : e = .networkChange → v.state = .waitingForNetwork →
      a.data = .network .notConnected ∨ v.connectedOnce = true)
    {r : Row VpnSessionState ConnectEvent Condition Action} (hr : machine.Taken r e a v)
    (hmem : r ∈ transitionTable) : r.before ≠ some .retryConnect := by
  intro hb
  rcases retry_rows_fall r hmem hb with hfall | ⟨hev, hsrc, hfatal⟩ | ⟨hev, hsrc, hlost, honce⟩
  · have hno := not_holds_of_shadowed hr hfall
    simp [machine, holds, fallIntoRecovery, hinfo] at hno
  · have hno := not_holds_of_shadowed hr hfatal
    rw [show machine.holds .isFatalError a v = isFatalError a.data v from rfl,
      habandon (hr.event.symm.trans hev) (hr.state_eq hsrc)] at hno
    cases hno
  · have hlost := not_holds_of_shadowed hr hlost
    have honce := not_holds_of_shadowed hr honce
    rcases hregain (hr.event.symm.trans hev) (hr.state_eq hsrc) with h | h
    · simp [machine, holds, h] at hlost
    · simp [machine, holds, h] at honce

/-- What holds of a session that falls into recovery: its policy, and that nothing is retried. -/
structure Falling (v : Vpn) : Prop where
  info : v.connectRetryInfo = .fallIntoRecovery
  retries : v.pendingRetries = 0

theorem fall_perform (h : v.Falling)
    (habandon : e = .abandonEndpoint → v.state = .connecting → isFatalError a.data v = true)
    (hregain : e = .networkChange → v.state = .waitingForNetwork →
      a.data = .network .notConnected ∨ v.connectedOnce = true) :
    (performTransition e a v).1.Falling ∧ ∀ o ∈ (performTransition e a v).2, o.kind ≠ .assertion := by
  refine perform_spec (Q := fun w => w.1.Falling ∧ ∀ o ∈ w.2, o.kind ≠ .assertion) ⟨h, by simp⟩ ?_ ?_
  · intro r act hr hmem hb
    have hact : act ≠ .retryConnect := by
      rintro rfl
      exact not_retry_row h.info habandon hregain hr hmem hb
    refine ⟨⟨by rw [run_retryInfo hact, h.info], ?_⟩, fun o ho hk => ?_⟩
    · have hq := h.retries
      rw [pendingRetries] at hq ⊢
      rw [run_queue, countP_append, hq, addedTasks_retries, if_neg hact]
    · have hkind := run_kinds act a v o ho
      cases act <;> simp_all [Action.kinds]
  · rintro q w ⟨hfall, houts⟩
    refine ⟨⟨by simpa using hfall.info, by simpa [pendingRetries] using hfall.retries⟩, ?_⟩
    refine forall_mem_append.mpr ⟨houts, fun o ho => ?_⟩
    rcases enter_kinds q _ o ho with hk | hk <;> simp [hk]

theorem fall_step (hbusy : ¬v.Starting) (hun : v.Unselected) (h : v.Falling) (c : Call)
    (hc : c ≠ .stopped) (hab : ¬v.AbandonsConnecting c) (hre : ¬v.RegainsUnconnected c) :
    (v.step c).1.Falling ∧ ∀ o ∈ (v.step c).2, o.kind ≠ .assertion := by
  have hdoes := does_step v c
  generalize v.step c = r at hdoes ⊢
  -- it is enough that the work of the call keeps `Falling` and its event meets the conditions
  have hfinish : ∀ i : Intake, (∀ o ∈ i.outs, o.kind ≠ .assertion) → i.vpn.Falling →
      (∀ e a, i.event = some (e, a) →
        (e = .abandonEndpoint → i.vpn.state = .connecting → isFatalError a.data i.vpn = true) ∧
        (e = .networkChange → i.vpn.state = .waitingForNetwork →
          a.data = .network .notConnected ∨ i.vpn.connectedOnce = true)) →
      (finish i).1.Falling ∧ ∀ o ∈ (finish i).2, o.kind ≠ .assertion := by
    intro i houts hi hevent
    unfold finish
    split
    · exact ⟨hi, houts⟩
    · next e a he =>
      obtain ⟨hfall, hperform⟩ := fall_perform hi (hevent e a he).1 (hevent e a he).2
      exact ⟨hfall, forall_mem_append.mpr ⟨houts, hperform⟩⟩
  cases hdoes with
  | notes c i hn =>
    refine hfinish i (fun o ho hk => ?_) ⟨by rw [hn.vpn]; exact h.info, hn.pendingRetries.trans h.retries⟩
      fun e a he => ?_
    · rcases hn.outs o ho with hret | ⟨-, hp, hs⟩
      · rw [hk] at hret
        cases hret
      · rw [hun hp] at hs
        cases hs
    · obtain ⟨-, -, habandon, hnetwork, -⟩ := ConnectEvent.of_report (hn.event e a he)
      exact ⟨fun hev => absurd hev habandon, fun hev => absurd hev hnetwork⟩
  | starts p hl => exact absurd (.inl hl) hbusy
  | stops hl => exact ⟨⟨h.info, by simpa [pendingRetries, submit] using h.retries⟩, by simp⟩
  | resets c hreset => simp [hc, not_starting_runs hbusy] at hreset
  | task t rest env hq hl =>
    have hnot : t.isConnect = false := not_starting_queue hbusy t (by simp [hq])
    have hstate : ((v.pop rest).runTask env t).vpn.state = v.state := by rw [runTask_vpn]; rfl
    have honce : ((v.pop rest).runTask env t).vpn.connectedOnce = v.connectedOnce := by rw [runTask_vpn]; rfl
    have hrest : ((v.pop rest).runTask env t).vpn.queue = rest := by rw [runTask_vpn]; rfl
    have hpending := h.retries
    rw [pendingRetries, hq, countP_cons] at hpending
    refine hfinish _ (by simp [runTask_outs]) ⟨(runTask_retryInfo hnot (v.pop rest) env).trans h.info, ?_⟩
      fun e a he => ⟨fun hev hs => ?_, fun hev hs => ?_⟩
    · rw [pendingRetries, hrest]
      omega
    · by_contra hfatal
      exact hab ⟨abandons_of_event hq hl he hev (by simpa using hfatal), hstate ▸ hs⟩
    obtain ⟨-, -, -, -, hnetwork⟩ := runTask_event he
    obtain ⟨s, rfl, hdata⟩ := hnetwork hev
    cases s with
    | notConnected => exact .inl hdata
    | connected =>
      refine .inr ?_
      by_contra hnever
      exact hre ⟨by simp [taskOf, hq, hl, isNetworkRegained], hstate ▸ hs, by simpa [honce] using hnever⟩
  | timer ht =>
    refine ⟨⟨by simpa using h.info, by simpa [pendingRetries] using h.retries⟩, fun o ho => ?_⟩
    simp [timer_kinds v o ho]

theorem Waiting.pendingRetries {info : ConnectRetryInfo} (h : v.Waiting info) : v.pendingRetries = 0 := by
  obtain ⟨earlier, c, rest, hq, hearlier, hrest⟩ := h
  rw [Vpn.pendingRetries, hq, countP_append, countP_cons, no_retries hrest, no_retries fun t ht => (hearlier t ht).2]
  rfl

theorem falling_run {k : Bool} (hv : v.Ordered) (hun : v.Unselected) (hw : v.Waiting .fallIntoRecovery) (es : List Call)
    (hes : (system k).Meets
      (fun v c => c.isStopped = false ∧ ¬v.AbandonsConnecting c ∧ ¬v.RegainsUnconnected c) v es) :
    (((system k).exec v es).Waiting .fallIntoRecovery ∨ ((system k).exec v es).Falling) ∧
      ∀ o ∈ System.outputs ((system k).trace v es), o.kind ≠ .assertion := by
  have hrun := (system k).inv_from (J := fun h v => (v.Ordered ∧ v.Unselected ∧
        (v.Waiting .fallIntoRecovery ∨ ¬v.Starting ∧ v.Falling)) ∧
      ∀ o ∈ System.outputs h, o.kind ≠ .assertion)
    ⟨⟨hv, hun, .inl hw⟩, by simp⟩ ?_ es hes
  · obtain ⟨⟨-, -, hphase⟩, houts⟩ := hrun
    exact ⟨hphase.imp_right And.right, houts⟩
  rintro h v c ⟨⟨hord, hun, hphase⟩, houts⟩ ⟨hc, hab, hre⟩
  have hc := Call.ne_stopped hc
  -- the outputs of the call come after those of the history
  have happend : (∀ o ∈ (v.step c).2, o.kind ≠ .assertion) →
      ∀ o ∈ System.outputs (h ++ [(system k).record v c]), o.kind ≠ .assertion := by
    intro hstep
    rw [System.outputs_append, System.outputs_record]
    exact forall_mem_append.mpr ⟨houts, hstep⟩
  have hord' := ordered_step hord c
  have hun' := unselected_step hun c
  rcases hphase with hwait | ⟨hbusy, hfall⟩
  · rcases waiting_step hord hwait c hc with ⟨hwait', hret⟩ | ⟨cfg, rest, env, hrest, hbusy, hstep⟩
    · refine ⟨⟨hord', hun', .inl hwait'⟩, happend fun o ho => ?_⟩
      rcases hret o ho with hk | hk <;> simp [hk]
    have hfall : (v.step c).1.Falling := by
      rw [hstep]
      refine ⟨by simp [run, countAttempt], ?_⟩
      simpa [Vpn.pendingRetries, run, pop, updateUpstreamConfig] using no_retries hrest
    refine ⟨⟨hord', hun', .inr ⟨hbusy, hfall⟩⟩, happend fun o ho => ?_⟩
    rw [hstep] at ho
    rcases mem_append.mp ho with ho | ho
    · have hkind := run_kinds _ _ _ o ho
      simp_all [Action.kinds]
    · rcases enter_kinds _ _ o ho with hk | hk <;> simp [hk]
  · obtain ⟨hfall', hstep⟩ := fall_step hbusy hun hfall c hc hab hre
    exact ⟨⟨hord', hun', .inr ⟨busy_step hbusy c hc, hfall'⟩⟩, happend hstep⟩

end Fall

/-- A session that falls into recovery never retries and no assertion fails, if it does not abandon
its endpoint in `CONNECTING` and does not get the network back before its first connection. Every
event it can receive is ignored or takes a row of the table. -/
theorem falling_asserts (k : Bool) (earlier : List Call) (p : ConnectParameters) (es : List Call)
    (hrests : ((system k).exec (system k).init earlier).loop.runs = false)
    (hvalid : validateUpstreamConfig p.upstreamConfig = none) (hp : p.retryPolicy = .fallIntoRecovery)
    (hes : (system k).Meets (fun v c => c.isStopped = false ∧ ¬v.AbandonsConnecting c ∧ ¬v.RegainsUnconnected c)
      (sessionStart k earlier p) es) : (∀ x, assertFailed x ∉ System.outputs (sessionTrace k earlier p es)) ∧
    (sessionEnd k earlier p es).pendingRetries = 0 ∧
    ∀ e a, performTransition e a (sessionEnd k earlier p es) = (sessionEnd k earlier p es, []) ∨
      ∃ r ∈ transitionTable, machine.Taken r e a (sessionEnd k earlier p es) := by
  have hwait := started_waiting (ordered_exec k earlier) hrests hvalid
  rw [hp] at hwait
  obtain ⟨hphase, houts⟩ := falling_run (sessionStart_ordered k earlier p)
    (sessionStart_clean hrests p).unselected hwait es hes
  refine ⟨fun x hx => houts _ hx rfl, ?_, fun e a => ?_⟩
  · rcases hphase with hw | hfall
    · exact hw.pendingRetries
    · exact hfall.retries
  · rcases machine.perform_cases e a (sessionEnd k earlier p es) with ⟨h, -⟩ | ⟨r, hr⟩
    · exact .inl h
    · exact .inr ⟨r, hr.mem, hr⟩

/-- A session that loses its first connection attempt, recovers, abandons its endpoint, loses and
regains the network. -/
def fallingRun : List Call :=
  [.runTask (goodEnv 1), .pingerResult ⟨-1, someEndpoint, none⟩ (goodEnv 2),
   .recoveryTask (goodEnv 1002), .pingerResult pinged (goodEnv 1003),
   .clientConnected (goodEnv 1004), .abandonEndpoint someEndpoint, .runTask (goodEnv 1005),
   .notifyNetworkChange .notConnected, .runTask (goodEnv 1006),
   .notifyNetworkChange .connected, .runTask (goodEnv 1007)]

theorem falling_asserts_recovers :
    (sessionEnd false [] ⟨someConfig, .fallIntoRecovery⟩ fallingRun).state = .waitingRecovery ∧
    ∀ x, assertFailed x ∉ System.outputs (sessionTrace false [] ⟨someConfig, .fallIntoRecovery⟩ fallingRun) :=
  ⟨by decide +kernel,
    (falling_asserts false [] ⟨someConfig, .fallIntoRecovery⟩ fallingRun rfl (by decide +kernel) rfl
      (by decide +kernel)).1⟩

def fallingAbandons : List Call :=
  [.runTask (goodEnv 1), .pingerResult pinged (goodEnv 2), .abandonEndpoint someEndpoint, .runTask (goodEnv 3)]

def fallingRegains : List Call :=
  [.runTask (goodEnv 1), .notifyNetworkChange .notConnected, .runTask (goodEnv 2),
   .notifyNetworkChange .connected, .runTask (goodEnv 3)]

/-- Both retry, and the assertion on the policy fails. -/
theorem falling_retries : assertFailed .retryPolicy ∈
        System.outputs (sessionTrace false [] ⟨someConfig, .fallIntoRecovery⟩ fallingAbandons) ∧
      assertFailed .retryPolicy ∈
        System.outputs (sessionTrace false [] ⟨someConfig, .fallIntoRecovery⟩ fallingRegains) :=
  ⟨by decide +kernel, by decide +kernel⟩

end Vpn

end TrustTunnel
