import TrustTunnel.Lib.Action

/-!
# Gui.Failover

The walk over the failover queue (`run_failover_walk` and `run_reconnect_loop` in `connectivity.rs`, with
their decisions in `lifecycle.rs`). Each candidate gets a bounded number of attempts; before each attempt
and after a success the loop proves that the session is still its own, and so does the walk before it goes
on to another server.

What the surroundings do is a script: what a flag, a file or an attempt shows at each moment. Every
reading takes a moment of its own, so that disconnects and new generations come between any two of them.
-/

namespace TrustTunnel.Gui.Failover

open Lib List

/-! ## Decisions -/

def reconnectMaxAttempts : Nat := 10

def failoverAttemptsPerCandidate : Nat := 1

def failoverOriginAttempts : Nat := 0

def adapterRetryMaxAttempts : Nat := 2

/-- `FAST_FAIL_GRACE`, in milliseconds -/
def fastFailGrace : Nat := 2000

def coreVersionMismatchReason : String := "core-version-mismatch"

def coreCertificateNotYetValidReason : String := "core-certificate-not-yet-valid"

def routingRulesUnreadableReason : String := "routing-rules-unreadable"

def routingRulesApplyFailedReason : String := "routing-rules-apply-failed"

def routingDataUnavailableReason : String := "routing-data-unavailable"

def adapterCreationFailedReason : String := "VPN adapter creation failed"

def isTerminalReason (reason : String) : Bool :=
  reason ∈ ["Authorization failed", "Configuration parse error. Check your config file.",
    routingRulesUnreadableReason, routingRulesApplyFailedReason, routingDataUnavailableReason,
    coreCertificateNotYetValidReason, coreVersionMismatchReason]

def isCurrentGeneration (captured live : Nat) : Bool := captured == live

def isFastFail (elapsed : Nat) : Bool := elapsed < fastFailGrace

def gaveUp (attempt maxAttempts : Nat) : Bool := maxAttempts ≤ attempt

def adapterSupervisedBudgetSpent (adapterFailures : Nat) : Bool := adapterRetryMaxAttempts < adapterFailures

def failoverAdvanceAllowed (userIntent stillOurs failoverEnabled : Bool) : Bool :=
  !userIntent && stillOurs && failoverEnabled

inductive WalkKind where
  | serverDrop
  | localProcessDeath

def perCandidateAttemptBudget (kind : WalkKind) (queueLen index : Nat) : Nat :=
  if queueLen ≤ 1 then reconnectMaxAttempts
  else if 0 < index then failoverAttemptsPerCandidate
  else
    match kind with
    | .serverDrop => failoverOriginAttempts
    | .localProcessDeath => reconnectMaxAttempts

inductive SupervisorOutcome where
  | recovered
  | gaveUp
  | terminalFailure
  | aborted
  deriving DecidableEq

/-! ## The surroundings -/

structure Attempt where
  succeeded : Bool
  elapsed : Nat
  failureReason : Option String

structure Moment where
  userDisconnected : Bool
  liveGeneration : Nat
  failoverEnabled : Bool
  attempt : Attempt

abbrev Script := Nat → Moment

inductive Step where
  /-- the session was checked, beginning at the moment, and was not the supervisor's any more -/
  | guarded (time : Nat) (stale : Bool)
  | advance (time : Nat) (allowed : Bool)
  /-- the status is set to reconnecting -/
  | marked (index attempt : Nat)
  | attempted (index attempt : Nat)
  | slept
  | ended (index : Nat) (outcome : SupervisorOutcome)

structure Walk where
  time : Nat := 0
  log : List Step := []

def Walk.add (w : Walk) (n : Nat) (s : Step) : Walk := ⟨w.time + n, w.log ++ [s]⟩

section Code

variable (script : Script) (captured : Nat)

/-- `user_disconnected() || !is_current_generation(captured_generation, live_generation())` -/
def stale (time : Nat) : Bool :=
  (script time).userDisconnected || !isCurrentGeneration captured (script (time + 1)).liveGeneration

def guardSession (w : Walk) : Bool × Walk :=
  (stale script captured w.time, w.add 2 (.guarded w.time (stale script captured w.time)))

def advanceAllowed (time : Nat) : Bool :=
  failoverAdvanceAllowed (script time).userDisconnected
    (isCurrentGeneration captured (script (time + 1)).liveGeneration) (script (time + 2)).failoverEnabled

inductive Verdict where
  | stop (outcome : SupervisorOutcome)
  | retry (adapterFailures : Nat) (sleeps : Bool)

/-- Not after the last attempt, nor after a core that died at once. -/
def sleepsAfter (attempt maxAttempts : Nat) (result : Attempt) : Bool :=
  !gaveUp attempt maxAttempts && !isFastFail result.elapsed

def judge (attempt maxAttempts adapterFailures : Nat) (result : Attempt) : Verdict :=
  if result.failureReason = some coreVersionMismatchReason then .stop .terminalFailure
  else if result.failureReason.any isTerminalReason then .stop .gaveUp
  else if result.failureReason = some adapterCreationFailedReason then
    if adapterSupervisedBudgetSpent (adapterFailures + 1) then .stop .gaveUp
    else .retry (adapterFailures + 1) (sleepsAfter attempt maxAttempts result)
  else .retry adapterFailures (sleepsAfter attempt maxAttempts result)

def follow (next : Nat → Walk → SupervisorOutcome × Walk) (w : Walk) : Verdict → SupervisorOutcome × Walk
  | .stop outcome => (outcome, w)
  | .retry adapterFailures sleeps => next adapterFailures (if sleeps then w.add 1 .slept else w)

def loop (index maxAttempts : Nat) : Nat → Nat → Nat → Walk → SupervisorOutcome × Walk
  | 0, _, _, w => (.gaveUp, w)
  | left + 1, attempt, adapterFailures, w =>
    let (isStale, w) := guardSession script captured w
    if isStale then (.aborted, w)
    else
      let w := w.add 0 (.marked index attempt)
      let result := (script w.time).attempt
      let w := w.add 1 (.attempted index attempt)
      if result.succeeded then
        let (isStale, w) := guardSession script captured w
        (if isStale then .aborted else .recovered, w)
      else
        follow (loop index maxAttempts left (attempt + 1)) w (judge attempt maxAttempts adapterFailures result)

def runReconnectLoop (index maxAttempts : Nat) (w : Walk) : SupervisorOutcome × Walk :=
  loop script captured index maxAttempts maxAttempts 1 0 w

structure FailoverWalkResult where
  outcome : SupervisorOutcome
  candidateIndex : Nat
  queueExhausted : Bool

def walk (kind : WalkKind) (queueLen : Nat) : Nat → Nat → Walk → FailoverWalkResult × Walk
  | 0, _, w => (⟨.gaveUp, queueLen - 1, 1 < queueLen⟩, w)
  | left + 1, index, w =>
    let allowed := index = 0 || advanceAllowed script captured w.time
    let w := if index = 0 then w else w.add 3 (.advance w.time (advanceAllowed script captured w.time))
    if !allowed then (⟨.aborted, index - 1, false⟩, w)
    else
      let (outcome, w) :=
        runReconnectLoop script captured index (perCandidateAttemptBudget kind queueLen index) w
      let w := w.add 0 (.ended index outcome)
      if outcome = .gaveUp then walk kind queueLen left (index + 1) w
      else (⟨outcome, index, false⟩, w)

def runFailoverWalk (kind : WalkKind) (queueLen : Nat) : FailoverWalkResult × Walk :=
  walk script captured kind queueLen queueLen 0 {}

end Code

/-! ## What a log says -/

/-- Somebody else owns the session, or the user does not want it: this was seen. -/
def Step.stops : Step → Bool
  | .guarded _ isStale => isStale
  | .advance _ allowed => !allowed
  | _ => false

def Clear (l : List Step) : Prop := ∀ s ∈ l, s.stops = false

def Step.asAttempt : Step → Option (Nat × Nat)
  | .attempted index attempt => some (index, attempt)
  | _ => none

def attempts (l : List Step) : List (Nat × Nat) := l.filterMap Step.asAttempt

def Step.asEnding : Step → Option (Nat × SupervisorOutcome)
  | .ended index outcome => some (index, outcome)
  | _ => none

def endings (l : List Step) : List (Nat × SupervisorOutcome) := l.filterMap Step.asEnding

/-- Attempts `1` to `ks[i]` of candidate `i`, for one candidate after the other. -/
def segments (ks : List Nat) : List (Nat × Nat) :=
  ks.zipIdx.flatMap fun p => (List.range' 1 p.1).map fun attempt => (p.2, attempt)

section Order

variable (script : Script) (captured : Nat) (kind : WalkKind) (queueLen : Nat)

/-- What a step adds to the results of a candidate: an attempt is made after the readings of its guard. -/
def note (index : Nat) (s : Nat × List Attempt) : Step → Nat × List Attempt
  | .guarded time _ => (time + 2, s.2)
  | .attempted i _ => (s.1, if i = index then s.2 ++ [(script s.1).attempt] else s.2)
  | _ => s

def resultsOf (index : Nat) (l : List Step) : List Attempt := (l.foldl (note script index) (0, [])).2

def adapterFailures (results : List Attempt) : Nat :=
  results.countP fun r => r.failureReason == some adapterCreationFailedReason

/-- What it takes to be done with a candidate: a guard that saw a stop, a success, all of the attempts, or
a result that rules out another one. -/
def Closes (budget : Nat) (results : List Attempt) (l : List Step) : SupervisorOutcome → Prop
  | .aborted => ¬Clear l
  | .recovered => ∃ earlier result, results = earlier ++ [result] ∧ result.succeeded = true
  | outcome => outcome = .gaveUp ∧ results.length = budget ∨
      ∃ earlier result, results = earlier ++ [result] ∧ result.succeeded = false ∧
        judge results.length budget (adapterFailures earlier) result = .stop outcome

/-- Once it was seen that the session is not the supervisor's, nothing is done any more. The status is
marked right after a check that found it to be, and an attempt is made right after that. -/
def Orderly (l : List Step) : Step → Prop
  | .guarded time isStale => Clear l ∧ isStale = stale script captured time
  | .advance time allowed => Clear l ∧ allowed = advanceAllowed script captured time
  | .marked _ _ => Clear l ∧ ∃ l' time, l = l' ++ [.guarded time false]
  | .attempted index attempt => Clear l ∧ ∃ l', l = l' ++ [.marked index attempt]
  | .slept => Clear l
  | .ended index outcome =>
    Closes (perCandidateAttemptBudget kind queueLen index) (resultsOf script index l) l outcome

end Order

section Runs

variable {script : Script} {captured : Nat} {w : Walk} {kind : WalkKind} {queueLen : Nat}

theorem Clear.snoc {l : List Step} {s : Step} (h : Clear l) (hs : s.stops = false) : Clear (l ++ [s]) := by
  intro s' hs'
  rcases mem_append.mp hs' with hs' | hs'
  · exact h s' hs'
  · rw [mem_singleton.mp hs']
    exact hs

theorem attempts_snoc (l : List Step) (s : Step) : attempts (l ++ [s]) = attempts l ++ s.asAttempt.toList := by
  rw [attempts, filterMap_append]
  cases s <;> rfl

theorem endings_snoc (l : List Step) (s : Step) : endings (l ++ [s]) = endings l ++ s.asEnding.toList := by
  rw [endings, filterMap_append]
  cases s <;> rfl

theorem segments_snoc (ks : List Nat) (k : Nat) :
    segments (ks ++ [k]) = segments ks ++ (List.range' 1 k).map fun attempt => (ks.length, attempt) := by
  rw [segments, zipIdx_append]
  simp [segments]

theorem mem_endings {l : List Step} {index : Nat} {outcome : SupervisorOutcome} :
    (index, outcome) ∈ endings l ↔ .ended index outcome ∈ l := by
  rw [endings, mem_filterMap]
  constructor
  · rintro ⟨s, hs, heq⟩
    cases s with
    | ended i o =>
      cases heq
      exact hs
    | _ => cases heq
  · exact fun hmem => ⟨_, hmem, rfl⟩

theorem mem_attempts {l : List Step} {index attempt : Nat} :
    (index, attempt) ∈ attempts l ↔ .attempted index attempt ∈ l := by
  rw [attempts, mem_filterMap]
  constructor
  · rintro ⟨s, hs, heq⟩
    cases s with
    | attempted i k =>
      cases heq
      exact hs
    | _ => cases heq
  · exact fun hmem => ⟨_, hmem, rfl⟩

theorem not_stale {time : Nat} (h : stale script captured time = false) :
    (script time).userDisconnected = false ∧ (script (time + 1)).liveGeneration = captured := by
  rw [stale, Bool.or_eq_false_iff, Bool.not_eq_false'] at h
  exact ⟨h.1, (beq_iff_eq.mp h.2).symm⟩

theorem resultsOf_snoc (index : Nat) (l : List Step) {s : Step} (hs : s.asAttempt = none) :
    resultsOf script index (l ++ [s]) = resultsOf script index l := by
  rw [resultsOf, foldl_append]
  cases s with
  | attempted i k => cases hs
  | _ => rfl

theorem judge_stop {attempt maxAttempts failures : Nat} {result : Attempt} {outcome : SupervisorOutcome}
    (h : judge attempt maxAttempts failures result = .stop outcome) :
    outcome = .gaveUp ∨ outcome = .terminalFailure := by
  unfold judge at h
  split at h
  · cases h
    exact .inr rfl
  split at h
  · cases h
    exact .inl rfl
  split at h
  · split at h
    · cases h
      exact .inl rfl
    · cases h
  · cases h

theorem judge_retry {attempt maxAttempts n : Nat} {earlier : List Attempt} {result : Attempt} {sleeps : Bool}
    (h : judge attempt maxAttempts (adapterFailures earlier) result = .retry n sleeps) :
    n = adapterFailures (earlier ++ [result]) := by
  unfold judge at h
  split at h
  · cases h
  split at h
  · cases h
  rw [adapterFailures, countP_append, ← adapterFailures]
  split at h
  · rename_i hreason
    split at h
    · cases h
    · cases h
      simp [hreason]
  · rename_i hreason
    cases h
    simp [hreason]

/-- What the loop on a candidate comes to, begun with the attempt `attempt` and `left` of them left. -/
structure Candidate (script : Script) (captured : Nat) (kind : WalkKind) (queueLen index maxAttempts attempt left : Nat)
    (w : Walk) (r : SupervisorOutcome × Walk) : Prop where
  each : Each (Orderly script captured kind queueLen) r.2.log
  clear : r.1 ≠ .aborted → Clear r.2.log
  closes : Closes maxAttempts (resultsOf script index r.2.log) r.2.log r.1
  attempts : ∃ k ≤ left, attempts r.2.log = Failover.attempts w.log ++ (List.range' attempt k).map (index, ·)
  others : ∀ j ≠ index, resultsOf script j r.2.log = resultsOf script j w.log
  endings : endings r.2.log = Failover.endings w.log
  recovered : r.1 = .recovered → ∃ l time, r.2.log = l ++ [.guarded time false] ∧ r.2.time = time + 2

def Walk.tried (w : Walk) (index attempt : Nat) : Walk :=
  ((w.add 2 (.guarded w.time false)).add 0 (.marked index attempt)).add 1 (.attempted index attempt)

theorem resultsOf_tried (index attempt : Nat) : resultsOf script index (w.tried index attempt).log =
        resultsOf script index w.log ++ [(script (w.time + 2)).attempt] ∧
      ∀ j ≠ index, resultsOf script j (w.tried index attempt).log = resultsOf script j w.log := by
  simp only [Walk.tried, Walk.add, resultsOf, foldl_append, foldl_cons, foldl_nil, note]
  exact ⟨if_pos trivial, fun j hj => if_neg hj.symm⟩

theorem tried_spec (index attempt : Nat) (heach : Each (Orderly script captured kind queueLen) w.log)
    (hclear : Clear w.log) (hfine : stale script captured w.time = false) :
    Each (Orderly script captured kind queueLen) (w.tried index attempt).log ∧ Clear (w.tried index attempt).log ∧
      attempts (w.tried index attempt).log = attempts w.log ++ [(index, attempt)] ∧
      endings (w.tried index attempt).log = endings w.log := by
  have hclear₁ := hclear.snoc (s := .guarded w.time false) rfl
  have hclear₂ := hclear₁.snoc (s := .marked index attempt) rfl
  have h₁ : Each (Orderly script captured kind queueLen) (w.log ++ [.guarded w.time false]) :=
    heach.snoc ⟨hclear, hfine.symm⟩
  have h₂ : Each (Orderly script captured kind queueLen)
      (w.log ++ [.guarded w.time false] ++ [.marked index attempt]) :=
    h₁.snoc ⟨hclear₁, w.log, w.time, rfl⟩
  refine ⟨h₂.snoc ⟨hclear₂, _, rfl⟩, hclear₂.snoc rfl, ?_, ?_⟩
  · rw [Walk.tried, Walk.add, Walk.add, Walk.add, attempts_snoc, attempts_snoc, attempts_snoc]
    simp [Step.asAttempt]
  · rw [Walk.tried, Walk.add, Walk.add, Walk.add, endings_snoc, endings_snoc, endings_snoc]
    simp [Step.asEnding]

theorem not_clear (l : List Step) {s : Step} (hs : s.stops = true) : ¬Clear (l ++ [s]) := by
  intro hclear
  cases hs.symm.trans (hclear s (by simp))

theorem loop_spec (index left : Nat) {maxAttempts attempt failures : Nat} {results : List Attempt}
    (hresults : resultsOf script index w.log = results) (hleft : results.length + left = maxAttempts)
    (hattempt : attempt = results.length + 1) (hfailures : failures = adapterFailures results)
    (heach : Each (Orderly script captured kind queueLen) w.log) (hclear : Clear w.log) :
    Candidate script captured kind queueLen index maxAttempts attempt left w
      (loop script captured index maxAttempts left attempt failures w) := by
  induction left generalizing attempt failures results w with
  | zero =>
    exact {
      each := heach
      clear := fun _ => hclear
      closes := .inl ⟨rfl, by rw [← hleft, ← hresults]; rfl⟩
      attempts := ⟨0, Nat.le_refl _, by simp [loop]⟩
      others := fun _ _ => rfl
      endings := rfl
      recovered := fun h => by cases h }
  | succ left ih =>
    by_cases hstale : stale script captured w.time = true
    · have heq : loop script captured index maxAttempts (left + 1) attempt failures w =
          (.aborted, w.add 2 (.guarded w.time true)) := by
        simp [loop, guardSession, hstale]
      rw [heq]
      exact {
        each := heach.snoc ⟨hclear, hstale.symm⟩
        clear := fun h => absurd rfl h
        closes := not_clear _ rfl
        attempts := ⟨0, Nat.zero_le _, (attempts_snoc _ _).trans (by simp [Step.asAttempt])⟩
        others := fun j _ => resultsOf_snoc j _ rfl
        endings := (endings_snoc _ _).trans (append_nil _)
        recovered := fun h => by cases h }
    · rw [Bool.not_eq_true] at hstale
      obtain ⟨h, hc, ha, he⟩ := tried_spec index attempt heach hclear hstale
      obtain ⟨hresult, hothers⟩ := @resultsOf_tried script w index attempt
      rw [hresults] at hresult
      have hbegin : loop script captured index maxAttempts (left + 1) attempt failures w =
          if (script (w.time + 2)).attempt.succeeded then
            (if stale script captured (w.time + 3) then .aborted else .recovered,
              (w.tried index attempt).add 2 (.guarded (w.time + 3) (stale script captured (w.time + 3))))
          else
            follow (loop script captured index maxAttempts left (attempt + 1)) (w.tried index attempt)
              (judge attempt maxAttempts failures (script (w.time + 2)).attempt) := by
        simp only [loop, guardSession, hstale]
        rfl
      rw [hbegin]
      split
      · -- connected: the session is checked once more
        rename_i hsucceeded
        have hlast := @resultsOf_snoc script index (w.tried index attempt).log
          (s := .guarded (w.time + 3) (stale script captured (w.time + 3))) rfl
        refine {
          each := h.snoc ⟨hc, rfl⟩
          clear := fun hne => hc.snoc ?_
          closes := ?_
          attempts := ⟨1, by omega, (attempts_snoc _ _).trans (by rw [ha]; simp [Step.asAttempt])⟩
          others := fun j hj => (resultsOf_snoc j _ rfl).trans (hothers j hj)
          endings := ((endings_snoc _ _).trans (append_nil _)).trans he
          recovered := fun hrec => ?_ }
        · cases hs : stale script captured (w.time + 3) with
          | true => exact absurd (if_pos hs) hne
          | false => rfl
        · cases hs : stale script captured (w.time + 3) with
          | true => exact not_clear _ rfl
          | false =>
            rw [hs] at hlast
            exact ⟨results, _, hlast.trans hresult, hsucceeded⟩
        · cases hs : stale script captured (w.time + 3) with
          | true =>
            rw [hs] at hrec
            cases hrec
          | false => exact ⟨(w.tried index attempt).log, w.time + 3, rfl, rfl⟩
      · rename_i hfailed
        cases hv : judge attempt maxAttempts failures (script (w.time + 2)).attempt with
        | stop outcome =>
          have hcloses : ∃ earlier result,
              resultsOf script index (w.tried index attempt).log = earlier ++ [result] ∧
              result.succeeded = false ∧
              judge (resultsOf script index (w.tried index attempt).log).length maxAttempts
                (adapterFailures earlier) result = .stop outcome := by
            refine ⟨results, _, hresult, Bool.eq_false_iff.mpr hfailed, ?_⟩
            rw [hresult, length_append, ← hfailures, length_singleton, ← hattempt]
            exact hv
          rcases judge_stop hv with rfl | rfl
          · exact ⟨h, fun _ => hc, .inr hcloses, ⟨1, by omega, ha⟩, hothers, he, fun hrec => by cases hrec⟩
          · exact ⟨h, fun _ => hc, .inr hcloses, ⟨1, by omega, ha⟩, hothers, he, fun hrec => by cases hrec⟩
        | retry n sleeps =>
          rw [hfailures] at hv
          have hnext : ∀ w', Each (Orderly script captured kind queueLen) w'.log → Clear w'.log →
              attempts w'.log = attempts w.log ++ [(index, attempt)] → endings w'.log = endings w.log →
              (∀ j, resultsOf script j w'.log = resultsOf script j (w.tried index attempt).log) →
              Candidate script captured kind queueLen index maxAttempts attempt (left + 1) w
                (loop script captured index maxAttempts left (attempt + 1) n w') := by
            intro w' heach' hclear' ha' he' hr'
            have hlen : (results ++ [(script (w.time + 2)).attempt]).length = results.length + 1 := length_append
            obtain ⟨heach'', hclear'', hcloses, ⟨k, hk, hka⟩, hothers', hend, hrec⟩ :=
              ih ((hr' index).trans hresult) (by omega) (show attempt + 1 = _ by omega) (judge_retry hv) heach'
                hclear'
            refine ⟨heach'', hclear'', hcloses, ⟨k + 1, by omega, ?_⟩, fun j hj => ?_, hend.trans he', hrec⟩
            · rw [hka, ha', append_assoc]
              rfl
            · rw [hothers' j hj, hr', hothers j hj]
          rw [follow]
          split
          · exact hnext _ (h.snoc hc) (hc.snoc rfl) ((attempts_snoc _ _).trans ((append_nil _).trans ha))
              ((endings_snoc _ _).trans ((append_nil _).trans he)) fun j => resultsOf_snoc j _ rfl
          · exact hnext _ h hc ha he fun _ => rfl

/-! ## The walk -/

/-- The walk at candidate `index`: all before it gave up. -/
structure Passing (script : Script) (captured : Nat) (kind : WalkKind) (queueLen index : Nat) (w : Walk) :
    Prop where
  each : Each (Orderly script captured kind queueLen) w.log
  clear : Clear w.log
  attempts : ∃ ks, attempts w.log = segments ks ∧ ks.length = index ∧
    ∀ i k, ks[i]? = some k → k ≤ perCandidateAttemptBudget kind queueLen i
  fresh : ∀ i, index ≤ i → resultsOf script i w.log = []
  endings : endings w.log = (List.range index).map (·, .gaveUp)

structure Passed (script : Script) (captured : Nat) (kind : WalkKind) (queueLen : Nat)
    (r : FailoverWalkResult × Walk) : Prop where
  each : Each (Orderly script captured kind queueLen) r.2.log
  attempts : ∃ ks, attempts r.2.log = segments ks ∧ ks.length ≤ queueLen ∧
    ∀ i k, ks[i]? = some k → k ≤ perCandidateAttemptBudget kind queueLen i
  recovered : r.1.outcome = .recovered → ∃ l time,
    r.2.log = l ++ [.guarded time false, .ended r.1.candidateIndex .recovered] ∧ r.2.time = time + 2
  exhausted : r.1.queueExhausted = true ↔ 1 < queueLen ∧ ∀ i < queueLen, (i, .gaveUp) ∈ endings r.2.log
  before : ∀ i < r.1.candidateIndex, (i, .gaveUp) ∈ endings r.2.log
  aborted : r.1.outcome = .aborted → ¬Clear r.2.log
  gaveUp : r.1.outcome = .gaveUp → ∀ i < queueLen, (i, .gaveUp) ∈ endings r.2.log
  last : r.1.outcome = .recovered ∨ r.1.outcome = .terminalFailure →
    (r.1.candidateIndex, r.1.outcome) ∈ endings r.2.log

theorem not_exhausted {index : Nat} {l : List (Nat × SupervisorOutcome)} (hlt : index < queueLen)
    (hnot : (index, .gaveUp) ∉ l) :
    false = true ↔ 1 < queueLen ∧ ∀ i < queueLen, (i, SupervisorOutcome.gaveUp) ∈ l :=
  ⟨fun h => (by cases h), fun h => absurd (h.2 index hlt) hnot⟩

theorem mem_gaveUp {index i : Nat} :
    (i, SupervisorOutcome.gaveUp) ∈ (List.range index).map (·, SupervisorOutcome.gaveUp) ↔ i < index := by
  simp

theorem candidate_passed {index : Nat}
    (h : Passing script captured kind queueLen index w) (hlt : index < queueLen) (o : SupervisorOutcome) (w' : Walk)
    (hc : Candidate script captured kind queueLen index (perCandidateAttemptBudget kind queueLen index) 1
      (perCandidateAttemptBudget kind queueLen index) w (o, w')) :
    (o = .gaveUp → Passing script captured kind queueLen (index + 1) (w'.add 0 (.ended index o))) ∧
    (o ≠ .gaveUp → Passed script captured kind queueLen (⟨o, index, false⟩, w'.add 0 (.ended index o))) := by
  obtain ⟨ks, hks, hlen, hbudget⟩ := h.attempts
  obtain ⟨k, hk, hka⟩ := hc.attempts
  have heach : Each (Orderly script captured kind queueLen) (w'.log ++ [.ended index o]) := hc.each.snoc hc.closes
  have hattempts : attempts (w'.log ++ [.ended index o]) = segments (ks ++ [k]) := by
    rw [attempts_snoc, segments_snoc, hlen, ← hks]
    exact (append_nil _).trans hka
  have hendings : endings (w'.log ++ [.ended index o]) = (List.range index).map (·, .gaveUp) ++ [(index, o)] := by
    rw [endings_snoc, ← h.endings, ← hc.endings]
    rfl
  have hbudgets : ∀ i k', (ks ++ [k])[i]? = some k' → k' ≤ perCandidateAttemptBudget kind queueLen i := by
    intro i k' hi
    rw [List.getElem?_append] at hi
    split at hi
    · exact hbudget i k' hi
    have hzero : i - ks.length = 0 := by
      by_contra hne
      rw [List.getElem?_eq_none (by rw [length_singleton]; omega)] at hi
      cases hi
    rw [hzero] at hi
    cases hi
    have hidx : i = index := by omega
    rw [hidx]
    exact hk
  constructor
  · rintro rfl
    refine ⟨heach, (hc.clear (fun h => by cases h)).snoc rfl, ⟨ks ++ [k], hattempts, ?_, hbudgets⟩,
      fun i hi => ?_, ?_⟩
    · rw [length_append, hlen]
      rfl
    · exact (resultsOf_snoc i _ rfl).trans ((hc.others i (by omega)).trans (h.fresh i (by omega)))
    · rw [range_succ, map_append]
      exact hendings
  · intro ho
    have hlast : (index, o) ∈ endings (w'.log ++ [.ended index o]) := by simp [hendings]
    refine {
      each := heach
      attempts := ⟨ks ++ [k], hattempts, by rw [length_append, hlen]; exact hlt, hbudgets⟩
      recovered := fun hrec => ?_
      exhausted := not_exhausted hlt ?_
      before := fun i hi => ?_
      aborted := fun hstop hclear => ?_
      gaveUp := fun hgave => absurd hgave ho
      last := fun _ => hlast }
    · obtain ⟨l, time, hlog, htime⟩ := hc.recovered hrec
      refine ⟨l, time, ?_, htime⟩
      have hrec' : o = .recovered := hrec
      have hlog' : w'.log = l ++ [.guarded time false] := hlog
      show w'.log ++ [.ended index o] = _
      rw [hlog', hrec', append_assoc]
      rfl
    · show (index, SupervisorOutcome.gaveUp) ∉ endings (w'.log ++ [.ended index o])
      rw [hendings, mem_append, not_or]
      refine ⟨fun hmem => absurd (mem_gaveUp.mp hmem) (Nat.lt_irrefl _), fun hmem => ?_⟩
      rw [mem_singleton] at hmem
      exact ho (congrArg Prod.snd hmem).symm
    · show (i, SupervisorOutcome.gaveUp) ∈ endings (w'.log ++ [.ended index o])
      rw [hendings]
      exact mem_append_left _ (mem_gaveUp.mpr hi)
    · have hcloses := hc.closes
      obtain rfl : o = .aborted := hstop
      exact hcloses fun s hs => hclear s (mem_append_left _ hs)

theorem walk_spec (left index : Nat) (hlen : left + index = queueLen)
    (h : Passing script captured kind queueLen index w) :
    Passed script captured kind queueLen (walk script captured kind queueLen left index w) := by
  induction left generalizing index w with
  | zero =>
    obtain ⟨ks, hks, hklen, hbudget⟩ := h.attempts
    have hall : ∀ i < queueLen, (i, SupervisorOutcome.gaveUp) ∈ endings w.log := by
      intro i hi
      rw [h.endings]
      exact mem_gaveUp.mpr (by omega)
    refine {
      each := h.each
      attempts := ⟨ks, hks, by omega, hbudget⟩
      recovered := fun hrec => (by cases hrec)
      exhausted := ?_
      before := fun i hi => hall i (by have hi : i < queueLen - 1 := hi; omega)
      aborted := fun hstop => (by cases hstop)
      gaveUp := fun _ => hall
      last := fun ho => (by cases ho <;> contradiction) }
    show decide (1 < queueLen) = true ↔ _
    rw [decide_eq_true_iff]
    exact ⟨fun hlt => ⟨hlt, hall⟩, fun hall => hall.1⟩
  | succ left ih =>
    have hlt : index < queueLen := by omega
    have hgo : ∀ w' o w'', Passing script captured kind queueLen index w' →
        runReconnectLoop script captured index (perCandidateAttemptBudget kind queueLen index) w' = (o, w'') →
        Passed script captured kind queueLen
          (if o = .gaveUp then walk script captured kind queueLen left (index + 1) (w''.add 0 (.ended index o))
            else (⟨o, index, false⟩, w''.add 0 (.ended index o))) := by
      intro w' o w'' h' hr
      have hc : Candidate script captured kind queueLen index
          (perCandidateAttemptBudget kind queueLen index) 1 _ w' _ :=
        loop_spec index (perCandidateAttemptBudget kind queueLen index) (h'.fresh index (Nat.le_refl _))
          (Nat.zero_add _) rfl (show 0 = _ from rfl) h'.each h'.clear
      rw [runReconnectLoop] at hr
      rw [hr] at hc
      obtain ⟨hgave, hother⟩ := candidate_passed h' hlt o w'' hc
      split_ifs with ho
      · exact ih (index + 1) (by omega) (hgave ho)
      · exact hother ho
    by_cases hzero : index = 0
    · have heq := hgo w _ _ h rfl
      subst hzero
      exact heq
    by_cases hallowed : advanceAllowed script captured w.time = true
    · have hpassing : Passing script captured kind queueLen index (w.add 3 (.advance w.time true)) := {
        each := h.each.snoc ⟨h.clear, hallowed.symm⟩
        clear := h.clear.snoc rfl
        attempts := by
          obtain ⟨ks, hks, hrest⟩ := h.attempts
          exact ⟨ks, (attempts_snoc _ _).trans ((append_nil _).trans hks), hrest⟩
        fresh := fun i hi => (resultsOf_snoc i _ rfl).trans (h.fresh i hi)
        endings := (endings_snoc _ _).trans ((append_nil _).trans h.endings) }
      have heq := hgo _ _ _ hpassing rfl
      rw [walk]
      simp only [hzero, hallowed]
      exact heq
    · rw [Bool.not_eq_true] at hallowed
      obtain ⟨ks, hks, hklen, hbudget⟩ := h.attempts
      have hendings : endings (w.log ++ [.advance w.time false]) = (List.range index).map (·, .gaveUp) :=
        (endings_snoc _ _).trans ((append_nil _).trans h.endings)
      rw [walk]
      simp only [hzero, hallowed]
      exact {
        each := h.each.snoc ⟨h.clear, hallowed.symm⟩
        attempts := ⟨ks, (attempts_snoc _ _).trans ((append_nil _).trans hks), by omega, hbudget⟩
        recovered := fun hrec => (by cases hrec)
        exhausted := not_exhausted hlt fun hmem =>
          absurd (mem_gaveUp.mp (hendings ▸ hmem)) (Nat.lt_irrefl _)
        before := fun i hi => hendings ▸ mem_gaveUp.mpr (by have hi : i < index - 1 := hi; omega)
        aborted := fun _ => not_clear _ rfl
        gaveUp := fun hgave => (by cases hgave)
        last := fun ho => (by cases ho <;> contradiction) }

theorem walk_passed (script : Script) (captured : Nat) (kind : WalkKind) (queueLen : Nat) :
    Passed script captured kind queueLen (runFailoverWalk script captured kind queueLen) := by
  have hstart : Passing script captured kind queueLen 0 {} :=
    ⟨.nil, fun s hs => (by cases hs), ⟨[], rfl, rfl, fun i k hi => (by cases hi)⟩, fun _ _ => rfl, rfl⟩
  exact walk_spec queueLen 0 (Nat.add_zero _) hstart

theorem attempted_of_results {index : Nat} {l : List Step} (h : resultsOf script index l ≠ []) :
    ∃ k, .attempted index k ∈ l := by
  by_contra hno
  have hkept : ∀ s, (l.foldl (note script index) s).2 = s.2 := by
    clear h
    induction l with
    | nil => exact fun _ => rfl
    | cons step l ih =>
      intro s
      rw [foldl_cons, ih fun ⟨k, hk⟩ => hno ⟨k, mem_cons_of_mem _ hk⟩]
      cases step with
      | attempted i k => exact if_neg fun hi => hno ⟨k, by simp [hi]⟩
      | _ => rfl
  exact h (hkept _)

theorem mem_segments {ks : List Nat} {index attempt : Nat} :
    (index, attempt) ∈ segments ks ↔ ∃ k, ks[index]? = some k ∧ 1 ≤ attempt ∧ attempt ≤ k := by
  simp only [segments, mem_flatMap, mem_map, mem_range'_1, Prod.mk.injEq, Prod.exists, mk_mem_zipIdx_iff_getElem?]
  constructor
  · rintro ⟨k, i, hk, a, ha, rfl, rfl⟩
    exact ⟨k, hk, by omega⟩
  · rintro ⟨k, hk, ha⟩
    exact ⟨k, index, hk, attempt, by omega, rfl, rfl⟩

/-- A candidate that may be tried and was given up has been tried. -/
theorem tried_of_gaveUp {r : FailoverWalkResult × Walk} (h : Passed script captured kind queueLen r) {index : Nat}
    (hended : .ended index .gaveUp ∈ r.2.log) (hpos : 0 < perCandidateAttemptBudget kind queueLen index) :
    .attempted index 1 ∈ r.2.log := by
  obtain ⟨pre, post, hlog⟩ := append_of_mem hended
  have hcloses := h.each pre _ post hlog
  have hresults : resultsOf script index pre ≠ [] := by
    rcases hcloses with ⟨-, hlen⟩ | ⟨earlier, result, heq, -⟩
    · exact ne_nil_of_length_pos (hlen ▸ hpos)
    · simp [heq]
  obtain ⟨k, hk⟩ := attempted_of_results hresults
  obtain ⟨ks, hks, -⟩ := h.attempts
  have hsegment : (index, k) ∈ attempts r.2.log := mem_attempts.mpr (by rw [hlog]; exact mem_append_left _ hk)
  rw [hks, mem_segments] at hsegment
  obtain ⟨n, hn, hle⟩ := hsegment
  rw [← mem_attempts, hks, mem_segments]
  exact ⟨n, hn, by omega⟩

/-- Candidates in the queue's order, each within its budget and not done with before it is due; nothing
after a guard that saw a disconnect or another generation; recovered and exhausted only where they are. All
before the last candidate gave up, and only a guard that saw a stop aborts the walk. -/
theorem single_pass (script : Script) (captured : Nat) (kind : WalkKind) (queueLen : Nat) :
    let r := runFailoverWalk script captured kind queueLen
    Each (Orderly script captured kind queueLen) r.2.log ∧
    (∃ ks, attempts r.2.log = segments ks ∧ ks.length ≤ queueLen ∧
      ∀ i k, ks[i]? = some k → k ≤ perCandidateAttemptBudget kind queueLen i) ∧
    (r.1.outcome = .recovered →
      ∃ l time, r.2.log = l ++ [.guarded time false, .ended r.1.candidateIndex .recovered] ∧ r.2.time = time + 2 ∧
        (script time).userDisconnected = false ∧ (script (time + 1)).liveGeneration = captured) ∧
    (r.1.queueExhausted = true ↔ 1 < queueLen ∧ ∀ i < queueLen, .ended i .gaveUp ∈ r.2.log) ∧
    (∀ i < r.1.candidateIndex, .ended i .gaveUp ∈ r.2.log) ∧
    (r.1.outcome = .aborted → ∃ s ∈ r.2.log, s.stops = true) ∧
    (r.1.outcome = .gaveUp → ∀ i < queueLen, .ended i .gaveUp ∈ r.2.log) ∧
    (r.1.outcome = .recovered ∨ r.1.outcome = .terminalFailure →
      .ended r.1.candidateIndex r.1.outcome ∈ r.2.log) := by
  intro r
  obtain ⟨heach, hattempts, hrecovered, hexhausted, hbefore, haborted, hgaveUp, hlast⟩ :=
    walk_passed script captured kind queueLen
  refine ⟨heach, hattempts, fun hrec => ?_, ?_, fun i hi => mem_endings.mp (hbefore i hi), fun hstop => ?_,
    fun hgave i hi => mem_endings.mp (hgaveUp hgave i hi), fun ho => mem_endings.mp (hlast ho)⟩
  · obtain ⟨l, time, hlog, htime⟩ := hrecovered hrec
    have hguard : Orderly script captured kind queueLen l (.guarded time false) :=
      heach l (.guarded time false) [_] hlog
    obtain ⟨huser, hlive⟩ := not_stale hguard.2.symm
    exact ⟨l, time, hlog, htime, huser, hlive⟩
  · refine hexhausted.trans ?_
    simp [mem_endings, r]
  · simpa [Clear] using haborted hstop

end Runs

end TrustTunnel.Gui.Failover
