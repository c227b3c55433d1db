import TrustTunnel.Ping.Ping

/-!
# Ping.Phases

When the two tasks that expect no connection to be running are executed.

A ping is preparing a round, or within one, or reporting. The end of a round is decided in four
places. `conn_process_result` looks at the direct and at the shortcut connections; `do_connect` looks
at the direct ones only: when the last pending one fails at once while a shortcut is running, the
next round is prepared and the assertion on `inprogress_shortcut` fails (`shortcut_left_running`).
-/

namespace TrustTunnel.Ping

open Lib List

variable {s : Ping} {scale : Int → Int}

/-- Nothing is pending or in progress, except direct connections that wait for their first round. -/
structure Idle (s : Ping) : Prop where
  inprogress : s.inprogress = []
  pendingShortcut : s.pendingShortcut = []
  inprogressShortcut : s.inprogressShortcut = []
  timer : s.timer = false
  connectTask : s.connectTask = false
  connectShortcutTask : s.connectShortcutTask = false

structure Preparing (s : Ping) : Prop extends Idle s where
  prepareTask : s.prepareTask = true
  reportTask : s.reportTask = false
  entries : s.pending ≠ [] ∧ s.done = [] ∧ s.report = [] ∨ s.pending = [] ∧ s.done ≠ []

structure Connecting (s : Ping) : Prop where
  timer : s.timer = true
  prepareTask : s.prepareTask = false
  reportTask : s.reportTask = false
  connectTask : s.connectTask = !s.pending.isEmpty
  connectShortcutTask : s.connectShortcutTask = !s.pendingShortcut.isEmpty
  entries : s.done ++ s.pending ++ s.inprogress ≠ []

/-- With `reportTask` false the report is over. -/
structure Reporting (s : Ping) : Prop extends Idle s where
  prepareTask : s.prepareTask = false
  relayShortcutTimer : s.relayShortcutTimer = false
  pending : s.pending = []
  done : s.done = []
  doneShortcut : s.doneShortcut = []
  ended : s.reportTask = false → s.report = []

def Phased (s : Ping) : Prop := s.Preparing ∨ s.Connecting ∨ s.Reporting

def shortcutEntries (s : Ping) : List PingConn :=
  s.pendingShortcut ++ s.inprogressShortcut ++ s.doneShortcut

/-- Shortcuts, and the timer that makes them, go with a relay. -/
def Relayed (s : Ping) : Prop :=
  s.relayShortcutTimer = true ∨ s.shortcutEntries ≠ [] → s.relays ≠ []

structure Inv (s : Ping) : Prop where
  running : s.aborted = false
  relayed : s.Relayed
  phased : s.Phased

/-- A direct connection that fails at once as the last one leaves no shortcut behind. -/
def Calm (s : Ping) : Call → Prop
  | .connectTask error =>
    error ≠ 0 → s.pending.length = 1 → s.inprogress = [] → s.pendingShortcut = [] ∧ s.inprogressShortcut = []
  | _ => True

instance decidableCalm (s : Ping) : (c : Call) → Decidable (s.Calm c)
  | .connectTask error =>
    inferInstanceAs (Decidable (error ≠ 0 → s.pending.length = 1 → s.inprogress = [] →
      s.pendingShortcut = [] ∧ s.inprogressShortcut = []))
  | .prepareTask _ | .connectShortcutTask _ | .reportTask | .timer | .shortcutTimer _ | .outcome _ _ =>
    isTrue trivial

/-! ## Preparing a round -/

theorem prepareAll_length (prep : Nat → Prepared) (l : List PingConn) :
    (prepareAll prep l).1.length + (prepareAll prep l).2.length = l.length := by
  induction l with
  | nil => rfl
  | cons c l ih =>
    simp only [prepareAll]
    split
    all_goals simp only [length_cons]; omega

theorem Preparing.asserts (h : s.Preparing) : s.prepareAsserts = true := by
  unfold prepareAsserts
  rw [h.connectTask, h.reportTask, h.inprogress, h.inprogressShortcut]
  rcases h.entries with ⟨hp, hd, hr⟩ | ⟨hp, hd⟩
  · simp [hp, hd, hr]
  · simp [hp, hd]

theorem settled_relayed (h : s.Relayed) (hi : s.Idle) : s.settled.Relayed := by
  intro hs
  simp only [settled, shortcutEntries, hi.pendingShortcut, hi.inprogressShortcut,
    append_nil, ne_eq, not_true_eq_false, or_false, Bool.and_eq_true] at hs ⊢
  rw [if_pos hs.2]
  exact h (.inl hs.1)

theorem startReport_reporting (hi : s.Idle) (hp : s.prepareTask = false)
    (hsc : s.doneShortcut = []) : s.startReport.Reporting where
  inprogress := hi.inprogress
  pendingShortcut := hi.pendingShortcut
  inprogressShortcut := hi.inprogressShortcut
  timer := rfl
  connectTask := hi.connectTask
  connectShortcutTask := hi.connectShortcutTask
  prepareTask := hp
  relayShortcutTimer := rfl
  pending := rfl
  done := rfl
  doneShortcut := hsc
  ended := nofun

attribute [local simp] startRound

theorem startRound_phased (hi : s.Idle) (hr : s.reportTask = false) {l : List PingConn} (hl : l ≠ [])
    (prep : Nat → Prepared) : (s.startRound l prep).Phased := by
  have hlen := prepareAll_length prep l
  have hpos := length_pos_iff.mpr hl
  by_cases hp : (prepareAll prep l).1 = []
  · left
    have hd : (prepareAll prep l).2 ≠ [] := by
      rw [hp] at hlen
      exact ne_nil_of_length_pos (by simp only [length_nil] at hlen; omega)
    exact
      { inprogress := hi.inprogress
        pendingShortcut := hi.pendingShortcut
        inprogressShortcut := hi.inprogressShortcut
        timer := by simp [hp]
        connectTask := by simp [hp]
        connectShortcutTask := hi.connectShortcutTask
        prepareTask := by simp [hp]
        reportTask := hr
        entries := .inr ⟨hp, hd⟩ }
  · right; left
    exact
      { timer := by simp [hp]
        prepareTask := by simp [hp]
        reportTask := hr
        connectTask := rfl
        connectShortcutTask := by simp [hi.connectShortcutTask, hi.pendingShortcut]
        entries := by simp [hp] }

theorem settled_idle (hi : s.Idle) : s.settled.Idle :=
  ⟨hi.inprogress, hi.pendingShortcut, hi.inprogressShortcut, hi.timer, hi.connectTask, hi.connectShortcutTask⟩

theorem Preparing.doPrepare_eq (h : s.Preparing) (prep : Nat → Prepared) : s.doPrepare prep =
      if s.settled.pending.isEmpty then (s.settled.startReport, [])
      else (s.settled.startRound s.settled.pending prep, []) := by
  rw [doPrepare, h.asserts]
  rfl

theorem Inv.doPrepare (h : s.Inv) (hp : s.Preparing) (prep : Nat → Prepared) : (s.doPrepare prep).1.Inv := by
  have hrelayed := settled_relayed h.relayed hp.toIdle
  have hidle := settled_idle hp.toIdle
  rw [hp.doPrepare_eq]
  split
  case isTrue he =>
    refine ⟨h.running, ?_, .inr (.inr (startReport_reporting hidle rfl rfl))⟩
    rintro (ht | hsc)
    · cases ht
    · exact hrelayed (.inr hsc)
  case isFalse he =>
    exact ⟨h.running, hrelayed, startRound_phased hidle hp.reportTask (by simpa using he) prep⟩

/-! ## Within a round -/

theorem Inv.doConnect (h : s.Inv) (hc : s.Connecting) (ht : s.connectTask = true) {error : Int}
    (hcalm : s.Calm (.connectTask error)) : (s.doConnect error).1.Inv := by
  obtain ⟨c, rest, hp⟩ : ∃ c rest, s.pending = c :: rest := by
    have hne := hc.connectTask
    rw [ht] at hne
    cases hp : s.pending with
    | nil => simp [hp] at hne
    | cons c rest => exact ⟨c, rest, rfl⟩
  have hd : s.doConnect error = ({ s with
      pending := rest
      inprogress := (connectFirst c error s.inprogress s.done).1
      done := (connectFirst c error s.inprogress s.done).2
      connectTask := !rest.isEmpty
      timer := s.timer && !(rest.isEmpty && (connectFirst c error s.inprogress s.done).1.isEmpty)
      prepareTask := s.prepareTask ||
        (rest.isEmpty && (connectFirst c error s.inprogress s.done).1.isEmpty) }, []) := by
    rw [Ping.doConnect, hp]
  rw [hd]
  refine ⟨h.running, h.relayed, ?_⟩
  by_cases hall : rest = [] ∧ (connectFirst c error s.inprogress s.done).1 = []
  · -- the round is over for the direct connections: the connect failed and was the last one
    obtain ⟨hrest, hin⟩ := hall
    have herr : error ≠ 0 ∧ s.inprogress = [] := by
      unfold connectFirst at hin
      split at hin
      case isTrue he => exact ⟨he, hin⟩
      case isFalse => simp at hin
    have hfirst : connectFirst c error s.inprogress s.done =
        (s.inprogress, s.done ++ [{ c with socketError := error, socket := none }]) := by
      rw [connectFirst, if_pos herr.1]
    obtain ⟨hps, his⟩ := hcalm herr.1 (by simp [hp, hrest]) herr.2
    left
    exact
      { inprogress := hin
        pendingShortcut := hps
        inprogressShortcut := his
        timer := by simp [hrest, hin]
        connectTask := by simp [hrest]
        connectShortcutTask := by simp [hc.connectShortcutTask, hps]
        prepareTask := by simp [hrest, hin]
        reportTask := hc.reportTask
        entries := .inr ⟨hrest, by simp [hfirst]⟩ }
  · right; left
    have hnot : (rest.isEmpty && (connectFirst c error s.inprogress s.done).1.isEmpty) = false := by
      simpa using hall
    exact
      { timer := by simp [hnot, hc.timer]
        prepareTask := by simp [hnot, hc.prepareTask]
        reportTask := hc.reportTask
        connectTask := rfl
        connectShortcutTask := hc.connectShortcutTask
        entries := by
          unfold connectFirst
          split <;> simp }

theorem Inv.doConnectShortcut (h : s.Inv) (hc : s.Connecting) (ht : s.connectShortcutTask = true)
    (error : Int) : (s.doConnectShortcut error).1.Inv := by
  have hne := hc.connectShortcutTask
  rw [ht] at hne
  unfold Ping.doConnectShortcut
  cases hp : s.pendingShortcut with
  | nil => simp [hp] at hne
  | cons c rest =>
    have hrelays : s.relays ≠ [] := h.relayed (.inr (by simp [shortcutEntries, hp]))
    exact ⟨h.running, fun _ => hrelays, .inr (.inl
      { timer := hc.timer
        prepareTask := hc.prepareTask
        reportTask := hc.reportTask
        connectTask := hc.connectTask
        connectShortcutTask := rfl
        entries := hc.entries })⟩

theorem Inv.onTimer (h : s.Inv) (hc : s.Connecting) : s.onTimer.1.Inv := by
  rw [Ping.onTimer, if_neg (by simp [hc.reportTask])]
  refine ⟨h.running, ?_, .inl ?_⟩
  · -- the shortcuts have only moved
    rintro (ht | hsc)
    · exact h.relayed (.inl ht)
    · refine h.relayed (.inr fun hnil => hsc ?_)
      simp only [shortcutEntries, append_eq_nil_iff] at hnil
      simp [shortcutEntries, hnil]
  · exact
      { inprogress := rfl
        pendingShortcut := rfl
        inprogressShortcut := rfl
        timer := rfl
        connectTask := rfl
        connectShortcutTask := rfl
        prepareTask := rfl
        reportTask := hc.reportTask
        entries := .inr ⟨rfl, fun hnil => hc.entries (by simp at hnil; simp [hnil])⟩ }

theorem shortcuts_nil (prep : Nat → Prepared) (id : Nat) : s.shortcuts prep id [] = [] := rfl

theorem Inv.onShortcutTimer (h : s.Inv) (ht : s.relayShortcutTimer = true) (prep : Nat → Prepared) :
    (s.onShortcutTimer prep).1.Inv := by
  have hrelays : s.relays ≠ [] := h.relayed (.inl ht)
  have hreport : s.reportTask = false := by
    rcases h.phased with hp | hc | hr
    · exact hp.reportTask
    · exact hc.reportTask
    · rw [hr.relayShortcutTimer] at ht
      cases ht
  rw [Ping.onShortcutTimer, if_neg (by simp [hreport, hrelays])]
  refine ⟨h.running, fun _ => hrelays, ?_⟩
  rcases h.phased with hp | hc | hr
  · -- between two rounds there is no connection to make a shortcut for
    left
    have hnone : s.pendingShortcut ++ s.shortcuts prep s.nextId s.inprogress = [] := by
      rw [hp.pendingShortcut, hp.inprogress, shortcuts_nil, append_nil]
    exact
      { inprogress := hp.inprogress
        pendingShortcut := hnone
        inprogressShortcut := hp.inprogressShortcut
        timer := hp.timer
        connectTask := hp.connectTask
        connectShortcutTask := by simp [hp.connectShortcutTask, hnone]
        prepareTask := hp.prepareTask
        reportTask := hp.reportTask
        entries := hp.entries }
  · right; left
    exact
      { timer := hc.timer
        prepareTask := hc.prepareTask
        reportTask := hc.reportTask
        connectTask := hc.connectTask
        connectShortcutTask := by
          rw [hc.connectShortcutTask]
          cases s.pendingShortcut <;> simp
        entries := hc.entries }
  · rw [hr.relayShortcutTimer] at ht
    cases ht

theorem Connecting.endRound (hc : s.Connecting) : s.endRound.Phased := by
  unfold Ping.endRound
  split
  case isFalse => exact .inr (.inl hc)
  case isTrue hall =>
    simp only [Bool.and_eq_true, List.isEmpty_iff] at hall
    obtain ⟨⟨⟨hin, hp⟩, his⟩, hps⟩ := hall
    left
    exact
      { inprogress := hin
        pendingShortcut := hps
        inprogressShortcut := his
        timer := rfl
        connectTask := by simp [hc.connectTask, hp]
        connectShortcutTask := by simp [hc.connectShortcutTask, hps]
        prepareTask := rfl
        reportTask := hc.reportTask
        entries := .inr ⟨hp, by simpa [hp, hin] using hc.entries⟩ }

theorem Inv.endRound (hr : s.aborted = false) (hrel : s.Relayed) (hc : s.Connecting) : s.endRound.Inv := by
  refine ⟨?_, ?_, hc.endRound⟩
  · unfold Ping.endRound
    split <;> exact hr
  · unfold Ping.endRound
    split <;> exact hrel

theorem Inv.connProcessResult (h : s.Inv) (hc : s.Connecting) (id : Nat) (r : Outcome) :
    (s.connProcessResult id r).1.Inv := by
  have hnote : (s.noteOutcome r).aborted = false ∧ (s.noteOutcome r).Relayed ∧ (s.noteOutcome r).Connecting := by
    cases r with
    | error code => exact ⟨h.running, h.relayed, hc⟩
    | response ms =>
      exact ⟨h.running, h.relayed,
        { timer := by simp [noteOutcome, hc.timer]
          prepareTask := hc.prepareTask
          reportTask := hc.reportTask
          connectTask := hc.connectTask
          connectShortcutTask := hc.connectShortcutTask
          entries := hc.entries }⟩
  obtain ⟨hrun, hrel, hcon⟩ := hnote
  unfold Ping.connProcessResult
  split
  next c l htake =>
    exact Inv.endRound hrun hrel
      { timer := hcon.timer
        prepareTask := hcon.prepareTask
        reportTask := hcon.reportTask
        connectTask := hcon.connectTask
        connectShortcutTask := hcon.connectShortcutTask
        entries := by simp }
  next =>
    split
    next c l htake =>
      have hsome : s.inprogressShortcut ≠ [] := by
        intro hnil
        simp [hnil, takeConn] at htake
      have hrelays : s.relays ≠ [] := h.relayed (.inr (by simp [shortcutEntries, hsome]))
      refine Inv.endRound hrun (fun _ => ?_)
        { timer := hcon.timer
          prepareTask := hcon.prepareTask
          reportTask := hcon.reportTask
          connectTask := hcon.connectTask
          connectShortcutTask := hcon.connectShortcutTask
          entries := hcon.entries }
      cases r <;> exact hrelays
    next => exact h

/-! ## The report -/

theorem Reporting.asserts (h : s.Reporting) : s.reportAsserts = true := by
  simp [reportAsserts, h.inprogress, h.inprogressShortcut, h.pending, h.pendingShortcut,
    h.doneShortcut, h.connectTask, h.prepareTask]

theorem Reporting.doReport_nil (h : s.Reporting) (hnil : s.report = []) :
    s.doReport scale = ({ s with reportTask := false }, [.finished]) := by
  rw [doReport, h.asserts, hnil]
  rfl

theorem Reporting.doReport_cons (h : s.Reporting) {c : PingConn} {rest : List PingConn} (hcons : s.report = c :: rest) :
    s.doReport scale = ({ s with report := rest }, [.result c.id (s.resultOf scale c)]) := by
  rw [doReport, h.asserts, hcons]
  rfl

theorem Inv.doReport (h : s.Inv) (hr : s.Reporting) (ht : s.reportTask = true) : (s.doReport scale).1.Inv := by
  cases hreport : s.report with
  | nil =>
    rw [hr.doReport_nil hreport]
    exact ⟨h.running, h.relayed, .inr (.inr { hr with ended := fun _ => hreport })⟩
  | cons c rest =>
    rw [hr.doReport_cons hreport]
    refine ⟨h.running, h.relayed, .inr (.inr { hr with ended := ?_ })⟩
    intro hfalse
    rw [ht] at hfalse
    cases hfalse

/-! ## Runs -/

theorem Preparing.of_enabled (h : s.Phased) (he : s.prepareTask = true) : s.Preparing := by
  rcases h with hp | hc | hr
  · exact hp
  · rw [hc.prepareTask] at he; cases he
  · rw [hr.prepareTask] at he; cases he

theorem Reporting.of_enabled (h : s.Phased) (he : s.reportTask = true) : s.Reporting := by
  rcases h with hp | hc | hr
  · rw [hp.reportTask] at he; cases he
  · rw [hc.reportTask] at he; cases he
  · exact hr

theorem Connecting.of_not_idle (h : s.Phased) (hn : ¬ s.Idle) : s.Connecting := by
  rcases h with hp | hc | hr
  · exact absurd hp.toIdle hn
  · exact hc
  · exact absurd hr.toIdle hn

theorem not_idle_of_outcome {id : Nat} {r : Outcome} (he : s.enabled (.outcome id r) = true) : ¬ s.Idle := by
  intro hi
  simp [enabled, hi.inprogress, hi.inprogressShortcut, takeConn] at he

theorem Inv.run (h : s.Inv) {c : Call} (he : s.enabled c = true) (hcalm : s.Calm c) : (s.run scale c).1.Inv := by
  cases c with
  | prepareTask prep => exact h.doPrepare (.of_enabled h.phased he) prep
  | connectTask error =>
    have hc := Connecting.of_not_idle h.phased fun hi => by
      simp [enabled, hi.connectTask] at he
    exact h.doConnect hc he hcalm
  | connectShortcutTask error =>
    have hc := Connecting.of_not_idle h.phased fun hi => by
      simp [enabled, hi.connectShortcutTask] at he
    exact h.doConnectShortcut hc he error
  | reportTask => exact h.doReport (.of_enabled h.phased he) he
  | timer =>
    have hc := Connecting.of_not_idle h.phased fun hi => by
      simp [enabled, hi.timer] at he
    exact h.onTimer hc
  | shortcutTimer prep => exact h.onShortcutTimer he prep
  | outcome id r =>
    exact h.connProcessResult (.of_not_idle h.phased (not_idle_of_outcome he)) id r

theorem Inv.step (h : s.Inv) {c : Call} (hcalm : s.Calm c) : (s.step scale c).1.Inv := by
  unfold Ping.step
  split
  case isTrue he => exact h.run (by simpa [h.running] using he) hcalm
  case isFalse => exact h

theorem startWith_inv (info : PingInfo) (l : List PingConn) : (startWith info l).Inv where
  running := rfl
  relayed := by
    rintro (ht | hsc)
    · simp only [startWith, Bool.and_eq_true, Bool.not_eq_true', isEmpty_eq_false_iff] at ht
      simpa [startWith] using ht.2
    · exact absurd rfl hsc
  phased := by
    cases l with
    | nil =>
      right; right
      exact
        { inprogress := rfl
          pendingShortcut := rfl
          inprogressShortcut := rfl
          timer := rfl
          connectTask := rfl
          connectShortcutTask := rfl
          prepareTask := rfl
          relayShortcutTimer := rfl
          pending := rfl
          done := rfl
          doneShortcut := rfl
          ended := fun _ => rfl }
    | cons c l =>
      left
      exact
        { inprogress := rfl
          pendingShortcut := rfl
          inprogressShortcut := rfl
          timer := rfl
          connectTask := rfl
          connectShortcutTask := rfl
          prepareTask := rfl
          reportTask := rfl
          entries := .inl ⟨by simp [startWith], rfl, rfl⟩ }

theorem pingStart_inv {info : PingInfo} (hs : pingStart info = some s) : s.Inv := by
  unfold pingStart at hs
  split at hs
  · cases hs
  · obtain rfl := Option.some.inj hs
    exact startWith_inv info (Ping.entries info)

theorem run_quiet {c : Call} (hrep : c ≠ .reportTask) : (s.run scale c).2 = [] ∨ s.run scale c = s.abort := by
  cases c with
  | reportTask => exact absurd rfl hrep
  | prepareTask prep =>
    simp only [run, doPrepare]
    split
    · exact .inr rfl
    · split <;> exact .inl rfl
  | connectTask error =>
    simp only [run, doConnect]
    split
    · exact .inr rfl
    · exact .inl rfl
  | connectShortcutTask error =>
    simp only [run, doConnectShortcut]
    split
    · exact .inr rfl
    · exact .inl rfl
  | timer =>
    simp only [run, onTimer]
    split
    · exact .inr rfl
    · exact .inl rfl
  | shortcutTimer prep =>
    simp only [run, onShortcutTimer]
    split
    · exact .inr rfl
    · exact .inl rfl
  | outcome id r =>
    simp only [run, connProcessResult]
    split
    · exact .inl rfl
    · split <;> exact .inl rfl

theorem Inv.run_eq_nil {c : Call} (h : (s.run scale c).1.Inv) (hrep : c ≠ .reportTask) : (s.run scale c).2 = [] := by
  rcases run_quiet hrep with hnil | habort
  · exact hnil
  · rw [habort] at h
    cases h.running

theorem Inv.no_assertionFailed (h : s.Inv) {c : Call} (hcalm : s.Calm c) :
    PingOut.assertionFailed ∉ (s.step scale c).2 := by
  unfold Ping.step
  split
  case isFalse => simp
  case isTrue he =>
    rw [h.running] at he
    by_cases hrep : c = .reportTask
    · subst hrep
      have hr := Reporting.of_enabled h.phased he
      cases hreport : s.report with
      | nil => simp [Ping.run, hr.doReport_nil hreport]
      | cons c rest => simp [Ping.run, hr.doReport_cons hreport]
    · rw [(h.run he hcalm).run_eq_nil hrep]
      simp

def NoneInProgress (s : Ping) : Prop := s.inprogress = [] ∧ s.inprogressShortcut = []

/-- In every run, for any order of timers, tasks and outcomes, in which no direct connection fails at
once as the last one while a shortcut is pending or in progress: no assertion fails, a round is
prepared only when no connection is in progress, and a result is reported only when none is pending
either. -/
theorem no_connection_running (info : PingInfo) (hs : pingStart info = some s) (es : List Call)
    (hcalm : (ping scale s).Meets Calm s es) : ∀ r ∈ (ping scale s).trace s es,
      r.after.aborted = false ∧ PingOut.assertionFailed ∉ r.outs ∧
      (∀ prep, r.call = .prepareTask prep → r.before.prepareTask = true →
        NoneInProgress r.before ∧ r.before.prepareAsserts = true) ∧
      (r.call = .reportTask → r.before.reportTask = true →
        NoneInProgress r.before ∧ r.before.pending = [] ∧ r.before.pendingShortcut = [] ∧
          r.before.reportAsserts = true) := by
  intro r hr
  obtain ⟨hbefore, hc, heq⟩ := (ping scale s).inv_records (pingStart_inv hs) (fun _ _ h hc => h.step hc) hcalm r hr
  have hafter : r.after.Inv := by
    rw [heq]
    exact hbefore.step hc
  have houts : PingOut.assertionFailed ∉ r.outs := by
    rw [heq]
    exact hbefore.no_assertionFailed hc
  refine ⟨hafter.running, houts, ?_, ?_⟩
  · intro prep _ ht
    have hp := Preparing.of_enabled hbefore.phased ht
    exact ⟨⟨hp.inprogress, hp.inprogressShortcut⟩, hp.asserts⟩
  · intro _ ht
    have hr := Reporting.of_enabled hbefore.phased ht
    exact ⟨⟨hr.inprogress, hr.inprogressShortcut⟩, hr.pending, hr.pendingShortcut, hr.asserts⟩

/-- Two endpoints and a relay, one round over TLS. -/
def twoEndpoints : PingInfo where
  endpoints :=
    [(⟨⟨[10, 0, 0, 1], 443⟩, ascii "a", []⟩, .auto), (⟨⟨[10, 0, 0, 2], 443⟩, ascii "b", []⟩, .auto)]
  interfacesToQuery := []
  nrounds := 1
  mainProtocol := .http2
  handoff := false
  relays := [⟨⟨[10, 0, 0, 9], 443⟩⟩]
  relayParallel := none

/-- One connection is in progress and gets a shortcut, the second one fails at once; the shortcut has
answered and the first connection failed before. -/
def shortcutFirst (last : List Call) : List Call :=
  [.prepareTask fun i => .ok i, .connectTask 0, .shortcutTimer fun i => .ok i,
    .connectShortcutTask 0, .outcome 0 (.error 111)] ++ last

theorem no_connection_running_shortcut : ∃ s, pingStart twoEndpoints = some s ∧ ∀ r ∈ (ping id s).trace s
          (shortcutFirst [.outcome 2 (.response 30), .connectTask 113, .prepareTask fun i => .ok i]),
        r.after.aborted = false :=
  ⟨startWith twoEndpoints (Ping.entries twoEndpoints), by rfl, fun r hr =>
    (no_connection_running twoEndpoints (by rfl) _ (by decide) r hr).1⟩

/-- The connect call fails while the shortcut is in progress: the next round is prepared. -/
theorem shortcut_left_running : ∃ s, pingStart twoEndpoints = some s ∧
      ∃ r ∈ (ping id s).trace s (shortcutFirst [.connectTask 113, .prepareTask fun i => .ok i]),
        r.before.prepareTask = true ∧ r.before.inprogressShortcut.length = 1 ∧ r.outs = [.assertionFailed] :=
  ⟨startWith twoEndpoints (Ping.entries twoEndpoints), by rfl, by decide⟩

/-! ## The shortcut timer -/

/-- A shortcut takes the place of a direct connection: it has a result, and that one has none. -/
def shortcutWins (s : Ping) : Bool :=
  s.doneShortcut.any fun sc => sc.bestResultMs.isSome && (replaceDirect sc s.done).isSome

/-- A connection that has failed in its first round, but not over QUIC with TLS left, is given a relay. -/
def givenRelay (s : Ping) (direct : Bool) (c : PingConn) : Bool :=
  c.socketError ≠ 0 && c.roundsDone = 0 && !(!c.noQuicFallback && c.useQuic) && !c.noRelayFallback && !direct &&
    !s.relays.isEmpty

def fallsBack (s : Ping) : Bool :=
  s.done.any (s.givenRelay (s.haveDirectResult || s.done.any fun c => c.bestResultMs.isSome && c.relay.isNone))

/-- This was the last round of the connection. -/
def lastRound (s : Ping) (c : PingConn) : Bool :=
  !(c.socketError ≠ 0 && c.roundsDone = 0 && (!c.noQuicFallback && c.useQuic)) && c.roundsDone + 1 = s.roundsTarget

/-- No connection goes on, or one through a relay in parallel has its result. -/
def allDone (s : Ping) : Bool :=
  s.pending.isEmpty && s.done.all s.lastRound ||
    (s.report ++ s.done.filter s.lastRound).any fun c => c.noRelayFallback && c.bestResultMs.isSome

/-- If the first round ends before the timer fired, a relay is used up: a shortcut takes the place of its
direct connection, or a connection falls back to a relay; or it was the last round. -/
def UsesRelay (s : Ping) : Call → Prop
  | .prepareTask _ => s.roundsStarted ≠ 0 → s.relayShortcutTimer = true →
      s.shortcutWins || s.fallsBack || s.allDone
  | _ => True

theorem takeShortcut_eq (r : List PingConn × List Bytes) (sc : PingConn) :
    takeShortcut r sc = r ∧ (sc.bestResultMs.isSome && (replaceDirect sc r.1).isSome) = false ∨
      (takeShortcut r sc).2 ≠ [] := by
  unfold takeShortcut
  split_ifs with hresult
  · exact .inl ⟨rfl, by simp_all⟩
  split
  · rename_i hnone
    exact .inl ⟨rfl, by simp [hnone]⟩
  · exact .inr (by simp)

theorem takeShortcut_kept {r : List PingConn × List Bytes} (sc : PingConn) (h : r.2 ≠ []) :
    (takeShortcut r sc).2 ≠ [] := by
  rcases takeShortcut_eq r sc with ⟨heq, -⟩ | hnew
  · rwa [heq]
  · exact hnew

theorem takeShortcuts_eq (l : List PingConn) (r : List PingConn × List Bytes) :
    l.foldl takeShortcut r = r ∧ (l.any fun sc => sc.bestResultMs.isSome && (replaceDirect sc r.1).isSome) = false ∨
      (l.foldl takeShortcut r).2 ≠ [] := by
  induction l with
  | nil => exact .inl ⟨rfl, rfl⟩
  | cons sc l ih =>
    rw [foldl_cons]
    rcases takeShortcut_eq r sc with ⟨heq, hno⟩ | hnew
    · rw [heq, any_cons, hno, Bool.false_or]
      exact ih
    · exact .inr (foldlRecOn (motive := fun r => r.2 ≠ []) l takeShortcut hnew fun _ h sc _ =>
        takeShortcut_kept sc h)

theorem settleConn_fresh (direct : Bool) (snis : List Bytes) (c : PingConn) :
    (s.settleConn direct snis c).2.2 ≠ [] ∨ snis = [] ∧ (s.settleConn direct snis c).2.2 = [] ∧
      s.givenRelay direct c = false ∧ (s.lastRound c = true →
        s.settleConn direct snis c = ({ c with roundsDone := c.roundsDone + 1 }, .report, [])) := by
  cases snis with
  | cons name snis =>
    left
    unfold settleConn
    simp only
    split_ifs <;> simp
  | nil =>
    unfold settleConn givenRelay lastRound
    simp only
    split_ifs with hfirst hquic hrelay
    all_goals simp_all

/-- Where no relay is used up, no connection is given one, and those in their last round are reported. -/
theorem settle_fresh (direct : Bool) (l : List PingConn) (snis : List Bytes) :
    (s.settle direct snis l).snis ≠ [] ∨ snis = [] ∧ l.any (s.givenRelay direct) = false ∧
      (l.all s.lastRound = true → (s.settle direct snis l).kept = []) ∧
      ∀ c ∈ l, s.lastRound c = true → { c with roundsDone := c.roundsDone + 1 }
        ∈ (s.settle direct snis l).reported := by
  induction l generalizing snis with
  | nil =>
    cases snis with
    | nil => exact .inr ⟨rfl, rfl, fun _ => rfl, nofun⟩
    | cons name snis => exact .inl (by simp [settle])
  | cons c l ih =>
    have hsnis : (s.settle direct snis (c :: l)).snis = (s.settle direct (s.settleConn direct snis c).2.2 l).snis := by
      simp only [settle]
      split <;> rfl
    rw [hsnis]
    rcases ih (s.settleConn direct snis c).2.2 with hused | ⟨hnil, hno, hkept, hreported⟩
    · exact .inl hused
    rcases settleConn_fresh (s := s) direct snis c with hused | ⟨rfl, hnil', hnot, hlast⟩
    · exact absurd hnil hused
    refine .inr ⟨rfl, by rw [any_cons, hnot, hno]; rfl, fun hall => ?_, fun d hd hdlast => ?_⟩
    · rw [all_cons, Bool.and_eq_true] at hall
      simp only [settle, hlast hall.1]
      rw [hnil'] at hkept
      exact hkept hall.2
    · rcases mem_cons.mp hd with rfl | hd
      · simp only [settle, hlast hdlast]
        exact mem_cons_self
      · have hmem := hreported d hd hdlast
        simp only [settle]
        split
        · exact mem_cons_of_mem _ hmem
        · exact hmem

theorem settled_timer (h : (s.shortcutWins || s.fallsBack || s.allDone) = true) :
    s.settled.relayShortcutTimer = false ∨ s.settled.pending = [] := by
  have hreset : ∀ snis : List Bytes, snis ≠ [] → (s.relayShortcutTimer && snis.isEmpty) = false := by
    intro snis hne
    rw [isEmpty_eq_false_iff.mpr hne, Bool.and_false]
  rcases takeShortcuts_eq s.doneShortcut (s.done, []) with ⟨heq, hwins⟩ | hnew
  · simp only [settled, heq]
    rcases settle_fresh (s := s) (s.haveDirectResult || s.done.any fun c => c.bestResultMs.isSome && c.relay.isNone)
      s.done [] with hused | ⟨-, hnone, hkept, hreported⟩
    · exact .inl (hreset _ hused)
    refine .inr ?_
    rw [shortcutWins, hwins, fallsBack, hnone, Bool.false_or, Bool.false_or, allDone, Bool.or_eq_true] at h
    rcases h with hall | hparallel
    · rw [Bool.and_eq_true, List.isEmpty_iff] at hall
      rw [hall.1, hkept hall.2]
      exact ite_self _
    · obtain ⟨c, hc, hresult⟩ := any_eq_true.mp hparallel
      refine if_pos (any_eq_true.mpr ?_)
      rcases mem_append.mp hc with hc | hc
      · exact ⟨c, mem_append_left _ hc, hresult⟩
      · obtain ⟨hc, hlast⟩ := mem_filter.mp hc
        exact ⟨_, mem_append_right _ (hreported c hc hlast), hresult⟩
  · left
    rcases settle_fresh (s := s) _ _ (s.doneShortcut.foldl takeShortcut (s.done, [])).2 with hused | ⟨hnil, -⟩
    · exact hreset _ hused
    · exact absurd hnil hnew

structure Kept (s : Ping) (call : Call) (t : Ping) : Prop where
  timer : (1 < s.roundsStarted → s.relayShortcutTimer = false) → 1 < t.roundsStarted →
    t.relayShortcutTimer = false
  created : ∀ c ∈ t.pendingShortcut, c ∉ s.pendingShortcut →
    ∃ prep, call = .shortcutTimer prep ∧ c ∈ s.shortcuts prep s.nextId s.inprogress

theorem kept_doPrepare {prep : Nat → Prepared} (hc : s.UsesRelay (.prepareTask prep)) :
    Kept s (.prepareTask prep) (s.doPrepare prep).1 := by
  unfold Ping.doPrepare
  split
  · exact ⟨id, fun _ hc hnew => absurd hc hnew⟩
  split_ifs with hpending
  · exact ⟨fun _ _ => rfl, fun _ hc hnew => absurd hc hnew⟩
  refine ⟨fun _ hone => ?_, fun _ hc hnew => absurd hc hnew⟩
  by_contra htimer
  rw [Bool.not_eq_false] at htimer
  have hset : s.settled.relayShortcutTimer = true := htimer
  have hstarted : 1 < s.roundsStarted + 1 := hone
  rcases settled_timer (hc (by omega) (Bool.and_eq_true_iff.mp hset).1) with hreset | hover
  · cases hset.symm.trans hreset
  · simp [hover] at hpending

theorem kept_run {call : Call} (hc : s.UsesRelay call) : Kept s call (s.run scale call).1 := by
  have habort : Kept s call s.abort.1 := ⟨id, fun _ hc hnew => absurd hc hnew⟩
  cases call with
  | prepareTask prep => exact kept_doPrepare hc
  | connectTask error =>
    simp only [Ping.run, Ping.doConnect]
    split
    · exact habort
    · exact ⟨id, fun _ hc hnew => absurd hc hnew⟩
  | connectShortcutTask error =>
    simp only [Ping.run, Ping.doConnectShortcut]
    split
    · exact habort
    · rename_i d rest hlist
      exact ⟨id, fun c hc hnew => absurd (by rw [hlist]; exact mem_cons_of_mem _ hc) hnew⟩
  | reportTask =>
    simp only [Ping.run, Ping.doReport]
    split
    · exact habort
    · split <;> exact ⟨id, fun _ hc hnew => absurd hc hnew⟩
  | timer =>
    simp only [Ping.run, Ping.onTimer]
    split
    · exact habort
    · exact ⟨id, fun _ hc => by cases hc⟩
  | shortcutTimer prep =>
    simp only [Ping.run, Ping.onShortcutTimer]
    split
    · exact habort
    · exact ⟨fun _ _ => rfl, fun c hc hnew => ⟨prep, rfl, (mem_append.mp hc).resolve_left hnew⟩⟩
  | outcome id r =>
    have hend (t : Ping) (h : Kept s (.outcome id r) t) : Kept s (.outcome id r) t.endRound := by
      unfold Ping.endRound
      split
      · exact ⟨h.timer, h.created⟩
      · exact h
    simp only [Ping.run, Ping.connProcessResult]
    split
    · cases r <;> exact hend _ ⟨fun h => h, fun _ hc hnew => absurd hc hnew⟩
    · split
      · cases r <;> exact hend _ ⟨fun h => h, fun _ hc hnew => absurd hc hnew⟩
      · exact ⟨fun h => h, fun _ hc hnew => absurd hc hnew⟩

theorem kept_step {call : Call} (hc : s.UsesRelay call) :
    Kept s call (s.step scale call).1 ∧ ((s.step scale call).1 = s ∨ s.enabled call = true) := by
  unfold Ping.step
  split_ifs with he
  · exact ⟨kept_run hc, .inr (Bool.and_eq_true_iff.mp he).2⟩
  · exact ⟨⟨id, fun _ hc hnew => absurd hc hnew⟩, .inl rfl⟩

theorem mem_shortcuts {prep : Nat → Prepared} {id : Nat} {l : List PingConn} {c : PingConn}
    (hc : c ∈ s.shortcuts prep id l) : ∃ d ∈ l, d.relay = none ∧ d.endpoint = c.endpoint := by
  induction l generalizing id with
  | nil => cases hc
  | cons d l ih =>
    have hlater {i : Nat} (hc : c ∈ s.shortcuts prep i l) : ∃ e ∈ d :: l, e.relay = none ∧
      e.endpoint = c.endpoint := by
      obtain ⟨e, he, hrest⟩ := ih hc
      exact ⟨e, mem_cons_of_mem _ he, hrest⟩
    unfold Ping.shortcuts at hc
    split_ifs at hc with hrelay
    · exact hlater hc
    dsimp only at hc
    split at hc
    · rcases mem_cons.mp hc with rfl | hc
      · refine ⟨d, mem_cons_self, by simpa using hrelay, ?_⟩
        cases prep id <;> rfl
      · exact hlater hc
    · exact hlater hc

/-- In every run in which a relay is used up when the first round ends before the timer: a shortcut is created while no
round but the first has been started, for a direct connection that is in progress. -/
theorem shortcuts_first_round (info : PingInfo) (hs : pingStart info = some s) (es : List Call)
    (hes : (ping scale s).Meets UsesRelay s es) :
    ∀ r ∈ (ping scale s).trace s es, ∀ c ∈ r.after.pendingShortcut, c ∉ r.before.pendingShortcut →
      r.before.roundsStarted ≤ 1 ∧ ∃ d ∈ r.before.inprogress, d.relay = none ∧ d.endpoint = c.endpoint := by
  have hstart : 1 < s.roundsStarted → s.relayShortcutTimer = false := by
    unfold pingStart at hs
    split at hs
    · cases hs
    · cases hs
      exact fun hone => absurd (show 1 < 0 from hone) (by decide)
  intro r hr c hc hnew
  obtain ⟨hbefore, hcond, heq⟩ := (ping scale s).inv_records
    (I := fun s => 1 < s.roundsStarted → s.relayShortcutTimer = false) hstart
    (fun _ _ h hc => (kept_step hc).1.timer h) hes r hr
  obtain ⟨hkept, hsame | he⟩ : Kept r.before r.call (r.before.step scale r.call).1 ∧ _ := kept_step hcond
  · rw [heq, System.record, ping_step, hsame] at hc
    exact absurd hc hnew
  rw [heq] at hc
  obtain ⟨prep, hcall, hmem⟩ := hkept.created c hc hnew
  rw [hcall] at he
  refine ⟨Nat.le_of_not_lt fun hone => ?_, mem_shortcuts hmem⟩
  exact absurd ((hbefore hone).symm.trans he) Bool.false_ne_true

/-- The first of two rounds ends with an error before the timer fires; the connection falls back to the relay. -/
theorem shortcuts_first_round_two :
    ∃ s, pingStart { twoEndpoints with endpoints := twoEndpoints.endpoints.take 1, nrounds := 2 } = some s ∧
      let es := [.prepareTask fun i => .ok i, .connectTask 0, .outcome 0 (.error 111), .prepareTask fun i => .ok i,
        .connectTask 0, .shortcutTimer fun i => .ok i]
      ((ping id s).exec s es).roundsStarted = 2 ∧
      ∀ r ∈ (ping id s).trace s es, ∀ c ∈ r.after.pendingShortcut, c ∉ r.before.pendingShortcut →
        r.before.roundsStarted ≤ 1 :=
  ⟨startWith { twoEndpoints with endpoints := twoEndpoints.endpoints.take 1, nrounds := 2 } (Ping.entries _),
    by rfl, by decide, fun r hr c hc hnew => (shortcuts_first_round
      { twoEndpoints with endpoints := twoEndpoints.endpoints.take 1, nrounds := 2 } (by rfl) _
      (by simp [System.Meets, UsesRelay]; decide) r hr c hc hnew).1⟩

/-- The first of two rounds ends with a response, and the timer fires in the second. -/
theorem shortcut_second_round :
    ∃ s, pingStart { twoEndpoints with endpoints := twoEndpoints.endpoints.take 1, nrounds := 2 } = some s ∧
      ∃ r ∈ (ping id s).trace s [.prepareTask fun i => .ok i, .connectTask 0, .outcome 0 (.response 10),
          .prepareTask fun i => .ok i, .connectTask 0, .shortcutTimer fun i => .ok i],
        r.before.roundsStarted = 2 ∧ r.before.pendingShortcut = [] ∧ r.after.pendingShortcut.length = 1 :=
  ⟨startWith { twoEndpoints with endpoints := twoEndpoints.endpoints.take 1, nrounds := 2 } (Ping.entries _),
    by rfl, by decide⟩

end TrustTunnel.Ping
