import TrustTunnel.Ping.Phases

/-!
# Ping.Finish

A ping ends, and reports each entry of its report list once.

An entry may be tried over QUIC, then over TLS, then through the relays one after another with both
again, before a round counts for it. `rounds` is a potential of the state that every preparation of a
round lowers. `work` adds to it what can happen within a round, and every executed call lowers it.
-/

namespace TrustTunnel.Ping

open Lib List

variable {s t : Ping} {scale : Int → Int}

/-! ## Entries -/

structure Mark where
  id : Nat
  roundsDone : Nat
  fallsBack : Bool

variable (i : Nat) {l l' : List PingConn} (target : Nat) (c : PingConn) (error : Int)

def PingConn.mark : Mark := ⟨c.id, c.roundsDone, c.useQuic && !c.noQuicFallback⟩

open PingConn

/-- The same entries, in any order and state. -/
def Alike (l l' : List PingConn) : Prop := (l.map mark).Perm (l'.map mark)

def occ (i : Nat) (l : List PingConn) : Nat := (l.map mark).countP (·.id = i)

@[simp] theorem occ_nil : occ i [] = 0 := rfl

@[simp] theorem occ_append : occ i (l ++ l') = occ i l + occ i l' := by
  simp [occ]

theorem occ_cons : occ i (c :: l) = (if c.id = i then 1 else 0) + occ i l := by
  simp only [occ, map_cons, countP_cons, mark, decide_eq_true_eq]
  omega

theorem Alike.occ (h : Alike l l') : occ i l = occ i l' :=
  List.Perm.countP_eq _ h

theorem Alike.length (h : Alike l l') : l.length = l'.length := by
  simpa using List.Perm.length_eq h

theorem Alike.append {l l' k k' : List PingConn} (h : Alike l l') (hk : Alike k k') : Alike (l ++ k) (l' ++ k') := by
  simpa only [Alike, map_append] using List.Perm.append h hk

theorem Alike.refl (l : List PingConn) : Alike l l := List.Perm.refl _

/-- The rounds an entry can still take part in without another relay, and its fall-back, with
`target` rounds in all. -/
def Mark.left (target : Nat) (m : Mark) : Nat := 2 * (target - m.roundsDone) + m.fallsBack.toNat

def left (target : Nat) (l : List PingConn) : Nat :=
  ((l.map mark).map (Mark.left target)).sum

@[simp] theorem left_nil : left target [] = 0 := rfl

@[simp] theorem left_cons : left target (c :: l) = c.mark.left target + left target l := by
  simp [left]

@[simp] theorem left_append : left target (l ++ l') = left target l + left target l' := by
  simp [left]

theorem Alike.left (h : Alike l l') : left target l = left target l' :=
  (List.Perm.map _ h).sum_nat

open Nat

theorem left_le (l : List PingConn) : left target l ≤ l.length * (2 * target + 1) := by
  induction l with
  | nil => simp
  | cons c l ih =>
    have hbit : c.mark.fallsBack.toNat ≤ 1 := Bool.toNat_le _
    have hc : c.mark.left target ≤ 2 * target + 1 := by
      simp only [Mark.left]
      omega
    rw [left_cons, length_cons, add_mul]
    omega

def Open (target : Nat) (l : List PingConn) : Prop := ∀ c ∈ l, c.roundsDone < target

theorem open_nil : Open target [] := by
  simp [Open]

theorem Alike.open {target : Nat} (h : Alike l l') (ho : Open target l') : Open target l := by
  intro c hc
  have hm : c.mark ∈ l'.map mark := List.Perm.subset h (mem_map_of_mem hc)
  obtain ⟨c', hc', heq⟩ := mem_map.mp hm
  have hrounds : c'.roundsDone = c.roundsDone := congrArg Mark.roundsDone heq
  rw [← hrounds]
  exact ho c' hc'

theorem open_append {target : Nat} {l l' : List PingConn} :
    Open target (l ++ l') ↔ Open target l ∧ Open target l' := by
  simp only [Open, mem_append]
  constructor
  · intro h
    exact ⟨fun c hc => h c (.inl hc), fun c hc => h c (.inr hc)⟩
  · rintro ⟨h, h'⟩ c (hc | hc)
    · exact h c hc
    · exact h' c hc

def active (s : Ping) : List PingConn := s.pending ++ s.inprogress ++ s.done

/-! ## Potentials -/

/-- The weight of a relay: more than `n` entries can use up. -/
def relayWeight (n target : Nat) : Nat := n * (2 * target + 1) + 1

def rounds (n : Nat) (s : Ping) : Nat :=
  s.relays.length * relayWeight n s.roundsTarget + left s.roundsTarget s.active +
    (s.prepareTask && !s.pending.isEmpty).toNat

def inner (n : Nat) (s : Ping) : Nat :=
  3 * s.pending.length + 2 * s.inprogress.length + 3 * s.pendingShortcut.length +
    2 * s.inprogressShortcut.length + s.relayShortcutTimer.toNat * (3 * n + 1) + 2 * s.timer.toNat +
    s.prepareTask.toNat + s.reportTask.toNat * (s.report.length + 1)

def work (n : Nat) (s : Ping) : Nat := s.rounds n * (6 * n + 5) + s.inner n

/-! ## Within a round -/

structure Within (s t : Ping) : Prop where
  active : Alike t.active s.active
  shortcuts : Alike t.shortcutEntries s.shortcutEntries
  report : t.report = s.report
  relays : t.relays = s.relays
  roundsTarget : t.roundsTarget = s.roundsTarget
  roundsStarted : t.roundsStarted = s.roundsStarted
  handoff : t.handoff = s.handoff
  nextId : t.nextId = s.nextId
  first : t.prepareTask = true → t.pending = []
  busy : t.prepareTask = true ∨ t.timer = true
  inner : ∀ n, t.inner n < s.inner n

theorem connectFirst_alike (l d : List PingConn) :
    Alike ((connectFirst c error l d).1 ++ (connectFirst c error l d).2) (c :: (l ++ d)) := by
  unfold connectFirst
  split
  · simp only [Alike, map_append, map_cons, ← append_assoc]
    exact perm_append_singleton _ _
  · simp only [Alike, map_append, map_cons, append_assoc]
    exact perm_middle

theorem moved_alike (rest l d : List PingConn) :
    Alike (rest ++ ((connectFirst c error l d).1 ++ (connectFirst c error l d).2)) (c :: (rest ++ (l ++ d))) := by
  refine List.Perm.trans ((Alike.refl rest).append (connectFirst_alike c error l d)) ?_
  simp only [map_append, map_cons]
  exact perm_middle

theorem connectFirst_length (l d : List PingConn) : (connectFirst c error l d).1.length ≤ l.length + 1 := by
  unfold connectFirst
  split <;> simp

theorem Connecting.doConnect_within (hc : s.Connecting) (ht : s.connectTask = true) (error : Int) :
    Within s (s.doConnect error).1 := by
  have hne := hc.connectTask
  rw [ht] at hne
  unfold Ping.doConnect
  cases hp : s.pending with
  | nil => simp [hp] at hne
  | cons c rest =>
    refine ⟨?_, .refl _, rfl, rfl, rfl, rfl, rfl, rfl, ?_, ?_, ?_⟩
    · simp only [Ping.active, hp, append_assoc]
      exact moved_alike c error rest s.inprogress s.done
    · intro htask
      simp only [hc.prepareTask, Bool.false_or, Bool.and_eq_true, List.isEmpty_iff] at htask
      exact htask.1
    · simp only [hc.prepareTask, hc.timer]
      cases rest.isEmpty && (connectFirst c error s.inprogress s.done).1.isEmpty with
      | false => exact .inr rfl
      | true => exact .inl rfl
    · have hlen := connectFirst_length c error s.inprogress s.done
      simp only [Ping.inner, hp, hc.timer]
      cases hb : (rest.isEmpty && (connectFirst c error s.inprogress s.done).1.isEmpty) with
      | false | true => simp; omega

theorem Connecting.doConnectShortcut_within (hc : s.Connecting) (ht : s.connectShortcutTask = true)
    (error : Int) : Within s (s.doConnectShortcut error).1 := by
  have hne := hc.connectShortcutTask
  rw [ht] at hne
  unfold Ping.doConnectShortcut
  cases hp : s.pendingShortcut with
  | nil => simp [hp] at hne
  | cons c rest =>
    refine ⟨.refl _, ?_, rfl, rfl, rfl, rfl, rfl, rfl, ?_, .inr hc.timer, ?_⟩
    · simp only [Ping.shortcutEntries, hp, append_assoc]
      exact moved_alike c error rest s.inprogressShortcut s.doneShortcut
    · intro htask
      rw [hc.prepareTask] at htask
      cases htask
    · have hlen := connectFirst_length c error s.inprogressShortcut s.doneShortcut
      simp only [Ping.inner, hp, length_cons]
      omega

theorem timeOut_mark : (l.map s.timeOut).map mark = l.map mark := by
  rw [map_map]
  rfl

theorem Connecting.onTimer_within (hc : s.Connecting) : Within s s.onTimer.1 := by
  rw [Ping.onTimer, if_neg (by simp [hc.reportTask])]
  refine ⟨?_, ?_, rfl, rfl, rfl, rfl, rfl, rfl, fun _ => rfl, .inl rfl, ?_⟩
  · simp only [Alike, Ping.active, nil_append, map_append, timeOut_mark]
    exact perm_append_comm
  · simp only [Alike, shortcutEntries, nil_append, map_append, timeOut_mark]
    exact perm_append_comm
  · simp only [Ping.inner, hc.timer, length_nil, Bool.toNat_true, Bool.toNat_false]
    omega

theorem takeConn_perm {id : Nat} {l l' : List PingConn} {c : PingConn}
    (h : takeConn id l = some (c, l')) : l.Perm (c :: l') := by
  induction l generalizing l' with
  | nil => cases h
  | cons d l ih =>
    simp only [takeConn] at h
    split at h
    · cases h
      exact .refl _
    · obtain ⟨⟨c₁, l₁⟩, htake, heq⟩ := Option.map_eq_some_iff.mp h
      cases heq
      exact ((ih htake).cons d).trans (.swap _ _ _)

theorem finishConn_mark (r : Outcome) : (finishConn c r).mark = c.mark := by
  cases r <;> rfl

theorem takeConn_alike {id : Nat} {l l' d : List PingConn} {c : PingConn} (r : Outcome)
    (h : takeConn id l = some (c, l')) : Alike (l' ++ (d ++ [finishConn c r])) (l ++ d) := by
  have hperm := ((takeConn_perm h).append_right d).map mark
  refine List.Perm.trans ?_ hperm.symm
  simp only [map_append, map_cons, finishConn_mark, ← append_assoc]
  exact perm_append_singleton _ _

theorem Within.endRound (h : Within s t) (ht : t.timer = true) : Within s t.endRound := by
  unfold Ping.endRound
  split
  case isFalse => exact h
  case isTrue hall =>
    simp only [Bool.and_eq_true, List.isEmpty_iff] at hall
    refine ⟨h.active, h.shortcuts, h.report, h.relays, h.roundsTarget, h.roundsStarted, h.handoff,
      h.nextId, fun _ => hall.1.1.2, .inl rfl, fun n => ?_⟩
    have hinner := h.inner n
    simp only [Ping.inner, ht, Bool.toNat_false] at hinner ⊢
    omega

theorem Connecting.noteOutcome_eq (hc : s.Connecting) (r : Outcome) :
    ∃ won, s.noteOutcome r = { s with haveRoundWinner := won } := by
  cases r with
  | error code => exact ⟨s.haveRoundWinner, rfl⟩
  | response ms => exact ⟨true, by simp [noteOutcome, hc.timer]⟩

attribute [local simp] enabled

theorem Connecting.connProcessResult_within (hc : s.Connecting) {id : Nat} {r : Outcome}
    (he : s.enabled (.outcome id r) = true) : Within s (s.connProcessResult id r).1 := by
  have hprep : s.prepareTask = true → s.pending = [] := by simp [hc.prepareTask]
  obtain ⟨won, hnote⟩ := hc.noteOutcome_eq r
  rw [Ping.connProcessResult, hnote]
  split
  next c l htake =>
    have hlen := (takeConn_perm htake).length_eq
    refine Within.endRound ⟨?_, .refl _, rfl, rfl, rfl, rfl, rfl, rfl, hprep, .inr hc.timer, fun n => ?_⟩ hc.timer
    · have hall := (Alike.refl s.pending).append (takeConn_alike (d := s.done) r htake)
      simpa only [Ping.active, append_assoc] using hall
    · simp only [Ping.inner, hlen, length_cons]
      omega
  next =>
    split
    next c l htake =>
      have hlen := (takeConn_perm htake).length_eq
      refine Within.endRound ⟨.refl _, ?_, rfl, rfl, rfl, rfl, rfl, rfl, hprep, .inr hc.timer, fun n => ?_⟩ hc.timer
      · have hall := (Alike.refl s.pendingShortcut).append (takeConn_alike (d := s.doneShortcut) r htake)
        simpa only [shortcutEntries, append_assoc] using hall
      · simp only [Ping.inner, hlen, length_cons]
        omega
    next hnone _ hnone' =>
      simp [*] at he

/-- Everything an executed call does within a round, the shortcut timer apart. -/
theorem Inv.within (h : s.Inv) {c : Call} (he : s.enabled c = true)
    (hprep : ∀ prep, c ≠ .prepareTask prep) (hsc : ∀ prep, c ≠ .shortcutTimer prep)
    (hrep : c ≠ .reportTask) : Within s (s.run scale c).1 := by
  cases c with
  | prepareTask prep => exact absurd rfl (hprep prep)
  | shortcutTimer prep => exact absurd rfl (hsc prep)
  | reportTask => exact absurd rfl hrep
  | connectTask error =>
    have hc := Connecting.of_not_idle h.phased fun hi => by
      simp [hi.connectTask] at he
    exact hc.doConnect_within he error
  | connectShortcutTask error =>
    have hc := Connecting.of_not_idle h.phased fun hi => by
      simp [hi.connectShortcutTask] at he
    exact hc.doConnectShortcut_within he error
  | timer =>
    have hc := Connecting.of_not_idle h.phased fun hi => by
      simp [hi.timer] at he
    exact hc.onTimer_within
  | outcome id r =>
    exact (Connecting.of_not_idle h.phased (not_idle_of_outcome he)).connProcessResult_within he

/-! ## The shortcut timer -/

theorem connPrepare_mark (p : Prepared) : (connPrepare c p).1.mark = c.mark := by
  cases p <;> rfl

section

variable (s : Ping) (prep : Nat → Prepared) (id : Nat) (l : List PingConn)

theorem shortcuts_length : (s.shortcuts prep id l).length ≤ l.length := by
  induction l generalizing id with
  | nil => simp [shortcuts]
  | cons c l ih =>
    simp only [shortcuts]
    split
    · exact le_trans (ih id) (by simp)
    have hrest := ih (id + 1)
    split
    all_goals simp only [length_cons]; omega

theorem shortcuts_occ (i : Nat) : occ i (s.shortcuts prep id l) ≤ if id ≤ i ∧
    i < id + l.length then 1 else 0 := by
  induction l generalizing id with
  | nil => simp [shortcuts]
  | cons c l ih =>
    simp only [shortcuts]
    have hid := ih id
    have hnext := ih (id + 1)
    split
    · refine le_trans hid ?_
      simp only [length_cons]
      split <;> split <;> omega
    have hmark : ∀ p, (connPrepare (s.shortcutFor id c) p).1.id = id := by
      intro p
      cases p <;> rfl
    split
    · rw [occ_cons, hmark]
      simp only [length_cons]
      split <;> split at hnext <;> split <;> omega
    · refine le_trans hnext ?_
      simp only [length_cons]
      split <;> split <;> omega

theorem shortcuts_roundsDone : ∀ c ∈ s.shortcuts prep id l, c.roundsDone = 0 := by
  induction l generalizing id with
  | nil => simp [shortcuts]
  | cons d l ih =>
    intro c hc
    simp only [shortcuts] at hc
    split at hc
    · exact ih id c hc
    split at hc
    · rcases mem_cons.mp hc with rfl | hc
      · cases prep id <;> rfl
      · exact ih (id + 1) c hc
    · exact ih (id + 1) c hc

end

/-! ## The end of a round -/

theorem replaceDirect_spec {sc : PingConn} {l l' : List PingConn} (h : replaceDirect sc l = some l') :
    l'.length = l.length ∧ (∀ i, occ i l' ≤ occ i l + occ i [sc]) ∧ ∀ c ∈ l', c = sc ∨ c ∈ l := by
  induction l generalizing l' with
  | nil => cases h
  | cons c l ih =>
    simp only [replaceDirect] at h
    split at h
    · split at h
      · cases h
      cases h
      refine ⟨rfl, fun i => ?_, fun c hc => ?_⟩
      · simp only [occ_cons]
        omega
      · rcases mem_cons.mp hc with rfl | hc
        · exact .inl rfl
        · exact .inr (mem_cons_of_mem _ hc)
    · obtain ⟨l₁, hl₁, rfl⟩ := Option.map_eq_some_iff.mp h
      obtain ⟨hlen, hocc, hmem⟩ := ih hl₁
      refine ⟨by simp [hlen], fun i => ?_, fun d hd => ?_⟩
      · have := hocc i
        simp only [occ_cons i c] at this ⊢
        omega
      · rcases mem_cons.mp hd with rfl | hd
        · exact .inr mem_cons_self
        · rcases hmem d hd with rfl | hd
          · exact .inl rfl
          · exact .inr (mem_cons_of_mem _ hd)

theorem takeShortcut_cases (r : List PingConn × List Bytes) (sc : PingConn) : takeShortcut r sc = r ∨
      ∃ l, replaceDirect sc r.1 = some l ∧ takeShortcut r sc = (l, r.2 ++ [sc.endpoint.name]) := by
  unfold takeShortcut
  split
  · exact .inl rfl
  · split
    next => exact .inl rfl
    next l hl => exact .inr ⟨l, hl, rfl⟩

structure TakenOver (d scs : List PingConn) (sn : List Bytes) (r : List PingConn × List Bytes) :
    Prop where
  length : r.1.length = d.length
  occ : ∀ i, occ i r.1 ≤ Ping.occ i d + Ping.occ i scs
  mem : ∀ c ∈ r.1, c ∈ d ∨ c ∈ scs
  unused : r.2 = [] → sn = [] ∧ r.1 = d
  used : r.2 ≠ [] → sn ≠ [] ∨ scs ≠ [] ∧ d ≠ []

theorem takenOver (scs d : List PingConn) (sn : List Bytes) : TakenOver d scs sn (scs.foldl takeShortcut (d, sn)) := by
  induction scs generalizing d sn with
  | nil =>
    exact ⟨rfl, fun i => by simp, fun c hc => .inl hc, fun h => ⟨h, rfl⟩, fun h => .inl h⟩
  | cons sc scs ih =>
    rw [foldl_cons]
    rcases takeShortcut_cases (d, sn) sc with heq | ⟨l, hl, heq⟩
    · rw [heq]
      have h := ih d sn
      refine ⟨h.length, fun i => ?_, fun c hc => ?_, h.unused, fun hne => ?_⟩
      · have := h.occ i
        rw [occ_cons]
        omega
      · rcases h.mem c hc with hc | hc
        · exact .inl hc
        · exact .inr (mem_cons_of_mem _ hc)
      · rcases h.used hne with hsn | ⟨-, hd⟩
        · exact .inl hsn
        · exact .inr ⟨by simp, hd⟩
    · rw [heq]
      obtain ⟨hlen, hocc, hmem⟩ := replaceDirect_spec hl
      have h := ih l (sn ++ [sc.endpoint.name])
      refine ⟨h.length.trans hlen, fun i => ?_, fun c hc => ?_, fun hnil => ?_, fun _ => ?_⟩
      · have h₁ := h.occ i
        have h₂ := hocc i
        simp only [occ_cons, occ_nil] at h₂ ⊢
        omega
      · rcases h.mem c hc with hc | hc
        · rcases hmem c hc with rfl | hc
          · exact .inr mem_cons_self
          · exact .inl hc
        · exact .inr (mem_cons_of_mem _ hc)
      · have := (h.unused hnil).1
        simp at this
      · refine .inr ⟨by simp, ?_⟩
        rintro rfl
        cases hl

theorem settleConn_cases (s : Ping) (direct : Bool) (snis : List Bytes) (c : PingConn) :
    (s.settleConn direct snis c).1.id = c.id ∧ ((s.settleConn direct snis c).2.1 = .retry ∧
          (s.settleConn direct snis c).1.roundsDone = c.roundsDone ∧
          ((s.settleConn direct snis c).2.2 = snis ∧ c.mark.fallsBack = true ∧
              (s.settleConn direct snis c).1.mark.fallsBack = false ∨
            (s.settleConn direct snis c).2.2 ≠ [] ∧ s.relays ≠ []) ∨ (s.settleConn direct snis c).2.2 = snis ∧
          (s.settleConn direct snis c).1.roundsDone = c.roundsDone + 1 ∧
          (s.settleConn direct snis c).1.mark.fallsBack = c.mark.fallsBack ∧ (s.settleConn direct snis c).2.1 =
            if c.roundsDone + 1 = s.roundsTarget then .report else .keep) := by
  unfold settleConn
  dsimp only
  split
  · split
    next hq =>
      simp only [Bool.and_eq_true] at hq
      exact ⟨rfl, .inl ⟨rfl, rfl, .inl ⟨rfl, by simp [mark, hq], rfl⟩⟩⟩
    next =>
      split
      next hrel =>
        simp only [Bool.and_eq_true, Bool.not_eq_true', isEmpty_eq_false_iff] at hrel
        exact ⟨rfl, .inl ⟨rfl, rfl, .inr ⟨by simp, hrel.1.2⟩⟩⟩
      next => exact ⟨rfl, .inr ⟨rfl, rfl, rfl, rfl⟩⟩
  · exact ⟨rfl, .inr ⟨rfl, rfl, rfl, rfl⟩⟩

structure Sorted (s : Ping) (l : List PingConn) (snis : List Bytes) (r : Settled) : Prop where
  occ : ∀ i, occ i r.kept + Ping.occ i r.reported = Ping.occ i l
  length : r.kept.length + r.reported.length = l.length
  kept : Open s.roundsTarget l → Open s.roundsTarget r.kept
  lower : Open s.roundsTarget l → r.snis = [] → left s.roundsTarget r.kept + l.length ≤ left s.roundsTarget l
  unused : r.snis = [] → snis = []
  used : r.snis ≠ [] → snis ≠ [] ∨ s.relays ≠ []

theorem Sorted.keep {l : List PingConn} {snis snis' : List Bytes} {r : Settled} {c c' : PingConn}
    (h : Sorted s l snis' r) (hid : c'.id = c.id)
    (hopen : c.roundsDone < s.roundsTarget → c'.roundsDone < s.roundsTarget)
    (hlow : snis' = [] → c.roundsDone < s.roundsTarget →
      c'.mark.left s.roundsTarget + 1 ≤ c.mark.left s.roundsTarget)
    (hun : snis' = [] → snis = []) (hus : snis' ≠ [] → snis ≠ [] ∨ s.relays ≠ []) :
    Sorted s (c :: l) snis { r with kept := c' :: r.kept } := by
  refine ⟨fun i => ?_, ?_, fun ho => ?_, fun ho hnil => ?_, fun hnil => hun (h.unused hnil), fun hne => ?_⟩
  · have := h.occ i
    simp only [occ_cons, hid]
    omega
  · have := h.length
    simp only [length_cons]
    omega
  · intro d hd
    rcases mem_cons.mp hd with rfl | hd
    · exact hopen (ho c mem_cons_self)
    · exact h.kept (fun e he => ho e (mem_cons_of_mem _ he)) d hd
  · have hrest := h.lower (fun e he => ho e (mem_cons_of_mem _ he)) hnil
    have hc := hlow (h.unused hnil) (ho c mem_cons_self)
    simp only [left_cons, length_cons]
    omega
  · rcases h.used hne with hsn | hr
    · exact hus hsn
    · exact .inr hr

theorem settle_sorted (s : Ping) (direct : Bool) (snis : List Bytes) (l : List PingConn) :
    Sorted s l snis (s.settle direct snis l) := by
  induction l generalizing snis with
  | nil =>
    exact ⟨fun i => by simp [settle], rfl, fun ho => ho, fun _ _ => by simp [settle], fun h => h, fun h => .inl h⟩
  | cons c l ih =>
    have hrest := ih (s.settleConn direct snis c).2.2
    obtain ⟨hid, hcase⟩ := settleConn_cases s direct snis c
    simp only [settle]
    rcases hcase with ⟨hverdict, hrounds, hkind⟩ | ⟨hsnis, hrounds, hfalls, hverdict⟩
    · -- another attempt: the fall-back to TLS is used up, or a relay is
      rw [hverdict]
      refine hrest.keep hid (fun ho => by rw [hrounds]; exact ho) ?_ ?_ ?_
      · intro hnil _
        rcases hkind with ⟨-, hbefore, hafter⟩ | ⟨hne, -⟩
        · have hsame : (s.settleConn direct snis c).1.mark.roundsDone = c.mark.roundsDone := hrounds
          simp only [Mark.left, hbefore, hafter, Bool.toNat_true, Bool.toNat_false]
          omega
        · exact absurd hnil hne
      · intro hnil
        rcases hkind with ⟨heq, -⟩ | ⟨hne, -⟩
        · rw [← heq]; exact hnil
        · exact absurd hnil hne
      · intro hne
        rcases hkind with ⟨heq, -⟩ | ⟨-, hrel⟩
        · left; rw [← heq]; exact hne
        · exact .inr hrel
    · -- the round counts
      have hmark : ∀ target, c.roundsDone < target →
          (s.settleConn direct snis c).1.mark.left target + 2 = c.mark.left target := by
        have hr : (s.settleConn direct snis c).1.mark.roundsDone = c.roundsDone + 1 := hrounds
        have hr' : c.mark.roundsDone = c.roundsDone := rfl
        simp only [Mark.left, hfalls]
        omega
      rw [hverdict, hsnis]
      rw [hsnis] at hrest
      split
      next hrep =>
        split at hrep
        case isFalse => cases hrep
        refine ⟨fun i => ?_, ?_, fun ho => ?_, fun ho hnil => ?_, hrest.unused, hrest.used⟩
        · have := hrest.occ i
          simp only [occ_cons, hid]
          omega
        · have := hrest.length
          simp only [length_cons]
          omega
        · exact hrest.kept fun e he => ho e (mem_cons_of_mem _ he)
        · have hl := hrest.lower (fun e he => ho e (mem_cons_of_mem _ he)) hnil
          have hc := hmark s.roundsTarget (ho c mem_cons_self)
          simp only [left_cons, length_cons]
          omega
      next hkeep =>
        split at hkeep
        case isTrue => exact absurd rfl hkeep
        case isFalse hne =>
          refine hrest.keep hid (fun ho => by omega) (fun _ ho => ?_) (fun h => h) (fun h => .inl h)
          have := hmark s.roundsTarget ho
          omega

theorem settled_cases (s : Ping) : ∃ (d : List PingConn) (sn : List Bytes) (r : Settled),
    TakenOver s.done s.doneShortcut [] (d, sn) ∧ Sorted s d sn r ∧ s.settled.report = s.report ++ r.reported ∧
      (s.settled.pending = [] ∨ s.settled.pending = s.pending ++ r.kept) ∧
      s.settled.relays = if r.snis.isEmpty then s.relays else s.relays.dropLast := by
  refine ⟨_, _, _, takenOver _ _ _, settle_sorted s _ _ _, rfl, ?_, rfl⟩
  simp only [settled]
  split
  · exact .inl rfl
  · exact .inr rfl

structure RoundOver (n : Nat) (s u : Ping) : Prop where
  occ : ∀ i, occ i u.report + Ping.occ i u.pending ≤
    Ping.occ i s.report + Ping.occ i s.active + Ping.occ i s.shortcutEntries
  length : u.pending.length + u.report.length ≤ s.active.length + s.report.length
  opened : Open s.roundsTarget u.pending
  report : ∃ l, u.report = s.report ++ l
  rounds : u.relays.length * relayWeight n s.roundsTarget + left s.roundsTarget u.pending < s.rounds n

theorem settled_roundOver (hi : s.Inv) (hp : s.Preparing) {n : Nat}
    (hcount : s.active.length + s.report.length ≤ n) (hopen : Open s.roundsTarget s.active)
    (hshort : Open s.roundsTarget s.shortcutEntries) : RoundOver n s s.settled := by
  obtain ⟨d, sn, r, htaken, hsorted, hreport, hpending, hrelays⟩ := settled_cases s
  have hactive : s.active = s.pending ++ s.done := by
    rw [active, hp.inprogress, append_nil]
  have hshortcuts : s.shortcutEntries = s.doneShortcut := by
    rw [shortcutEntries, hp.pendingShortcut, hp.inprogressShortcut]
    rfl
  rw [hactive, open_append] at hopen
  rw [hshortcuts] at hshort
  have hd : Open s.roundsTarget d := by
    intro c hc
    rcases htaken.mem c hc with hc | hc
    · exact hopen.2 c hc
    · exact hshort c hc
  have hkept := hsorted.kept hd
  have hlen := hsorted.length
  have hdlen : d.length = s.done.length := htaken.length
  have hmost : s.settled.pending.length ≤ s.pending.length + r.kept.length ∧
      left s.roundsTarget s.settled.pending ≤ left s.roundsTarget s.pending + left s.roundsTarget r.kept ∧
      ∀ i, Ping.occ i s.settled.pending ≤ Ping.occ i s.pending + Ping.occ i r.kept := by
    rcases hpending with hnil | heq
    · simp [hnil]
    · simp [heq]
  obtain ⟨hplen, hpleft, hpocc⟩ := hmost
  have htotal : s.settled.pending.length + s.settled.report.length ≤ s.active.length + s.report.length := by
    rw [hreport, hactive, length_append, length_append]
    omega
  refine ⟨fun i => ?_, htotal, ?_, ⟨_, hreport⟩, ?_⟩
  · have h₁ := hsorted.occ i
    have h₂ := htaken.occ i
    have h₃ := hpocc i
    rw [hreport, hactive, hshortcuts, occ_append, occ_append]
    dsimp only at h₂
    omega
  · rcases hpending with hnil | heq
    · rw [hnil]
      exact open_nil _
    · rw [heq, open_append]
      exact ⟨hopen.1, hkept⟩
  · simp only [Ping.rounds, hactive, left_append, hrelays]
    by_cases hsn : r.snis = []
    · -- no relay is used up: each entry has lost a fall-back or a round, or this is the first round
      have hdone : d = s.done := (htaken.unused (hsorted.unused hsn)).2
      have hlower := hsorted.lower hd hsn
      rw [hdone] at hlower
      rw [hsn, if_pos isEmpty_nil]
      rcases hp.entries with ⟨hne, -, -⟩ | ⟨-, hne⟩
      · have hfirst : (s.prepareTask && !s.pending.isEmpty).toNat = 1 := by
          simp [hp.prepareTask, hne]
        omega
      · have hpos := length_pos_iff.mpr hne
        omega
    · -- a relay is used up: it outweighs whatever the entries regain
      have hrel : s.relays ≠ [] := by
        rcases hsorted.used hsn with hne | hrel
        · rcases htaken.used hne with hnil | ⟨hne, -⟩
          · exact absurd rfl hnil
          · exact hi.relayed (.inr (by rw [hshortcuts]; exact hne))
        · exact hrel
      have hpos := length_pos_iff.mpr hrel
      obtain ⟨k, hk⟩ : ∃ k, s.relays.length = k + 1 := ⟨s.relays.length - 1, by omega⟩
      have hleft : left s.roundsTarget s.settled.pending < relayWeight n s.roundsTarget := by
        have hle := left_le s.roundsTarget s.settled.pending
        have hmul := mul_le_mul_right (2 * s.roundsTarget + 1) (show s.settled.pending.length ≤ n by omega)
        simp only [relayWeight]
        omega
      have hdrop : s.relays.dropLast.length = k := by
        rw [length_dropLast]
        omega
      rw [if_neg (by simpa using hsn), hdrop, hk, add_mul]
      omega

theorem prepareAll_alike (prep : Nat → Prepared) (l : List PingConn) :
    Alike ((prepareAll prep l).1 ++ (prepareAll prep l).2) l := by
  induction l with
  | nil => exact .refl _
  | cons c l ih =>
    simp only [prepareAll]
    split
    · simp only [Alike, cons_append, map_cons, connPrepare_mark]
      exact List.Perm.cons _ ih
    · simp only [Alike, map_append, map_cons, connPrepare_mark] at ih ⊢
      exact perm_middle.trans (ih.cons _)

/-! ## Bookkeeping -/

/-- How often the id occurs, with the entries reported already. -/
def uses (reported : List PingConn) (s : Ping) (i : Nat) : Nat :=
  occ i reported + occ i s.report + occ i s.active + occ i s.shortcutEntries

/-- The entries of a ping that began with `n` of them and has reported those of `reported`. -/
structure Book (n rounds : Nat) (handoff : Bool) (reported : List PingConn) (s : Ping) : Prop where
  pos : 0 < rounds
  target : s.roundsTarget = rounds
  handoff : s.handoff = handoff
  count : s.active.length + s.report.length ≤ n
  active : Open rounds s.active
  shortcuts : Open rounds s.shortcutEntries
  unique : ∀ i, uses reported s i ≤ 1
  fresh : ∀ i, s.nextId ≤ i → uses reported s i = 0

variable {n target : Nat} {handoff : Bool} {reported : List PingConn}

theorem Book.within (h : Book n target handoff reported s) (hw : Within s t) : Book n target handoff reported t := by
  have huses : ∀ i, uses reported t i = uses reported s i := by
    intro i
    rw [uses, uses, hw.report, hw.active.occ, hw.shortcuts.occ]
  refine ⟨h.pos, hw.roundsTarget.trans h.target, hw.handoff.trans h.handoff, ?_,
    hw.active.open h.active, hw.shortcuts.open h.shortcuts, fun i => ?_, fun i hi => ?_⟩
  · rw [hw.active.length, hw.report]
    exact h.count
  · rw [huses]
    exact h.unique i
  · rw [huses]
    exact h.fresh i (by rw [← hw.nextId]; exact hi)

theorem Book.onShortcutTimer (h : Book n target handoff reported s) (prep : Nat → Prepared) :
    Book n target handoff reported (s.onShortcutTimer prep).1 := by
  unfold Ping.onShortcutTimer
  split
  · exact ⟨h.pos, h.target, h.handoff, h.count, h.active, h.shortcuts, h.unique, h.fresh⟩
  have hnew := shortcuts_occ s prep s.nextId s.inprogress
  refine ⟨h.pos, h.target, h.handoff, h.count, h.active, ?_, fun i => ?_, fun i hi => ?_⟩
  · have hold := h.shortcuts
    simp only [shortcutEntries, open_append] at hold ⊢
    refine ⟨⟨⟨hold.1.1, fun c hc => ?_⟩, hold.1.2⟩, hold.2⟩
    rw [shortcuts_roundsDone s prep _ _ c hc]
    exact h.pos
  · -- an id is old or new
    have hnew := hnew i
    have hold := h.unique i
    have hfresh := h.fresh i
    simp only [uses, shortcutEntries, occ_append, Ping.active] at hold hfresh ⊢
    split at hnew <;> omega
  · have hnew := hnew i
    dsimp only at hi
    have hfresh := h.fresh i (by omega)
    simp only [uses, shortcutEntries, occ_append, Ping.active] at hfresh ⊢
    split at hnew <;> omega

theorem Book.roundOver {u : Ping} (h : Book n target handoff reported s) (hover : RoundOver n s u)
    (htarget : t.roundsTarget = s.roundsTarget) (hhandoff : t.handoff = s.handoff)
    (hnext : t.nextId = s.nextId) (hreport : t.report = u.report)
    (hactive : Alike t.active u.pending) (hnone : t.shortcutEntries = []) : Book n target handoff reported t := by
  have huses : ∀ i, uses reported t i ≤ uses reported s i := by
    intro i
    have hocc := hover.occ i
    simp only [uses, hreport, hactive.occ, hnone, occ_nil]
    omega
  have hcount := h.count
  have hlen := hover.length
  have hopen := hover.opened
  rw [h.target] at hopen
  refine ⟨h.pos, htarget.trans h.target, hhandoff.trans h.handoff, ?_, hactive.open hopen, ?_,
    fun i => ?_, fun i hi => ?_⟩
  · rw [hactive.length, hreport]
    omega
  · rw [hnone]
    exact open_nil _
  · exact le_trans (huses i) (h.unique i)
  · have hzero := h.fresh i (by rw [← hnext]; exact hi)
    have := huses i
    omega

structure Prepares (n : Nat) (s t : Ping) : Prop where
  report : ∃ l, t.report = s.report ++ l
  busy : t.prepareTask = true ∨ t.timer = true ∨ t.reportTask = true
  started : t.roundsStarted ≤ s.roundsStarted + 1
  rounds : t.rounds n < s.rounds n
  inner : t.inner n ≤ 6 * n + 4

theorem settled_shortcutEntries (hi : s.Idle) : s.settled.shortcutEntries = [] := by
  simp [shortcutEntries, settled, hi.pendingShortcut, hi.inprogressShortcut]

attribute [local simp] Ping.startReport

theorem Book.startReport (h : Book n target handoff reported s) (hi : s.Idle)
    (hover : RoundOver n s s.settled) (hnil : s.settled.pending = []) :
    Book n target handoff reported s.settled.startReport ∧ Prepares n s s.settled.startReport := by
  have hactive : s.settled.startReport.active = [] := by
    simp [Ping.active, settled, hi.inprogress]
  have hbook : Book n target handoff reported s.settled.startReport :=
    h.roundOver hover rfl rfl rfl rfl (by rw [hactive, hnil]; exact .refl _) (settled_shortcutEntries (s := s) hi)
  refine ⟨hbook, hover.report, .inr (.inr rfl), le_succ _, ?_, ?_⟩
  · have hlow := hover.rounds
    have hrounds : s.settled.startReport.rounds n = s.settled.relays.length * relayWeight n s.roundsTarget := by
      rw [Ping.rounds, hactive]
      simp [settled]
    omega
  · have hcount := hbook.count
    have hinner : s.settled.startReport.inner n = s.settled.startReport.report.length + 1 := by
      simp [Ping.inner, settled, hi.inprogress, hi.pendingShortcut, hi.inprogressShortcut]
    omega

theorem Book.startRound (h : Book n target handoff reported s) (hp : s.Preparing)
    (hover : RoundOver n s s.settled) (prep : Nat → Prepared) :
    Book n target handoff reported (s.settled.startRound s.settled.pending prep) ∧
      Prepares n s (s.settled.startRound s.settled.pending prep) := by
  have halike := prepareAll_alike prep s.settled.pending
  have hactive : (s.settled.startRound s.settled.pending prep).active =
      (prepareAll prep s.settled.pending).1 ++ (prepareAll prep s.settled.pending).2 := by
    have hin : s.settled.inprogress = [] := hp.inprogress
    simp [Ping.active, Ping.startRound, hin]
  have hbook : Book n target handoff reported (s.settled.startRound s.settled.pending prep) :=
    h.roundOver hover rfl rfl rfl rfl (by rw [hactive]; exact halike) (settled_shortcutEntries (s := s) hp.toIdle)
  refine ⟨hbook, hover.report, ?_, le_refl _, ?_, ?_⟩
  · simp only [Ping.startRound]
    cases (prepareAll prep s.settled.pending).1.isEmpty with
    | false => exact .inr (.inl rfl)
    | true => exact .inl rfl
  · have hlow := hover.rounds
    have hrounds : (s.settled.startRound s.settled.pending prep).rounds n =
        s.settled.relays.length * relayWeight n s.roundsTarget + left s.roundsTarget s.settled.pending := by
      rw [Ping.rounds, hactive, halike.left]
      simp [Ping.startRound, settled]
    omega
  · have hcount := hbook.count
    rw [hactive, length_append] at hcount
    have hinner : (s.settled.startRound s.settled.pending prep).inner n ≤
        3 * (prepareAll prep s.settled.pending).1.length + (3 * n + 1) + 3 := by
      have ht : s.settled.reportTask = false := hp.reportTask
      have hin : s.settled.inprogress = [] := hp.inprogress
      have hps : s.settled.pendingShortcut = [] := hp.pendingShortcut
      have his : s.settled.inprogressShortcut = [] := hp.inprogressShortcut
      simp only [Ping.inner, Ping.startRound, ht, hin, hps, his]
      cases s.settled.relayShortcutTimer <;>
        cases (prepareAll prep s.settled.pending).1.isEmpty <;> simp <;> omega
    omega

theorem Book.doPrepare (h : Book n target handoff reported s) (hi : s.Inv) (hp : s.Preparing)
    (prep : Nat → Prepared) :
    Book n target handoff reported (s.doPrepare prep).1 ∧ Prepares n s (s.doPrepare prep).1 := by
  have hover := settled_roundOver hi hp h.count (by rw [h.target]; exact h.active) (by rw [h.target]; exact h.shortcuts)
  rw [hp.doPrepare_eq]
  split
  case isTrue hnil => exact h.startReport hp.toIdle hover (List.isEmpty_iff.mp hnil)
  case isFalse => exact h.startRound hp hover prep

/-! ## Steps -/

def ended (s : Ping) : Bool := !s.prepareTask && !s.timer && !s.reportTask

structure Lowers (n : Nat) (s t : Ping) : Prop where
  rounds : t.roundsStarted + t.rounds n ≤ s.roundsStarted + s.rounds n
  work : t.work n < s.work n

theorem Within.lowers (h : Within s t) (n : Nat) : Lowers n s t := by
  have hrounds : t.rounds n ≤ s.rounds n := by
    have hfirst : (t.prepareTask && !t.pending.isEmpty) = false := by
      cases ht : t.prepareTask with
      | false => rfl
      | true => simp [h.first ht]
    rw [Ping.rounds, Ping.rounds, hfirst, h.relays, h.roundsTarget, h.active.left, Bool.toNat_false]
    omega
  refine ⟨by rw [h.roundsStarted]; omega, ?_⟩
  have hmul := mul_le_mul_right (6 * n + 5) hrounds
  have hinner := h.inner n
  simp only [work]
  omega

theorem Prepares.lowers (h : Prepares n s t) : Lowers n s t := by
  have hrounds := h.rounds
  have hstarted := h.started
  refine ⟨by omega, ?_⟩
  have hmul := mul_le_mul_right (6 * n + 5) (succ_le_of_lt hrounds)
  rw [succ_mul] at hmul
  have hinner := h.inner
  simp only [work]
  omega

theorem Inv.onShortcutTimer_lowers (hi : s.Inv) (hb : Book n target handoff reported s)
    (ht : s.relayShortcutTimer = true) (prep : Nat → Prepared) : Lowers n s (s.onShortcutTimer prep).1 := by
  have hnext := hi.onShortcutTimer ht prep
  unfold Ping.onShortcutTimer at hnext ⊢
  split
  case isTrue hfail =>
    rw [if_pos hfail] at hnext
    exact absurd hnext.running (by simp [abort])
  case isFalse =>
    have hlen := shortcuts_length s prep s.nextId s.inprogress
    have hcount := hb.count
    simp only [Ping.active, length_append] at hcount
    refine ⟨le_refl _, ?_⟩
    simp only [work, inner, Ping.rounds, Ping.active, ht, length_append, Bool.toNat_true, Bool.toNat_false]
    omega

theorem Reporting.doReport_lowers (hr : s.Reporting) (ht : s.reportTask = true) : Lowers n s (s.doReport scale).1 := by
  cases hreport : s.report with
  | nil =>
    rw [hr.doReport_nil hreport]
    refine ⟨le_refl _, ?_⟩
    simp only [work, inner, Ping.rounds, Ping.active, ht, Bool.toNat_true, Bool.toNat_false]
    omega
  | cons c rest =>
    rw [hr.doReport_cons hreport]
    refine ⟨le_refl _, ?_⟩
    simp only [work, inner, Ping.rounds, Ping.active, ht, hreport, length_cons, Bool.toNat_true]
    omega

theorem Book.report {c : PingConn} {rest : List PingConn} (h : Book n target handoff reported s)
    (hcons : s.report = c :: rest) : Book n target handoff (reported ++ [c]) { s with report := rest } := by
  have huses : ∀ i, uses (reported ++ [c]) { s with report := rest } i = uses reported s i := by
    simp only [uses, hcons, occ_append, occ_cons, occ_nil, Ping.active, shortcutEntries]
    omega
  have hcount := h.count
  rw [hcons, length_cons] at hcount
  refine ⟨h.pos, h.target, h.handoff, ?_, h.active, h.shortcuts, fun i => ?_, fun i hi => ?_⟩
  · simp only [Ping.active] at hcount ⊢
    omega
  · rw [huses]
    exact h.unique i
  · rw [huses]
    exact h.fresh i hi

attribute [local simp] ended

theorem Phased.not_over (h : s.Phased) (ht : s.relayShortcutTimer = true) : s.ended = false := by
  rcases h with hp | hc | hr
  · simp [hp.prepareTask]
  · simp [hc.timer]
  · rw [hr.relayShortcutTimer] at ht
    cases ht

theorem onShortcutTimer_same (prep : Nat → Prepared) :
    (s.onShortcutTimer prep).1.ended = s.ended ∧ (s.onShortcutTimer prep).1.report = s.report := by
  unfold Ping.onShortcutTimer
  split <;> exact ⟨rfl, rfl⟩

/-- An executed call, the report apart: it raises nothing, it only adds to the report list, and
something remains scheduled. -/
theorem Book.executed (h : Book n target handoff reported s) (hi : s.Inv) {c : Call}
    (he : s.enabled c = true) (hcalm : s.Calm c) (hrep : c ≠ .reportTask) :
    Book n target handoff reported (s.run scale c).1 ∧ Lowers n s (s.run scale c).1 ∧
      (s.run scale c).2 = [] ∧ (s.run scale c).1.ended = false ∧
      ∃ l, (s.run scale c).1.report = s.report ++ l := by
  have hquiet : (s.run scale c).2 = [] := (hi.run he hcalm).run_eq_nil hrep
  by_cases hprep : ∃ prep, c = .prepareTask prep
  · obtain ⟨prep, rfl⟩ := hprep
    obtain ⟨hbook, hprepares⟩ := h.doPrepare hi (.of_enabled hi.phased he) prep
    refine ⟨hbook, hprepares.lowers, hquiet, ?_, hprepares.report⟩
    rcases hprepares.busy with hb | hb | hb <;> simp [run, hb]
  by_cases hsc : ∃ prep, c = .shortcutTimer prep
  · obtain ⟨prep, rfl⟩ := hsc
    obtain ⟨hover, hreport⟩ := s.onShortcutTimer_same prep
    exact ⟨h.onShortcutTimer prep, hi.onShortcutTimer_lowers h he prep, hquiet,
      hover.trans (hi.phased.not_over he), [], by rw [append_nil]; exact hreport⟩
  · have hw : Within s (s.run scale c).1 :=
      hi.within he (fun prep heq => hprep ⟨prep, heq⟩) (fun prep heq => hsc ⟨prep, heq⟩) hrep
    refine ⟨h.within hw, hw.lowers n, hquiet, ?_, [], by rw [hw.report, append_nil]⟩
    rcases hw.busy with hb | hb <;> simp [hb]

/-! ## Runs -/

def entryResult (scale : Int → Int) (s : Ping) (c : PingConn) : PingOut :=
  .result c.id (s.resultOf scale c)

theorem entryResult_eq {s s₀ : Ping} (h : s.handoff = s₀.handoff) (c : PingConn) :
    entryResult scale s c = entryResult scale s₀ c := by
  simp [entryResult, resultOf, h]

open System

/-- The results raised so far, against the entries that were ever on the report list. -/
structure Ledger (scale : Int → Int) (s₀ : Ping) (reported : List PingConn)
    (h : List (Record Ping Call PingOut)) (s : Ping) : Prop where
  outs : outputs h = reported.map (entryResult scale s₀) ++ if s.ended then [.finished] else []
  listed : ∀ c ∈ reported ++ s.report, ∃ r ∈ h, c ∈ r.after.report
  kept : ∀ r ∈ h, ∀ c ∈ r.after.report, c ∈ reported ++ s.report

variable {s₀ : Ping} {h : List (Record Ping Call PingOut)} {r : Record Ping Call PingOut}

/-- A call that lists nothing but what is on the report list after it, and takes nothing out. -/
theorem Ledger.snoc {reported' : List PingConn} (hl : Ledger scale s₀ reported h s) (hafter : r.after = t)
    (houts : outputs (h ++ [r]) = reported'.map (entryResult scale s₀) ++ if t.ended then [.finished] else [])
    (hnew : ∀ c ∈ reported' ++ t.report, c ∈ reported ++ s.report ∨ c ∈ t.report)
    (hold : ∀ c ∈ reported ++ s.report, c ∈ reported' ++ t.report) : Ledger scale s₀ reported'
    (h ++ [r]) t := by
  refine ⟨houts, fun c hc => ?_, fun r' hr' c hc => ?_⟩
  · rcases hnew c hc with hc | hc
    · obtain ⟨r', hr', hc'⟩ := hl.listed c hc
      exact ⟨r', mem_append_left _ hr', hc'⟩
    · exact ⟨r, by simp, by rw [hafter]; exact hc⟩
  · rcases mem_append.mp hr' with hr' | hr'
    · exact hold c (hl.kept r' hr' c hc)
    · rw [mem_singleton.mp hr', hafter] at hc
      exact mem_append_right _ hc

theorem Ledger.quiet (hl : Ledger scale s₀ reported h s) (hafter : r.after = t) (houts : r.outs = [])
    (hover : t.ended = s.ended) (hreport : ∃ l, t.report = s.report ++ l) :
    Ledger scale s₀ reported (h ++ [r]) t := by
  obtain ⟨l, hadd⟩ := hreport
  refine hl.snoc hafter ?_ (fun c hc => ?_) fun c hc => ?_
  · rw [outputs_append, hl.outs, hover]
    simp [outputs, houts]
  · exact (mem_append.mp hc).imp_left (mem_append_left _)
  · rw [hadd, ← append_assoc]
    exact mem_append_left _ hc

theorem Ledger.result {c : PingConn} (hl : Ledger scale s₀ reported h s) (hafter : r.after = t)
    (houts : r.outs = [entryResult scale s₀ c]) (hs : s.ended = false) (ht : t.ended = false)
    (hreport : s.report = c :: t.report) : Ledger scale s₀ (reported ++ [c]) (h ++ [r]) t := by
  have hsame : reported ++ [c] ++ t.report = reported ++ s.report := by
    rw [hreport, append_assoc]
    rfl
  refine hl.snoc hafter ?_ (fun d hd => .inl (hsame ▸ hd)) fun d hd => hsame ▸ hd
  rw [outputs_append, hl.outs, hs, ht]
  simp [outputs, houts]

theorem Ledger.finished (hl : Ledger scale s₀ reported h s) (hafter : r.after = t)
    (houts : r.outs = [.finished]) (hs : s.ended = false) (ht : t.ended = true)
    (hreport : t.report = s.report) : Ledger scale s₀ reported (h ++ [r]) t := by
  refine hl.snoc hafter ?_ (fun d hd => .inl (hreport ▸ hd)) fun d hd => hreport ▸ hd
  rw [outputs_append, hl.outs, hs, ht]
  simp [outputs, houts]

structure Accounts (scale : Int → Int) (n : Nat) (s₀ : Ping) (reported : List PingConn)
    (h : List (Record Ping Call PingOut)) (s : Ping) : Prop where
  inv : s.Inv
  book : Book n s₀.roundsTarget s₀.handoff reported s
  ledger : Ledger scale s₀ reported h s
  rounds : s.roundsStarted + s.rounds n ≤ s₀.roundsStarted + s₀.rounds n

theorem not_over_of_reportTask (ht : s.reportTask = true) : s.ended = false := by
  simp [ht]

theorem Accounts.doReport (ha : Accounts scale n s₀ reported h s) (ht : s.reportTask = true)
    (hafter : r.after = (s.doReport scale).1) (houts : r.outs = (s.doReport scale).2) :
    ∃ reported', Accounts scale n s₀ reported' (h ++ [r]) (s.doReport scale).1 := by
  have hr := Reporting.of_enabled ha.inv.phased ht
  have hinv : (s.doReport scale).1.Inv := ha.inv.doReport hr ht
  have hlow : Lowers n s (s.doReport scale).1 := hr.doReport_lowers ht
  have hbound := le_trans hlow.rounds ha.rounds
  have hs := not_over_of_reportTask ht
  have hb := ha.book
  cases hreport : s.report with
  | nil =>
    rw [hr.doReport_nil hreport] at hinv hbound hafter houts ⊢
    have hover : ({ s with reportTask := false }).ended = true := by
      simp [hr.prepareTask, hr.timer]
    exact ⟨reported, hinv, ⟨hb.pos, hb.target, hb.handoff, hb.count, hb.active, hb.shortcuts,
      hb.unique, hb.fresh⟩, ha.ledger.finished hafter houts hs hover rfl, hbound⟩
  | cons c rest =>
    rw [hr.doReport_cons hreport] at hinv hbound hafter houts ⊢
    have hresult : r.outs = [entryResult scale s₀ c] := by
      rw [houts, ← entryResult_eq hb.handoff]
      rfl
    have hover : ({ s with report := rest }).ended = false := hs
    exact ⟨reported ++ [c], hinv, hb.report hreport, ha.ledger.result hafter hresult hs hover hreport, hbound⟩

theorem Inv.reporting_of_over (hi : s.Inv) (ho : s.ended = true) : s.Reporting ∧ s.reportTask = false := by
  simp only [ended, Bool.and_eq_true, Bool.not_eq_true'] at ho
  obtain ⟨⟨hprep, htimer⟩, hrep⟩ := ho
  refine ⟨?_, hrep⟩
  rcases hi.phased with hp | hc | hr
  · rw [hp.prepareTask] at hprep; cases hprep
  · rw [hc.timer] at htimer; cases htimer
  · exact hr

theorem Inv.enabled_of_over (hi : s.Inv) (ho : s.ended = true) (c : Call) : s.enabled c = false := by
  obtain ⟨hr, hrep⟩ := hi.reporting_of_over ho
  cases c with
  | prepareTask prep => exact hr.prepareTask
  | connectTask error => exact hr.connectTask
  | connectShortcutTask error => exact hr.connectShortcutTask
  | reportTask => exact hrep
  | timer => exact hr.timer
  | shortcutTimer prep => exact hr.relayShortcutTimer
  | outcome id r => simp [hr.inprogress, hr.inprogressShortcut, takeConn]

theorem Accounts.step (ha : Accounts scale n s₀ reported h s) {c : Call} (hcalm : s.Calm c)
    (hafter : r.after = (s.step scale c).1) (houts : r.outs = (s.step scale c).2) :
    ∃ reported', Accounts scale n s₀ reported' (h ++ [r]) (s.step scale c).1 := by
  unfold Ping.step at hafter houts ⊢
  rw [ha.inv.running] at hafter houts ⊢
  cases he : s.enabled c with
  | false =>
    rw [he] at hafter houts
    exact ⟨reported, ha.inv, ha.book, ha.ledger.quiet hafter houts rfl ⟨[], (append_nil _).symm⟩, ha.rounds⟩
  | true =>
    rw [he] at hafter houts
    by_cases hrep : c = .reportTask
    · subst hrep
      exact ha.doReport he hafter houts
    obtain ⟨hbook, hlow, hquiet, hover, hreport⟩ := ha.book.executed ha.inv he hcalm hrep
    have hs : s.ended = false := by
      cases ho : s.ended with
      | false => rfl
      | true =>
        rw [ha.inv.enabled_of_over ho] at he
        cases he
    exact ⟨reported, ha.inv.run he hcalm, hbook,
      ha.ledger.quiet hafter (houts.trans hquiet) (hover.trans hs.symm) hreport, le_trans hlow.rounds ha.rounds⟩

theorem occ_mapIdx : occ i (l.mapIdx fun i c => { c with id := i }) = if i < l.length then 1 else 0 := by
  induction l using List.reverseRecOn with
  | nil => simp
  | append_singleton l c ih =>
    rw [mapIdx_concat, occ_append, ih, occ_cons, occ_nil, length_append]
    simp only [length_cons, length_nil]
    split <;> split <;> split <;> omega

theorem addEndpoint_roundsDone {mainProtocol preferred : VpnUpstreamProtocol} {e : VpnEndpoint}
    {boundIf : Nat} {relay : Option VpnRelay} :
    ∀ c ∈ addEndpoint mainProtocol preferred e boundIf relay, c.roundsDone = 0 := by
  intro c hc
  unfold addEndpoint at hc
  split at hc <;> simp at hc
  · rcases hc with rfl | rfl <;> rfl
  · rw [hc]
  · rw [hc]

theorem entries_roundsDone (info : PingInfo) : ∀ c ∈ Ping.entries info, c.roundsDone = 0 := by
  intro c hc
  simp only [Ping.entries, mem_flatMap, mem_append] at hc
  obtain ⟨e, -, boundIf, -, hc | hc⟩ := hc
  · exact addEndpoint_roundsDone c hc
  cases hrelay : info.relayParallel with
  | none => simp [hrelay] at hc
  | some relay =>
    simp only [hrelay] at hc
    exact addEndpoint_roundsDone c hc

attribute [local simp] startWith

theorem pingStart_accounts {info : PingInfo} (hs : pingStart info = some s) :
    Accounts scale s.pending.length s [] [] s := by
  have hinv := pingStart_inv hs
  unfold pingStart at hs
  split at hs
  case isTrue => cases hs
  obtain rfl := Option.some.inj hs
  have hactive : (startWith info (Ping.entries info)).active =
      (Ping.entries info).mapIdx fun i c => { c with id := i } := by
    simp [Ping.active]
  have huses : ∀ i, uses [] (startWith info (Ping.entries info)) i =
      if i < (Ping.entries info).length then 1 else 0 := by
    intro i
    rw [uses, hactive, occ_mapIdx]
    simp [shortcutEntries]
  refine ⟨hinv, ⟨?_, rfl, rfl, ?_, ?_, open_nil _, fun i => ?_, fun i hi => ?_⟩, ⟨?_, ?_, ?_⟩, le_refl _⟩
  · simp only [startWith, defaultPingRounds]
    split <;> omega
  · rw [hactive]
    simp
  · intro c hc
    rw [hactive] at hc
    obtain ⟨i, hi, rfl⟩ := mem_mapIdx.mp hc
    have hzero := entries_roundsDone info _ (getElem_mem hi)
    simp only [startWith, defaultPingRounds]
    split <;> omega
  · rw [huses]
    split <;> omega
  · rw [huses, if_neg (by simpa using hi)]
  · cases hl : (Ping.entries info) with
    | nil | cons c l => simp
  · simp
  · simp

theorem ids_nodup (hb : Book n target handoff reported s) : (reported.map (·.id)).Nodup := by
  rw [nodup_iff_count_le_one]
  intro i
  have hcount : (reported.map (·.id)).count i = occ i reported := by
    rw [occ, countP_map, List.count, countP_map]
    congr 1
  have huses := hb.unique i
  simp only [uses] at huses
  omega

theorem Accounts.pays (ha : Accounts scale n s₀ reported h s) {c : Call} (hcalm : s.Calm c) :
    (s.enabled c).toNat + (s.step scale c).1.work n ≤ s.work n := by
  unfold Ping.step
  rw [ha.inv.running]
  cases he : s.enabled c with
  | false => simp
  | true =>
    have hlow : Lowers n s (s.run scale c).1 := by
      by_cases hrep : c = .reportTask
      · subst hrep
        exact (Reporting.of_enabled ha.inv.phased he).doReport_lowers he
      · exact (ha.book.executed ha.inv he hcalm hrep).2.1
    have hwork := hlow.work
    simp only [Bool.toNat_true, Bool.not_false, Bool.and_self, if_true]
    omega

/-- In every run in which no direct connection fails at once as the last one while a shortcut is pending
or in progress: the rounds and the executed calls are bounded; while a task is scheduled or a round is
timed, the results are those of different entries from the report list, without the end marker; and when
none is, every such entry has its result, the end marker is last, and nothing can happen any more. -/
theorem reports_and_finishes (info : PingInfo) (hs : pingStart info = some s) (es : List Call)
    (hcalm : (ping scale s).Meets Calm s es) :
    ((ping scale s).exec s es).roundsStarted ≤ s.rounds s.pending.length ∧
      ((ping scale s).trace s es).countP (fun r => r.before.enabled r.call) ≤ s.work s.pending.length ∧
      ∃ reported : List PingConn, (reported.map (·.id)).Nodup ∧
        (∀ c ∈ reported, ∃ r ∈ (ping scale s).trace s es, c ∈ r.after.report) ∧
        (((ping scale s).exec s es).ended = false ∧
            outputs ((ping scale s).trace s es) = reported.map (entryResult scale s) ∨
          ((ping scale s).exec s es).ended = true ∧ outputs ((ping scale s).trace s es) =
              reported.map (entryResult scale s) ++ [.finished] ∧
            (∀ r ∈ (ping scale s).trace s es, ∀ c ∈ r.after.report, c ∈ reported) ∧
            ∀ c, ((ping scale s).exec s es).enabled c = false) := by
  have hstart : Accounts scale s.pending.length s [] [] s := pingStart_accounts hs
  have hstep : ∀ h t c, (∃ reported, Accounts scale s.pending.length s reported h t) → t.Calm c →
      ∃ reported, Accounts scale s.pending.length s reported
        (h ++ [⟨t, c, (t.step scale c).2, (t.step scale c).1⟩]) (t.step scale c).1 := by
    rintro h t c ⟨reported, ha⟩ hc
    exact ha.step hc rfl rfl
  obtain ⟨reported, ha⟩ : ∃ reported, Accounts scale s.pending.length s reported
      ((ping scale s).trace s es) ((ping scale s).exec s es) :=
    (ping scale s).inv_run ⟨[], hstart⟩ hstep es hcalm
  have hpay : ∀ t c, (∃ h reported, Accounts scale s.pending.length s reported h t) → t.Calm c →
      (t.enabled c).toNat + (t.step scale c).1.work s.pending.length ≤ t.work s.pending.length := by
    rintro t c ⟨h, reported, ha⟩ hc
    exact ha.pays hc
  have hcalls := (ping scale s).countP_le (fun t c ⟨h, hold⟩ hc => ⟨_, hstep h t c hold hc⟩) hpay
    ⟨[], [], hstart⟩ es hcalm
  have hzero : s.roundsStarted = 0 := by
    unfold pingStart at hs
    split at hs
    · cases hs
    · obtain rfl := Option.some.inj hs
      rfl
  have hrounds := ha.rounds
  have houts := ha.ledger.outs
  have hlisted : ∀ c ∈ reported, ∃ r ∈ (ping scale s).trace s es, c ∈ r.after.report :=
    fun c hc => ha.ledger.listed c (mem_append_left _ hc)
  refine ⟨?_, ?_, reported, ids_nodup ha.book, hlisted, ?_⟩
  · omega
  · omega
  cases ho : ((ping scale s).exec s es).ended with
  | false =>
    rw [ho] at houts
    exact .inl ⟨rfl, by simpa using houts⟩
  | true =>
    obtain ⟨hr, hrep⟩ := ha.inv.reporting_of_over ho
    rw [ho] at houts
    refine .inr ⟨rfl, by simpa using houts, fun r hmem c hc => ?_, ha.inv.enabled_of_over ho⟩
    have hkept := ha.ledger.kept r hmem c hc
    rwa [hr.ended hrep, append_nil] at hkept

def toTheEnd : List Call :=
  shortcutFirst [.outcome 2 (.response 30), .connectTask 113, .prepareTask fun i => .ok i,
    .connectTask 0, .timer, .prepareTask fun i => .ok i, .reportTask, .reportTask, .reportTask]

theorem reports_and_finishes_two :
    ∃ s, pingStart twoEndpoints = some s ∧ ((ping id s).exec s toTheEnd).ended = true ∧
      ∃ reported : List PingConn, (reported.map (·.id)).Nodup ∧ outputs ((ping id s).trace s toTheEnd) =
          reported.map (entryResult id s) ++ [.finished] := by
  have hover : ((ping id (startWith twoEndpoints (Ping.entries twoEndpoints))).exec
      (startWith twoEndpoints (Ping.entries twoEndpoints)) toTheEnd).ended = true := by decide
  obtain ⟨-, -, reported, hnodup, -, hend⟩ :=
    @reports_and_finishes _ id twoEndpoints rfl toTheEnd (by decide)
  refine ⟨_, rfl, hover, reported, hnodup, ?_⟩
  rcases hend with ⟨hnot, -⟩ | ⟨-, houts, -⟩
  · cases hnot
  · exact houts

theorem outputs_of_aborted (hs : s.aborted = true) (es : List Call) : outputs ((ping scale s₀).trace s es) = [] := by
  induction es with
  | nil => rfl
  | cons c es ih =>
    have hstep : (ping scale s₀).step s c = (s, []) := by
      rw [ping_step, step, hs]
      rfl
    simp only [trace, record, hstep]
    exact ih

/-- The run with a shortcut left running, however it goes on: the end is never reported. -/
theorem shortcut_left_never_finished : ∃ s, pingStart twoEndpoints = some s ∧ ∀ es, outputs ((ping id s).trace s
        (shortcutFirst [.connectTask 113, .prepareTask fun i => .ok i] ++ es)) = [.assertionFailed] := by
  refine ⟨startWith twoEndpoints (Ping.entries twoEndpoints), rfl, fun es => ?_⟩
  rw [trace_append]
  refine congrArg _ (outputs_of_aborted ?_ es)
  decide

end TrustTunnel.Ping
