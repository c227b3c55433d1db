import TrustTunnel.Core.Wire
import TrustTunnel.Lib.Frames
import TrustTunnel.Lib.System

/-!
# Pipe.Endpoint

`PipeEndpoint` (vpn_easy_pipe.cpp): the endpoint of the named pipe between the service and the user
interface.

One thread runs `loop`; `send` is called from any thread. The loop thread is cut where another
thread can come in between: `Pc` says where it is, and a call that is not the loop's next one does
nothing. What the kernel answers (a finished connect, bytes read, bytes written) is in the calls.

`m_connected` is a relaxed atomic. `flag` holds every value stored to it, oldest first, and a `send`
names the store it reads; the queue lock promises it one no older than `published`, the last store
made before the loop thread released the lock.
-/

namespace TrustTunnel.Pipe

open Lib List

def maxPendingWrites : Nat := 100

def maxMessageSize : Nat := 16 * 1024

def inputBufSize : Nat := maxMessageSize + 2 * 4

/-- A message: `VpnEasyServiceMessageType` by its value on the wire, and the payload. -/
structure Message where
  what : UInt32
  data : Bytes

open Wire

def composeMessage (m : Message) : Bytes :=
  putU32 m.what.toNat ++ putU32 m.data.length ++ m.data

/-! ## The receive buffer -/

def nextMessage (buf : Bytes) : Front Message UInt8 :=
  match getU32 buf with
  | none => .more
  | some (what, r) =>
    match getU32 r with
    | none => .more
    | some (size, r) =>
      if size > maxMessageSize then .bad
      else if r.length < size then .more
      else .item ⟨what.toUInt32, r.take size⟩ (r.drop size)

variable {buf : Bytes}

theorem nextMessage_header {r : Bytes} {what size : Nat}
    (h : ∃ r', getU32 buf = some (what, r') ∧ getU32 r' = some (size, r)) : nextMessage buf =
      if size > maxMessageSize then .bad
      else if r.length < size then .more
      else .item ⟨what.toUInt32, r.take size⟩ (r.drop size) := by
  obtain ⟨r', hwhat, hsize⟩ := h
  simp [nextMessage, hwhat, hsize]

theorem header_of_nextMessage (h : nextMessage buf ≠ .more) :
    ∃ what size r, (∃ r', getU32 buf = some (what, r') ∧ getU32 r' = some (size, r)) ∧
      buf.length = r.length + 8 := by
  unfold nextMessage at h
  cases hwhat : getU32 buf with
  | none => simp [hwhat] at h
  | some p =>
    obtain ⟨what, r'⟩ := p
    cases hsize : getU32 r' with
    | none => simp [hwhat, hsize] at h
    | some q =>
      obtain ⟨size, r⟩ := q
      have h1 := length_of_getU32 hwhat
      have h2 := length_of_getU32 hsize
      exact ⟨what, size, r, ⟨r', rfl, hsize⟩, by omega⟩

theorem header_append {r : Bytes} {what size : Nat} (e : Bytes)
    (h : ∃ r', getU32 buf = some (what, r') ∧ getU32 r' = some (size, r)) :
    ∃ r', getU32 (buf ++ e) = some (what, r') ∧ getU32 r' = some (size, r ++ e) := by
  obtain ⟨r', hwhat, hsize⟩ := h
  exact ⟨r' ++ e, getU32_append e hwhat, getU32_append e hsize⟩

def framing : Framing Message UInt8 where
  next := nextMessage
  progress := by
    intro d a r h
    obtain ⟨what, size, r', hh, hlen⟩ := header_of_nextMessage (by rw [h]; simp)
    rw [nextMessage_header hh] at h
    split at h
    · simp at h
    split at h
    · simp at h
    · simp only [Front.item.injEq] at h
      rw [← h.2, length_drop]
      omega
  item_append := by
    intro d a r e h
    obtain ⟨what, size, r', hh, -⟩ := header_of_nextMessage (by rw [h]; simp)
    rw [nextMessage_header hh] at h
    rw [nextMessage_header (header_append e hh)]
    split at h
    · simp at h
    next hsize =>
    split at h
    · simp at h
    next hlen =>
    simp only [Front.item.injEq] at h
    rw [if_neg hsize, if_neg (by rw [length_append]; omega), ← h.1, ← h.2,
      take_append_of_le_length (by omega), drop_append_of_le_length (by omega)]
  bad_append := by
    intro d e h
    obtain ⟨what, size, r', hh, -⟩ := header_of_nextMessage (by rw [h]; simp)
    rw [nextMessage_header hh] at h
    rw [nextMessage_header (header_append e hh)]
    split at h
    · next hsize => rw [if_pos hsize]
    · split at h <;> simp at h

/-! ## The endpoint -/

structure PendingWrite where
  data : Bytes
  written : Nat

inductive Pc where
  /-- before `start_connect` -/
  | start
  /-- in `WaitForMultipleObjects` -/
  | wait
  /-- at the `start_read` of the loop -/
  | read
  /-- in the loop of `pump_writes` -/
  | pump
  /-- in `disconnect_and_reset`, before the queue is cleared -/
  | clear
  /-- in `disconnect_and_reset`, after the queue is cleared -/
  | reset
  /-- `loop` has returned -/
  | done (result : Bool)
  deriving DecidableEq

/-- The loop thread is in its `for (;;)`, outside `handle_disconnect`. -/
def Pc.running : Pc → Bool
  | .wait | .read | .pump => true
  | _ => false

structure PipeEndpoint where
  pc : Pc
  /-- every value stored to `m_connected`, oldest first -/
  flag : List Bool
  /-- the last store before the loop thread's latest release of the queue lock -/
  published : Nat
  readPending : Bool
  writePending : Bool
  /-- the used part of `m_input_buf` -/
  inputBuf : Bytes
  pendingWrites : List PendingWrite
  inflightWrite : Option PendingWrite
  reconnects : Bool

inductive Out where
  /-- `m_connected` is set; connections are counted from 1 -/
  | connected (conn : Nat)
  | received (conn : Nat) (d : Bytes)
  | handler (conn : Nat) (m : Message)
  /-- the header declares too much: the connection is dropped -/
  | oversize (conn : Nat)
  /-- the buffer is full: the connection is dropped -/
  | bufferFull (conn : Nat)
  /-- put into the queue by a `send` that read the `conn`-th `true` -/
  | sent (conn : Nat) (w : Bytes)
  /-- dropped by a `send` that read `false` -/
  | refused (m : Message)
  | overflow (conn : Nat) (w : Bytes)
  | wrote (conn : Nat) (d : Bytes)
  /-- dropped by `disconnect_and_reset` -/
  | lost (conn : Nat) (w : Bytes)

variable (s : PipeEndpoint)

namespace PipeEndpoint

/-- What the loop thread itself reads from `m_connected`. -/
def connected : Bool := s.flag.getLast?.getD false

/-- The connection begun by the latest `true`. -/
def conn : Nat := s.flag.count true

/-- The connection whose `true` the store `i` is, or follows. -/
def connAt (i : Nat) : Nat := (s.flag.take (i + 1)).count true

def store (b : Bool) : PipeEndpoint := { s with flag := s.flag ++ [b] }

def publish : PipeEndpoint := { s with published := s.flag.length - 1 }

def goto (pc : Pc) : PipeEndpoint := { s with pc := pc }

/-- `send`, from the locking of the queue to its release. -/
def send (m : Message) (seen : Nat) : PipeEndpoint × List Out :=
  if s.flag[seen]? ≠ some true then (s, [.refused m])
  else
    let w : PendingWrite := ⟨composeMessage m, 0⟩
    if s.pendingWrites.length = maxPendingWrites then
      ({ s with pendingWrites := s.pendingWrites.tail ++ [w] },
        (s.pendingWrites.head?.map fun v => Out.overflow (s.connAt seen) v.data).toList ++
          [.sent (s.connAt seen) w.data])
    else ({ s with pendingWrites := s.pendingWrites ++ [w] }, [.sent (s.connAt seen) w.data])

/-- `m_connected.store(true)` in `start_connect` and `finalize_connect`. -/
def setConnected : PipeEndpoint × List Out :=
  (s.store true, [.connected (s.store true).conn])

def prepareForConnect : PipeEndpoint :=
  { s.store false with readPending := false, writePending := false, inputBuf := [] }

inductive ConnectResult where
  | failed
  | connected
  | pending

def startConnect : ConnectResult → PipeEndpoint × List Out
  | .failed => (s.prepareForConnect.goto (.done false), [])
  | .connected => (s.prepareForConnect.goto .wait).setConnected
  | .pending => (s.prepareForConnect.goto .wait, [])

/-- The first statement of `disconnect_and_reset`. -/
def disconnect : PipeEndpoint := (s.store false).goto .clear

/-- `handle_input`: the messages in the buffer, then `next`, or on an error the end of the
connection. -/
def handleInput (next : Pc) : PipeEndpoint × List Out :=
  let r := framing.drain s.inputBuf
  let outs := r.items.map (Out.handler s.conn)
  if r.ok then ({ s with inputBuf := r.rest }.goto next, outs)
  else (({ s with inputBuf := r.rest } : PipeEndpoint).disconnect, outs ++ [.oversize s.conn])

/-- `read_size` bytes have been put behind the used part of the buffer. -/
def receive (d : Bytes) (next : Pc) : PipeEndpoint × List Out :=
  andDo ({ s with inputBuf := s.inputBuf ++ d }, [.received s.conn d]) (handleInput · next)

inductive ReadResult where
  | ok (d : Bytes)
  | pending
  | failed

def startRead (r : ReadResult) : PipeEndpoint × List Out :=
  if s.inputBuf.length ≥ inputBufSize then (s.disconnect, [.bufferFull s.conn])
  else
    match r with
    | .ok d => s.receive d .pump
    | .pending => ({ s with readPending := true }.goto .pump, [])
    | .failed => (s.disconnect, [])

/-- `complete_read`; no bytes is the end of the stream. -/
def completeRead : Option Bytes → PipeEndpoint × List Out
  | none => (s.disconnect, [])
  | some d =>
    if d = [] then ({ s with readPending := false }.disconnect, [])
    else ({ s with readPending := false } : PipeEndpoint).receive d .read

/-- `n` more bytes of the message in flight have been written. -/
def wrote (n : Nat) : PipeEndpoint × List Out :=
  match s.inflightWrite with
  | none => (s, [])
  | some w =>
    let w' : PendingWrite := { w with written := w.written + n }
    ({ s with inflightWrite := if w'.written = w'.data.length then none else some w' },
      [.wrote s.conn ((w.data.drop w.written).take n)])

def completeWrite : Option Nat → PipeEndpoint × List Out
  | none => (s.disconnect, [])
  | some n => (({ s with writePending := false } : PipeEndpoint).goto .read).wrote n

inductive WriteResult where
  | ok (n : Nat)
  | pending
  | failed

/-- The queue lock in `pump_writes`: the next message, if any, becomes the one in flight. -/
def takePending : PipeEndpoint :=
  match s.pendingWrites with
  | [] => s.publish.goto .wait
  | w :: ws => { s.publish with inflightWrite := some w, pendingWrites := ws }

def pumpWrites (r : WriteResult) : PipeEndpoint × List Out :=
  if s.writePending then (s.goto .wait, [])
  else if s.inflightWrite.isNone then (s.takePending, [])
  else
    match r with
    | .ok n => s.wrote n
    | .pending => ({ s with writePending := true }.goto .wait, [])
    | .failed => (s.disconnect, [])

inductive WaitResult where
  | failed
  | stop
  | wake
  | io (finalized : Bool) (read : Option Bytes)
  | write (written : Option Nat)

/-- The loop's handling of one wake-up, up to the next `start_read`. -/
def onWait : WaitResult → PipeEndpoint × List Out
  | .failed => (s.goto (.done false), [])
  | .stop => (s.goto (.done true), [])
  | .wake => (s.goto .read, [])
  | .io finalized read =>
    if !s.connected then
      if finalized then (s.goto .read).setConnected else (s.disconnect, [])
    else if s.readPending then s.completeRead read
    else (s.goto .read, [])
  | .write written =>
    if s.writePending then s.completeWrite written else (s.goto .read, [])

def clearPending : PipeEndpoint × List Out :=
  ({ s.publish with pendingWrites := [] }.goto .reset, s.pendingWrites.map fun w => .lost s.conn w.data)

def dropInflight : PipeEndpoint × List Out :=
  ({ s with inflightWrite := none }, (s.inflightWrite.map fun w => Out.lost s.conn w.data).toList)

/-- The rest of `disconnect_and_reset`: of a cancelled write `n` bytes have still gone out. -/
def resetConnection (n : Nat) : PipeEndpoint × List Out :=
  let r := andDo (if s.writePending then s.wrote n else (s, [])) dropInflight
  ({ r.1 with
      readPending := false, writePending := false, inputBuf := []
      pc := if s.reconnects then .start else .done true }, r.2)

/-- What happens to the endpoint: `send` on any thread, all else on the loop thread. -/
inductive Call where
  | send (m : Message) (seen : Nat)
  | startConnect (r : ConnectResult)
  | wait (r : WaitResult)
  | startRead (r : ReadResult)
  | pumpWrites (r : WriteResult)
  | clearPending
  | resetConnection (cancelled : Nat)

def step : Call → PipeEndpoint × List Out
  | .send m seen => s.send m seen
  | .startConnect r => if s.pc = .start then s.startConnect r else (s, [])
  | .wait r => if s.pc = .wait then s.onWait r else (s, [])
  | .startRead r =>
    if s.pc = .read then
      if s.connected && !s.readPending then s.startRead r else (s.goto .pump, [])
    else (s, [])
  | .pumpWrites r =>
    if s.pc = .pump then
      if s.connected then s.pumpWrites r else (s.goto .wait, [])
    else (s, [])
  | .clearPending => if s.pc = .clear then s.clearPending else (s, [])
  | .resetConnection n => if s.pc = .reset then s.resetConnection n else (s, [])

def fresh (reconnects : Bool) : PipeEndpoint where
  pc := .start
  flag := [false]
  published := 0
  readPending := false
  writePending := false
  inputBuf := []
  pendingWrites := []
  inflightWrite := none
  reconnects := reconnects

def endpoint (reconnects : Bool) : System PipeEndpoint Call Out := ⟨fresh reconnects, step⟩

def after (reconnects : Bool) (es : List Call) : PipeEndpoint :=
  (endpoint reconnects).exec (endpoint reconnects).init es

def raised (reconnects : Bool) (es : List Call) : List Out :=
  System.outputs ((endpoint reconnects).trace (endpoint reconnects).init es)

def ReadResult.data : ReadResult → Bytes
  | .ok d => d
  | _ => []

def WaitResult.data : WaitResult → Bytes
  | .io _ (some d) => d
  | _ => []

def WriteResult.count : WriteResult → Nat
  | .ok n => n
  | _ => 0

def WaitResult.count : WaitResult → Nat
  | .write (some n) => n
  | _ => 0

def room : Nat := inputBufSize - s.inputBuf.length

def CanWrite (n : Nat) : Prop :=
  ∀ w ∈ s.inflightWrite, n ≤ w.data.length - w.written

instance (s : PipeEndpoint) (n : Nat) : Decidable (s.CanWrite n) :=
  inferInstanceAs (Decidable (∀ w ∈ s.inflightWrite, _))

def KernelOk : Call → Prop
  | .send _ seen => s.published ≤ seen ∧ seen < s.flag.length
  | .startConnect _ => True
  | .wait r => r.data.length ≤ s.room ∧ s.CanWrite r.count
  | .startRead r => r.data.length ≤ s.room
  | .pumpWrites r => s.CanWrite r.count
  | .clearPending => True
  | .resetConnection n => s.CanWrite n

instance (s : PipeEndpoint) : (c : Call) → Decidable (s.KernelOk c)
  | .send _ _ => inferInstanceAs (Decidable (_ ∧ _))
  | .startConnect _ => isTrue trivial
  | .wait r => inferInstanceAs (Decidable (r.data.length ≤ s.room ∧ s.CanWrite r.count))
  | .startRead r => inferInstanceAs (Decidable (r.data.length ≤ s.room))
  | .pumpWrites r => inferInstanceAs (Decidable (s.CanWrite r.count))
  | .clearPending => isTrue trivial
  | .resetConnection n => inferInstanceAs (Decidable (s.CanWrite n))

/-! ## What a step can do -/

def closed : PipeEndpoint :=
  { s with
    inflightWrite := none, readPending := false, writePending := false, inputBuf := []
    pc := if s.reconnects then .start else .done true }

inductive Effect (s : PipeEndpoint) : PipeEndpoint × List Out → Prop where
  | skip : Effect s (s, [])
  | send (m : Message) (seen : Nat) (h : s.published ≤ seen) : Effect s (s.send m seen)
  | move (reading writing : Bool) (pc : Pc) (h : s.pc.running = true)
      (hpc : pc.running = true ∨ ∃ r, pc = .done r) :
      Effect s (({ s with readPending := reading, writePending := writing } : PipeEndpoint).goto pc, [])
  | drop (reading : Bool) (h : s.pc.running = true) :
      Effect s (({ s with readPending := reading } : PipeEndpoint).disconnect, [])
  | full (h : s.pc.running = true) (hc : s.connected = true) (hf : inputBufSize ≤ s.inputBuf.length) :
      Effect s (s.disconnect, [.bufferFull s.conn])
  | prepare (pc : Pc) (h : s.pc = .start) (hpc : pc.running = true ∨ ∃ r, pc = .done r) :
      Effect s (s.prepareForConnect.goto pc, [])
  | connect (h : s.pc = .start) : Effect s (s.prepareForConnect.goto .wait).setConnected
  | finalize (h : s.pc.running = true) (hc : s.connected = false) :
      Effect s (s.goto .read).setConnected
  | receive (reading : Bool) (d : Bytes) (pc : Pc) (h : s.pc.running = true)
      (hc : s.connected = true) (hpc : pc.running = true)
      (hok : (framing.drain (s.inputBuf ++ d)).ok = true) :
      Effect s
        (({ s with
            readPending := reading
            inputBuf := (framing.drain (s.inputBuf ++ d)).rest } : PipeEndpoint).goto pc,
          .received s.conn d :: (framing.drain (s.inputBuf ++ d)).items.map (.handler s.conn))
  | oversize (reading : Bool) (d : Bytes) (h : s.pc.running = true) (hc : s.connected = true)
      (hok : (framing.drain (s.inputBuf ++ d)).ok = false) :
      Effect s
        (({ s with
            readPending := reading
            inputBuf := (framing.drain (s.inputBuf ++ d)).rest } : PipeEndpoint).disconnect,
          .received s.conn d :: ((framing.drain (s.inputBuf ++ d)).items.map (.handler s.conn) ++ [.oversize s.conn]))
  | wrote (writing : Bool) (pc : Pc) (w : PendingWrite) (n : Nat) (h : s.pc.running = true)
      (hpc : pc.running = true) (hw : s.inflightWrite = some w) (hn : n ≤ w.data.length - w.written) :
      Effect s
        (({ s with
            writePending := writing
            inflightWrite :=
              if w.written + n = w.data.length then none
              else some ⟨w.data, w.written + n⟩ } : PipeEndpoint).goto pc,
          [.wrote s.conn ((w.data.drop w.written).take n)])
  | takeNone (h : s.pc.running = true) (hq : s.pendingWrites = []) :
      Effect s (s.publish.goto .wait, [])
  | take (w : PendingWrite) (ws : List PendingWrite) (h : s.pc.running = true)
      (hi : s.inflightWrite = none) (hq : s.pendingWrites = w :: ws) :
      Effect s ({ s.publish with inflightWrite := some w, pendingWrites := ws }, [])
  | clear (h : s.pc = .clear) : Effect s s.clearPending
  | reset (h : s.pc = .reset) (hw : s.inflightWrite = none) : Effect s (s.closed, [])
  | resetIdle (w : PendingWrite) (h : s.pc = .reset) (hw : s.inflightWrite = some w) :
      Effect s (s.closed, [.lost s.conn w.data])
  | resetCut (w : PendingWrite) (n : Nat) (h : s.pc = .reset) (hw : s.inflightWrite = some w)
      (hn : n ≤ w.data.length - w.written) (hpart : w.written + n ≠ w.data.length) :
      Effect s (s.closed, [.wrote s.conn ((w.data.drop w.written).take n), .lost s.conn w.data])
  | resetDone (w : PendingWrite) (n : Nat) (h : s.pc = .reset) (hw : s.inflightWrite = some w)
      (hall : w.written + n = w.data.length) :
      Effect s (s.closed, [.wrote s.conn ((w.data.drop w.written).take n)])

variable {s : PipeEndpoint}

theorem receive_effect {d : Bytes} {pc : Pc} (reading : Bool) (h : s.pc.running = true)
    (hc : s.connected = true) (hpc : pc.running = true) :
    Effect s (({ s with readPending := reading } : PipeEndpoint).receive d pc) := by
  cases hok : (framing.drain (s.inputBuf ++ d)).ok with
  | true =>
    simp only [PipeEndpoint.receive, handleInput, andDo, hok]
    exact .receive reading d pc h hc hpc hok
  | false =>
    simp only [PipeEndpoint.receive, handleInput, andDo, hok]
    exact .oversize reading d h hc hok

theorem wrote_effect {pc : Pc} {n : Nat} (writing : Bool) (h : s.pc.running = true) (hpc : pc.running = true)
    (hn : s.CanWrite n) : Effect s ((({ s with writePending := writing } : PipeEndpoint).goto pc).wrote n) := by
  cases hw : s.inflightWrite with
  | none =>
    have := Effect.move s.readPending writing pc h (.inl hpc)
    simpa only [PipeEndpoint.wrote, goto, hw] using this
  | some w =>
    exact .wrote writing pc w n h hpc hw (hn w hw)

theorem completeRead_effect {read : Option Bytes} (h : s.pc.running = true) (hc : s.connected = true) :
    Effect s (s.completeRead read) := by
  cases read with
  | none => exact .drop s.readPending h
  | some d =>
    simp only [completeRead]
    split
    · exact .drop false h
    · exact receive_effect false h hc rfl

theorem onWait_effect {r : WaitResult} (h : s.pc = .wait) (hk : s.KernelOk (.wait r)) : Effect s (s.onWait r) := by
  have hrun : s.pc.running = true := by rw [h]; rfl
  cases r with
  | failed => exact .move s.readPending s.writePending (.done false) hrun (.inr ⟨_, rfl⟩)
  | stop => exact .move s.readPending s.writePending (.done true) hrun (.inr ⟨_, rfl⟩)
  | wake => exact .move s.readPending s.writePending .read hrun (.inl rfl)
  | io finalized read =>
    simp only [onWait]
    split
    · next hc =>
      split
      · exact .finalize hrun (by simpa using hc)
      · exact .drop s.readPending hrun
    · next hc =>
      split
      · exact completeRead_effect hrun (by simpa using hc)
      · exact .move s.readPending s.writePending .read hrun (.inl rfl)
  | write written =>
    simp only [onWait]
    split
    · cases written with
      | none => exact .drop s.readPending hrun
      | some n => exact wrote_effect false hrun rfl hk.2
    · exact .move s.readPending s.writePending .read hrun (.inl rfl)

theorem startRead_effect {r : ReadResult} (h : s.pc = .read) (hc : s.connected = true) : Effect s (s.startRead r) := by
  have hrun : s.pc.running = true := by rw [h]; rfl
  unfold startRead
  split
  · next hfull => exact .full hrun hc hfull
  cases r with
  | ok d => exact receive_effect s.readPending hrun hc rfl
  | pending => exact .move true s.writePending .pump hrun (.inl rfl)
  | failed => exact .drop s.readPending hrun

theorem pumpWrites_effect {r : WriteResult} (h : s.pc = .pump) (hk : s.CanWrite r.count) :
    Effect s (s.pumpWrites r) := by
  have hrun : s.pc.running = true := by rw [h]; rfl
  unfold pumpWrites
  split
  · exact .move s.readPending s.writePending .wait hrun (.inl rfl)
  split
  · next hi =>
    unfold takePending
    split
    · next hq => exact .takeNone hrun hq
    · next w ws hq => exact .take w ws hrun (by simpa using hi) hq
  · cases r with
    | ok n =>
      have hsame : s = { s with writePending := s.writePending }.goto .pump := by rw [← h]; rfl
      have := wrote_effect s.writePending hrun (show Pc.pump.running = true from rfl) hk
      rwa [← hsame] at this
    | pending => exact .move s.readPending true .wait hrun (.inl rfl)
    | failed => exact .drop s.readPending hrun

theorem resetConnection_effect {n : Nat} (h : s.pc = .reset) (hn : s.CanWrite n) : Effect s (s.resetConnection n) := by
  cases hw : s.inflightWrite with
  | none =>
    simp only [resetConnection, andDo, dropInflight, PipeEndpoint.wrote, hw, ite_self]
    exact .reset h hw
  | some w =>
    simp only [resetConnection, andDo, dropInflight, PipeEndpoint.wrote, hw]
    cases hp : s.writePending with
    | false =>
      simp only [Bool.false_eq_true, if_false, hw]
      exact .resetIdle w h hw
    | true =>
      by_cases hall : w.written + n = w.data.length
      · simp only [hall]
        exact .resetDone w n h hw hall
      · simp only [hall]
        exact .resetCut w n h hw (hn w hw) hall

theorem step_effect {c : Call} (hk : s.KernelOk c) : Effect s (s.step c) := by
  cases c with
  | send m seen => exact .send m seen hk.1
  | startConnect r =>
    simp only [step]
    split
    · next h =>
      cases r with
      | failed => exact .prepare (.done false) h (.inr ⟨_, rfl⟩)
      | connected => exact .connect h
      | pending => exact .prepare .wait h (.inl rfl)
    · exact .skip
  | wait r =>
    simp only [step]
    split
    · next h => exact onWait_effect h hk
    · exact .skip
  | startRead r =>
    simp only [step]
    split
    · next h =>
      split
      · next hc => exact startRead_effect h (by simp at hc; exact hc.1)
      · exact .move s.readPending s.writePending .pump (by rw [h]; rfl) (.inl rfl)
    · exact .skip
  | pumpWrites r =>
    simp only [step]
    split
    · next h =>
      split
      · exact pumpWrites_effect h hk
      · exact .move s.readPending s.writePending .wait (by rw [h]; rfl) (.inl rfl)
    · exact .skip
  | clearPending =>
    simp only [step]
    split
    · next h => exact .clear h
    · exact .skip
  | resetConnection n =>
    simp only [step]
    split
    · next h => exact resetConnection_effect h hk
    · exact .skip

/-! ## The flag -/

section Flag

variable (s : PipeEndpoint)

@[simp] theorem connected_store (b : Bool) : (s.store b).connected = b := by simp [store, connected]

@[simp] theorem conn_store_true : (s.store true).conn = s.conn + 1 := by simp [store, conn]

@[simp] theorem conn_store_false : (s.store false).conn = s.conn := by simp [store, conn]

@[simp] theorem connected_goto (pc : Pc) : (s.goto pc).connected = s.connected := rfl

@[simp] theorem conn_goto (pc : Pc) : (s.goto pc).conn = s.conn := rfl

theorem connAt_store (b : Bool) {i : Nat} (h : i < s.flag.length) : (s.store b).connAt i = s.connAt i := by
  simp only [connAt, store]
  rw [take_append_of_le_length (by omega)]

theorem connAt_last (b : Bool) : (s.store b).connAt s.flag.length = (s.store b).conn := by
  simp only [connAt, conn, store]
  rw [take_of_length_le (by simp)]

end Flag

/-- The stores a `send` may read: if one is `true`, it is that of the current connection, whose
messages have not been cleared yet. -/
structure Ordered (s : PipeEndpoint) : Prop where
  bound : s.published < s.flag.length
  down : s.pc = .start ∨ s.pc = .clear ∨ s.pc = .reset → s.connected = false
  seen : ∀ i, s.published ≤ i → s.flag[i]? = some true → s.connAt i = s.conn ∧
    (s.connected = true ∨ s.pc = .clear)

namespace Ordered

theorem fresh (reconnects : Bool) : Ordered (fresh reconnects) where
  bound := by simp [PipeEndpoint.fresh]
  down := by intro _; rfl
  seen := by
    intro i _ hi
    cases i with
    | zero | succ i => simp [PipeEndpoint.fresh] at hi

variable {s : PipeEndpoint}

variable {t : PipeEndpoint}

theorem of_same (h : Ordered s) (hflag : t.flag = s.flag) (hpub : s.published ≤ t.published)
    (hbound : t.published < s.flag.length)
    (hdown : t.pc = .start ∨ t.pc = .clear ∨ t.pc = .reset → t.connected = false)
    (hopen : ∀ i, t.published ≤ i → t.flag[i]? = some true → t.connected = true ∨
      t.pc = .clear) : Ordered t where
  bound := by rw [hflag]; exact hbound
  down := hdown
  seen := by
    intro i hi htrue
    refine ⟨?_, hopen i hi htrue⟩
    rw [hflag] at htrue
    have := (h.seen i (by omega) htrue).1
    simpa only [connAt, conn, hflag] using this

theorem not_down {pc : Pc} (h : pc.running = true) : ¬(pc = .start ∨ pc = .clear ∨ pc = .reset) := by
  rintro (rfl | rfl | rfl) <;> cases h

theorem connected_of_running (h : Ordered s) (hr : s.pc.running = true) {i : Nat}
    (hi : s.published ≤ i) (htrue : s.flag[i]? = some true) : s.connected = true := by
  rcases (h.seen i hi htrue).2 with hc | hpc
  · exact hc
  · exact absurd (.inr (.inl hpc)) (not_down hr)

theorem of_running (h : Ordered s) (hr : s.pc.running = true) (ht : t.pc.running = true ∨ ∃ r, t.pc = .done r)
    (hflag : t.flag = s.flag) (hpub : s.published ≤ t.published) (hbound : t.published < s.flag.length) :
    Ordered t := by
  have hconn : t.connected = s.connected := by simp [connected, hflag]
  refine h.of_same hflag hpub hbound ?_ ?_
  · intro hpc
    rcases ht with hrun | ⟨r, hdone⟩
    · exact absurd hpc (not_down hrun)
    · rw [hdone] at hpc
      simp at hpc
  · intro i hi htrue
    rw [hflag] at htrue
    rw [hconn]
    exact .inl (h.connected_of_running hr (by omega) htrue)

theorem store_false (h : Ordered s) (pc : Pc)
    (hpc : pc = .clear ∨ ∀ i, s.published ≤ i → s.flag[i]? = some true → False) :
    Ordered ((s.store false).goto pc) where
  bound := by simp only [goto, store, length_append]; exact Nat.lt_add_right _ h.bound
  down := by intro _; simp
  seen := by
    intro i hi htrue
    have hlt : i < s.flag.length := by
      by_contra hge
      simp only [goto, store, List.getElem?_append_right (Nat.le_of_not_lt hge)] at htrue
      cases hd : i - s.flag.length with
      | zero | succ n => simp [hd] at htrue
    have hold : s.flag[i]? = some true := by
      simpa only [goto, store, List.getElem?_append_left hlt] using htrue
    rcases hpc with rfl | hnone
    · refine ⟨?_, .inr rfl⟩
      have hsame : ((s.store false).goto .clear).connAt i = s.connAt i := s.connAt_store false hlt
      have hconn : ((s.store false).goto .clear).conn = s.conn := s.conn_store_false
      rw [hsame, hconn]
      exact (h.seen i hi hold).1
    · exact (hnone i hi hold).elim

theorem store_true (h : s.pc.running = true) (hbound : s.published < s.flag.length)
    (hnone : ∀ i, s.published ≤ i → s.flag[i]? = some true → False) : Ordered (s.store true) where
  bound := by simp only [store, length_append]; exact Nat.lt_add_right _ hbound
  down hpc := absurd hpc (not_down h)
  seen := by
    intro i hi htrue
    refine ⟨?_, .inl (by simp)⟩
    rcases Nat.lt_trichotomy i s.flag.length with hlt | rfl | hgt
    · refine (hnone i hi ?_).elim
      simpa only [store, List.getElem?_append_left hlt] using htrue
    · exact s.connAt_last true
    · simp only [store] at htrue
      rw [List.getElem?_eq_none (by simp; omega)] at htrue
      cases htrue

theorem nothing_seen (h : Ordered s) (hc : s.connected = false) (hpc : s.pc ≠ .clear) :
    ∀ i, s.published ≤ i → s.flag[i]? = some true → False := by
  intro i hi htrue
  rcases (h.seen i hi htrue).2 with hup | hclear
  · rw [hup] at hc; cases hc
  · exact hpc hclear

theorem cleared (h : Ordered s) (hc : s.connected = false) (hflag : t.flag = s.flag)
    (hpub : t.published = s.flag.length - 1) : Ordered t where
  bound := by
    have := h.bound
    rw [hflag, hpub]
    omega
  down := by intro _; simpa only [connected, hflag] using hc
  seen := by
    intro i hi htrue
    rw [hflag] at htrue
    have hlast : i = s.flag.length - 1 := by
      have := (List.getElem?_eq_some_iff.mp htrue).1
      omega
    rw [connected, List.getLast?_eq_getElem?, ← hlast, htrue] at hc
    cases hc

theorem closed (h : Ordered s) (hpc : s.pc = .reset) : Ordered s.closed := by
  have hdown := h.down (.inr (.inr hpc))
  refine h.of_same rfl (Nat.le_refl _) h.bound (fun _ => hdown) ?_
  intro i hi htrue
  exact (h.nothing_seen hdown (by rw [hpc]; simp) i hi htrue).elim

theorem step_of_effect (h : Ordered s) {r : PipeEndpoint × List Out} (he : Effect s r) : Ordered r.1 := by
  have hb := h.bound
  cases he with
  | skip => exact h
  | send m seen hseen =>
    unfold PipeEndpoint.send
    split
    · exact h
    · split
      all_goals exact ⟨h.bound, h.down, h.seen⟩
  | move reading writing pc hr hpc => exact h.of_running hr hpc rfl (Nat.le_refl _) hb
  | drop reading hr =>
    have h' : Ordered { s with readPending := reading } := ⟨h.bound, h.down, h.seen⟩
    exact h'.store_false .clear (.inl rfl)
  | full hr hc hf => exact h.store_false .clear (.inl rfl)
  | prepare pc hpc hnext =>
    have hnone := h.nothing_seen (h.down (.inl hpc)) (by rw [hpc]; simp)
    have h' := h.store_false pc (.inr hnone)
    exact ⟨h'.bound, h'.down, h'.seen⟩
  | connect hpc =>
    have hnone := h.nothing_seen (h.down (.inl hpc)) (by rw [hpc]; simp)
    have h' := h.store_false .wait (.inr hnone)
    have h'' : Ordered (s.prepareForConnect.goto .wait) := ⟨h'.bound, h'.down, h'.seen⟩
    exact store_true rfl h''.bound (h''.nothing_seen (by simp [prepareForConnect, connected, store, goto])
      (by simp [goto]))
  | finalize hr hc =>
    have hnone := h.nothing_seen hc fun hpc => not_down hr (.inr (.inl hpc))
    exact store_true rfl h.bound hnone
  | receive reading d pc hr hc hpc hok | wrote writing pc w n hr hpc hw hn =>
    exact h.of_running hr (.inl hpc) rfl (Nat.le_refl _) hb
  | oversize reading d hr hc hok =>
    have h' : Ordered { s with
      readPending := reading, inputBuf := (framing.drain (s.inputBuf ++ d)).rest } :=
      ⟨h.bound, h.down, h.seen⟩
    exact h'.store_false .clear (.inl rfl)
  | takeNone hr hq =>
    exact h.of_running hr (.inl rfl) rfl (by simp only [publish, goto]; omega) (by simp only [publish, goto]; omega)
  | take w ws hr hi hq =>
    exact h.of_running hr (.inl hr) rfl (by simp only [publish]; omega) (by simp only [publish]; omega)
  | clear hpc => exact h.cleared (h.down (.inr (.inl hpc))) rfl rfl
  | reset hpc hw | resetIdle w hpc hw | resetCut w n hpc hw hn hpart
  | resetDone w n hpc hw hall => exact h.closed hpc

end Ordered

theorem running_ne (h : s.pc.running = true) : s.pc ≠ .clear ∧ s.pc ≠ .reset :=
  ⟨fun hpc => Ordered.not_down h (.inr (.inl hpc)), fun hpc => Ordered.not_down h (.inr (.inr hpc))⟩

theorem effect_run {J : List Out → PipeEndpoint → Prop} (reconnects : Bool) (es : List Call)
    (hk : (endpoint reconnects).Meets KernelOk (endpoint reconnects).init es) (hinit : J [] (fresh reconnects))
    (hstep : ∀ {o s}, J o s → Ordered s → ∀ {r}, Effect s r → J (o ++ r.2) r.1) :
    J (raised reconnects es) (after reconnects es) := by
  refine ((endpoint reconnects).inv_run (J := fun h s => Ordered s ∧ J (System.outputs h) s)
    ⟨Ordered.fresh reconnects, hinit⟩ ?_ es hk).2
  intro h s c hinv hc
  have he : Effect s ((endpoint reconnects).step s c) := step_effect hc
  rw [System.outputs_append, System.outputs_record]
  exact ⟨hinv.1.step_of_effect he, hstep hinv.2 hinv.1 he⟩

end PipeEndpoint

end TrustTunnel.Pipe
