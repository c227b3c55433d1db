import TrustTunnel.Core.Types
import TrustTunnel.Lib.File
import TrustTunnel.Lib.System

/-!
# Buffer.Memfile

`MemfileBuffer` (`memfile_buffer.cpp`): a byte queue that keeps up to a threshold of bytes in memory
(`MemoryBuffer`, `memory_buffer.cpp`) and the rest in a file. What has been read from the file stays
in it until the file is stripped.

Each call is given how its file operations turn out; the error paths and what they leave behind are
modelled. A file has less than 2^63 bytes, so its size is never negative as a `ssize_t`.
-/

namespace TrustTunnel.Buffer

open Lib Lib.File List

/-- 2^64 -/
def sizeModulus : Nat := 18446744073709551616

def sizeSub (a b : Nat) : Nat := (a + sizeModulus - b) % sizeModulus

/-! ## The memory buffer -/

structure MemoryBuffer where
  totalSize : Nat
  chunks : List Bytes

variable (m : MemoryBuffer)

namespace MemoryBuffer

def push (data : Bytes) : MemoryBuffer :=
  if data = [] then m else ⟨m.totalSize + data.length, m.chunks ++ [data]⟩

def size : Nat := m.totalSize

def peek : Bytes := m.chunks.headD []

/-- The loop of `drain`, which needs a chunk as long as there is something to remove. -/
def drainChunks : List Bytes → Nat → List Bytes
  | [], _ => []
  | front :: rest, length =>
    if length = 0 then front :: rest
    else
      let toRemove := min front.length length
      if front.length = toRemove then drainChunks rest (length - toRemove)
      else front.drop toRemove :: rest

def drain (length : Nat) : MemoryBuffer :=
  ⟨sizeSub m.totalSize length, drainChunks m.chunks length⟩

end MemoryBuffer

/-! ## Data -/

/-- `sys::last_error()` and its text. -/
structure Errno where
  text : String
  code : Int

/-- A transfer of nothing is no failure of the system: the last error is not set by it. -/
def stopErrno : Stop Errno → Errno
  | .failed e => e
  | .nothing => ⟨"", 0⟩

def Errno.format (e : Errno) : String := e.text ++ " (" ++ toString e.code ++ ")"

def failedTo (what : String) (e : Errno) : String := what ++ ": " ++ e.format

structure MemfileBuffer where
  memBuffer : MemoryBuffer
  threshold : UInt64
  maxFileSize : UInt64
  /-- `m_fd` is a handle of the file -/
  isOpen : Bool
  readOffset : Nat
  /-- the file at `m_path` -/
  file : Option Bytes
  /-- the file at `m_path` with `.tmp` -/
  tmp : Option Bytes
  /-- how the file operations of the current call turn out -/
  io : Script Errno

variable (b : MemfileBuffer)

structure BufferPeekResult where
  err : Option String
  data : Bytes
  deriving DecidableEq

namespace MemfileBuffer

def create (threshold maxFileSize : UInt64) (file : Option Bytes) : MemfileBuffer :=
  ⟨⟨0, []⟩, threshold, maxFileSize, false, 0, file, none, []⟩

def content : Bytes := b.file.getD []

def attempt : MemfileBuffer × Option Errno :=
  ({ b with io := b.io.attempt.2 }, b.io.attempt.1)

def getSize : MemfileBuffer × Except Errno Nat :=
  match b.attempt with
  | (b, some e) => (b, .error e)
  | (b, none) => (b, .ok b.content.length)

def size : Nat :=
  let fsize := if b.isOpen then (b.getSize.2).toOption.getD 0 else 0
  (b.memBuffer.totalSize + sizeSub fsize b.readOffset) % sizeModulus

def getFreeMemSpace : Nat := sizeSub b.threshold.toNat b.memBuffer.totalSize

/-! ## From the file to memory -/

/-- The read loop of `transfer_file2mem`. What was read before an error is lost: the offset has
moved. -/
def readFromFile (fsize toRead : Nat) : MemfileBuffer × Option String :=
  let t := transfer b.io (fsize - b.readOffset) toRead
  let buf := readAt b.content b.readOffset t.total
  let b := { b with io := t.script, readOffset := b.readOffset + t.total }
  match t.stop with
  | some .nothing => (b, some "Unexpected EOF while reading file content")
  | some (.failed e) => (b, some (failedTo "Failed to read file content" e))
  | none => ({ b with memBuffer := b.memBuffer.push buf }, none)

def transferFile2mem : MemfileBuffer × Option String :=
  if !b.isOpen then (b, none)
  else if b.getFreeMemSpace = 0 then (b, none)
  else
    match b.getSize with
    | (b, .error e) => (b, some (failedTo "Failed to get file size" e))
    | (b, .ok fsize) =>
      if fsize = 0 then (b, none)
      else if fsize = b.readOffset then (b, none)
      else
        match b.attempt with
        | (b, some e) => (b, some (failedTo "Failed to set file offset" e))
        | (b, none) =>
          b.readFromFile fsize (min b.getFreeMemSpace (sizeSub fsize b.readOffset))

/-- `transfer_mem2mem`: what does not fit is given back. -/
def transferMem2mem (data : Bytes) : MemfileBuffer × Bytes :=
  let freeSpace := b.getFreeMemSpace
  if freeSpace = 0 then (b, data)
  else
    let chunk := if data.length ≤ freeSpace then data else data.take freeSpace
    ({ b with memBuffer := b.memBuffer.push chunk }, data.drop chunk.length)

/-! ## Stripping the file -/

/-- What the read loop of `transfer_file2file` leaves in its buffer: each read is put at the start. -/
def fillBuffer (src : Bytes) : Nat → List Nat → Bytes → Bytes
  | _, [], buf => buf
  | pos, r :: sizes, buf => fillBuffer src (pos + r) sizes (readAt src pos r ++ buf.drop r)

/-- `transfer_file2file` from the temporary file; each write starts at the start of the buffer. -/
def transferFile2file (size : Nat) : MemfileBuffer × Option String :=
  if size = 0 then (b, none)
  else
    let src := b.tmp.getD []
    let r := transfer b.io (src.length - b.readOffset) size
    let b := { b with io := r.script }
    match r.stop with
    | some .nothing => (b, some "Unexpected EOF while reading file content")
    | some (.failed e) => (b, some e.format)
    | none =>
      let buf := fillBuffer src b.readOffset r.sizes (List.replicate size 0)
      let w := transfer b.io size size
      let b := { b with
        io := w.script
        file := some (b.content ++ w.sizes.flatMap fun n => buf.take n) }
      (b, w.stop.map fun stop => (stopErrno stop).format)

/-- `strip_file` after the file has been renamed, up to its label `exit`. -/
def copyUnread (fsize : Nat) : MemfileBuffer × Option String :=
  match b.attempt with
  | (b, some e) => (b, some (failedTo "Failed to open file" e))
  | (b, none) =>
    match { b with isOpen := true, file := some b.content }.attempt with
    | (b, some e) => (b, some (failedTo "Failed to open temp file" e))
    | (b, none) =>
      match b.attempt with
      | (b, some e) => (b, some (failedTo "Failed to set file offset" e))
      | (b, none) =>
        match b.transferFile2file (fsize - b.readOffset) with
        | (b, some err) => (b, some ("Failed to transfer file content: " ++ err))
        | (b, none) => ({ b with readOffset := 0 }, none)

def removeFile : MemfileBuffer :=
  match b.attempt with
  | (b, some _) => b
  | (b, none) => { b with file := none }

/-- The temporary file becomes the file again, if the renaming succeeds, and is opened. -/
def restoreFile : MemfileBuffer :=
  match { b with isOpen := false }.removeFile.attempt with
  | (b, some _) => b
  | (b, none) =>
    match { b with file := b.tmp, tmp := none }.attempt with
    | (b, some _) => b
    | (b, none) => { b with isOpen := true }

def removeTmp : MemfileBuffer :=
  match b.attempt with
  | (b, some _) => b
  | (b, none) => { b with tmp := none }

def stripFile : MemfileBuffer × Option String :=
  match b.getSize with
  | (b, .error e) => (b, some (failedTo "Failed to get file size" e))
  | (b, .ok fsize) =>
    if fsize < b.readOffset then (b, some "File size is less than the read offset")
    else
      match { b with isOpen := false }.attempt with
      | (b, some e) => (b, some (failedTo "Failed to rename file" e))
      | (b, none) =>
        match { b with file := none, tmp := b.file }.copyUnread fsize with
        | (b, some err) => (b.restoreFile.removeTmp, some err)
        | (b, none) => (b.removeTmp, none)

/-! ## To the file -/

def needToStripFile (fsize dataSize : Nat) : Bool :=
  decide (b.maxFileSize.toNat < (fsize + dataSize) % sizeModulus) || (decide (0 < b.readOffset) &&
      (decide (b.maxFileSize.toNat * 3 % sizeModulus / 10 < b.readOffset) ||
        decide (fsize * 3 % sizeModulus / 10 < b.readOffset) ||
        decide (b.maxFileSize.toNat * 8 % sizeModulus / 10 < fsize)))

/-- The last part of `write_in_file`. A write that transfers less than it was asked for is taken as
done. -/
def appendToFile (data : Bytes) : MemfileBuffer × Option String :=
  match b.getSize with
  | (b, .error e) => (b, some (failedTo "Failed to get file size" e))
  | (b, .ok fsize) =>
    if b.maxFileSize.toNat ≤ fsize then (b, some "File reached its capacity")
    else
      let data := data.take (min data.length (b.maxFileSize.toNat - fsize))
      let (o, io) := b.io.next
      let b := { b with io := io }
      match o with
      | .failed e => (b, some (failedTo "Failed to write data" e))
      | o =>
        if o.limit data.length = 0 ∧ data ≠ [] then
          (b, some (failedTo "Failed to write data" (stopErrno .nothing)))
        else ({ b with file := some (b.content ++ data.take (o.limit data.length)) }, none)

/-- The file of `write_in_file`, opened if it is not. -/
def openFile : MemfileBuffer × Option String :=
  if b.isOpen then (b, none)
  else
    match b.attempt with
    | (b, some e) => (b, some (failedTo "Failed to open file" e))
    | (b, none) => ({ b with isOpen := true, file := some b.content }, none)

/-- The read part is stripped from the file when the heuristics ask for it. -/
def makeRoom (dataSize : Nat) : MemfileBuffer × Option String :=
  match b.getSize with
  | (b, .error e) => (b, some (failedTo "Failed to get file size" e))
  | (b, .ok fsize) =>
    if b.needToStripFile fsize dataSize then
      match b.stripFile with
      | (b, some err) => (b, some ("Failed to strip file: " ++ err))
      | (b, none) => (b, none)
    else (b, none)

def writeInFile (data : Bytes) : MemfileBuffer × Option String :=
  if data = [] then (b, none)
  else
    match b.openFile with
    | (b, some err) => (b, some err)
    | (b, none) =>
      match b.makeRoom data.length with
      | (b, some err) => (b, some err)
      | (b, none) => b.appendToFile data

/-! ## The public operations -/

def push (data : Bytes) : MemfileBuffer × Option String :=
  (b.transferMem2mem data).1.writeInFile (b.transferMem2mem data).2

def peek : MemfileBuffer × BufferPeekResult :=
  match b.transferFile2mem with
  | (b, some err) => (b, ⟨some err, []⟩)
  | (b, none) => (b, ⟨none, b.memBuffer.peek⟩)

def drain (length : Nat) : MemfileBuffer :=
  ({ b with memBuffer := b.memBuffer.drain length }.transferFile2mem).1

end MemfileBuffer

/-! ## The memory buffer as a queue -/

theorem sizeSub_eq {a b : Nat} (h : b ≤ a) (ha : a < sizeModulus) : sizeSub a b = a - b := by
  rw [sizeSub, Nat.mod_eq_sub_mod (by omega), Nat.mod_eq_of_lt (by omega)]
  omega

namespace MemoryBuffer

def bytes : Bytes := m.chunks.flatten

structure Valid (m : MemoryBuffer) : Prop where
  size : m.totalSize = m.bytes.length
  nonempty : ∀ c ∈ m.chunks, c ≠ []

@[simp] theorem bytes_push (data : Bytes) : (m.push data).bytes = m.bytes ++ data := by
  unfold push bytes
  split
  · next h => simp [h]
  · simp

variable {m : MemoryBuffer}

theorem Valid.push (h : m.Valid) (data : Bytes) : (m.push data).Valid := by
  refine ⟨?_, fun c hc => ?_⟩
  · rw [bytes_push, length_append, ← h.size]
    unfold MemoryBuffer.push
    split
    · next hd => simp [hd]
    · rfl
  · unfold MemoryBuffer.push at hc
    split at hc
    · exact h.nonempty c hc
    next hd =>
    rcases mem_append.mp hc with hc | hc
    · exact h.nonempty c hc
    · rw [mem_singleton.mp hc]
      exact hd

theorem flatten_drainChunks (chunks : List Bytes) (n : Nat) (hn : n ≤ chunks.flatten.length) :
    (drainChunks chunks n).flatten = chunks.flatten.drop n := by
  induction chunks generalizing n with
  | nil => simp [drainChunks]
  | cons front rest ih =>
    simp only [flatten_cons, length_append] at hn
    unfold drainChunks
    split
    · next h0 => simp [h0]
    next h0 =>
    dsimp only
    split
    · next hall =>
      have hle : front.length ≤ n := by omega
      rw [← hall, ih _ (by omega), flatten_cons, drop_append, drop_eq_nil_of_le hle, nil_append]
    · next hpart =>
      rw [flatten_cons, flatten_cons, drop_append_of_le_length (by omega)]
      congr 2
      omega

theorem drainChunks_nonempty {chunks : List Bytes} (h : ∀ c ∈ chunks, c ≠ []) (n : Nat) :
    ∀ c ∈ drainChunks chunks n, c ≠ [] := by
  induction chunks generalizing n with
  | nil => simp [drainChunks]
  | cons front rest ih =>
    intro c hc
    unfold drainChunks at hc
    split at hc
    · exact h c hc
    dsimp only at hc
    split at hc
    · exact ih (fun c hc => h c (by simp [hc])) _ c hc
    next hpart =>
    rcases mem_cons.mp hc with rfl | hc
    · rw [Ne, drop_eq_nil_iff]
      omega
    · exact h c (by simp [hc])

theorem bytes_drain (m : MemoryBuffer) {n : Nat} (hn : n ≤ m.bytes.length) : (m.drain n).bytes = m.bytes.drop n :=
  flatten_drainChunks m.chunks n hn

theorem Valid.drain (h : m.Valid) {n : Nat} (hn : n ≤ m.bytes.length) (hsize : m.bytes.length < sizeModulus) :
    (m.drain n).Valid := by
  refine ⟨?_, drainChunks_nonempty h.nonempty n⟩
  rw [bytes_drain m hn, length_drop]
  show sizeSub m.totalSize n = _
  rw [h.size, sizeSub_eq hn hsize]

theorem Valid.peek (h : m.Valid) : m.peek <+: m.bytes ∧ (m.bytes ≠ [] → m.peek ≠ []) := by
  unfold MemoryBuffer.peek bytes
  have hne := h.nonempty
  cases hc : m.chunks with
  | nil => simp
  | cons front rest =>
    rw [hc] at hne
    exact ⟨⟨rest.flatten, by simp⟩, fun _ => hne front (by simp)⟩

end MemoryBuffer

/-! ## The queue in memory and in the file -/

namespace MemfileBuffer

def unread : Bytes := b.content.drop b.readOffset

def bytes : Bytes := b.memBuffer.bytes ++ b.unread

structure WellFormed (b : MemfileBuffer) : Prop where
  mem : b.memBuffer.Valid
  bounded : b.memBuffer.totalSize ≤ b.threshold.toNat
  offset : b.readOffset ≤ b.content.length
  fileSize : b.content.length < sizeModulus
  closed : b.isOpen = false → b.content = []

/-- The file is used only when memory is full. -/
def Filled : Prop :=
  b.memBuffer.totalSize < b.threshold.toNat → b.unread = []

theorem threshold_lt : b.threshold.toNat < sizeModulus := b.threshold.toNat_lt

variable {b : MemfileBuffer} {n : Nat} {data q : Bytes}

theorem WellFormed.free (h : b.WellFormed) : b.getFreeMemSpace = b.threshold.toNat - b.memBuffer.totalSize :=
  sizeSub_eq h.bounded b.threshold_lt

theorem WellFormed.withMem (h : b.WellFormed) {m : MemoryBuffer} (hm : m.Valid)
    (hbound : m.totalSize ≤ b.threshold.toNat) : { b with memBuffer := m }.WellFormed :=
  ⟨hm, hbound, h.offset, h.fileSize, h.closed⟩

theorem bytes_withMem (b : MemfileBuffer) (m : MemoryBuffer) :
    { b with memBuffer := m }.bytes = m.bytes ++ b.unread := rfl

theorem attempt_done (h : b.io = []) : b.attempt = (b, none) := by
  simp only [attempt, h, attempt_nil]
  rw [← h]

theorem getSize_done (h : b.io = []) : b.getSize = (b, .ok b.content.length) := by
  simp [getSize, attempt_done h]

theorem readFromFile_done (hio : b.io = []) (hn : n ≤ b.content.length - b.readOffset) :
    b.readFromFile b.content.length n = ({ b with
        readOffset := b.readOffset + n
        memBuffer := b.memBuffer.push (b.unread.take n) }, none) := by
  obtain ⟨hstop, htotal, hscript⟩ := transfer_nil Errno hn
  simp [readFromFile, hio, hstop, htotal, hscript, readAt, unread]

def fitting (b : MemfileBuffer) : Nat :=
  min (b.threshold.toNat - b.memBuffer.totalSize) b.unread.length

def filled (b : MemfileBuffer) : MemfileBuffer :=
  { b with
    readOffset := b.readOffset + b.fitting
    memBuffer := b.memBuffer.push (b.unread.take b.fitting) }

theorem filled_of_fitting (h : b.fitting = 0) : b.filled = b := by
  simp [filled, h, MemoryBuffer.push]

theorem transferFile2mem_done (h : b.WellFormed) (hio : b.io = []) : b.transferFile2mem = (b.filled, none) := by
  have hfree := h.free
  have hoff := h.offset
  have hlen : b.unread.length = b.content.length - b.readOffset := length_drop
  -- nothing is read where nothing fits or nothing is unread
  have hstay : b.fitting = 0 → b.transferFile2mem = (b, none) → b.transferFile2mem = (b.filled, none) := by
    intro h0 heq
    rw [filled_of_fitting h0, heq]
  unfold fitting at hstay
  by_cases hopen : b.isOpen = true
  · by_cases hfull : b.getFreeMemSpace = 0
    · refine hstay (by omega) ?_
      simp [transferFile2mem, hfull]
    by_cases hread : b.content.length = b.readOffset
    · refine hstay (by omega) ?_
      simp [transferFile2mem, getSize_done hio, hread]
    have hpos : b.content.length ≠ 0 := by omega
    have hsub := sizeSub_eq h.offset h.fileSize
    have hfit : min b.getFreeMemSpace (b.content.length - b.readOffset) = b.fitting := by
      rw [fitting, hlen, hfree]
    have hdone := readFromFile_done (n := b.fitting) hio (by omega)
    simp only [transferFile2mem, hfull, getSize_done hio, attempt_done hio, hread, hpos, hsub, hfit, hdone]
    simp [filled, hopen]
  · have hclosed := h.closed (by simpa using hopen)
    rw [hclosed, length_nil] at hlen
    refine hstay (by omega) ?_
    simp [transferFile2mem, hopen]

theorem bytes_filled (b : MemfileBuffer) : b.filled.bytes = b.bytes := by
  have hrest : b.filled.unread = b.unread.drop b.fitting := by
    simp [filled, unread, content]
  rw [bytes, hrest]
  simp [filled, bytes]

theorem WellFormed.filled (h : b.WellFormed) : b.filled.WellFormed := by
  have hlen : b.unread.length = b.content.length - b.readOffset := length_drop
  have hsize := (h.mem.push (b.unread.take b.fitting)).size
  have hbound := h.bounded
  have hoff := h.offset
  rw [MemoryBuffer.bytes_push, length_append, ← h.mem.size, length_take] at hsize
  refine ⟨h.mem.push _, ?_, ?_, h.fileSize, h.closed⟩
  · show (b.memBuffer.push (b.unread.take b.fitting)).totalSize ≤ b.threshold.toNat
    unfold fitting at hsize ⊢
    omega
  · show b.readOffset + b.fitting ≤ b.content.length
    unfold fitting
    omega

theorem filled_filled (h : b.WellFormed) : b.filled.Filled := by
  intro hlt
  have hsize := (h.mem.push (b.unread.take b.fitting)).size
  rw [MemoryBuffer.bytes_push, length_append, ← h.mem.size, length_take] at hsize
  have hrest : b.filled.unread = b.unread.drop b.fitting := by
    simp [MemfileBuffer.filled, unread, content]
  replace hlt : (b.memBuffer.push (b.unread.take b.fitting)).totalSize < b.threshold.toNat := hlt
  rw [hrest, drop_eq_nil_iff]
  unfold fitting at hsize hlt ⊢
  omega

/-! ## Stripping and writing -/

def stripped (b : MemfileBuffer) : MemfileBuffer :=
  { b with file := some b.unread, readOffset := 0, tmp := none }

theorem fillBuffer_once (src : Bytes) (pos n : Nat) (buf : Bytes) (hbuf : buf.length ≤ n) :
    fillBuffer src pos [n] buf = readAt src pos n := by
  simp [fillBuffer, drop_eq_nil_of_le hbuf]

theorem transferFile2file_done (hio : b.io = []) (hn : n = (b.tmp.getD []).length - b.readOffset) :
    b.transferFile2file n =
      ({ b with file := if n = 0 then b.file else some (b.content ++ (b.tmp.getD []).drop b.readOffset) }, none) := by
  unfold transferFile2file
  split
  · rfl
  next h0 =>
  have hread : readAt (b.tmp.getD []) b.readOffset n = (b.tmp.getD []).drop b.readOffset := by
    rw [readAt, take_of_length_le (by rw [length_drop]; omega)]
  have hlen : ((b.tmp.getD []).drop b.readOffset).length = n := by
    rw [length_drop, hn]
  simp only [hio, transfer_done Errno (Nat.pos_of_ne_zero h0) (Nat.le_of_eq hn),
    transfer_done Errno (Nat.pos_of_ne_zero h0) (Nat.le_refl n),
    fillBuffer_once _ _ _ _ (Nat.le_of_eq length_replicate), hread]
  simp [content, take_of_length_le (Nat.le_of_eq hlen)]

theorem copyUnread_done (hio : b.io = []) (hfile : b.file = none) {fsize : Nat}
    (hsize : fsize = (b.tmp.getD []).length) : b.copyUnread fsize = ({ b with
        isOpen := true
        file := some ((b.tmp.getD []).drop b.readOffset)
        readOffset := 0 }, none) := by
  have hcopy : { b with isOpen := true, file := some b.content }.transferFile2file (fsize - b.readOffset) =
      ({ b with isOpen := true, file := some ((b.tmp.getD []).drop b.readOffset) }, none) := by
    have hcontent : b.content = [] := by simp [content, hfile]
    rw [transferFile2file_done (by exact hio) (by rw [hsize])]
    split
    · next h0 =>
      have hnone : (b.tmp.getD []).drop b.readOffset = [] := by
        rw [drop_eq_nil_iff]
        omega
      simp [hcontent, hnone]
    · simp [content, hfile]
  simp only [copyUnread, attempt_done, hio]
  rw [← hio, hcopy]

theorem stripFile_done (h : b.WellFormed) (hio : b.io = []) (hopen : b.isOpen = true) :
    b.stripFile = (b.stripped, none) := by
  have hoff : ¬b.content.length < b.readOffset := Nat.not_lt.mpr h.offset
  have hcopy : { b with isOpen := false, file := none, tmp := b.file }.copyUnread b.content.length =
      ({ b with isOpen := true, file := some b.unread, readOffset := 0, tmp := b.file }, none) :=
    copyUnread_done (by exact hio) rfl rfl
  simp only [stripFile, getSize_done hio, if_neg hoff, attempt_done, hio]
  rw [← hio, hcopy]
  simp [removeTmp, attempt_done, hio, stripped, hopen]

theorem WellFormed.stripped (h : b.WellFormed) (hopen : b.isOpen = true) : b.stripped.WellFormed := by
  have hsize := h.fileSize
  refine ⟨h.mem, h.bounded, Nat.zero_le _, ?_, fun hclosed => ?_⟩
  · show b.unread.length < _
    rw [unread, length_drop]
    omega
  · replace hclosed : b.isOpen = false := hclosed
    simp [hopen] at hclosed

def appended (b : MemfileBuffer) (data : Bytes) : MemfileBuffer :=
  { b with file := some (b.content ++ data) }

theorem appendToFile_done (hio : b.io = []) (hdata : data ≠ [])
    (hroom : b.content.length + data.length ≤ b.maxFileSize.toNat) :
    b.appendToFile data = (b.appended data, none) := by
  have hlen : 0 < data.length := length_pos_iff.mpr hdata
  have hcap : ¬b.maxFileSize.toNat ≤ b.content.length := by omega
  have htake : data.take (min data.length (b.maxFileSize.toNat - b.content.length)) = data := by
    rw [take_of_length_le]
    omega
  simp only [appendToFile, getSize_done hio, if_neg hcap, htake, Outcome.limit]
  simp [appended, content, hio]

theorem makeRoom_done (h : b.WellFormed) (hio : b.io = []) (hopen : b.isOpen = true)
    (hsum : b.content.length + n < sizeModulus) (hroom : b.unread.length + n ≤ b.maxFileSize.toNat) :
    ∃ b', b.makeRoom n = (b', none) ∧ (b' = b ∨ b' = b.stripped) ∧
      b'.content.length + n ≤ b.maxFileSize.toNat := by
  simp only [makeRoom, getSize_done hio]
  split
  · refine ⟨b.stripped, by rw [stripFile_done h hio hopen], .inr rfl, ?_⟩
    exact hroom
  next hneed =>
  refine ⟨b, rfl, .inl rfl, ?_⟩
  simp only [needToStripFile, Bool.or_eq_true, decide_eq_true_eq, Nat.mod_eq_of_lt hsum] at hneed
  omega

theorem writeInFile_done (h : b.WellFormed) (hio : b.io = []) (hsum : b.content.length + data.length < sizeModulus)
    (hroom : b.unread.length + data.length ≤ b.maxFileSize.toNat) :
    ∃ b', b.writeInFile data = (b', none) ∧ b'.WellFormed ∧ b'.memBuffer = b.memBuffer ∧
      b'.threshold = b.threshold ∧ b'.unread = b.unread ++ data := by
  unfold writeInFile
  split
  · next hnil => exact ⟨b, rfl, h, rfl, rfl, by rw [hnil, append_nil]⟩
  next hdata =>
  -- the opened file
  obtain ⟨o, ho, hwf, hoio, hopen, hmem, hthr, hmax, hcontent, hoff⟩ : ∃ o, b.openFile = (o, none) ∧
      o.WellFormed ∧ o.io = [] ∧ o.isOpen = true ∧ o.memBuffer = b.memBuffer ∧
      o.threshold = b.threshold ∧ o.maxFileSize = b.maxFileSize ∧ o.content = b.content ∧
      o.readOffset = b.readOffset := by
    unfold openFile
    split
    · next hopen => exact ⟨b, rfl, h, hio, hopen, rfl, rfl, rfl, rfl, rfl⟩
    · rw [attempt_done hio]
      exact ⟨_, rfl, ⟨h.mem, h.bounded, h.offset, h.fileSize, nofun⟩, hio, rfl, rfl, rfl, rfl, rfl, rfl⟩
  have hunread : o.unread = b.unread := by rw [unread, unread, hcontent, hoff]
  rw [← hcontent] at hsum
  rw [← hunread, ← hmax] at hroom
  obtain ⟨r, hr, hstrip, hspace⟩ := makeRoom_done hwf hoio hopen hsum hroom
  have hcases : r.WellFormed ∧ r.io = [] ∧ r.memBuffer = o.memBuffer ∧ r.threshold = o.threshold ∧
      r.maxFileSize = o.maxFileSize ∧ r.unread = o.unread ∧ r.isOpen = true := by
    rcases hstrip with rfl | rfl
    · exact ⟨hwf, hoio, rfl, rfl, rfl, rfl, hopen⟩
    · exact ⟨hwf.stripped hopen, hoio, rfl, rfl, rfl, rfl, hopen⟩
  obtain ⟨hrwf, hrio, hrmem, hrthr, hrmax, hrunread, hropen⟩ := hcases
  rw [← hrmax] at hspace
  refine ⟨r.appended data, ?_, ?_, hrmem.trans hmem, hrthr.trans hthr, ?_⟩
  · simp only [ho, hr]
    exact appendToFile_done hrio hdata hspace
  · have hle := hrwf.offset
    have hmaxlt : r.maxFileSize.toNat < sizeModulus := r.maxFileSize.toNat_lt
    have hlen : (r.appended data).content.length = r.content.length + data.length :=
      length_append
    refine ⟨hrwf.mem, hrwf.bounded, ?_, ?_, fun hclosed => ?_⟩
    · show r.readOffset ≤ _
      omega
    · omega
    · replace hclosed : r.isOpen = false := hclosed
      simp [hropen] at hclosed
  · show (r.content ++ data).drop r.readOffset = _
    rw [drop_append_of_le_length hrwf.offset]
    exact congrArg (· ++ data) (hrunread.trans hunread)

theorem transferMem2mem_eq (b : MemfileBuffer) (data : Bytes) : b.transferMem2mem data =
      ({ b with memBuffer := b.memBuffer.push (data.take b.getFreeMemSpace) }, data.drop b.getFreeMemSpace) := by
  unfold transferMem2mem
  generalize b.getFreeMemSpace = free
  by_cases h0 : free = 0
  · simp [h0, MemoryBuffer.push]
  · by_cases hle : data.length ≤ free
    · simp [h0, hle, take_of_length_le hle]
    · simp [h0, hle]

/-! ## The operations -/

structure HoldsQueue (b : MemfileBuffer) (q : Bytes) : Prop where
  wellFormed : b.WellFormed
  filled : b.Filled
  bytes : b.bytes = q

theorem HoldsQueue.store (h : b.HoldsQueue q) (hio : b.io = []) {m : MemoryBuffer} {rest : Bytes}
    (hm : m.Valid) (hbound : m.totalSize ≤ b.threshold.toNat) (hbytes : m.bytes ++ rest = b.memBuffer.bytes ++ data)
    (hfull : m.totalSize < b.threshold.toNat → rest = []) (hrest : rest.length ≤ data.length)
    (hkept : b.threshold.toNat ≤ b.memBuffer.totalSize → rest = data)
    (hsum : b.content.length + data.length < sizeModulus)
    (hroom : b.unread.length + rest.length ≤ b.maxFileSize.toNat) :
    ∃ w, { b with memBuffer := m }.writeInFile rest = (w, none) ∧ w.HoldsQueue (q ++ data) ∧
      w.threshold = b.threshold := by
  have hfilled := h.filled
  have hsum' : b.content.length + rest.length < sizeModulus := by omega
  obtain ⟨w, hw, hwwf, hwmem, hwthr, hwunread⟩ :=
    writeInFile_done (h.wellFormed.withMem hm hbound) hio hsum' hroom
  replace hwmem : w.memBuffer = m := hwmem
  replace hwthr : w.threshold = b.threshold := hwthr
  replace hwunread : w.unread = b.unread ++ rest := hwunread
  have hlen := congrArg List.length hbytes
  rw [length_append, length_append, ← hm.size, ← h.wellFormed.mem.size] at hlen
  refine ⟨w, hw, ⟨hwwf, fun hlt => ?_, ?_⟩, hwthr⟩
  · rw [hwmem, hwthr] at hlt
    have hnil := hfull hlt
    rw [hwunread, hnil, hfilled (by omega)]
    rfl
  · rw [MemfileBuffer.bytes, hwmem, hwunread, ← h.bytes, MemfileBuffer.bytes]
    by_cases hlt : b.memBuffer.totalSize < b.threshold.toNat
    · -- nothing was unread
      rw [hfilled hlt, nil_append, append_nil, hbytes]
    -- memory was full: all the data goes to the file
    have hall := hkept (by omega)
    rw [hall] at hbytes ⊢
    rw [append_cancel_right hbytes, append_assoc]

theorem HoldsQueue.push (h : b.HoldsQueue q) (hio : b.io = []) (hsum : b.content.length + data.length < sizeModulus)
    (hroom : b.unread.length + (data.length - (b.threshold.toNat - b.memBuffer.totalSize)) ≤ b.maxFileSize.toNat) :
    (b.push data).2 = none ∧ (b.push data).1.HoldsQueue (q ++ data) ∧ (b.push data).1.threshold = b.threshold := by
  have hbound := h.wellFormed.bounded
  have hvalid := h.wellFormed.mem.push (data.take (b.threshold.toNat - b.memBuffer.totalSize))
  have hsize := hvalid.size
  rw [MemoryBuffer.bytes_push, length_append, ← h.wellFormed.mem.size, length_take] at hsize
  rw [← length_drop] at hroom
  have hbytes : (b.memBuffer.push (data.take (b.threshold.toNat - b.memBuffer.totalSize))).bytes ++
      data.drop (b.threshold.toNat - b.memBuffer.totalSize) = b.memBuffer.bytes ++ data := by
    rw [MemoryBuffer.bytes_push, append_assoc, take_append_drop]
  obtain ⟨w, hw, hq⟩ := h.store hio hvalid (by omega) hbytes
    (fun hlt => drop_eq_nil_iff.mpr (by omega)) (by rw [length_drop]; omega)
    (fun hle => by rw [Nat.sub_eq_zero_of_le hle, drop_zero]) hsum hroom
  have hpush : b.push data = (w, none) := by
    rw [MemfileBuffer.push, transferMem2mem_eq, h.wellFormed.free]
    exact hw
  rw [hpush]
  exact ⟨rfl, hq⟩

theorem HoldsQueue.transfer (hwf : b.WellFormed) (hio : b.io = []) (hbytes : b.bytes = q) :
    ∃ b', b.transferFile2mem = (b', none) ∧ b'.HoldsQueue q ∧ b'.threshold = b.threshold :=
  ⟨b.filled, transferFile2mem_done hwf hio, ⟨hwf.filled, filled_filled hwf, (bytes_filled b).trans hbytes⟩, rfl⟩

section

variable (h : b.HoldsQueue q)
include h

theorem HoldsQueue.peek (hio : b.io = []) :
    b.peek.1.HoldsQueue q ∧ b.peek.1.threshold = b.threshold ∧ b.peek.2.err = none ∧
      b.peek.2.data <+: b.peek.1.memBuffer.bytes ∧ b.peek.2.data <+: q ∧
      (0 < b.threshold → q ≠ [] → b.peek.2.data ≠ []) := by
  obtain ⟨w, hw, hq, hthr⟩ := HoldsQueue.transfer h.wellFormed hio h.bytes
  have hpeek : b.peek = (w, ⟨none, w.memBuffer.peek⟩) := by
    simp [MemfileBuffer.peek, hw]
  obtain ⟨hpre, hne⟩ := hq.wellFormed.mem.peek
  rw [hpeek]
  refine ⟨hq, hthr, rfl, hpre, ?_, fun hpos hqne => hne fun hmem => hqne ?_⟩
  · rw [← hq.bytes]
    exact hpre.trans (List.prefix_append _ _)
  have hfree : w.memBuffer.totalSize < w.threshold.toNat := by
    rw [hq.wellFormed.mem.size, hmem, hthr]
    exact UInt64.lt_iff_toNat_lt.mp hpos
  rw [← hq.bytes, MemfileBuffer.bytes, hmem, hq.filled hfree]
  rfl

theorem HoldsQueue.drain (hio : b.io = []) (hn : n ≤ b.memBuffer.bytes.length) :
    (b.drain n).HoldsQueue (q.drop n) ∧ (b.drain n).threshold = b.threshold := by
  have hbound : b.memBuffer.bytes.length ≤ b.threshold.toNat := by
    rw [← h.wellFormed.mem.size]
    exact h.wellFormed.bounded
  have hlt := b.threshold_lt
  have hvalid := h.wellFormed.mem.drain hn (by omega)
  have hbytes := MemoryBuffer.bytes_drain b.memBuffer hn
  unfold MemfileBuffer.drain
  generalize b.memBuffer.drain n = m at hvalid hbytes ⊢
  have hlen := hvalid.size
  rw [hbytes, length_drop] at hlen
  have hqueue : { b with memBuffer := m }.bytes = q.drop n := by
    rw [bytes_withMem, hbytes, ← h.bytes, MemfileBuffer.bytes, drop_append_of_le_length hn]
  obtain ⟨w, hw, hq⟩ :=
    HoldsQueue.transfer (h.wellFormed.withMem hvalid (by omega)) hio hqueue
  rw [hw]
  exact hq

theorem HoldsQueue.memLength : b.memBuffer.bytes.length = min b.threshold.toNat q.length := by
  have hbound := h.wellFormed.bounded
  have hsize := h.wellFormed.mem.size
  have hlen := congrArg List.length h.bytes
  rw [MemfileBuffer.bytes, length_append] at hlen
  by_cases hlt : b.memBuffer.totalSize < b.threshold.toNat
  · rw [h.filled hlt, length_nil] at hlen
    omega
  · omega

theorem HoldsQueue.size (hio : b.io = []) (hq : q.length < sizeModulus) : b.size = q.length := by
  have hlen : b.unread.length = b.content.length - b.readOffset := length_drop
  have htotal : q.length = b.memBuffer.totalSize + b.unread.length := by
    rw [← h.bytes, MemfileBuffer.bytes, length_append, h.wellFormed.mem.size]
  have hfile : (if b.isOpen then (b.getSize.2).toOption.getD 0 else 0) = b.content.length := by
    split
    · rw [getSize_done hio]
      rfl
    · next hopen => rw [h.wellFormed.closed (by simpa using hopen)]; rfl
  rw [MemfileBuffer.size, hfile, sizeSub_eq h.wellFormed.offset h.wellFormed.fileSize, ← hlen,
    ← htotal, Nat.mod_eq_of_lt hq]

def succeeding (b : MemfileBuffer) : MemfileBuffer := { b with io := [] }

theorem HoldsQueue.succeeding : b.succeeding.HoldsQueue q :=
  ⟨⟨h.wellFormed.mem, h.wellFormed.bounded, h.wellFormed.offset, h.wellFormed.fileSize,
    h.wellFormed.closed⟩, h.filled, h.bytes⟩

end

theorem holdsQueue_create (threshold maxFileSize : UInt64) {file : Option Bytes}
    (hfile : file.getD [] = []) : (create threshold maxFileSize file).HoldsQueue [] := by
  have hcontent : (create threshold maxFileSize file).content = [] := hfile
  refine ⟨⟨⟨rfl, nofun⟩, Nat.zero_le _, Nat.zero_le _, ?_, fun _ => hcontent⟩, fun _ => ?_, ?_⟩
  · rw [hcontent]
    decide
  · rw [unread, hcontent, drop_nil]
  · show [] ++ _ = _
    rw [unread, hcontent]
    rfl

/-! ## A vector is pushed -/

/-- `transfer_mem2mem` of a vector: what fits is swapped out of it, and the range that was copied is erased from
what is left of it. `none` — the range ends behind the vector. -/
def transferMem2memVector (b : MemfileBuffer) (data : Bytes) : Option (MemfileBuffer × Bytes) :=
  let freeSpace := b.getFreeMemSpace
  if freeSpace = 0 then some (b, data)
  else
    let (chunk, data) := if data.length ≤ freeSpace then (data, []) else (data.take freeSpace, data)
    if chunk.length ≤ data.length then
      some ({ b with memBuffer := b.memBuffer.push chunk }, data.drop chunk.length)
    else none

def pushVector (b : MemfileBuffer) (data : Bytes) : Option (MemfileBuffer × Option String) :=
  (b.transferMem2memVector data).map fun r => r.1.writeInFile r.2

theorem transferMem2memVector_fits (hdata : data ≠ []) (hfits : data.length ≤ b.getFreeMemSpace) :
    b.transferMem2memVector data = none := by
  have hlen := length_pos_iff.mpr hdata
  rw [transferMem2memVector]
  generalize b.getFreeMemSpace = free at hfits ⊢
  rw [if_neg (by omega), if_pos hfits]
  exact if_neg (by simpa using hdata)

theorem transferMem2memVector_cut (h : data = [] ∨ b.getFreeMemSpace < data.length) :
    b.transferMem2memVector data = some (b.transferMem2mem data) := by
  rw [transferMem2mem_eq, transferMem2memVector]
  generalize b.getFreeMemSpace = free at h ⊢
  by_cases h0 : free = 0
  · rw [if_pos h0, h0]
    rfl
  rw [if_neg h0]
  rcases h with rfl | hcut
  · rw [if_pos (show [].length ≤ free from Nat.zero_le _), take_nil, drop_nil]
    rfl
  have hle : free ≤ data.length := Nat.le_of_lt hcut
  rw [if_neg (Nat.not_le.mpr hcut)]
  dsimp only
  rw [length_take, Nat.min_eq_left hle, if_pos hle]

theorem pushVector_eq_push_iff (b : MemfileBuffer) (data : Bytes) :
    b.pushVector data = some (b.push data) ↔ data = [] ∨ b.getFreeMemSpace < data.length := by
  refine ⟨fun h => ?_, fun h => ?_⟩
  · by_contra hfits
    rw [not_or, Nat.not_lt] at hfits
    rw [pushVector, transferMem2memVector_fits hfits.1 hfits.2] at h
    cases h
  · rw [pushVector, transferMem2memVector_cut h]
    rfl

/-- One byte is pushed to an empty buffer. -/
theorem pushVector_small : (create 8 8 none).pushVector [7] = none ∧ ((create 8 8 none).push [7]).2 = none := by
  decide +kernel

end MemfileBuffer

/-! ## Runs -/

inductive Op where
  | push (data : Bytes)
  | peek
  | drain (length : Nat)

inductive Reply where
  | pushed (err : Option String)
  | peeked (result : BufferPeekResult)

def Reply.err : Reply → Option String
  | .pushed err => err
  | .peeked r => r.err

@[simp] theorem Reply.err_pushed (err : Option String) : (Reply.pushed err).err = err := rfl
@[simp] theorem Reply.err_peeked (r : BufferPeekResult) : (Reply.peeked r).err = r.err := rfl

structure Caller where
  buffer : MemfileBuffer
  peeked : Nat

variable (c : Caller)

namespace Caller

def step (e : Op × Script Errno) : Caller × List Reply :=
  let b := { c.buffer with io := e.2 }
  match e.1 with
  | .push data => ({ c with buffer := (b.push data).1 }, [.pushed (b.push data).2])
  | .peek => (⟨b.peek.1, b.peek.2.data.length⟩, [.peeked b.peek.2])
  | .drain length => (⟨b.drain length, c.peeked - length⟩, [])

def system (threshold maxFileSize : UInt64) (file : Option Bytes) : System Caller (Op × Script Errno) Reply :=
  ⟨⟨.create threshold maxFileSize file, 0⟩, step⟩

/-- 2^63: a file and a byte view are smaller. -/
def sizeLimit : Nat := 9223372036854775808

/-- The unread part of the file stays within `max_file_size`; no more is drained than was peeked. -/
def Admissible : Op → Prop
  | .push data =>
    c.buffer.content.length < sizeLimit ∧ data.length < sizeLimit ∧ c.buffer.unread.length +
          (data.length - (c.buffer.threshold.toNat - c.buffer.memBuffer.totalSize)) ≤
        c.buffer.maxFileSize.toNat
  | .peek => True
  | .drain length => length ≤ c.peeked

/-- The operation is used as it should be, and its file operations succeed and transfer what they are
asked to. -/
def Usable (e : Op × Script Errno) : Prop := e.2 = [] ∧ c.Admissible e.1

instance (c : Caller) : (o : Op) → Decidable (c.Admissible o)
  | .push _ => inferInstanceAs (Decidable (_ ∧ _ ∧ _))
  | .peek => inferInstanceAs (Decidable True)
  | .drain _ => inferInstanceAs (Decidable (_ ≤ _))

instance (c : Caller) (e : Op × Script Errno) : Decidable (c.Usable e) :=
  inferInstanceAs (Decidable (_ ∧ _))

def fifo (q : Bytes) : Op → Bytes
  | .push data => q ++ data
  | .peek => q
  | .drain length => q.drop length

def queueAfter (es : List (Op × Script Errno)) : Bytes := (es.map Prod.fst).foldl fifo []

theorem queueAfter_snoc (es : List (Op × Script Errno)) (e : Op × Script Errno) :
    queueAfter (es ++ [e]) = fifo (queueAfter es) e.1 := by
  simp [queueAfter]

structure Serves (t : UInt64) (c : Caller) (q : Bytes) : Prop where
  holds : c.buffer.HoldsQueue q
  threshold : c.buffer.threshold = t
  peeked : c.peeked ≤ min t.toNat q.length

theorem step_push (data : Bytes) : c.step (.push data, []) =
    (⟨(c.buffer.succeeding.push data).1, c.peeked⟩, [.pushed (c.buffer.succeeding.push data).2]) :=
  rfl

theorem step_peek : c.step (.peek, []) = (⟨c.buffer.succeeding.peek.1, c.buffer.succeeding.peek.2.data.length⟩,
      [.peeked c.buffer.succeeding.peek.2]) :=
  rfl

theorem Serves.intro {t : UInt64} {b : MemfileBuffer} {q : Bytes} {n : Nat} (hq : b.HoldsQueue q)
    (hthr : b.threshold = t) (hpeeked : n ≤ min t.toNat q.length) : Serves t ⟨b, n⟩ q :=
  ⟨hq, hthr, hpeeked⟩

theorem serves_step {t : UInt64} {c : Caller} {q : Bytes} (h : c.Serves t q)
    {e : Op × Script Errno} (he : c.Usable e) :
    (c.step e).1.Serves t (fifo q e.1) ∧ ∀ r ∈ (c.step e).2, r.err = none := by
  obtain ⟨op, io⟩ := e
  obtain ⟨hio, hop⟩ := he
  subst hio
  have hholds := h.holds.succeeding
  have hthr := h.threshold
  have hpeeked := h.peeked
  cases op with
  | push data =>
    obtain ⟨hfile, hdata, hroom⟩ := hop
    obtain ⟨herr, hq, hkept⟩ := hholds.push rfl (Nat.lt_of_lt_of_le (Nat.add_lt_add hfile hdata) (by decide)) hroom
    rw [step_push]
    refine ⟨.intro hq (hkept.trans hthr) ?_, fun r hr => ?_⟩
    · show c.peeked ≤ min t.toNat (q ++ data).length
      rw [length_append]
      omega
    · rw [mem_singleton.mp hr, Reply.err_pushed, herr]
  | peek =>
    obtain ⟨hq, hkept, herr, hpre, -, -⟩ := hholds.peek rfl
    have hlen := hq.memLength
    rw [hkept.trans hthr] at hlen
    rw [step_peek]
    refine ⟨.intro hq (hkept.trans hthr) (Nat.le_trans hpre.length_le (Nat.le_of_eq hlen)), fun r hr => ?_⟩
    rw [mem_singleton.mp hr, Reply.err_peeked, herr]
  | drain n =>
    have hlen : c.buffer.memBuffer.bytes.length = min t.toNat q.length := hthr ▸ h.holds.memLength
    obtain ⟨hq, hkept⟩ := hholds.drain rfl (Nat.le_trans (Nat.le_trans hop hpeeked) (Nat.le_of_eq hlen.symm))
    refine ⟨.intro hq (hkept.trans hthr) ?_, nofun⟩
    show c.peeked - n ≤ min t.toNat (q.drop n).length
    rw [length_drop]
    omega

theorem serves_run {threshold maxFileSize : UInt64} {file : Option Bytes} (hfile : file.getD [] = [])
    {es : List (Op × Script Errno)}
    (hes : (system threshold maxFileSize file).Meets Usable (system threshold maxFileSize file).init es) :
    ((system threshold maxFileSize file).exec (system threshold maxFileSize file).init es).Serves
        threshold (queueAfter es) ∧ ∀ r ∈ System.outputs ((system threshold maxFileSize file).trace
        (system threshold maxFileSize file).init es), r.err = none := by
  have hrun := (system threshold maxFileSize file).inv_run
    (J := fun h c => c.Serves threshold (queueAfter (h.map Record.call)) ∧ ∀ r ∈ System.outputs h, r.err = none)
    ⟨⟨MemfileBuffer.holdsQueue_create threshold maxFileSize hfile, rfl, Nat.zero_le _⟩, by simp⟩ ?_ es
    hes
  · rwa [System.map_call_trace] at hrun
  rintro h c e ⟨hserves, hold⟩ he
  obtain ⟨hnext, houts⟩ := serves_step hserves he
  refine ⟨?_, fun r hr => ?_⟩
  · rw [map_append, map_singleton, queueAfter_snoc]
    exact hnext
  rw [System.outputs_append, System.outputs_record] at hr
  rcases mem_append.mp hr with hr | hr
  · exact hold r hr
  · exact houts r hr

/-- A buffer for which there is no file yet, whatever its threshold and the largest size of its file.
Operations succeed; memory holds the first bytes of the queue, never more than the threshold, and all
of it while there is room; the next peek returns a first part of the queue, which is not empty if the
threshold is not 0 and the queue is not empty; the size is that of the queue. -/
theorem memfile_fifo (threshold maxFileSize : UInt64) (file : Option Bytes)
    (hfile : file.getD [] = []) (es : List (Op × Script Errno))
    (hes : (system threshold maxFileSize file).Meets Usable (system threshold maxFileSize file).init
      es) (b : MemfileBuffer)
    (hb : b = ((system threshold maxFileSize file).exec (system threshold maxFileSize file).init es).buffer) :
    (∀ r ∈ System.outputs ((system threshold maxFileSize file).trace
      (system threshold maxFileSize file).init es), r.err = none) ∧ b.memBuffer.bytes ++ b.unread = queueAfter es ∧
    b.memBuffer.size ≤ threshold.toNat ∧ (b.memBuffer.size < threshold.toNat → b.unread = []) ∧
    b.succeeding.peek.2.err = none ∧ b.succeeding.peek.2.data <+: queueAfter es ∧
    (0 < threshold → queueAfter es ≠ [] → b.succeeding.peek.2.data ≠ []) ∧
    ((queueAfter es).length < sizeModulus → b.succeeding.size = (queueAfter es).length) := by
  obtain ⟨hserves, hrep⟩ := serves_run hfile hes
  have hq := hserves.holds
  have hthr := hserves.threshold
  rw [← hb] at hq hthr
  obtain ⟨-, -, herr, -, hpre, hne⟩ := hq.succeeding.peek rfl
  refine ⟨hrep, hq.bytes, ?_, ?_, herr, hpre, ?_, fun hlt => hq.succeeding.size rfl hlt⟩
  · rw [← hthr]
    exact hq.wellFormed.bounded
  · rw [← hthr]
    exact hq.filled
  · rw [← hthr]
    exact hne

def spilledBytes : List (Op × Script Errno) :=
  [(.push [1, 2, 3, 4, 5], []), (.peek, []), (.drain 2, []), (.push [6, 7], []), (.peek, []),
   (.drain 1, []), (.drain 1, []), (.peek, [])]

theorem memfile_fifo_spilled : (system 2 4 none).Meets Usable (system 2 4 none).init spilledBytes ∧
      queueAfter spilledBytes = [5, 6, 7] ∧
      ((system 2 4 none).exec (system 2 4 none).init spilledBytes).buffer.file = some [5, 6, 7] ∧
      ((system 2 4 none).exec (system 2 4 none).init spilledBytes).buffer.succeeding.peek.2.data <+:
        queueAfter spilledBytes :=
  have hmeets : (system 2 4 none).Meets Usable (system 2 4 none).init spilledBytes := by
    decide +kernel
  ⟨hmeets, by decide +kernel, by decide +kernel, (memfile_fifo 2 4 none rfl spilledBytes hmeets _ rfl).2.2.2.2.2.1⟩

/-- A buffer without memory keeps a byte that it never shows. -/
theorem no_memory_no_peek : (system 0 4 none).Meets Usable (system 0 4 none).init [(.push [1], [])] ∧
      queueAfter [(.push [1], [])] = [1] ∧
      ((system 0 4 none).exec (system 0 4 none).init [(.push [1], [])]).buffer.succeeding.size = 1 ∧
      ((system 0 4 none).exec (system 0 4 none).init [(.push [1], [])]).buffer.succeeding.peek.2 = ⟨none, []⟩ := by
  decide +kernel

end Caller

end TrustTunnel.Buffer
