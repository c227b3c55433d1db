import TrustTunnel.Buffer.Memfile

/-!
# Buffer.Ring

`PersistentRingBuffer` (`persistent_ring_buffer.cpp`): a file with a header and a fixed number of
slots. Each call opens the file, reads the header back and locates records by their sequence number
modulo the capacity.

The model works on the bytes of the file. `Image` says which file stands for which records.
-/

namespace TrustTunnel.Buffer

open Lib Lib.File List Option

/-! ## The file -/

structure Disk where
  file : Option Bytes
  io : Script Unit

namespace Disk

def content (d : Disk) : Bytes := d.file.getD []

def attempt (d : Disk) : Disk × Bool := ({ d with io := d.io.attempt.2 }, d.io.attempt.1.isNone)

/-- 2^63: file positions are signed. -/
def positionLimit : Nat := 9223372036854775808

/-- `write_at`: what was written before a failure stays in the file. -/
def writeAt (d : Disk) (pos : Nat) (data : Bytes) : Disk × Bool :=
  if positionLimit ≤ pos then (d, false)
  else
    match d.attempt with
    | (d, false) => (d, false)
    | (d, true) =>
      let t := transfer d.io data.length data.length
      let written := if t.total = 0 then d.content else File.writeAt d.content pos (data.take t.total)
      (⟨some written, t.script⟩, t.stop.isNone)

/-- `read_at`: all of the bytes or none. -/
def readAt (d : Disk) (size pos : Nat) : Disk × Option Bytes :=
  let t := transfer d.io (d.content.length - pos) size
  ({ d with io := t.script }, if t.stop.isNone then some (File.readAt d.content pos size) else none)

/-- `file::open`, which creates the file if `create` is set. -/
def openFile (d : Disk) (create : Bool) : Disk × Bool :=
  match d.attempt with
  | (d, false) => (d, false)
  | (d, true) => ({ d with file := if create then some d.content else d.file }, true)

end Disk

structure Header where
  magic : UInt32
  version : UInt32
  capacity : UInt32
  maxRecordBytes : UInt32
  writeSlot : UInt32
  count : UInt32
  nextSequence : UInt64

def fileMagic : UInt32 := 0x514c5242
def fileVersion : UInt32 := 1
def headerSize : Nat := 32
/-- `'R'` -/
def slotMarker : UInt8 := 82

def Header.toBytes (h : Header) : Bytes :=
  encode 4 h.magic.toNat ++ encode 4 h.version.toNat ++ encode 4 h.capacity.toNat ++
    encode 4 h.maxRecordBytes.toNat ++ encode 4 h.writeSlot.toNat ++ encode 4 h.count.toNat ++
    encode 8 h.nextSequence.toNat

def field (b : Bytes) (pos size : Nat) : Nat := decode (File.readAt b pos size)

def Header.ofBytes (b : Bytes) : Header :=
  ⟨.ofNat (field b 0 4), .ofNat (field b 4 4), .ofNat (field b 8 4), .ofNat (field b 12 4),
   .ofNat (field b 16 4), .ofNat (field b 20 4), .ofNat (field b 24 8)⟩

structure RingBufferReadResult where
  records : List Bytes
  nextSequence : UInt64
  deriving DecidableEq

structure PersistentRingBuffer where
  maxRecords : UInt32
  maxRecordBytes : UInt32

namespace PersistentRingBuffer

variable (p : PersistentRingBuffer)

def slotSize : Nat := 1 + 4 + p.maxRecordBytes.toNat

def slotOffset (index : UInt32) : Nat := (headerSize + index.toNat * p.slotSize) % sizeModulus

def valid (h : Header) : Bool :=
  h.magic == fileMagic && h.version == fileVersion && h.capacity == p.maxRecords &&
    h.maxRecordBytes == p.maxRecordBytes && decide (h.writeSlot < h.capacity) &&
    decide (h.count ≤ h.capacity) && decide (h.count.toUInt64 ≤ h.nextSequence)

def readHeader (d : Disk) : Disk × Option Header :=
  match d.readAt headerSize 0 with
  | (d, none) => (d, none)
  | (d, some b) => (d, if p.valid (.ofBytes b) then some (.ofBytes b) else none)

def writeHeader (d : Disk) (h : Header) : Disk × Bool := d.writeAt 0 h.toBytes

/-- A record in its slot, filled up with zeros. -/
def slotBytes (record : Bytes) : Bytes :=
  slotMarker :: encode 4 record.length ++ record ++ List.replicate (p.maxRecordBytes.toNat - record.length) 0

def writeSlot (d : Disk) (slotIndex : UInt32) (record : Bytes) : Disk × Bool :=
  d.writeAt (p.slotOffset slotIndex) (p.slotBytes record)

def parseSlot (slot : Bytes) : Option Bytes :=
  if slot.head? ≠ some slotMarker then none
  else if p.maxRecordBytes.toNat < field slot 1 4 then none
  else some (File.readAt slot 5 (field slot 1 4))

def readSlot (d : Disk) (slotIndex : UInt32) : Disk × Option Bytes :=
  match d.readAt p.slotSize (p.slotOffset slotIndex) with
  | (d, none) => (d, none)
  | (d, some slot) => (d, p.parseSlot slot)

def advance (h : Header) : Header :=
  { h with
    writeSlot := (h.writeSlot + 1) % h.capacity
    count := min (h.count + 1) h.capacity
    nextSequence := h.nextSequence + 1 }

def newHeader : Header := ⟨fileMagic, fileVersion, p.maxRecords, p.maxRecordBytes, 0, 0, 0⟩

def appendRecord (d : Disk) (record : Bytes) : Disk × Bool :=
  match p.readHeader d with
  | (d, none) => (d, false)
  | (d, some h) =>
    match p.writeSlot d h.writeSlot record with
    | (d, false) => (d, false)
    | (d, true) => writeHeader d (advance h)

def append (d : Disk) (record : Bytes) : Disk × Bool :=
  if p.maxRecordBytes.toNat < record.length then (d, false)
  else
    let created := d.file.isNone
    match d.openFile true with
    | (d, false) => (d, false)
    | (d, true) =>
      if created then
        match writeHeader d p.newHeader with
        | (d, false) => (d, false)
        | (d, true) => p.appendRecord d record
      else p.appendRecord d record

def clamp (v lo hi : UInt64) : UInt64 := if v < lo then lo else if hi < v then hi else v

/-- The loop of `read_since` over `k` sequence numbers. -/
def readRecords (capacity : UInt32) : Nat → UInt64 → Disk → Disk × Option (List Bytes)
  | 0, _, d => (d, some [])
  | k + 1, seq, d =>
    match p.readSlot d (seq % capacity.toUInt64).toUInt32 with
    | (d, none) => (d, none)
    | (d, some record) =>
      match readRecords capacity k (seq + 1) d with
      | (d, none) => (d, none)
      | (d, some records) => (d, some (record :: records))

def readSince (d : Disk) (nextSequence : Option UInt64) : Disk × Option RingBufferReadResult :=
  if d.file.isNone then (d, some ⟨[], 0⟩)
  else
    match d.openFile false with
    | (d, false) => (d, none)
    | (d, true) =>
      match p.readHeader d with
      | (d, none) => (d, none)
      | (d, some h) =>
        let earliestRetained := h.nextSequence - h.count.toUInt64
        let start := clamp (nextSequence.getD earliestRetained) earliestRetained h.nextSequence
        match p.readRecords h.capacity (h.nextSequence.toNat - start.toNat) start d with
        | (d, none) => (d, none)
        | (d, some records) => (d, some ⟨records, h.nextSequence⟩)

def readAll (d : Disk) : Disk × Option RingBufferReadResult := p.readSince d none

def clear (d : Disk) : Disk × Bool :=
  match d.attempt with
  | (d, false) => (d, false)
  | (d, true) => ({ d with file := none }, true)

end PersistentRingBuffer

/-! ## Bytes -/

variable {b : Bytes} {n : Nat}

theorem readAt_whole (h : b.length = n) : File.readAt b 0 n = b := by
  rw [File.readAt, drop_zero, ← h, take_length]

theorem readAt_append_left {a : Bytes} (h : a.length = n) : File.readAt (a ++ b) 0 n = a := by
  rw [File.readAt, drop_zero, ← h, take_left]

theorem readAt_append_right {a : Bytes} {pos : Nat} (h : a.length ≤ pos) :
    File.readAt (a ++ b) pos n = File.readAt b (pos - a.length) n := by
  rw [File.readAt, File.readAt, drop_append, drop_eq_nil_of_le h, nil_append]

theorem decode_encode_uint32 (n : UInt32) : UInt32.ofNat (decode (encode 4 n.toNat)) = n := by
  have hlt : n.toNat < 256 ^ 4 := n.toNat_lt
  rw [decode_encode, Nat.mod_eq_of_lt hlt, UInt32.ofNat_toNat]

theorem decode_encode_uint64 (n : UInt64) : UInt64.ofNat (decode (encode 8 n.toNat)) = n := by
  have hlt : n.toNat < 256 ^ 8 := n.toNat_lt
  rw [decode_encode, Nat.mod_eq_of_lt hlt, UInt64.ofNat_toNat]

@[simp] theorem Header.length_toBytes (h : Header) : h.toBytes.length = headerSize := by
  simp [Header.toBytes, headerSize]

theorem Header.ofBytes_toBytes (h : Header) : ofBytes h.toBytes = h := by
  simp [ofBytes, toBytes, field, readAt_whole, readAt_append_left, readAt_append_right,
    decode_encode_uint32, decode_encode_uint64]

namespace PersistentRingBuffer

variable {p : PersistentRingBuffer}

theorem length_slotBytes {record : Bytes} (h : record.length ≤ p.maxRecordBytes.toNat) :
    (p.slotBytes record).length = p.slotSize := by
  simp only [slotBytes, slotSize, length_cons, length_append, length_encode, length_replicate]
  omega

theorem parseSlot_slotBytes {record : Bytes} (h : record.length ≤ p.maxRecordBytes.toNat) :
    p.parseSlot (p.slotBytes record) = some record := by
  have hlt := p.maxRecordBytes.toNat_lt
  have hlen : field (p.slotBytes record) 1 4 = record.length := by
    have hread : File.readAt (p.slotBytes record) 1 4 = encode 4 record.length := by
      rw [slotBytes, ← singleton_append, append_assoc, append_assoc,
        readAt_append_right (by simp), length_singleton, readAt_append_left (length_encode 4 _)]
    rw [field, hread, decode_encode]
    exact Nat.mod_eq_of_lt (by omega)
  have hrecord : File.readAt (p.slotBytes record) 5 record.length = record := by
    have hfront : (slotMarker :: encode 4 record.length).length = 5 := by simp
    rw [slotBytes, append_assoc, readAt_append_right (by omega), hfront, readAt_append_left rfl]
  rw [parseSlot, if_neg (by simp [slotBytes]), hlen, if_neg (by omega), hrecord]

end PersistentRingBuffer

/-! ## When file operations succeed -/

namespace Disk

variable {d : Disk} {pos : Nat}

theorem attempt_done (h : d.io = []) : d.attempt = (d, true) := by
  obtain ⟨file, io⟩ := d
  subst h
  rfl

theorem openFile_done (h : d.io = []) (create : Bool) :
    d.openFile create = (⟨if create then some d.content else d.file, []⟩, true) := by
  obtain ⟨file, io⟩ := d
  subst h
  rfl

theorem writeAt_done (h : d.io = []) (hpos : pos < positionLimit) {data : Bytes} (hdata : 0 < data.length) :
    d.writeAt pos data = (⟨some (File.writeAt d.content pos data), []⟩, true) := by
  have hne : ¬data.length = 0 := by omega
  rw [writeAt, if_neg (by omega), attempt_done h]
  simp [h, transfer_done Unit hdata (Nat.le_refl _), Transfer.total, hne]

theorem writeAt_refused (hpos : positionLimit ≤ pos) (data : Bytes) : d.writeAt pos data = (d, false) := by
  rw [writeAt, if_pos hpos]

theorem readAt_done (h : d.io = []) {size : Nat} (hin : pos + size ≤ d.content.length) :
    d.readAt size pos = (d, some (File.readAt d.content pos size)) := by
  have havail : size ≤ d.content.length - pos := by omega
  obtain ⟨hstop, -, hscript⟩ := transfer_nil Unit havail
  obtain ⟨file, io⟩ := d
  subst h
  simp [readAt, hstop, hscript]

end Disk

/-! ## The file as a ring -/

namespace PersistentRingBuffer

variable {p : PersistentRingBuffer}

def headerAfter (p : PersistentRingBuffer) (n : Nat) : Header :=
  ⟨fileMagic, fileVersion, p.maxRecords, p.maxRecordBytes, .ofNat (n % p.maxRecords.toNat),
   .ofNat (min n p.maxRecords.toNat), .ofNat n⟩

def place (p : PersistentRingBuffer) (i : Nat) : Nat :=
  headerSize + i % p.maxRecords.toNat * p.slotSize

/-- There is a slot, and counting records does not overflow. -/
structure Supported (p : PersistentRingBuffer) : Prop where
  pos : 0 < p.maxRecords.toNat
  small : p.maxRecords.toNat + 1 < 4294967296

/-- 2^64 -/
def sequenceLimit : Nat := 18446744073709551616

variable {n i : Nat} {c record : Bytes} {recs : List Bytes} {d : Disk}

theorem toNat_nextSequence (h : n < sequenceLimit) : (p.headerAfter n).nextSequence.toNat = n :=
  UInt64.toNat_ofNat_of_lt' h

theorem toNat_count (n : Nat) : (p.headerAfter n).count.toNat = min n p.maxRecords.toNat := by
  have hlt := p.maxRecords.toNat_lt
  exact UInt32.toNat_ofNat_of_lt' (show _ < 4294967296 by omega)

theorem toNat_writeSlot (hp : p.Supported) (n : Nat) : (p.headerAfter n).writeSlot.toNat = n % p.maxRecords.toNat := by
  have hlt := p.maxRecords.toNat_lt
  have hmod := Nat.mod_lt n hp.pos
  exact UInt32.toNat_ofNat_of_lt' (show _ < 4294967296 by omega)

theorem valid_headerAfter (hp : p.Supported) (hn : n < sequenceLimit) : p.valid (p.headerAfter n) = true := by
  have hslot : (p.headerAfter n).writeSlot < (p.headerAfter n).capacity :=
    UInt32.lt_iff_toNat_lt.mpr (toNat_writeSlot hp n ▸ Nat.mod_lt n hp.pos)
  have hcount : (p.headerAfter n).count ≤ (p.headerAfter n).capacity :=
    UInt32.le_iff_toNat_le.mpr (toNat_count n ▸ Nat.min_le_right _ _)
  have hseq : (p.headerAfter n).count.toUInt64 ≤ (p.headerAfter n).nextSequence := by
    rw [UInt64.le_iff_toNat_le, UInt32.toNat_toUInt64, toNat_count, toNat_nextSequence hn]
    exact Nat.min_le_left _ _
  simp only [valid, hslot, hcount, hseq]
  simp [headerAfter]

theorem advance_headerAfter (hp : p.Supported) (hn : n + 1 < sequenceLimit) :
    advance (p.headerAfter n) = p.headerAfter (n + 1) := by
  have hsmall := hp.small
  have hpos := hp.pos
  have hslot : ((p.headerAfter n).writeSlot + 1) % p.maxRecords = (p.headerAfter (n + 1)).writeSlot := by
    rw [← UInt32.toNat_inj, UInt32.toNat_mod, UInt32.toNat_add, toNat_writeSlot hp, toNat_writeSlot hp]
    have hmod := Nat.mod_lt n hpos
    rw [show (1 : UInt32).toNat = 1 from rfl, Nat.mod_eq_of_lt (b := 2 ^ 32) (by omega), Nat.mod_add_mod]
  have hcount : min ((p.headerAfter n).count + 1) p.maxRecords = (p.headerAfter (n + 1)).count := by
    have hsum : ((p.headerAfter n).count + 1).toNat = min n p.maxRecords.toNat + 1 := by
      rw [UInt32.toNat_add, toNat_count, show (1 : UInt32).toNat = 1 from rfl]
      exact Nat.mod_eq_of_lt (by omega)
    rw [← UInt32.toNat_inj, toNat_count, UInt32.min_def]
    split
    · next hle =>
      rw [UInt32.le_iff_toNat_le] at hle
      omega
    · next hlt =>
      rw [UInt32.le_iff_toNat_le] at hlt
      omega
  have hnext : (p.headerAfter n).nextSequence + 1 = (p.headerAfter (n + 1)).nextSequence := by
    rw [← UInt64.toNat_inj, UInt64.toNat_add, toNat_nextSequence (by omega), toNat_nextSequence hn]
    exact Nat.mod_eq_of_lt hn
  exact Header.mk.injEq .. ▸ ⟨rfl, rfl, rfl, rfl, hslot, hcount, hnext⟩

open Disk

/-- The file stands for the records that were accepted. -/
structure Image (p : PersistentRingBuffer) (c : Bytes) (recs : List Bytes) : Prop where
  header : File.readAt c 0 headerSize = (p.headerAfter recs.length).toBytes
  length : headerSize ≤ c.length
  sized : ∀ r ∈ recs, r.length ≤ p.maxRecordBytes.toNat
  /-- a retained record is in its slot -/
  slots : ∀ i r, recs[i]? = some r → recs.length ≤ i + p.maxRecords.toNat →
    File.readAt c (p.place i) p.slotSize = p.slotBytes r ∧ p.place i + p.slotSize ≤ c.length
  /-- slots that were written have a position in the file -/
  positions : ∀ i, i < recs.length → i < p.maxRecords.toNat → p.place i < positionLimit

theorem image_new : p.Image p.newHeader.toBytes [] where
  header := readAt_whole (Header.length_toBytes _)
  length := Nat.le_of_eq (Header.length_toBytes _).symm
  sized := nofun
  slots := nofun
  positions := nofun

/-- Two retained records, or a retained one and the next, have different slots. -/
theorem mod_ne_of_lt {k : Nat} (hlt : i < n) (hnear : n < i + k) : i % k ≠ n % k := by
  intro heq
  have hdvd : k ∣ n - i := Nat.dvd_of_mod_eq_zero (Nat.sub_mod_eq_zero_of_mod_eq heq.symm)
  have hle := Nat.le_of_dvd (by omega) hdvd
  omega

theorem place_apart {j : Nat} (h : i % p.maxRecords.toNat ≠ j % p.maxRecords.toNat) :
    p.place i + p.slotSize ≤ p.place j ∨ p.place j + p.slotSize ≤ p.place i := by
  unfold place
  rcases Nat.lt_or_gt_of_ne h with hlt | hlt
  all_goals
    have hmul := Nat.mul_le_mul_right p.slotSize (Nat.succ_le_of_lt hlt)
    rw [Nat.succ_mul] at hmul
    omega

theorem headerSize_le_place (i : Nat) : headerSize ≤ p.place i := Nat.le_add_right _ _

theorem slotSize_lt : p.slotSize < 4294967301 := by
  have hlt := p.maxRecordBytes.toNat_lt
  unfold slotSize
  omega

theorem place_mod : p.place (i % p.maxRecords.toNat) = p.place i := by
  rw [place, place, Nat.mod_mod]

theorem Image.place_lt (h : p.Image c recs) (hp : p.Supported) : p.place recs.length < sizeModulus := by
  have hpos := hp.pos
  have hsize : p.slotSize < 4294967301 := slotSize_lt
  rcases Nat.lt_or_ge recs.length p.maxRecords.toNat with hlt | hge
  · rcases Nat.eq_zero_or_pos recs.length with hzero | hne
    · rw [hzero, place, Nat.zero_mod, Nat.zero_mul]
      decide
    have hprev := h.positions (recs.length - 1) (by omega) (by omega)
    obtain ⟨k, hk⟩ : ∃ k, recs.length = k + 1 := ⟨recs.length - 1, by omega⟩
    rw [hk, Nat.add_sub_cancel, place, Nat.mod_eq_of_lt (by omega)] at hprev
    rw [hk, place, Nat.mod_eq_of_lt (by omega), Nat.succ_mul]
    have : positionLimit = 9223372036854775808 := rfl
    have : sizeModulus = 18446744073709551616 := rfl
    omega
  · have hlast := h.positions (recs.length % p.maxRecords.toNat)
      (Nat.lt_of_lt_of_le (Nat.mod_lt _ hpos) hge) (Nat.mod_lt _ hpos)
    rw [place_mod] at hlast
    exact Nat.lt_trans hlast (by decide)

theorem Image.slotOffset (h : p.Image c recs) (hp : p.Supported) :
    p.slotOffset (p.headerAfter recs.length).writeSlot = p.place recs.length := by
  rw [PersistentRingBuffer.slotOffset, toNat_writeSlot hp]
  exact Nat.mod_eq_of_lt (h.place_lt hp)

theorem Image.readHeader (hio : d.io = []) (h : p.Image d.content recs) (hp : p.Supported)
    (hn : recs.length < sequenceLimit) : p.readHeader d = (d, some (p.headerAfter recs.length)) := by
  rw [PersistentRingBuffer.readHeader, readAt_done hio (by have := h.length; omega), h.header]
  simp [Header.ofBytes_toBytes, valid_headerAfter hp hn]

theorem writeHeader_done (hio : d.io = []) (h : Header) :
    writeHeader d h = (⟨some (File.writeAt d.content 0 h.toBytes), []⟩, true) :=
  writeAt_done hio (by decide) (by rw [Header.length_toBytes]; decide)

def written (p : PersistentRingBuffer) (c : Bytes) (n : Nat) (record : Bytes) : Bytes :=
  File.writeAt (File.writeAt c (p.place n) (p.slotBytes record)) 0 (p.headerAfter (n + 1)).toBytes

theorem slotSize_pos : 0 < p.slotSize := by
  unfold slotSize
  omega

theorem Image.appendRecord (hio : d.io = []) (h : p.Image d.content recs) (hp : p.Supported)
    (hn : recs.length + 1 < sequenceLimit) (hr : record.length ≤ p.maxRecordBytes.toNat)
    (hpos : p.place recs.length < positionLimit) :
    p.appendRecord d record = (⟨some (p.written d.content recs.length record), []⟩, true) := by
  have hslot : p.writeSlot d (p.headerAfter recs.length).writeSlot record =
      (⟨some (File.writeAt d.content (p.place recs.length) (p.slotBytes record)), []⟩, true) := by
    rw [writeSlot, h.slotOffset hp, writeAt_done hio hpos]
    rw [length_slotBytes hr]
    exact slotSize_pos
  simp only [PersistentRingBuffer.appendRecord, h.readHeader hio hp (by omega), hslot, advance_headerAfter hp hn]
  rw [writeHeader_done rfl]
  rfl

theorem Image.refused (hio : d.io = []) (h : p.Image d.content recs) (hp : p.Supported)
    (hn : recs.length < sequenceLimit) (hpos : positionLimit ≤ p.place recs.length) :
    (p.appendRecord d record).2 = false := by
  simp [PersistentRingBuffer.appendRecord, h.readHeader hio hp hn, writeSlot, h.slotOffset hp, writeAt_refused hpos]

/-- The new record is in its slot, and of the others only the one that is no longer retained is
overwritten. -/
theorem Image.written (h : p.Image c recs) (hr : record.length ≤ p.maxRecordBytes.toNat)
    (hpos : p.place recs.length < positionLimit) : p.Image (p.written c recs.length record) (recs ++ [record]) := by
  have hslen := length_slotBytes hr
  have hlen1 := length_writeAt c (p.place recs.length) (p.slotBytes record)
  have hlen2 := length_writeAt (File.writeAt c (p.place recs.length) (p.slotBytes record)) 0
    (p.headerAfter (recs.length + 1)).toBytes
  rw [Header.length_toBytes] at hlen2
  have hheader := h.length
  -- a slot of the file reads the same after the header is written
  have hkeep : ∀ i, p.place i + p.slotSize ≤ (File.writeAt c (p.place recs.length) (p.slotBytes record)).length →
      File.readAt (p.written c recs.length record) (p.place i) p.slotSize =
        File.readAt (File.writeAt c (p.place recs.length) (p.slotBytes record)) (p.place i) p.slotSize := by
    intro i hi
    refine readAt_writeAt_other _ _ _ hi (.inr ?_)
    rw [Header.length_toBytes]
    exact headerSize_le_place i
  refine ⟨?_, ?_, ?_, ?_, ?_⟩
  · have hself := readAt_writeAt_self (File.writeAt c (p.place recs.length) (p.slotBytes record)) 0
      (p.headerAfter (recs.length + 1)).toBytes
    rw [Header.length_toBytes] at hself
    rw [length_append]
    exact hself
  · show headerSize ≤ (File.writeAt _ _ _).length
    omega
  · intro r hmem
    rcases mem_append.mp hmem with hmem | hmem
    · exact h.sized r hmem
    · rw [mem_singleton.mp hmem]
      exact hr
  · intro i r hi hret
    rw [length_append, length_singleton] at hret
    have hfile : (p.written c recs.length record).length =
      max (File.writeAt c (p.place recs.length) (p.slotBytes record)).length (0 + headerSize) := hlen2
    rcases Nat.lt_or_ge i recs.length with hlt | hge
    · rw [List.getElem?_append_left hlt] at hi
      obtain ⟨hread, hin⟩ := h.slots i r hi (by omega)
      have hapart := place_apart (p := p) (mod_ne_of_lt hlt (by omega))
      refine ⟨?_, by omega⟩
      rw [hkeep i (by omega), readAt_writeAt_other _ _ _ hin (by rw [hslen]; exact hapart), hread]
    · obtain rfl : i = recs.length := by
        have := (List.getElem?_eq_some_iff.mp hi).1
        rw [length_append, length_singleton] at this
        omega
      rw [List.getElem?_append_right (Nat.le_refl _), Nat.sub_self, List.getElem?_cons_zero, Option.some.injEq] at hi
      subst hi
      refine ⟨?_, by omega⟩
      rw [hkeep _ (by omega), ← hslen, readAt_writeAt_self]
  · intro i hi hcap
    rw [length_append, length_singleton] at hi
    rcases Nat.lt_or_ge i recs.length with hlt | hge
    · exact h.positions i hlt hcap
    · rw [show i = recs.length by omega]
      exact hpos

/-! ## Reading -/

section

variable (hio : d.io = []) (h : p.Image d.content recs) (hp : p.Supported)
  (hn : recs.length < sequenceLimit)
include hio h hp hn

theorem Image.readSlot {r : Bytes} (hi : recs[i]? = some r) (hret : recs.length ≤ i + p.maxRecords.toNat) :
    p.readSlot d (UInt64.ofNat i % p.maxRecords.toUInt64).toUInt32 = (d, some r) := by
  obtain ⟨hlt, -⟩ := List.getElem?_eq_some_iff.mp hi
  have hmod := Nat.mod_lt i hp.pos
  have hindex : (UInt64.ofNat i % p.maxRecords.toUInt64).toUInt32.toNat = i % p.maxRecords.toNat := by
    have hsmall := hp.small
    rw [UInt64.toNat_toUInt32, UInt64.toNat_mod, UInt32.toNat_toUInt64, UInt64.toNat_ofNat_of_lt' (Nat.lt_trans hlt hn)]
    exact Nat.mod_eq_of_lt (show _ < 4294967296 by omega)
  have hplace := h.positions (i % p.maxRecords.toNat) (Nat.lt_of_le_of_lt (Nat.mod_le _ _) hlt) hmod
  rw [place_mod] at hplace
  have hoffset : p.slotOffset (UInt64.ofNat i % p.maxRecords.toUInt64).toUInt32 = p.place i := by
    rw [PersistentRingBuffer.slotOffset, hindex]
    exact Nat.mod_eq_of_lt (Nat.lt_trans hplace (by decide))
  obtain ⟨hread, hin⟩ := h.slots i r hi hret
  rw [PersistentRingBuffer.readSlot, hoffset, readAt_done hio hin, hread]
  simp [parseSlot_slotBytes (h.sized r (mem_of_getElem? hi))]

theorem Image.readRecords (k : Nat) : ∀ i, i + k = recs.length → recs.length ≤ i + p.maxRecords.toNat →
      p.readRecords p.maxRecords k (.ofNat i) d = (d, some (recs.drop i)) := by
  induction k with
  | zero =>
    intro i hi _
    rw [PersistentRingBuffer.readRecords, drop_eq_nil_of_le (by omega)]
  | succ k ih =>
    intro i hi hret
    have hlt : i < recs.length := by omega
    have hnext : UInt64.ofNat i + 1 = .ofNat (i + 1) := by simp
    rw [PersistentRingBuffer.readRecords, h.readSlot hio hp hn (List.getElem?_eq_getElem hlt) hret, hnext]
    simp only [ih (i + 1) (by omega) (by omega), drop_eq_getElem_cons hlt]

end

/-- The retained records whose sequence numbers are at least `c`. -/
def retainedFrom (p : PersistentRingBuffer) (recs : List Bytes) (c : Nat) : List Bytes :=
  recs.drop (max c (recs.length - p.maxRecords.toNat))

theorem Image.readSince (hio : d.io = []) (hc : d.file = some c) (h : p.Image c recs) (hp : p.Supported)
    (hn : recs.length < sequenceLimit) (cursor : Option UInt64) : p.readSince d cursor =
      (d, some ⟨p.retainedFrom recs (cursor.elim 0 UInt64.toNat), .ofNat recs.length⟩) := by
  have hcontent : d.content = c := by rw [content, hc, getD_some]
  have hopen : d.openFile false = (d, true) := by
    obtain ⟨file, io⟩ := d
    subst hio
    rfl
  rw [← hcontent] at h
  -- the clamped cursor
  obtain ⟨start, hstart, hto⟩ : ∃ start, clamp (cursor.getD ((p.headerAfter recs.length).nextSequence -
          (p.headerAfter recs.length).count.toUInt64))
        ((p.headerAfter recs.length).nextSequence - (p.headerAfter recs.length).count.toUInt64)
        (p.headerAfter recs.length).nextSequence = .ofNat start ∧
      start = min recs.length (max (cursor.elim 0 UInt64.toNat) (recs.length - p.maxRecords.toNat)) := by
    have hle : (p.headerAfter recs.length).count.toUInt64 ≤ (p.headerAfter recs.length).nextSequence := by
      rw [UInt64.le_iff_toNat_le, UInt32.toNat_toUInt64, toNat_count, toNat_nextSequence hn]
      exact Nat.min_le_left _ _
    have hearliest : ((p.headerAfter recs.length).nextSequence -
        (p.headerAfter recs.length).count.toUInt64).toNat = recs.length - p.maxRecords.toNat := by
      rw [UInt64.toNat_sub_of_le _ _ hle, UInt32.toNat_toUInt64, toNat_count, toNat_nextSequence hn]
      omega
    refine ⟨_, UInt64.ofNat_toNat.symm, ?_⟩
    have hlast := toNat_nextSequence (p := p) hn
    cases cursor with
    | none =>
      simp only [clamp, getD_none, elim_none, UInt64.lt_iff_toNat_lt]
      split
      · omega
      · split <;> omega
    | some v =>
      simp only [clamp, getD_some, elim_some, UInt64.lt_iff_toNat_lt]
      split
      · omega
      · split <;> omega
  have hlast := toNat_nextSequence (p := p) hn
  have hfrom : UInt64.toNat (.ofNat start) = start :=
    UInt64.toNat_ofNat_of_lt' (Nat.lt_of_le_of_lt (show start ≤ recs.length by omega) hn)
  have hretained : recs.drop start = p.retainedFrom recs (cursor.elim 0 UInt64.toNat) := by
    rw [retainedFrom]
    rcases Nat.lt_or_ge recs.length (max (cursor.elim 0 UInt64.toNat) (recs.length - p.maxRecords.toNat)) with hlt | hge
    · rw [drop_eq_nil_of_le (by omega), drop_eq_nil_of_le (by omega)]
    · rw [hto, Nat.min_eq_right hge]
  simp only [PersistentRingBuffer.readSince, hc, hopen, h.readHeader hio hp hn, hstart]
  rw [show (p.headerAfter recs.length).capacity = p.maxRecords from rfl,
    h.readRecords hio hp hn _ start (by omega) (by omega), hretained]
  rfl

/-! ## Calls -/

def Holds (p : PersistentRingBuffer) (d : Disk) (recs : List Bytes) : Prop :=
  (d.file = none ∧ recs = []) ∨ ∃ c, d.file = some c ∧ p.Image c recs

theorem append_tooLong (h : p.maxRecordBytes.toNat < record.length) : p.append d record = (d, false) := by
  rw [append, if_pos h]

theorem writeHeader_new (h : Header) : writeHeader ⟨some [], []⟩ h = (⟨some h.toBytes, []⟩, true) := by
  rw [writeHeader_done rfl]
  simp [File.writeAt, content]

theorem Holds.append_eq (hio : d.io = []) (h : p.Holds d recs) (hr : record.length ≤ p.maxRecordBytes.toNat) :
    ∃ c, p.Image c recs ∧ p.append d record = p.appendRecord ⟨some c, []⟩ record := by
  rw [append, if_neg (by omega), openFile_done hio]
  rcases h with ⟨hnone, rfl⟩ | ⟨c, hc, himage⟩
  · refine ⟨p.newHeader.toBytes, image_new, ?_⟩
    simp [hnone, content, writeHeader_new]
  · refine ⟨c, himage, ?_⟩
    simp [hc, content]

theorem Holds.append (hio : d.io = []) (h : p.Holds d recs) (hp : p.Supported)
    (hn : recs.length + 1 < sequenceLimit) (hr : record.length ≤ p.maxRecordBytes.toNat)
    (hok : (p.append d record).2 = true) : p.Holds (p.append d record).1 (recs ++ [record]) := by
  obtain ⟨c, himage, heq⟩ := h.append_eq hio hr
  rw [heq] at hok ⊢
  have himage' : p.Image (content ⟨some c, []⟩) recs := himage
  rcases Nat.lt_or_ge (p.place recs.length) positionLimit with hlt | hge
  · rw [himage'.appendRecord rfl hp hn hr hlt]
    exact .inr ⟨_, rfl, himage.written hr hlt⟩
  · rw [himage'.refused rfl hp (by omega) hge] at hok
    cases hok

theorem Holds.readSince (hio : d.io = []) (h : p.Holds d recs) (hp : p.Supported)
    (hn : recs.length < sequenceLimit) (cursor : Option UInt64) : p.readSince d cursor =
      (d, some ⟨p.retainedFrom recs (cursor.elim 0 UInt64.toNat), .ofNat recs.length⟩) := by
  rcases h with ⟨hnone, rfl⟩ | ⟨c, hc, himage⟩
  · simp [PersistentRingBuffer.readSince, hnone, retainedFrom]
  · exact himage.readSince hio hc hp hn cursor

theorem clear_done (hio : d.io = []) : p.Holds (clear d).1 [] := by
  rw [clear, attempt_done hio]
  exact .inl ⟨rfl, rfl⟩

end PersistentRingBuffer

/-! ## A reader that goes on where it stopped -/

namespace Ring

inductive Call where
  | append (record : Bytes)
  | clear
  /-- the reader calls `read_since` with the `next_sequence` of its last result -/
  | poll

inductive Reply where
  | appended (ok : Bool)
  | cleared (ok : Bool)
  | polled (result : Option RingBufferReadResult)

/-- The file and what its reader has kept, which is dropped when the file is cleared. -/
structure Reader where
  disk : Disk
  cursor : Option UInt64

variable (p : PersistentRingBuffer)

def step (s : Reader) (e : Call × Script Unit) : Reader × List Reply :=
  let d : Disk := ⟨s.disk.file, e.2⟩
  match e.1 with
  | .append record => (⟨(p.append d record).1, s.cursor⟩, [.appended (p.append d record).2])
  | .clear => (⟨(PersistentRingBuffer.clear d).1, none⟩, [.cleared (PersistentRingBuffer.clear d).2])
  | .poll =>
    let r := p.readSince d s.cursor
    (⟨r.1, (r.2.map RingBufferReadResult.nextSequence).or s.cursor⟩, [.polled r.2])

def system : System Reader (Call × Script Unit) Reply := ⟨⟨⟨none, []⟩, none⟩, step p⟩

def Writes (s : Reader) : Call → Prop
  | .append record =>
    record.length ≤ p.maxRecordBytes.toNat → (p.append ⟨s.disk.file, []⟩ record).2 = true
  | .clear | .poll => True

def Succeeds (s : Reader) (e : Call × Script Unit) : Prop := e.2 = [] ∧ Writes p s e.1

instance (s : Reader) : (c : Call) → Decidable (Writes p s c)
  | .append _ => inferInstanceAs (Decidable (_ → _))
  | .clear => inferInstanceAs (Decidable True)
  | .poll => inferInstanceAs (Decidable True)

instance (s : Reader) (e : Call × Script Unit) : Decidable (Succeeds p s e) :=
  inferInstanceAs (Decidable (_ ∧ _))

def accept (recs : List Bytes) : Call → List Bytes
  | .append record => if record.length ≤ p.maxRecordBytes.toNat then recs ++ [record] else recs
  | .clear => []
  | .poll => recs

def accepted (es : List (Call × Script Unit)) : List Bytes := (es.map Prod.fst).foldl (accept p) []

theorem accepted_snoc (es : List (Call × Script Unit)) (e : Call × Script Unit) :
    accepted p (es ++ [e]) = accept p (accepted p es) e.1 := by
  simp [accepted]

theorem length_accepted_le (es : List (Call × Script Unit)) : (accepted p es).length ≤ es.length := by
  induction es using List.reverseRecOn with
  | nil => exact Nat.le_refl 0
  | append_singleton es e ih =>
    rw [accepted_snoc, length_append, length_singleton]
    cases e.1 with
    | append record =>
      rw [accept]
      split
      · rw [length_append, length_singleton]
        omega
      · omega
    | clear => exact Nat.zero_le _
    | poll => exact Nat.le_succ_of_le ih

def numbered (r : RingBufferReadResult) : List (Bytes × Nat) :=
  r.records.zipIdx (r.nextSequence.toNat - r.records.length)

def see (seen : List (Bytes × Nat)) (r : Record Reader (Call × Script Unit) Reply) : List (Bytes × Nat) :=
  match r.call.1 with
  | .append _ => seen
  | .clear => []
  | .poll => seen ++ r.outs.flatMap fun
    | .polled (some result) => numbered result
    | _ => []

def seen (h : List (Record Reader (Call × Script Unit) Reply)) : List (Bytes × Nat) :=
  h.foldl see []

/-- The reader has seen records below the sequence number `m`, each once and in order, and all of the
last ones. -/
structure Reading (recs : List Bytes) (seen : List (Bytes × Nat)) (m : Nat) : Prop where
  le : m ≤ recs.length
  held : ∀ x ∈ seen, recs[x.2]? = some x.1
  below : ∀ x ∈ seen, x.2 < m
  ordered : seen.Pairwise fun x y => x.2 < y.2
  covered : ∀ i, i < m → m ≤ i + p.maxRecords.toNat → ∃ x ∈ seen, x.2 = i

variable {p}

variable {recs : List Bytes} {m : Nat}

theorem Reading.append {seen : List (Bytes × Nat)} (h : Reading p recs seen m) (record : Bytes) :
    Reading p (recs ++ [record]) seen m where
  le := by
    rw [length_append]
    exact Nat.le_add_right_of_le h.le
  held x hx := by
    rw [List.getElem?_append_left (Nat.lt_of_lt_of_le (h.below x hx) h.le)]
    exact h.held x hx
  below := h.below
  ordered := h.ordered
  covered := h.covered

theorem numbered_retained (hn : recs.length < PersistentRingBuffer.sequenceLimit) (hm : m ≤ recs.length) :
    numbered ⟨p.retainedFrom recs m, .ofNat recs.length⟩ =
      (recs.drop (max m (recs.length - p.maxRecords.toNat))).zipIdx (max m (recs.length - p.maxRecords.toNat)) := by
  have hnext : UInt64.toNat (.ofNat recs.length) = recs.length := UInt64.toNat_ofNat_of_lt' hn
  simp only [numbered, PersistentRingBuffer.retainedFrom, length_drop]
  congr 1
  omega

theorem Reading.poll {seen : List (Bytes × Nat)} (h : Reading p recs seen m) :
    Reading p recs (seen ++ (recs.drop (max m (recs.length - p.maxRecords.toNat))).zipIdx
      (max m (recs.length - p.maxRecords.toNat))) recs.length := by
  have hle := h.le
  generalize hk : max m (recs.length - p.maxRecords.toNat) = k
  have hnew : ∀ x ∈ (recs.drop k).zipIdx k, k ≤ x.2 ∧ recs[x.2]? = some x.1 := by
    rintro ⟨r, i⟩ hx
    rw [mk_mem_zipIdx_iff_le_and_getElem?_sub] at hx
    obtain ⟨hki, hi⟩ := hx
    rw [List.getElem?_drop, Nat.add_sub_cancel' hki] at hi
    exact ⟨hki, hi⟩
  refine ⟨Nat.le_refl _, fun x hx => ?_, fun x hx => ?_, ?_, fun i hi hret => ?_⟩
  · rcases mem_append.mp hx with hx | hx
    · exact h.held x hx
    · exact (hnew x hx).2
  · rcases mem_append.mp hx with hx | hx
    · exact Nat.lt_of_lt_of_le (h.below x hx) hle
    · exact (List.getElem?_eq_some_iff.mp (hnew x hx).2).1
  · refine pairwise_append.mpr ⟨h.ordered, ?_, fun x hx y hy => ?_⟩
    · rw [pairwise_iff_getElem]
      simp only [getElem_zipIdx]
      omega
    · have hbelow := h.below x hx
      have habove := (hnew y hy).1
      omega
  · rcases Nat.lt_or_ge i m with hlt | hge
    · obtain ⟨x, hx, hxi⟩ := h.covered i hlt (by omega)
      exact ⟨x, mem_append_left _ hx, hxi⟩
    refine ⟨(recs[i], i), mem_append_right _ ?_, rfl⟩
    rw [mk_mem_zipIdx_iff_le_and_getElem?_sub, List.getElem?_drop,
      Nat.add_sub_cancel' (by omega), List.getElem?_eq_getElem hi]
    exact ⟨by omega, rfl⟩

/-- The file holds what was accepted, and the reader goes on after what it has seen. -/
structure Follows (p : PersistentRingBuffer) (recs : List Bytes) (seen : List (Bytes × Nat))
    (s : Reader) : Prop where
  holds : p.Holds s.disk recs
  reading : Reading p recs seen (s.cursor.elim 0 UInt64.toNat)

theorem step_poll (hp : p.Supported) {s : Reader} (h : p.Holds ⟨s.disk.file, []⟩ recs)
    (hn : recs.length < PersistentRingBuffer.sequenceLimit) :
    (system p).step s (.poll, []) = (⟨⟨s.disk.file, []⟩, some (.ofNat recs.length)⟩,
      [.polled (some ⟨p.retainedFrom recs (s.cursor.elim 0 UInt64.toNat), .ofNat recs.length⟩)]) := by
  simp [system, step, h.readSince rfl hp hn, some_or]

theorem follows_step (hp : p.Supported) {sn : List (Bytes × Nat)} {s : Reader} (h : Follows p recs sn s)
    (hn : recs.length < PersistentRingBuffer.sequenceLimit) {e : Call × Script Unit} (he : Succeeds p s e)
    (hnext : (accept p recs e.1).length < PersistentRingBuffer.sequenceLimit) :
    Follows p (accept p recs e.1) (see sn ((system p).record s e)) ((system p).step s e).1 := by
  obtain ⟨call, io⟩ := e
  obtain ⟨hio, hwrites⟩ := he
  subst hio
  have hholds : p.Holds ⟨s.disk.file, []⟩ recs := h.holds
  cases call with
  | append record =>
    replace hnext : (if record.length ≤ p.maxRecordBytes.toNat then recs ++ [record]
      else recs).length < PersistentRingBuffer.sequenceLimit := hnext
    show Follows p (if record.length ≤ p.maxRecordBytes.toNat then recs ++ [record] else recs) sn
      ⟨(p.append ⟨s.disk.file, []⟩ record).1, s.cursor⟩
    split at hnext
    · next hr =>
      rw [length_append] at hnext
      rw [if_pos hr]
      exact ⟨hholds.append rfl hp hnext hr (hwrites hr), h.reading.append record⟩
    · next hr =>
      rw [if_neg hr, PersistentRingBuffer.append_tooLong (by omega)]
      exact ⟨hholds, h.reading⟩
  | clear =>
    refine ⟨PersistentRingBuffer.clear_done rfl, Nat.le_refl 0, nofun, nofun, .nil, nofun⟩
  | poll =>
    have hstep := step_poll hp hholds hn
    have hnumbered := numbered_retained (p := p) hn h.reading.le
    have hlast : UInt64.toNat (.ofNat recs.length) = recs.length := UInt64.toNat_ofNat_of_lt' hn
    have hsee : see sn ((system p).record s (.poll, [])) = sn ++
        (recs.drop (max (s.cursor.elim 0 UInt64.toNat) (recs.length - p.maxRecords.toNat))).zipIdx
          (max (s.cursor.elim 0 UInt64.toNat) (recs.length - p.maxRecords.toNat)) := by
      simp [see, System.record, hstep, flatMap_cons, flatMap_nil, hnumbered]
    rw [hsee, hstep]
    refine ⟨hholds, ?_⟩
    show Reading p recs _ (UInt64.toNat (.ofNat recs.length))
    rw [hlast]
    exact h.reading.poll

theorem follows_run (hp : p.Supported) {es : List (Call × Script Unit)}
    (hes : (system p).Meets (Succeeds p) (system p).init es)
    (hcount : ∀ pre, pre <+: es → (accepted p pre).length < PersistentRingBuffer.sequenceLimit) :
    Follows p (accepted p es) (seen ((system p).trace (system p).init es)) ((system p).exec (system p).init es) := by
  have hrun := (system p).inv_run (J := fun h s => (∀ pre, pre <+: h.map Record.call →
        (accepted p pre).length < PersistentRingBuffer.sequenceLimit) →
      Follows p (accepted p (h.map Record.call)) (seen h) s)
    (fun _ => ⟨.inl ⟨rfl, rfl⟩, Nat.le_refl 0, nofun, nofun, .nil, nofun⟩) ?_ es hes
  · rw [System.map_call_trace] at hrun
    exact hrun hcount
  intro h s e ih he hpre
  rw [map_append, map_singleton] at hpre ⊢
  have hold := ih fun pre hle => hpre pre (hle.trans (List.prefix_append _ _))
  have hbound := hpre _ (List.prefix_append (h.map Record.call) [e])
  have hnext := hpre _ (List.prefix_refl _)
  rw [accepted_snoc] at hnext ⊢
  rw [seen, foldl_append]
  exact follows_step hp hold hbound he hnext

/-- From an empty path, with file operations that succeed and fewer than 2^64 accepted records since
the last `clear`: `read_all` returns the last records, `read_since` the retained ones from a sequence
number on, and a reader that polls sees records once and in order, at each poll all that are retained.
-/
theorem ring_reads (hp : p.Supported) (es : List (Call × Script Unit))
    (hes : (system p).Meets (Succeeds p) (system p).init es)
    (hcount : ∀ pre, pre <+: es → (accepted p pre).length < PersistentRingBuffer.sequenceLimit)
    (recs : List Bytes) (hrecs : recs = accepted p es) (d : Disk)
    (hd : d = ⟨((system p).exec (system p).init es).disk.file, []⟩) :
    (p.readAll d).2 = some ⟨recs.drop (recs.length - p.maxRecords.toNat), .ofNat recs.length⟩ ∧
    (∀ c, (p.readSince d (some c)).2 =
      some ⟨recs.drop (max c.toNat (recs.length - p.maxRecords.toNat)), .ofNat recs.length⟩) ∧
    (∀ x ∈ seen ((system p).trace (system p).init es), recs[x.2]? = some x.1) ∧
    (seen ((system p).trace (system p).init es)).Pairwise (fun x y => x.2 < y.2) ∧
    ∀ i, i < recs.length → recs.length ≤ i + p.maxRecords.toNat →
      ∃ x ∈ seen ((system p).trace (system p).init (es ++ [(.poll, [])])), x.2 = i := by
  subst hrecs hd
  have hfollows := follows_run hp hes hcount
  have hn := hcount es (List.prefix_refl es)
  have hholds : p.Holds ⟨((system p).exec (system p).init es).disk.file, []⟩ (accepted p es) :=
    hfollows.holds
  refine ⟨?_, fun c => ?_, hfollows.reading.held, hfollows.reading.ordered, fun i hi hret => ?_⟩
  · rw [PersistentRingBuffer.readAll, hholds.readSince rfl hp hn]
    simp [PersistentRingBuffer.retainedFrom]
  · rw [hholds.readSince rfl hp hn]
    rfl
  have hpoll := follows_step hp hfollows hn (e := (.poll, [])) ⟨rfl, trivial⟩ hn
  have hlast : UInt64.toNat (.ofNat (accepted p es).length) = (accepted p es).length :=
    UInt64.toNat_ofNat_of_lt' hn
  have hcovered := hpoll.reading.covered
  rw [step_poll hp hholds hn, elim_some, hlast] at hcovered
  rw [System.trace_append, seen, foldl_append]
  exact hcovered i hi hret

def small : PersistentRingBuffer := ⟨2, 4⟩

/-- The first record is overwritten before the second poll. -/
def wrapping : List (Call × Script Unit) :=
  [(.append [1], []), (.append [2, 2], []), (.poll, []), (.append [], []), (.append [9, 9, 9, 9, 9], []),
   (.append [4], []), (.append [5], []), (.poll, [])]

theorem ring_reads_wrapping : seen ((system small).trace (system small).init wrapping) =
        [([1], 0), ([2, 2], 1), ([4], 3), ([5], 4)] ∧
      (small.readAll ⟨((system small).exec (system small).init wrapping).disk.file, []⟩).2 =
        some ⟨(accepted small wrapping).drop ((accepted small wrapping).length - 2),
          .ofNat (accepted small wrapping).length⟩ :=
  ⟨by decide +kernel,
    (ring_reads ⟨by decide, by decide⟩ wrapping (by decide +kernel)
      (fun pre h => Nat.lt_of_le_of_lt (Nat.le_trans (length_accepted_le small pre) h.length_le) (by decide))
      _ rfl _ rfl).1⟩

def fileAfter (es : List (Call × Script Unit)) : Disk :=
  ((system small).exec (system small).init es).disk

/-- After a `clear` the sequence starts again at 0: a reader that goes on with what it was told last
does not see the first records. -/
theorem cleared_record_missed : (small.readSince (fileAfter [(.append [1], []), (.append [2], [])]) none).2 =
        some ⟨[[1], [2]], 2⟩ ∧ (small.readSince
        (fileAfter [(.append [1], []), (.append [2], []), (.clear, []), (.append [3], [])]) none).2 =
        some ⟨[[3]], 1⟩ ∧ (small.readSince
        (fileAfter [(.append [1], []), (.append [2], []), (.clear, []), (.append [3], [])])
          (some 2)).2 = some ⟨[], 1⟩ := by
  decide +kernel

end Ring

end TrustTunnel.Buffer
