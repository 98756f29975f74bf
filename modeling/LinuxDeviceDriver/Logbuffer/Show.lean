import LinuxDeviceDriver.Lib.Loop
import LinuxDeviceDriver.Kernel

/-!
# The logbuffer driver: `logbuffer_show`, `process_logbuffer`

`/proc/logbuffer` prints the log a boot loader has left in memory. The module
parameter `buffer_info` names the place (`name,length,address`); the region
begins with a header (`logbuff_t`), the text follows.

`logbuffer_show` cuts the text from `start` to `end` into pieces of at most
`LOGBUFF_LEN` bytes and hands each to `process_logbuffer`, which copies it
character by character into a line buffer of its own and prints the buffer at
every newline.

All indices are `__u64`, so sums are taken modulo 2^64. A byte of the region is
named by its index from the beginning of the mapping; the model records which
indices of the text are read (`reads`).
-/

namespace LinuxDeviceDriver.Logbuffer

open Lib

/-- `LOGBUFF_MAGIC`. -/
def logbuffMagic : Nat := 0xc0de4ced

/-- `LOGBUFF_LEN`, the length of a piece. -/
def logbuffLen : Nat := 0x8000

/-- `LOGBUFF_MASK`. -/
def logbuffMask : Nat := logbuffLen - 1

/-- `LOGBUFF_SIZE`, the size of the line buffer. -/
def logbuffSize : Nat := 2048

/-- `sizeof(logbuff_t)`: the tag, padded to 8 bytes, and four `__u64`. The text
`log->buf` begins here. -/
def sizeofLogbuff : Nat := 40

/-- Conversion to `__u64`. -/
def toUInt64 (n : Nat) : Nat := n % 2 ^ 64

def cr : Byte := 13
def lf : Byte := 10
def comma : Byte := 44

/-- A mapped log: the fields of the header that are looked at (`stop` is `end`), and
the byte each index of the mapping gives. -/
structure Log where
  tag : Nat
  start : Nat
  stop : Nat
  byte : Nat → Byte
  start_lt : start < 2 ^ 64
  stop_lt : stop < 2 ^ 64

/-- What `seq_printf` is given. -/
inductive Printed
  /-- `Invalid input, expects format=name,length,start` -/
  | invalidInput
  /-- `processing buffer at %lx size %lx` -/
  | processing (memAddress memSize : Nat)
  /-- `logbuffer: request_mem_region on logbuffer failed` -/
  | requestFailed
  /-- `logbuffer: failed to map logbuffer` -/
  | mapFailed
  /-- `Value(%p)=%x magic=%lx` -/
  | value (tag : Nat)
  /-- `Properly setup external logbuffer not found - ignore it!` -/
  | notFound
  /-- `Logbuffer at 0x%p, start 0x%llx, end 0x%llx` -/
  | location (start stop : Nat)
  /-- `logbuffer start/end out of range, or mem_size incorrect - ignore it!` -/
  | outOfRange
  /-- `kmalloc %d bytes failed - ignore it!` -/
  | kmallocFailed
  /-- `%s: %s`, the name of the buffer and a line with its newline -/
  | line (name text : List Byte)
deriving DecidableEq, Repr

/-! ## One piece -/

/-- The string `%s` prints from the line buffer. -/
def cString (buffer : Nat → Byte) : List Byte :=
  ((List.range logbuffSize).map buffer).takeWhile (· ≠ 0)

/-- `local_buffer`, `local_idx` and the strings printed so far. -/
structure LineState where
  buffer : Nat → Byte
  idx : Nat
  printed : List (List Byte)

/-- The loop body of `process_logbuffer`, for the character at `log_idx`. -/
def lineStep (s : LineState) (c : Byte) : LineState :=
  if c = cr then s
  else
    let buffer := Function.update s.buffer s.idx c
    let s :=
      if c = lf then
        let buffer := Function.update buffer (s.idx + 1) 0
        { s with buffer := buffer, idx := 0, printed := s.printed ++ [cString buffer] }
      else { s with buffer := buffer, idx := s.idx + 1 }
    -- a line that becomes too long goes on in its last place
    if s.idx ≥ logbuffSize - 1 then { s with idx := s.idx - 1 } else s

/-- `process_logbuffer(log->buf + offset, …, size, …)`: what it prints, and which
indices it reads. `base` is the index of `log->buf + offset`; `local_buffer` is what
`kmalloc` returned. `log_idx` runs from 0 to `size`, one character each time. -/
def processLogbuffer (localBuffer : Option (Nat → Byte)) (name : List Byte)
    (byte : Nat → Byte) (base size : Nat) : List Printed × List Nat :=
  match localBuffer with
  | none => ([.kmallocFailed], [])
  | some junk =>
    let indices := (List.range size).map fun logIdx => toUInt64 (base + (logIdx &&& logbuffMask))
    let s := (indices.map byte).foldl lineStep ⟨junk, 0, []⟩
    (s.printed.map (Printed.line name), indices)

/-! ## All pieces -/

/-- `offset`, the number of pieces so far, everything printed and every index read. -/
structure ShowState where
  offset : Nat
  pieces : Nat
  printed : List Printed
  reads : List Nat

/-- The size of the piece at `offset`. -/
def pieceSize (offset stop : Nat) : Nat :=
  if toUInt64 (offset + logbuffLen) > stop then stop - offset else logbuffLen

/-- The loop over the pieces. `kmalloc` answers once for each piece. -/
def showBody (kmalloc : Nat → Option (Nat → Byte)) (name : List Byte) (log : Log)
    (memSize : Nat) (s : ShowState) : Iter ShowState :=
  if s.offset < log.stop ∧ toUInt64 (sizeofLogbuff + s.offset) < memSize then
    let size := pieceSize s.offset log.stop
    let out := processLogbuffer (kmalloc s.pieces) name log.byte
      (toUInt64 (sizeofLogbuff + s.offset)) size
    .next
      { offset := toUInt64 (s.offset + size)
        pieces := s.pieces + 1
        printed := s.printed ++ out.1
        reads := s.reads ++ out.2 }
  else .done s

/-- `logbuffer_show` from the check of the tag on: what is printed and which indices of
the text are read, unless the loop does not end within `fuel` passes. -/
def showLog (kmalloc : Nat → Option (Nat → Byte)) (name : List Byte) (log : Log)
    (memSize fuel : Nat) : Option (List Printed × List Nat) :=
  if log.tag ≠ logbuffMagic then some ([.value log.tag, .notFound], [])
  else if log.start > log.stop ∨ toUInt64 (log.stop + sizeofLogbuff) > memSize then
    some ([.value log.tag, .location log.start log.stop, .outOfRange], [])
  else
    (iterate (showBody kmalloc name log memSize) fuel
      ⟨log.start, 0, [.value log.tag, .location log.start log.stop], []⟩).map
      fun s => (s.printed, s.reads)

/-! ## The whole function -/

/-- `get_mytoken`: the text up to the next comma, and what is behind it. -/
def getMytoken (inp : List Byte) : List Byte × List Byte :=
  (inp.takeWhile (· ≠ comma), (inp.dropWhile (· ≠ comma)).drop 1)

/-- `logbuffer_show` for a given `buffer_info`. `request` and `ioremap` are the answers
of `request_mem_region` and `ioremap`; `long` has `longBits` bits. -/
def logbufferShow (longBits : Nat) (bufferInfo : List Byte) (request : Bool)
    (ioremap : Option Log) (kmalloc : Nat → Option (Nat → Byte)) (fuel : Nat) :
    Option (List Printed × List Nat) :=
  let (name, cur) := getMytoken bufferInfo
  let (length, cur) := getMytoken cur
  let (addr, _) := getMytoken cur
  let memAddress := (simpleStrtolAuto longBits addr % 2 ^ longBits).toNat
  let memSize := (simpleStrtolAuto longBits length % 2 ^ longBits).toNat
  if memAddress ≠ 0 ∧ memSize > sizeofLogbuff then
    if !request then some ([.processing memAddress memSize, .requestFailed], [])
    else
      match ioremap with
      | none => some ([.processing memAddress memSize, .mapFailed], [])
      | some log => (showLog kmalloc name log memSize fuel).map fun r =>
          (.processing memAddress memSize :: r.1, r.2)
  else some ([.invalidInput], [])

/-- The two lines in front of the log. -/
def Log.banner (log : Log) : List Printed := [.value log.tag, .location log.start log.stop]

/-- The log passes the check of the range. -/
theorem showLog_accepted {log : Log} {memSize : Nat} (htag : log.tag = logbuffMagic)
    (hrange : ¬ (log.start > log.stop ∨ toUInt64 (log.stop + sizeofLogbuff) > memSize))
    (kmalloc : Nat → Option (Nat → Byte)) (name : List Byte) (fuel : Nat) :
    showLog kmalloc name log memSize fuel =
      (iterate (showBody kmalloc name log memSize) fuel ⟨log.start, 0, log.banner, []⟩).map
        fun s => (s.printed, s.reads) := by
  rw [showLog, if_neg (not_not_intro htag), if_neg hrange]
  rfl

/-! ## Where the pieces begin -/

theorem toUInt64_of_lt {n : Nat} (h : n < 2 ^ 64) : toUInt64 n = n := Nat.mod_eq_of_lt h

theorem toUInt64_lt (n : Nat) : toUInt64 n < 2 ^ 64 := Nat.mod_lt _ (by decide)

theorem logIdx_and_mask {logIdx : Nat} (h : logIdx < logbuffLen) :
    logIdx &&& logbuffMask = logIdx := by
  have hmask : logbuffMask = 2 ^ 15 - 1 := rfl
  rw [hmask, Nat.and_two_pow_sub_one_eq_mod]
  exact Nat.mod_eq_of_lt h

/-- How many pieces there are between two positions. -/
def pieceCount (offset stop : Nat) : Nat := (stop - offset + (logbuffLen - 1)) / logbuffLen

/-- Even with its last piece filled up, the text does not reach the end of `__u64`. -/
def Fits (offset stop : Nat) : Prop := offset + pieceCount offset stop * logbuffLen < 2 ^ 64

/-- The size of a piece, when nothing wraps around. -/
theorem pieceSize_of_fits {offset stop : Nat} (hlt : offset < stop) (hfits : Fits offset stop) :
    pieceSize offset stop = min logbuffLen (stop - offset) := by
  have hlen : logbuffLen = 0x8000 := rfl
  simp only [Fits, pieceCount, logbuffLen] at hfits
  rw [pieceSize, toUInt64_of_lt (by omega)]
  split <;> omega

theorem Fits.next {offset stop : Nat} (hstop : stop < 2 ^ 64) (hlt : offset < stop)
    (hfits : Fits offset stop) : Fits (offset + min logbuffLen (stop - offset)) stop := by
  simp only [Fits, pieceCount, logbuffLen] at *
  omega

/-- When the text does not fit, every position a whole number of pieces away from its
beginning lies before its end, also modulo 2^64. -/
theorem lt_stop_of_not_fits {start stop offset : Nat} (hle : start ≤ stop)
    (hstop : stop < 2 ^ 64) (hfits : ¬ Fits start stop) (hoffset : offset < 2 ^ 64)
    (hmod : offset % logbuffLen = start % logbuffLen) : offset < stop := by
  simp only [Fits, pieceCount, logbuffLen] at hfits hmod
  omega

theorem toUInt64_mod_logbuffLen (n : Nat) : toUInt64 n % logbuffLen = n % logbuffLen :=
  Nat.mod_mod_of_dvd n (by decide)

section Diverges

variable {kmalloc : Nat → Option (Nat → Byte)} {name : List Byte} {log : Log} {memSize : Nat}

/-- The loop goes round and round. -/
theorem showBody_diverges (hle : log.start ≤ log.stop)
    (hfit : log.stop + sizeofLogbuff ≤ memSize) (hmem : memSize < 2 ^ 64)
    (hfits : ¬ Fits log.start log.stop) (fuel : Nat) {s : ShowState}
    (hoffset : s.offset < 2 ^ 64) (hmod : s.offset % logbuffLen = log.start % logbuffLen) :
    iterate (showBody kmalloc name log memSize) fuel s = none := by
  refine iterate_diverges (I := fun s => s.offset < 2 ^ 64 ∧
    s.offset % logbuffLen = log.start % logbuffLen) ?_ fuel ⟨hoffset, hmod⟩
  rintro s ⟨hoffset, hmod⟩
  have hlt := lt_stop_of_not_fits hle log.stop_lt hfits hoffset hmod
  have hmod' : toUInt64 (s.offset + logbuffLen) % logbuffLen = log.start % logbuffLen := by
    rw [toUInt64_mod_logbuffLen, Nat.add_mod_right, hmod]
  have hnext := lt_stop_of_not_fits hle log.stop_lt hfits (toUInt64_lt _) hmod'
  have hsize : pieceSize s.offset log.stop = logbuffLen := if_neg (by omega)
  unfold showBody
  rw [toUInt64_of_lt (by omega), if_pos ⟨hlt, by omega⟩, hsize]
  exact ⟨_, rfl, toUInt64_lt _, hmod'⟩

end Diverges

end LinuxDeviceDriver.Logbuffer
