import LinuxDeviceDriver.Lib.Blit
import LinuxDeviceDriver.Lib.Loop
import LinuxDeviceDriver.Netrelay.Eoe
import LinuxDeviceDriver.Numbers

/-!
# Packets in the log: `packetDump`

Both relays log a packet in hexadecimal. The EOE relay logs byte by byte. The DHCP relay collects
the text of 16 bytes in `line` and logs it when the next line starts, or behind the loop if the
number of bytes is not a multiple of 16. So a last line that is full is not logged. The index of
both loops is an `unsigned int`, while `size` is a `size_t`.

The log is a list of texts, and `dumped` reads the bytes back from what was logged between the
description and the total size. `Shows` is the loop invariant of both loops: a log shows some
bytes, whatever follows in it. `Holds` says which string is in `line`.
-/

namespace LinuxDeviceDriver.Netrelay

open Lib

/-! ## The log -/

/-- `MAX_LOG_BUF_SIZE` -/
def maxLogBufSize : Nat := 255

/-- `myLogFun`: what is left of a text in the buffer of the log function. -/
def myLogFun (format text : List Byte) : List Byte :=
  text.take (format.length + maxLogBufSize - 1)

/-- `"\n"` -/
def newline : List Byte := [10]

/-- `"%s"` -/
def formatString : List Byte := [37, 115]

/-- `"%02X "` -/
def formatByte : List Byte := [37, 48, 50, 88, 32]

/-- `"\n%s\n"` -/
def formatLine : List Byte := [10, 37, 115, 10]

/-- `"\nTotal size: "` -/
def totalSize : List Byte := [10, 84, 111, 116, 97, 108, 32, 115, 105, 122, 101, 58, 32]

/-- `myLogFun("\nTotal size: %d\n", pbuf->size)` -/
def logTotal (size : Nat) : List Byte :=
  myLogFun (totalSize ++ [37, 100, 10]) (totalSize ++ decText (toInt32 size))

/-- A digit of `%X`. -/
def upperDigit (d : Nat) : Byte := UInt8.ofNat (if d < 10 then 48 + d else 55 + d)

/-- The text of a byte: `"%02X "`. -/
def byteText (b : Byte) : List Byte := [upperDigit (b.toNat / 16), upperDigit (b.toNat % 16), 32]

/-- The byte `pbuf->data[i]`. -/
def Buffer.at (pbuf : Buffer) (i : Nat) : Byte := pbuf.mem (pbuf.data + i)

/-! ## The DHCP relay -/

/-- `snprintf(&line[p], 4, "%02X ", b)` -/
def printByte (line : Nat → Byte) (p : Nat) (b : Byte) : Nat → Byte :=
  blit line (fun j => p + j) (fun j => (byteText b ++ [0]).getD j 0) 4

/-- The string in `char line[64]`. -/
def lineText (line : Nat → Byte) : List Byte := arrayString line 64

namespace DhcpFilter

/-- The local variables, and the log. -/
structure Dump where
  i : Nat
  line : Nat → Byte
  log : List (List Byte)

def dumpBody (pbuf : Buffer) (s : Dump) : Iter Dump :=
  if s.i < pbuf.size then
    .next {
      i := toUInt32 (s.i + 1)
      line := printByte s.line (s.i % 16 * 3) (pbuf.at s.i)
      -- the line before this one, as it was before the byte is printed
      log := s.log ++
        if s.i % 16 = 0 then
          [myLogFun newline newline, myLogFun formatString (lineText s.line)]
        else [] }
  else .done s

/-- `packetDump` of the DHCP relay: the log. -/
def packetDump (logLevel : Nat) (pbuf : Buffer) (desc : List Byte) (fuel : Nat) :
    Option (List (List Byte)) :=
  if logLevel ≤ 1 then some []
  else
    (iterate (dumpBody pbuf) fuel ⟨0, fun _ => 0, []⟩).map fun s =>
      myLogFun formatString desc :: s.log ++
        (if s.i % 16 ≠ 0 then [myLogFun formatLine (10 :: lineText s.line ++ [10])] else []) ++
        [logTotal pbuf.size]

end DhcpFilter

/-! ## The EOE relay -/

namespace EoeFilter

/-- The local variables, and the log. -/
structure Dump where
  i : Nat
  log : List (List Byte)

def dumpBody (pbuf : Buffer) (s : Dump) : Iter Dump :=
  if s.i < pbuf.size then
    .next {
      i := toUInt32 (s.i + 1)
      log := s.log ++ (if s.i % 16 = 0 then [myLogFun newline newline] else []) ++
        [myLogFun formatByte (byteText (pbuf.at s.i))] }
  else .done s

/-- `packetDump` of the EOE relay: the log. -/
def packetDump (logLevel : Nat) (pbuf : Buffer) (desc : List Byte) (fuel : Nat) :
    Option (List (List Byte)) :=
  if logLevel ≤ 1 then some []
  else
    (iterate (dumpBody pbuf) fuel ⟨0, []⟩).map fun s =>
      myLogFun formatString desc :: s.log ++ [logTotal pbuf.size]

end EoeFilter

/-! ## What a log shows -/

/-- The bytes that were logged between the description and the total size. -/
def dumped (log : List (List Byte)) : List Byte := readBytes log.tail.dropLast.flatten

theorem packet_eq_slice (pbuf : Buffer) : pbuf.packet = slice pbuf.at 0 pbuf.size := rfl

/-- Both relays get to the end, and both log every byte of the packet once and in order. -/
def DumpsAgree (logLevel : Nat) (pbuf : Buffer) (desc : List Byte) : Prop :=
  ∃ enough dhcp eoe,
    (∀ fuel, enough ≤ fuel → DhcpFilter.packetDump logLevel pbuf desc fuel = some dhcp ∧
      EoeFilter.packetDump logLevel pbuf desc fuel = some eoe) ∧
    dumped dhcp = pbuf.packet ∧ dumped eoe = pbuf.packet

/-- The log shows the bytes, and what follows is read on its own. -/
def Shows (log : List (List Byte)) (bytes : List Byte) : Prop :=
  ∀ rest, readBytes (log.flatten ++ rest) = bytes ++ readBytes rest

theorem Shows.nil : Shows [] [] := fun _ => rfl

theorem Shows.append {log log' : List (List Byte)} {bytes bytes' : List Byte}
    (h : Shows log bytes) (h' : Shows log' bytes') : Shows (log ++ log') (bytes ++ bytes') := by
  intro rest
  rw [List.flatten_append, List.append_assoc, h, h', List.append_assoc]

theorem Shows.dumped {log : List (List Byte)} {bytes : List Byte} (h : Shows log bytes)
    (first last : List Byte) : dumped (first :: log ++ [last]) = bytes := by
  have hall := h []
  rw [List.append_nil, show readBytes [] = [] from rfl, List.append_nil] at hall
  unfold Netrelay.dumped
  rw [List.cons_append, List.tail_cons, List.dropLast_concat, hall]

theorem digitValue_upperDigit {d : Nat} (h : d < 16) : digitValue (upperDigit d) = some d := by
  have hall : ∀ d : Fin 16, digitValue (upperDigit d) = some d.val := by decide
  exact hall ⟨d, h⟩

theorem upperDigit_ne_zero {d : Nat} (h : d < 16) : upperDigit d ≠ 0 := by
  have hall : ∀ d : Fin 16, upperDigit d ≠ 0 := by decide
  exact hall ⟨d, h⟩

theorem readBytes_byteText (b : Byte) (rest : List Byte) :
    readBytes (byteText b ++ rest) = b :: readBytes rest := by
  have hlt := b.toNat_lt
  have hpair : readBytes (byteText b ++ rest) = b :: readBytes (32 :: rest) :=
    readBytes_pair (digitValue_upperDigit (by omega)) (digitValue_upperDigit (by omega)) _
  have hblank : digitValue 32 = none := by decide
  rw [hpair, readBytes_skip hblank]

theorem byteText_ne_zero {b c : Byte} (hc : c ∈ byteText b) : c ≠ 0 := by
  have hlt := b.toNat_lt
  rcases List.mem_cons.mp hc with rfl | hc
  · exact upperDigit_ne_zero (by omega)
  · rcases List.mem_cons.mp hc with rfl | hc
    · exact upperDigit_ne_zero (by omega)
    · rw [List.mem_singleton.mp hc]
      decide

/-- The text of several bytes. -/
def bytesText (bytes : List Byte) : List Byte := bytes.flatMap byteText

theorem bytesText_cons (b : Byte) (bytes : List Byte) :
    bytesText (b :: bytes) = byteText b ++ bytesText bytes := List.flatMap_cons

theorem bytesText_append (bytes bytes' : List Byte) :
    bytesText (bytes ++ bytes') = bytesText bytes ++ bytesText bytes' := List.flatMap_append

@[simp] theorem length_bytesText (bytes : List Byte) :
    (bytesText bytes).length = 3 * bytes.length := by
  induction bytes with
  | nil => rfl
  | cons b bytes ih =>
    rw [bytesText_cons, List.length_append, ih, List.length_cons]
    show 3 + 3 * bytes.length = _
    omega

theorem bytesText_ne_zero {bytes : List Byte} {c : Byte} (hc : c ∈ bytesText bytes) : c ≠ 0 := by
  obtain ⟨b, -, hb⟩ := List.mem_flatMap.mp hc
  exact byteText_ne_zero hb

theorem readBytes_bytesText (bytes rest : List Byte) :
    readBytes (bytesText bytes ++ rest) = bytes ++ readBytes rest := by
  induction bytes with
  | nil => rfl
  | cons b bytes ih =>
    rw [bytesText_cons, List.append_assoc, readBytes_byteText, ih, List.cons_append]

theorem shows_newline : Shows [myLogFun newline newline] [] := by
  intro rest
  exact readBytes_skip (by decide) rest

/-- A text of at most a line passes the buffer of the log function. -/
theorem shows_bytesText (format : List Byte) {bytes : List Byte} (h : bytes.length ≤ 16) :
    Shows [myLogFun format (bytesText bytes)] bytes := by
  intro rest
  have hwhole : myLogFun format (bytesText bytes) = bytesText bytes := by
    refine List.take_of_length_le ?_
    rw [length_bytesText]
    unfold maxLogBufSize
    omega
  rw [hwhole, List.flatten_singleton, readBytes_bytesText]

theorem shows_line {bytes : List Byte} (h : bytes.length ≤ 16) :
    Shows [myLogFun formatLine (10 :: bytesText bytes ++ [10])] bytes := by
  intro rest
  have hwhole : myLogFun formatLine (10 :: bytesText bytes ++ [10]) =
      10 :: bytesText bytes ++ [10] := by
    refine List.take_of_length_le ?_
    rw [List.length_append, List.length_cons, length_bytesText, List.length_singleton]
    unfold maxLogBufSize
    omega
  rw [hwhole, List.flatten_singleton, List.append_assoc, List.cons_append,
    readBytes_skip (by decide), readBytes_bytesText, List.singleton_append,
    readBytes_skip (by decide)]

/-! ## The string in `line` -/

/-- The array begins with the text of these bytes and a NUL. -/
structure Holds (line : Nat → Byte) (bytes : List Byte) : Prop where
  le : bytes.length ≤ 16
  text : slice line 0 (3 * bytes.length) = bytesText bytes
  nul : line (3 * bytes.length) = 0

theorem Holds.lineText {line : Nat → Byte} {bytes : List Byte} (h : Holds line bytes) :
    lineText line = bytesText bytes := by
  have hle := h.le
  have hlength := length_bytesText bytes
  have htext := h.text
  have hnul := h.nul
  rw [← hlength] at htext hnul
  exact arrayString_eq htext hnul (by omega) fun hmem => bytesText_ne_zero hmem rfl

/-- Printing a byte behind the text of others. -/
theorem holds_printByte {line : Nat → Byte} {bytes : List Byte} (hlt : bytes.length < 16)
    (htext : slice line 0 (3 * bytes.length) = bytesText bytes) (b : Byte) :
    Holds (printByte line (3 * bytes.length) b) (bytes ++ [b]) := by
  have hlength : 3 * (bytes ++ [b]).length = 3 * bytes.length + 3 := by
    rw [List.length_append, List.length_singleton]
    omega
  have hstored : ∀ j, j < 4 → printByte line (3 * bytes.length) b (3 * bytes.length + j) =
      (byteText b ++ [0]).getD j 0 := by
    intro j hj
    unfold printByte
    rw [blit_adjacent, if_pos (by omega), Nat.add_sub_cancel_left]
  have hbefore : slice (printByte line (3 * bytes.length) b) 0 (3 * bytes.length) =
      slice line 0 (3 * bytes.length) := by
    refine slice_congr fun i hi => ?_
    unfold printByte
    rw [blit_adjacent, if_neg (by omega)]
  have hbyte : slice (printByte line (3 * bytes.length) b) (3 * bytes.length) 3 =
      slice (fun j => (byteText b ++ [0]).getD j 0) 0 3 := by
    refine slice_congr fun i hi => ?_
    rw [hstored i (by omega), Nat.zero_add]
  refine ⟨?_, ?_, ?_⟩
  · rw [List.length_append, List.length_singleton]
    exact hlt
  · rw [hlength, slice_add, hbefore, htext, Nat.zero_add, hbyte, bytesText_append]
    rfl
  · rw [hlength, hstored 3 (by decide)]
    rfl

/-! ## The loop of the DHCP relay -/

/-- The bytes of the lines that were logged before the byte number `i` is printed. -/
def flushed (i : Nat) : Nat := 16 * ((i - 1) / 16)

theorem flushed_le (i : Nat) : flushed i ≤ i := by
  unfold flushed
  omega

theorem slice_glue (f : Nat → Byte) {a i : Nat} (h : a ≤ i) :
    slice f 0 a ++ slice f a (i - a) = slice f 0 i := by
  have hadd := slice_add f 0 a (i - a)
  rw [Nat.zero_add, Nat.add_sub_cancel' h] at hadd
  exact hadd.symm

theorem slice_last (f : Nat → Byte) {a i : Nat} (h : a ≤ i) :
    slice f a (i - a) ++ [f i] = slice f a (i + 1 - a) := by
  have hlength : i + 1 - a = (i - a) + 1 := by omega
  rw [hlength, slice_add, Nat.add_sub_cancel' h]
  rfl

namespace DhcpFilter

/-- At the loop head: `line` has the bytes since the last line was logged. -/
structure Head (pbuf : Buffer) (s : Dump) : Prop where
  le : s.i ≤ pbuf.size
  line : Holds s.line (slice pbuf.at (flushed s.i) (s.i - flushed s.i))
  log : Shows s.log (slice pbuf.at 0 (flushed s.i))

/-- The loop body, when it is entered. -/
def Dump.next (pbuf : Buffer) (s : Dump) : Dump where
  i := s.i + 1
  line := printByte s.line (s.i % 16 * 3) (pbuf.at s.i)
  log := s.log ++
    if s.i % 16 = 0 then [myLogFun newline newline, myLogFun formatString (lineText s.line)]
    else []

theorem Head.next {pbuf : Buffer} {s : Dump} (h : Head pbuf s) (hi : s.i < pbuf.size) :
    Head pbuf (s.next pbuf) := by
  have hle := flushed_le s.i
  by_cases hstart : s.i % 16 = 0
  · -- a new line: the one before is logged, and `line` begins again
    have hflushed : flushed (s.i + 1) = s.i := by
      unfold flushed
      omega
    have hone : s.i + 1 - s.i = 1 := Nat.add_sub_cancel_left s.i 1
    constructor
    · exact hi
    · show Holds (printByte s.line (s.i % 16 * 3) (pbuf.at s.i))
        (slice pbuf.at (flushed (s.i + 1)) (s.i + 1 - flushed (s.i + 1)))
      rw [hstart, hflushed, hone]
      have hfirst : Holds (printByte s.line (3 * ([] : List Byte).length) (pbuf.at s.i))
          ([] ++ [pbuf.at s.i]) := holds_printByte (by decide) rfl (pbuf.at s.i)
      exact hfirst
    · show Shows (s.log ++ if s.i % 16 = 0 then _ else _) (slice pbuf.at 0 (flushed (s.i + 1)))
      rw [if_pos hstart, hflushed, h.line.lineText, ← slice_glue pbuf.at hle]
      exact h.log.append (shows_newline.append (shows_bytesText formatString h.line.le))
  · -- the line goes on
    have hflushed : flushed (s.i + 1) = flushed s.i := by
      unfold flushed
      omega
    have hplace : s.i % 16 * 3 = 3 * (slice pbuf.at (flushed s.i) (s.i - flushed s.i)).length := by
      rw [length_slice]
      unfold flushed
      omega
    have hlt : (slice pbuf.at (flushed s.i) (s.i - flushed s.i)).length < 16 := by
      rw [length_slice]
      unfold flushed
      omega
    constructor
    · exact hi
    · show Holds (printByte s.line (s.i % 16 * 3) (pbuf.at s.i))
        (slice pbuf.at (flushed (s.i + 1)) (s.i + 1 - flushed (s.i + 1)))
      rw [hflushed, hplace, ← slice_last pbuf.at hle]
      exact holds_printByte hlt h.line.text (pbuf.at s.i)
    · show Shows (s.log ++ if s.i % 16 = 0 then _ else _) (slice pbuf.at 0 (flushed (s.i + 1)))
      rw [if_neg hstart, hflushed, List.append_nil]
      exact h.log

theorem dumpBody_pass {pbuf : Buffer} (hsize : pbuf.size < 2 ^ 32) {s : Dump} (h : Head pbuf s) :
    (∃ s', dumpBody pbuf s = .done s' ∧ s'.i = pbuf.size ∧ Head pbuf s') ∨
    (∃ s', dumpBody pbuf s = .next s' ∧ Head pbuf s' ∧ pbuf.size - s'.i < pbuf.size - s.i) := by
  unfold dumpBody
  by_cases hi : s.i < pbuf.size
  · have hnext : toUInt32 (s.i + 1) = s.i + 1 := Nat.mod_eq_of_lt (by omega)
    rw [if_pos hi, hnext]
    refine .inr ⟨s.next pbuf, rfl, h.next hi, ?_⟩
    show pbuf.size - (s.i + 1) < pbuf.size - s.i
    omega
  · rw [if_neg hi]
    exact .inl ⟨s, rfl, Nat.le_antisymm h.le (Nat.not_lt.mp hi), h⟩

/-- How many bytes the DHCP relay logs. -/
def logged (size : Nat) : Nat := if size % 16 = 0 then flushed size else size

theorem packetDump_logged {logLevel : Nat} (hlevel : 1 < logLevel) {pbuf : Buffer}
    (hsize : pbuf.size < 2 ^ 32) (desc : List Byte) :
    ∃ enough log, (∀ fuel, enough ≤ fuel → packetDump logLevel pbuf desc fuel = some log) ∧
      dumped log = slice pbuf.at 0 (logged pbuf.size) := by
  have hentry : Head pbuf ⟨0, fun _ => 0, []⟩ :=
    ⟨Nat.zero_le _, ⟨Nat.zero_le 16, rfl, rfl⟩, .nil⟩
  obtain ⟨enough, s, hrun, hi, hhead⟩ :=
    iterate_total_wf (measure fun s : Dump => pbuf.size - s.i).wf
      (fun s h => dumpBody_pass hsize h) hentry
  refine ⟨enough, myLogFun formatString desc :: s.log ++
    (if s.i % 16 ≠ 0 then [myLogFun formatLine (10 :: lineText s.line ++ [10])] else []) ++
    [logTotal pbuf.size], fun fuel hfuel => ?_, ?_⟩
  · unfold packetDump
    rw [if_neg (by omega), hrun fuel hfuel]
    rfl
  · have hline := hhead.line
    have hlog := hhead.log
    rw [hi] at hline hlog ⊢
    unfold logged
    by_cases hfull : pbuf.size % 16 = 0
    · rw [if_neg (not_not_intro hfull), if_pos hfull, List.append_nil]
      exact hlog.dumped _ _
    · rw [if_pos hfull, if_neg hfull, hline.lineText, List.cons_append,
        ← slice_glue pbuf.at (flushed_le pbuf.size)]
      exact (hlog.append (shows_line hline.le)).dumped _ _

/-- The index never gets to a size of more than 32 bits. -/
theorem packetDump_endless {logLevel : Nat} (hlevel : 1 < logLevel) {pbuf : Buffer}
    (hsize : 2 ^ 32 ≤ pbuf.size) (desc : List Byte) (fuel : Nat) :
    packetDump logLevel pbuf desc fuel = none := by
  have hrun : iterate (dumpBody pbuf) fuel ⟨0, fun _ => 0, []⟩ = none := by
    refine iterate_diverges (I := fun s => s.i < 2 ^ 32) (fun s hs => ?_) fuel (by decide)
    refine ⟨_, if_pos (Nat.lt_of_lt_of_le hs hsize), ?_⟩
    exact Nat.mod_lt _ (by decide)
  unfold packetDump
  rw [if_neg (by omega), hrun]
  rfl

end DhcpFilter

/-! ## The loop of the EOE relay -/

namespace EoeFilter

theorem dumpBody_pass {pbuf : Buffer} (hsize : pbuf.size < 2 ^ 32) {s : Dump}
    (h : s.i ≤ pbuf.size ∧ Shows s.log (slice pbuf.at 0 s.i)) :
    (∃ s', dumpBody pbuf s = .done s' ∧ Shows s'.log (slice pbuf.at 0 pbuf.size)) ∨
    (∃ s', dumpBody pbuf s = .next s' ∧
      (s'.i ≤ pbuf.size ∧ Shows s'.log (slice pbuf.at 0 s'.i)) ∧
      pbuf.size - s'.i < pbuf.size - s.i) := by
  obtain ⟨hle, hlog⟩ := h
  unfold dumpBody
  by_cases hi : s.i < pbuf.size
  · have hnext : toUInt32 (s.i + 1) = s.i + 1 := Nat.mod_eq_of_lt (by omega)
    rw [if_pos hi, hnext]
    refine .inr ⟨_, rfl, ⟨hi, ?_⟩, ?_⟩
    · have hstart : Shows (if s.i % 16 = 0 then [myLogFun newline newline] else []) [] := by
        split
        · exact shows_newline
        · exact .nil
      have hbyte : Shows [myLogFun formatByte (bytesText [pbuf.at s.i])] [pbuf.at s.i] :=
        shows_bytesText formatByte (show 1 ≤ 16 by decide)
      have hlast := slice_last pbuf.at (Nat.zero_le s.i)
      rw [Nat.sub_zero, Nat.sub_zero] at hlast
      have hall := (hlog.append hstart).append hbyte
      rw [List.append_nil, hlast] at hall
      exact hall
    · show pbuf.size - (s.i + 1) < pbuf.size - s.i
      omega
  · obtain hsame : s.i = pbuf.size := Nat.le_antisymm hle (Nat.not_lt.mp hi)
    rw [if_neg hi]
    rw [hsame] at hlog
    exact .inl ⟨s, rfl, hlog⟩

theorem packetDump_logged {logLevel : Nat} (hlevel : 1 < logLevel) {pbuf : Buffer}
    (hsize : pbuf.size < 2 ^ 32) (desc : List Byte) :
    ∃ enough log, (∀ fuel, enough ≤ fuel → packetDump logLevel pbuf desc fuel = some log) ∧
      dumped log = pbuf.packet := by
  obtain ⟨enough, s, hrun, hlog⟩ :=
    iterate_total_wf (measure fun s : Dump => pbuf.size - s.i).wf
      (fun s h => dumpBody_pass hsize h) (s := ⟨0, []⟩) ⟨Nat.zero_le _, .nil⟩
  refine ⟨enough, myLogFun formatString desc :: s.log ++ [logTotal pbuf.size],
    fun fuel hfuel => ?_, hlog.dumped _ _⟩
  unfold packetDump
  rw [if_neg (by omega), hrun fuel hfuel]
  rfl

end EoeFilter

/-! ## Both dumps -/

/-- When the dumps agree, the DHCP relay has logged everything. -/
theorem DumpsAgree.logged_eq {logLevel : Nat} {pbuf : Buffer} {desc : List Byte}
    (h : DumpsAgree logLevel pbuf desc) (hlevel : 1 < logLevel) (hsize : pbuf.size < 2 ^ 32) :
    DhcpFilter.logged pbuf.size = pbuf.size := by
  obtain ⟨enough, dhcp, eoe, hruns, hdhcp, -⟩ := h
  obtain ⟨enough', log, hruns', hlog⟩ := DhcpFilter.packetDump_logged hlevel hsize desc
  have hrun := (hruns (enough + enough') (Nat.le_add_right _ _)).1
  rw [hruns' _ (Nat.le_add_left _ _), Option.some_inj] at hrun
  rw [hrun, hdhcp] at hlog
  have hlength := congrArg List.length hlog
  rw [packet_eq_slice, length_slice, length_slice] at hlength
  exact hlength.symm

/-- **Packet dumps**: both relays log the packet exactly when it is empty, or the log is on and the
size is less than 2^32 and not a multiple of 16. -/
theorem packet_dumps_agree_iff (logLevel : Nat) (pbuf : Buffer) (desc : List Byte) :
    DumpsAgree logLevel pbuf desc ↔
      pbuf.size = 0 ∨ (1 < logLevel ∧ pbuf.size < 2 ^ 32 ∧ pbuf.size % 16 ≠ 0) := by
  constructor
  · intro hagree
    by_cases hlevel : 1 < logLevel
    · by_cases hsize : pbuf.size < 2 ^ 32
      · have hlogged := hagree.logged_eq hlevel hsize
        unfold DhcpFilter.logged flushed at hlogged
        by_cases hfull : pbuf.size % 16 = 0
        · rw [if_pos hfull] at hlogged
          left
          omega
        · exact .inr ⟨hlevel, hsize, hfull⟩
      · obtain ⟨enough, dhcp, eoe, hruns, -⟩ := hagree
        have hrun := (hruns enough (Nat.le_refl enough)).1
        rw [DhcpFilter.packetDump_endless hlevel (Nat.not_lt.mp hsize)] at hrun
        cases hrun
    · -- nothing is logged
      obtain ⟨enough, dhcp, eoe, hruns, hdhcp, -⟩ := hagree
      have hrun := (hruns enough (Nat.le_refl enough)).1
      unfold DhcpFilter.packetDump at hrun
      rw [if_pos (by omega)] at hrun
      cases hrun
      have hlength := congrArg List.length hdhcp
      rw [packet_eq_slice, length_slice] at hlength
      exact .inl hlength.symm
  · intro hcase
    by_cases hlevel : 1 < logLevel
    · have hsize : pbuf.size < 2 ^ 32 := by
        rcases hcase with hzero | hcase
        · omega
        · exact hcase.2.1
      have hlogged : DhcpFilter.logged pbuf.size = pbuf.size := by
        unfold DhcpFilter.logged flushed
        split <;> omega
      obtain ⟨enough, dhcp, hruns, hdhcp⟩ := DhcpFilter.packetDump_logged hlevel hsize desc
      obtain ⟨enough', eoe, hruns', heoe⟩ := EoeFilter.packetDump_logged hlevel hsize desc
      rw [hlogged] at hdhcp
      refine ⟨enough + enough', dhcp, eoe, fun fuel hfuel => ?_, hdhcp, heoe⟩
      exact ⟨hruns fuel (by omega), hruns' fuel (by omega)⟩
    · have hzero : pbuf.size = 0 := by
        rcases hcase with hzero | hcase
        · exact hzero
        · exact absurd hcase.1 hlevel
      have hempty : pbuf.packet = [] := by
        rw [packet_eq_slice, hzero]
        rfl
      refine ⟨0, [], [], fun fuel _ => ⟨if_pos (by omega), if_pos (by omega)⟩, ?_, ?_⟩
      · rw [hempty]
        rfl
      · rw [hempty]
        rfl

/-- A packet of `size` bytes, numbered from 0. -/
def numbered (size : Nat) : Buffer := ⟨65535, 0, size, fun a => UInt8.ofNat a.toNat⟩

theorem packet_dumps_agree_twenty : DumpsAgree 2 (numbered 20) [80] :=
  (packet_dumps_agree_iff 2 (numbered 20) [80]).mpr (.inr (by decide))

/-- Of a packet of 16 bytes, the DHCP relay logs none. -/
theorem packet_dump_last_line_lost :
    (DhcpFilter.packetDump 2 (numbered 16) [80] 17).map dumped = some [] ∧
    (EoeFilter.packetDump 2 (numbered 16) [80] 17).map dumped = some (numbered 16).packet ∧
    ¬ DumpsAgree 2 (numbered 16) [80] := by
  have hdhcp : (DhcpFilter.packetDump 2 (numbered 16) [80] 17).map dumped = some [] := by
    decide +kernel
  have heoe : (EoeFilter.packetDump 2 (numbered 16) [80] 17).map dumped =
      some (numbered 16).packet := by decide +kernel
  refine ⟨hdhcp, heoe, fun hagree => ?_⟩
  have hlogged := hagree.logged_eq (by decide) (by decide)
  exact absurd hlogged (by decide)

end LinuxDeviceDriver.Netrelay
