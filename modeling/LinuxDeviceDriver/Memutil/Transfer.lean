import LinuxDeviceDriver.Kernel

/-!
# Restartable transfers: `safe_read`, `safe_write`

Both functions call `read` or `write` until everything is moved, a call returns 0, or a call
fails with something other than `EINTR`. What is still to be moved is kept in an `ssize_t`.

The two loops are one function over a `Channel`, the file at the other end. A `Port` moves bytes
so that two moves, one behind the other, are one move of both: how the transfer is cut into
calls cannot be seen afterwards. A channel is a port with an end. `safeTransfer_exit` says this for
every sequence of results.
-/

namespace LinuxDeviceDriver.Memutil

open Lib

/-! ## Widths -/

/-- The width of a C type. -/
inductive Width
  | w32
  | w64
deriving DecidableEq

namespace Width

def bits : Width → Nat
  | w32 => 32
  | w64 => 64

/-- Conversion to the signed type. -/
def signed (w : Width) (x : Int) : Int := x.bmod (2 ^ w.bits)

/-- Conversion to the unsigned type. -/
def unsigned (w : Width) (x : Int) : Nat := (x % (2 ^ w.bits : Nat)).toNat

variable (w : Width)

theorem unsigned_signed (x : Int) : w.unsigned (w.signed x) = w.unsigned x := by
  unfold unsigned signed
  rw [Int.bmod_emod]

theorem unsigned_of_lt {n : Nat} (h : n < 2 ^ w.bits) : w.unsigned n = n := by
  unfold unsigned
  rw [Int.emod_eq_of_lt (Int.natCast_nonneg n) (Int.ofNat_lt.mpr h)]
  rfl

theorem signed_sub_signed (x y : Int) : w.signed (x - w.signed y) = w.signed (x - y) := by
  unfold signed
  rw [Int.sub_bmod_bmod]

theorem signed_signed_sub (x y : Int) : w.signed (w.signed x - y) = w.signed (x - y) := by
  unfold signed
  rw [Int.bmod_sub_bmod]

/-- A number that is not negative as a signed one is in the lower half. -/
theorem lt_of_signed_nonneg {n : Nat} (h : n < 2 ^ w.bits) (hsigned : 0 ≤ w.signed n) :
    n < 2 ^ (w.bits - 1) := by
  unfold signed at hsigned
  cases w <;> simp only [bits] at * <;> rw [Int.bmod_def] at hsigned <;> split at hsigned <;> omega

end Width

/-! ## The loop -/

/-- What a call of `read` or `write` does: it moves at most `n` bytes, or it returns -1. -/
inductive Io
  | moved (n : Nat)
  | eintr
  | error
deriving DecidableEq

/-- `MAX_RW_COUNT`, the most that one call moves. -/
def maxRwCount : Nat := 0x7ffff000

/-- The other end of a transfer, in a state `σ`: what moving `n` bytes from or to the address `buf`
does. -/
structure Port (σ : Type) where
  move : σ → Nat → Nat → σ
  move_zero : ∀ s buf, move s buf 0 = s
  move_add : ∀ s buf n k, move (move s buf n) (buf + n) k = move s buf (n + k)

/-- The bytes that were accepted, in the order in which they were. -/
def sink (mem : Nat → Byte) : Port (List Byte) where
  move := fun file buf n => file ++ slice mem buf n
  move_zero := fun file _ => List.append_nil file
  move_add := fun file buf n k => by rw [List.append_assoc, slice_add]

/-- A stream of bytes that is read into memory: the memory and the position in the stream. -/
def source (stream : Nat → Byte) : Port ((Nat → Byte) × Nat) where
  move := fun s buf n => (blit s.1 (fun i => buf + i) (fun i => stream (s.2 + i)) n, s.2 + n)
  move_zero := fun _ _ => rfl
  move_add := fun s buf n k => by
    have hblit := blit_add s.1 (fun i => buf + i) (fun i => stream (s.2 + i)) n k
    simp only [Nat.add_assoc] at hblit ⊢
    rw [hblit]

/-- A regular file, which has or takes only so many bytes. -/
structure Channel (σ : Type) extends Port σ where
  most : σ → Nat

/-- The loop of both functions: the return value, the file, and `buf` behind the last byte.
`none` when the results of the calls are used up before the loop ends. -/
def safeTransfer {σ : Type} (w : Width) (c : Channel σ) (count : Nat) :
    List Io → σ → Nat → Int → Option (Int × σ × Nat)
  | [], s, buf, len => if len = 0 then some (w.signed (count - len), s, buf) else none
  | io :: rest, s, buf, len =>
    if len = 0 then some (w.signed (count - len), s, buf)
    else
      match io with
      | .eintr => safeTransfer w c count rest s buf len
      | .error => some (-1, s, buf)
      | .moved n =>
        let ret := min n (min maxRwCount (min (w.unsigned len) (c.most s)))
        if ret = 0 then some (w.signed (count - len), s, buf)
        else safeTransfer w c count rest (c.move s buf ret) (buf + ret) (w.signed (len - ret))

/-- A file that is written at its end, from memory. -/
def fileForWrite (mem : Nat → Byte) : Channel (List Byte) where
  toPort := sink mem
  most := fun _ => maxRwCount

/-- A file that is read into memory: the memory and the position in the file. -/
def fileForRead (file : List Byte) : Channel ((Nat → Byte) × Nat) where
  toPort := source fun i => file.getD i 0
  most := fun s => file.length - s.2

/-- `safe_write`, to a file in the state `file` -/
def safeWrite (w : Width) (mem : Nat → Byte) (file : List Byte) (buf count : Nat)
    (io : List Io) : Option (Int × List Byte × Nat) :=
  safeTransfer w (fileForWrite mem) count io file buf (w.signed count)

/-- `safe_read`, from the start of a file -/
def safeRead (w : Width) (mem : Nat → Byte) (file : List Byte) (buf count : Nat)
    (io : List Io) : Option (Int × ((Nat → Byte) × Nat) × Nat) :=
  safeTransfer w (fileForRead file) count io (mem, 0) buf (w.signed count)

/-! ## How the loop ends -/

section Exit

variable {σ : Type} {w : Width} {c : Channel σ} {count : Nat} {s : σ} {buf : Nat}

/-- The first `done` bytes have been moved; the return value is their number or -1. -/
inductive TransferExit (w : Width) (c : Channel σ) (count : Nat) (s : σ) (buf : Nat) :
    Int × σ × Nat → Prop
  | ended {done : Nat} : done ≤ count →
      TransferExit w c count s buf (w.signed done, c.move s buf done, buf + done)
  | failed {done : Nat} : done ≤ count →
      TransferExit w c count s buf (-1, c.move s buf done, buf + done)

theorem TransferExit.returned {done : Nat} (hdone : done ≤ count) :
    TransferExit w c count s buf
      (w.signed (count - w.signed (count - done : Nat)), c.move s buf done, buf + done) := by
  have hret : w.signed (count - w.signed (count - done : Nat)) = w.signed done := by
    rw [w.signed_sub_signed, Int.ofNat_sub hdone, sub_sub_cancel]
  rw [hret]
  exact .ended hdone

/-- **Every sequence of results**, by induction: `len` is what is left, as an `ssize_t`. -/
theorem safeTransfer_from (hcount : count < 2 ^ w.bits) (io : List Io) :
    ∀ {done : Nat} {r : Int × σ × Nat}, done ≤ count →
      safeTransfer w c count io (c.move s buf done) (buf + done) (w.signed (count - done : Nat)) =
        some r → TransferExit w c count s buf r := by
  induction io with
  | nil =>
    intro done r hdone h
    unfold safeTransfer at h
    split at h
    · cases h
      exact .returned hdone
    · cases h
  | cons io rest ih =>
    intro done r hdone h
    unfold safeTransfer at h
    split at h
    · cases h
      exact .returned hdone
    · cases io with
      | eintr => exact ih hdone h
      | error =>
        cases h
        exact .failed hdone
      | moved n =>
        dsimp only at h
        split at h
        · cases h
          exact .returned hdone
        · generalize hret : min n _ = ret at h
          have hreq : w.unsigned (w.signed (count - done : Nat)) = count - done := by
            rw [w.unsigned_signed, w.unsigned_of_lt (by omega)]
          rw [hreq] at hret
          have hle : ret ≤ count - done := by omega
          rw [c.move_add, Nat.add_assoc, w.signed_signed_sub, ← Int.ofNat_sub hle,
            Nat.sub_sub] at h
          exact ih (by omega) h

/-- How the functions end. -/
theorem safeTransfer_exit (hcount : count < 2 ^ w.bits) {io : List Io} {r : Int × σ × Nat}
    (h : safeTransfer w c count io s buf (w.signed count) = some r) :
    TransferExit w c count s buf r := by
  refine safeTransfer_from hcount io (Nat.zero_le count) ?_
  rw [c.move_zero, Nat.add_zero, Nat.sub_zero]
  exact h

/-- A return value that is not negative and equals the count as a `size_t`: all has been moved,
and the count is in the lower half. -/
theorem TransferExit.complete (hcount : count < 2 ^ w.bits) {r : Int × σ × Nat}
    (h : TransferExit w c count s buf r) (hnonneg : 0 ≤ r.1) (hall : w.unsigned r.1 = count) :
    count < 2 ^ (w.bits - 1) ∧ r.2 = (c.move s buf count, buf + count) := by
  cases h with
  | failed _ => exact absurd (show (0 : Int) ≤ -1 from hnonneg) (by decide)
  | @ended done hdone =>
    rw [w.unsigned_signed, w.unsigned_of_lt (by omega)] at hall
    subst hall
    exact ⟨w.lt_of_signed_nonneg hcount hnonneg, rfl⟩

end Exit

end LinuxDeviceDriver.Memutil
