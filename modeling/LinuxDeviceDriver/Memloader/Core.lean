import LinuxDeviceDriver.Memloader.Load

/-!
# The memloader driver: `memloader_core.c`

The callbacks that copy a firmware image into physical memory. The world they
share is the driver's `memloader_info`, the target memory by physical address,
and the answers of `ioremap` to its calls, which may fail in any pattern; a
mapping covers exactly the requested range.

`memloader_write` has two paths. With `ctx->data` it copies one block from the
flat image at `ctx->current_count`. Without, it walks `fw->pages` from the page
that holds `info->current_count`, one page per `memloader_load`, and always
starts at the beginning of the page (`pageBody`).

`Wrote f c n w w'` is what both paths amount to: `n` bytes of a source `f`, from
position `c` on, have reached their addresses. It composes (`Wrote.trans`), so
pages make up a block and blocks an image.
-/

namespace LinuxDeviceDriver.Memloader

open Lib

/-- `struct memloader_info` without the context and the kernel objects. -/
structure MemloaderInfo where
  loadBaseAddress : BitVec 64
  currentCount : Int

/-- The driver's data and the hardware: `ioremapOk k` is the answer to the `k`-th
call of `ioremap`, and `ioremaps` counts the calls so far. -/
structure World where
  info : MemloaderInfo
  target : BitVec 64 → Byte
  ioremapOk : Nat → Bool
  ioremaps : Nat

/-- `info->current_count += n`. -/
def World.addCount (w : World) (n : Int) : World :=
  { w with info := { w.info with currentCount := toInt32 (w.info.currentCount + n) } }

/-- Map `count` bytes at `phyAddress`, copy, unmap. -/
def memloaderLoad (phyAddress : BitVec 64) (data : Option (Nat → Byte)) (count : Int)
    (w : World) : Int × World :=
  match data with
  | none => (Errno.einval.neg, w)
  | some d =>
    if count ≤ 0 then (Errno.einval.neg, w)
    else if w.ioremapOk w.ioremaps then
      (count, { w with
        ioremaps := w.ioremaps + 1
        target := blit w.target (fun i => phyAddress + BitVec.ofNat 64 i) d count.toNat })
    else (Errno.ebusy.neg, { w with ioremaps := w.ioremaps + 1 })

def memloaderStart : Callback World := fun _ w =>
  some (0, { w with info := { w.info with currentCount := 0 } })

/-- The size of the next block: `blocksize` unless it is 0, and never more than
what remains. -/
def blockCount (ctx : FwContext) : Int :=
  let remaint := toInt32 (ctx.totalCount - ctx.currentCount)
  let count := if ctx.blocksize ≠ 0 then ctx.blocksize else remaint
  if count > remaint then remaint else count

/-- The flat path of `memloader_write`. -/
def writeFlat (ctx : FwContext) (data : Nat → Byte) (w : World) : Int × World :=
  let (ret, w') := memloaderLoad (w.info.loadBaseAddress + BitVec.ofInt 64 ctx.currentCount)
    (some fun i => data (ctx.currentCount.toNat + i)) (blockCount ctx) w
  if ret > 0 then (ret, w'.addCount ret) else (ret, w')

/-- The page loop's variables; `failed` marks the `return -ENOMEM` inside it. -/
structure PageCopy where
  world : World
  count : Int
  totalCopy : Int
  failed : Bool

/-- The page loop behind `memloader_load`. -/
def afterPage (s : PageCopy) (r : Int × World) : Iter PageCopy :=
  if r.1 > 0 then
    .next { s with
      world := r.2.addCount r.1
      count := toInt32 (s.count - r.1)
      totalCopy := toInt32 (s.totalCopy + r.1) }
  else .done { s with world := r.2, failed := true }

/-- One pass of `while (count)`. An index outside of `fw->pages` is a wild access. -/
def pageBody (pageShift : Nat) (pages : List (Nat → Byte)) (s : PageCopy) : Iter PageCopy :=
  if s.count = 0 then .done s
  else
    let pageNr := s.world.info.currentCount / 2 ^ pageShift
    if pageNr < 0 then .stuck
    else match pages[pageNr.toNat]? with
      | none => .stuck
      | some pageData =>
        -- min_t(size_t, PAGE_SIZE, count), handed on as an int
        let len := toInt32 (min (2 ^ pageShift) (s.count % 2 ^ 64))
        afterPage s (memloaderLoad
          (s.world.info.loadBaseAddress + BitVec.ofInt 64 s.world.info.currentCount)
          (some pageData) len s.world)

/-- The page path of `memloader_write`. The fuel covers every run of the loop: a
positive count falls with each pass, a negative one walks off the page list. -/
def writePages (pageShift : Nat) (ctx : FwContext) (pages : List (Nat → Byte)) (w : World) :
    Option (Int × World) :=
  let count := blockCount ctx
  (iterate (pageBody pageShift pages) (count.natAbs + pages.length + 1)
    { world := w, count := count, totalCopy := 0, failed := false }).map fun s =>
      (if s.failed then Errno.enomem.neg else s.totalCopy, s.world)

def memloaderWrite (pageShift : Nat) : Callback World := fun ctx w =>
  match ctx.data with
  | some data => some (writeFlat ctx data w)
  | none =>
    match ctx.fw with
    | none => none
    | some fw =>
      match fw.pages with
      | some pages => writePages pageShift ctx pages w
      | none => some (Errno.einval.neg, w)

/-- `memloader_end` ignores its `error` argument. -/
def memloaderEnd (ctx : FwContext) (_error : Bool) (w : World) : Option (Int × World) :=
  some (if w.info.currentCount ≠ ctx.currentCount then Errno.eio.neg else 0, w)

/-- The callbacks `memloader_probe` installs. -/
def memloaderOps (pageShift : Nat) : FwOps World where
  start := some memloaderStart
  write := some (memloaderWrite pageShift)
  read := none
  endOp := some memloaderEnd

/-! ## What a write does to the world -/

/-- `n` bytes of the source `f`, from position `c` on, have been stored at the
load address, and `info->current_count` has moved on from `c`. -/
structure Wrote (f : Nat → Byte) (c n : Nat) (w w' : World) : Prop where
  target : w'.target = blit w.target
    (fun i => w.info.loadBaseAddress + BitVec.ofNat 64 (c + i)) (fun i => f (c + i)) n
  base : w'.info.loadBaseAddress = w.info.loadBaseAddress
  count : w'.info.currentCount = (c + n : Nat)
  ioremapOk : w'.ioremapOk = w.ioremapOk

/-- Adjacent writes make one write. -/
theorem Wrote.trans {f : Nat → Byte} {c n k : Nat} {w w' w'' : World} (h₁ : Wrote f c n w w')
    (h₂ : Wrote f (c + n) k w' w'') : Wrote f c (n + k) w w'' where
  target := by
    rw [h₂.target, h₁.target, h₁.base]
    simp only [Nat.add_assoc]
    exact blit_add w.target (fun i => w.info.loadBaseAddress + BitVec.ofNat 64 (c + i))
      (fun i => f (c + i)) n k
  base := h₂.base.trans h₁.base
  count := by
    rw [h₂.count, Nat.add_assoc]
  ioremapOk := h₂.ioremapOk.trans h₁.ioremapOk

/-- Some call of `ioremap` fails. -/
def World.Refuses (w : World) : Prop := ∃ k, w.ioremapOk k = false

/-- `memloader_load` at position `c` stores its bytes, unless its call of `ioremap`
fails; the caller then advances `info->current_count` by the result. -/
theorem memloaderLoad_wrote {f d : Nat → Byte} {c n : Nat} {w : World} (hn : 0 < n)
    (hlt : c + n < 2 ^ 31) (hcount : w.info.currentCount = c)
    (hd : ∀ i, i < n → d i = f (c + i)) :
    (w.ioremapOk w.ioremaps = false ∧
      ∃ w', memloaderLoad (w.info.loadBaseAddress + BitVec.ofInt 64 c) (some d) n w =
        (Errno.ebusy.neg, w') ∧ Wrote f c 0 w w') ∨
    (w.ioremapOk w.ioremaps = true ∧
      ∃ w', memloaderLoad (w.info.loadBaseAddress + BitVec.ofInt 64 c) (some d) n w = (↑n, w') ∧
        Wrote f c n w (w'.addCount n) ∧ w'.ioremaps = w.ioremaps + 1) := by
  have hpos : ¬ (n : Int) ≤ 0 := by omega
  simp only [memloaderLoad, if_neg hpos]
  by_cases hok : w.ioremapOk w.ioremaps = true
  · right
    rw [if_pos hok]
    refine ⟨hok, _, rfl, ⟨?_, rfl, ?_, rfl⟩, rfl⟩
    · show blit w.target _ d (n : Int).toNat = _
      rw [Int.toNat_natCast]
      refine blit_congr _ (fun i _ => ?_) hd
      rw [BitVec.ofInt_natCast, BitVec.ofNat_add, BitVec.add_assoc]
    · show toInt32 (w.info.currentCount + n) = _
      rw [hcount, toInt32_of_range (by omega) (by omega)]
      exact (Int.natCast_add c n).symm
  · left
    rw [if_neg hok]
    exact ⟨Bool.eq_false_iff.mpr hok, _, rfl, rfl, rfl, hcount, rfl⟩

/-! ## One block -/

/-- A load in progress: `c` of `size` bytes have been written, and both counters
say so. -/
structure AtPosition (ctx : FwContext) (w : World) (size c : Nat) : Prop where
  total : ctx.totalCount = size
  current : ctx.currentCount = c
  info : w.info.currentCount = c
  lt : c < size
  size_lt : size < 2 ^ 31

/-- The block at position `c`: `b` bytes, or all that is left. -/
inductive BlockLen (b : Int) (size c : Nat) : Nat → Prop
  | whole {n : Nat} : (n : Int) = b → c + n ≤ size → BlockLen b size c n
  | last {n : Nat} : b = 0 ∨ (n : Int) ≤ b → c + n = size → BlockLen b size c n

theorem BlockLen.le {b : Int} {size c n : Nat} (h : BlockLen b size c n) : c + n ≤ size := by
  cases h with
  | whole _ hle => exact hle
  | last _ heq => exact Nat.le_of_eq heq

/-- A negative block size is handed on as it is; otherwise a block has at least
one byte. -/
theorem blockCount_cases {ctx : FwContext} {w : World} {size c : Nat}
    (h : AtPosition ctx w size c) :
    (ctx.blocksize < 0 ∧ blockCount ctx = ctx.blocksize) ∨
    (0 ≤ ctx.blocksize ∧ ∃ n : Nat, blockCount ctx = n ∧ 0 < n ∧
      BlockLen ctx.blocksize size c n) := by
  have hlt := h.lt
  have hsize := h.size_lt
  have hremaint : toInt32 (ctx.totalCount - ctx.currentCount) = (size - c : Nat) := by
    rw [h.total, h.current, toInt32_of_range (by omega) (by omega)]
    omega
  simp only [blockCount, hremaint]
  rcases Int.lt_trichotomy ctx.blocksize 0 with hneg | hzero | hpos
  · left
    rw [if_pos (Int.ne_of_lt hneg), if_neg (by omega)]
    exact ⟨hneg, rfl⟩
  · right
    rw [if_neg (not_not_intro hzero), if_neg (Int.lt_irrefl _)]
    exact ⟨Int.le_of_eq hzero.symm, size - c, rfl, by omega, .last (Or.inl hzero) (by omega)⟩
  · right
    rw [if_pos (Int.ne_of_gt hpos)]
    refine ⟨Int.le_of_lt hpos, ?_⟩
    by_cases hclamp : ctx.blocksize > (size - c : Nat)
    · rw [if_pos hclamp]
      exact ⟨size - c, rfl, by omega, .last (Or.inr (Int.le_of_lt hclamp)) (by omega)⟩
    · rw [if_neg hclamp]
      obtain ⟨n, hn⟩ := Int.eq_ofNat_of_zero_le (Int.le_of_lt hpos)
      exact ⟨n, hn, by omega, .whole hn.symm (by omega)⟩

/-- What a write of the block at `c` may do: refuse it, for a reason, and leave
the world alone, or store it. -/
inductive BlockWrite (b : Int) (size : Nat) (f : Nat → Byte) (c : Nat) (w : World) :
    Int × World → Prop
  | refused {ret : Int} {w' : World} : ret < 0 → b < 0 ∨ w.Refuses → Wrote f c 0 w w' →
      BlockWrite b size f c w (ret, w')
  | stored {n : Nat} {w' : World} : 0 < n → BlockLen b size c n → Wrote f c n w w' →
      BlockWrite b size f c w (↑n, w')

/-- The flat path stores the image itself. -/
theorem writeFlat_blockWrite {ctx : FwContext} {w : World} {size c : Nat}
    (h : AtPosition ctx w size c) (img : Nat → Byte) :
    BlockWrite ctx.blocksize size img c w (writeFlat ctx img w) := by
  have hsize := h.size_lt
  unfold writeFlat
  rw [h.current, Int.toNat_natCast]
  rcases blockCount_cases h with ⟨hneg, hcount⟩ | ⟨-, n, hcount, hpos, hlen⟩
  · rw [hcount, memloaderLoad, if_pos (Int.le_of_lt hneg)]
    exact .refused (Errno.neg_lt_zero _) (Or.inl hneg) ⟨rfl, rfl, h.info, rfl⟩
  · have hend := hlen.le
    rw [hcount]
    rcases memloaderLoad_wrote (d := fun i => img (c + i)) hpos (by omega) h.info
        (fun _ _ => rfl) with ⟨hrefused, w', hload, hwrote⟩ | ⟨-, w', hload, hwrote, -⟩
    · rw [hload]
      exact .refused (Errno.neg_lt_zero _) (Or.inr ⟨_, hrefused⟩) hwrote
    · rw [hload]
      have hret : (n : Int) > 0 := by omega
      simp only [if_pos hret]
      exact .stored hpos hlen hwrote

/-! ## The page path -/

/-- The pages of an image: page `k` holds the bytes from `k * PAGE_SIZE` on. -/
def imagePages (pageShift size : Nat) (img : Nat → Byte) : List (Nat → Byte) :=
  (List.range ((size + 2 ^ pageShift - 1) / 2 ^ pageShift)).map
    fun k j => img (k * 2 ^ pageShift + j)

/-- The page of every position inside of the image is there. -/
theorem imagePages_get {pageShift size x : Nat} (img : Nat → Byte) (hx : x < size) :
    (imagePages pageShift size img)[x / 2 ^ pageShift]? =
      some fun j => img (x / 2 ^ pageShift * 2 ^ pageShift + j) := by
  have hP : 0 < 2 ^ pageShift := Nat.two_pow_pos pageShift
  have hlt : x / 2 ^ pageShift < (size + 2 ^ pageShift - 1) / 2 ^ pageShift := by
    rw [Nat.lt_div_iff_mul_lt hP]
    have hfloor := Nat.div_mul_le_self x (2 ^ pageShift)
    omega
  simp [imagePages, hlt]

/-- The page loop inside of a block of `n` bytes at `c`: `m` bytes are written,
and the loop stands at the start of a page or at the end of the block. -/
structure PageInv (pageShift : Nat) (f : Nat → Byte) (c n : Nat) (w : World) (m : Nat)
    (s : PageCopy) : Prop where
  le : m ≤ n
  page : 2 ^ pageShift ∣ m ∨ m = n
  count : s.count = (n - m : Nat)
  totalCopy : s.totalCopy = m
  failed : s.failed = false
  wrote : Wrote f c m w s.world

section Pages

variable {pageShift size c n : Nat} {img f : Nat → Byte} {w : World}

/-- The start of the page a whole number of pages behind `c`. -/
theorem page_floor {m : Nat} (hdvd : 2 ^ pageShift ∣ m) :
    (c + m) / 2 ^ pageShift * 2 ^ pageShift = c + m - c % 2 ^ pageShift := by
  obtain ⟨q, rfl⟩ := hdvd
  rw [Nat.add_mul_div_left _ _ (Nat.two_pow_pos pageShift), Nat.add_mul,
    Nat.div_mul_self_eq_mod_sub_self, Nat.mul_comm q]
  have := Nat.mod_le c (2 ^ pageShift)
  omega

/-- `len = min(PAGE_SIZE, count)`, where `count` is taken for unsigned. -/
theorem page_len {count : Int} {k : Nat} (hcount : count = k) (hk : k < 2 ^ 31) :
    toInt32 (min (2 ^ pageShift) (count % 2 ^ 64)) = (min (2 ^ pageShift) k : Nat) := by
  have hmod : count % 2 ^ 64 = k := by
    rw [hcount]
    omega
  have hcast : ((2 ^ pageShift : Nat) : Int) = 2 ^ pageShift := by norm_cast
  have hmin : min (2 ^ pageShift : Int) k = (min (2 ^ pageShift) k : Nat) := by
    rw [← hcast]
    omega
  have hle : min (2 ^ pageShift) k ≤ k := Nat.min_le_right _ _
  generalize min (2 ^ pageShift) k = len at hmin hle ⊢
  rw [hmod, hmin, toInt32_of_range (by omega) (by omega)]

/-- Inside of the block a pass loads the page of the position, from its start. -/
theorem pageBody_at (hsize : size < 2 ^ 31) (hend : c + n ≤ size) {m : Nat} {s : PageCopy}
    (h : PageInv pageShift f c n w m s) (hm : m < n) :
    pageBody pageShift (imagePages pageShift size img) s =
      afterPage s (memloaderLoad (s.world.info.loadBaseAddress + BitVec.ofInt 64 (c + m : Nat))
        (some fun i => img ((c + m) / 2 ^ pageShift * 2 ^ pageShift + i))
        (min (2 ^ pageShift) (n - m) : Nat) s.world) := by
  have hinfo := h.wrote.count
  have hnr : s.world.info.currentCount / 2 ^ pageShift =
      ((c + m) / 2 ^ pageShift : Nat) := by
    rw [hinfo]
    norm_cast
  have hlen_eq : toInt32 (min (2 ^ pageShift) (s.count % 2 ^ 64)) =
      (min (2 ^ pageShift) (n - m) : Nat) := page_len h.count (by omega)
  have hcount : ¬ s.count = 0 := by
    rw [h.count]
    omega
  have hin : c + m < size := by omega
  unfold pageBody
  rw [if_neg hcount]
  simp only [hnr, hlen_eq, Int.toNat_natCast]
  rw [if_neg (Int.not_lt.mpr (Int.natCast_nonneg _)), imagePages_get img hin, hinfo]

/-- One pass of the page loop: its mapping fails, or the next bytes are written. The
block starts `c % PAGE_SIZE` bytes into a page, but its bytes are taken from the start
of the page, so they lag by that much. -/
theorem pageBody_pass (hsize : size < 2 ^ 31) (hend : c + n ≤ size)
    (hf : ∀ i, i < n → f (c + i) = img (c + i - c % 2 ^ pageShift)) {m : Nat} {s : PageCopy}
    (h : PageInv pageShift f c n w m s) (hm : m < n) :
    (s.world.ioremapOk s.world.ioremaps = false ∧
      ∃ w', pageBody pageShift (imagePages pageShift size img) s =
        .done { s with world := w', failed := true } ∧ Wrote f c m w w') ∨
    (s.world.ioremapOk s.world.ioremaps = true ∧
      ∃ s', pageBody pageShift (imagePages pageShift size img) s = .next s' ∧
        PageInv pageShift f c n w (m + min (2 ^ pageShift) (n - m)) s' ∧
        s'.world.ioremaps = s.world.ioremaps + 1) := by
  have hP : 0 < 2 ^ pageShift := Nat.two_pow_pos pageShift
  have hdvd : 2 ^ pageShift ∣ m := h.page.resolve_right (Nat.ne_of_lt hm)
  have hfloor := page_floor (c := c) hdvd
  rw [pageBody_at hsize hend h hm]
  generalize hlen : min (2 ^ pageShift) (n - m) = len
  have hlen_pos : 0 < len := by omega
  have hlen_le : len ≤ n - m := by omega
  have hpage : ∀ i, i < len →
      img ((c + m) / 2 ^ pageShift * 2 ^ pageShift + i) = f (c + m + i) := by
    intro i hi
    rw [hfloor, Nat.add_assoc c m i, hf (m + i) (by omega)]
    congr 1
    have := Nat.mod_le c (2 ^ pageShift)
    omega
  rcases memloaderLoad_wrote hlen_pos (by omega) h.wrote.count hpage with
    ⟨hrefused, w', hload, hwrote⟩ | ⟨hmapped, w', hload, hwrote, hcalls⟩
  · left
    rw [hload, afterPage, if_neg (Int.not_lt.mpr (Int.le_of_lt (Errno.neg_lt_zero _)))]
    exact ⟨hrefused, w', rfl, h.wrote.trans hwrote⟩
  · right
    have hret : (len : Int) > 0 := by omega
    rw [hload, afterPage, if_pos hret]
    refine ⟨hmapped, _, rfl, ⟨by omega, ?_, ?_, ?_, h.failed, h.wrote.trans hwrote⟩, hcalls⟩
    · rcases Nat.le_total (2 ^ pageShift) (n - m) with hfull | hlast
      · rw [← hlen, Nat.min_eq_left hfull]
        exact Or.inl (Nat.dvd_add hdvd (Nat.dvd_refl _))
      · right
        omega
    · show toInt32 (s.count - len) = _
      rw [h.count, toInt32_of_range (by omega) (by omega)]
      omega
    · show toInt32 (s.totalCopy + len) = _
      rw [h.totalCopy, toInt32_of_range (by omega) (by omega)]
      exact (Int.natCast_add m len).symm

/-- The loop stands behind its block. -/
theorem pageBody_end {pages : List (Nat → Byte)} {s : PageCopy}
    (h : PageInv pageShift f c n w n s) : pageBody pageShift pages s = .done s := by
  have hzero : s.count = 0 := by
    rw [h.count]
    omega
  unfold pageBody
  rw [if_pos hzero]

/-- The page loop writes the whole block, when no mapping fails. -/
theorem pageLoop_wrote (hsize : size < 2 ^ 31) (hend : c + n ≤ size) (hok : ¬ w.Refuses)
    (hf : ∀ i, i < n → f (c + i) = img (c + i - c % 2 ^ pageShift))
    (hinfo : w.info.currentCount = c) {fuel : Nat} (hfuel : n < fuel) :
    ∃ s, iterate (pageBody pageShift (imagePages pageShift size img)) fuel
        { world := w, count := n, totalCopy := 0, failed := false } = some s ∧
      PageInv pageShift f c n w n s := by
  refine iterate_total (I := fun s => ∃ m, PageInv pageShift f c n w m s)
    (μ := fun s => s.count.toNat) ?_ ?_ ?_
  · rintro s ⟨m, h⟩
    rcases Nat.lt_or_eq_of_le h.le with hlt | heq
    · rcases pageBody_pass hsize hend hf h hlt with ⟨hrefused, -⟩ | ⟨-, s', hbody, h', -⟩
      · rw [h.wrote.ioremapOk] at hrefused
        exact absurd ⟨_, hrefused⟩ hok
      · refine Or.inr ⟨s', hbody, ⟨_, h'⟩, ?_⟩
        have hP : 0 < 2 ^ pageShift := Nat.two_pow_pos pageShift
        show s'.count.toNat < s.count.toNat
        rw [h.count, h'.count]
        omega
    · rw [heq] at h
      exact Or.inl ⟨s, pageBody_end h, h⟩
  · exact ⟨0, Nat.zero_le n, Or.inl (Nat.dvd_zero _), rfl, rfl, rfl, rfl, rfl, hinfo, rfl⟩
  · show (n : Int).toNat < fuel
    rwa [Int.toNat_natCast]

end Pages

/-- What the page path stores at position `i`: the byte lags behind by the in-page
offset of the start of its block. -/
def pageSource (pageSize : Nat) (b : Int) (img : Nat → Byte) (i : Nat) : Byte :=
  img (i - i / b.toNat * b.toNat % pageSize)

/-- The start of the block that position `c + i` belongs to. -/
theorem block_start {b c i : Nat} (hdvd : b ∣ c) (hi : b = 0 ∨ i < b) : (c + i) / b * b = c := by
  obtain ⟨q, rfl⟩ := hdvd
  rcases hi with hzero | hlt
  · simp [hzero]
  · rw [Nat.mul_add_div (Nat.zero_lt_of_lt hlt), Nat.div_eq_of_lt hlt, Nat.add_zero, Nat.mul_comm]

/-- The page path at a multiple of the block size, when no mapping fails. -/
theorem writePages_blockWrite {pageShift : Nat} {ctx : FwContext} {w : World} {size c : Nat}
    (h : AtPosition ctx w size c) (img : Nat → Byte) (hb : 0 ≤ ctx.blocksize)
    (hdvd : ctx.blocksize ∣ c) (hok : ¬ w.Refuses) :
    ∃ r, writePages pageShift ctx (imagePages pageShift size img) w = some r ∧
      BlockWrite ctx.blocksize size (pageSource (2 ^ pageShift) ctx.blocksize img) c w r := by
  rcases blockCount_cases h with ⟨hneg, -⟩ | ⟨-, n, hcount, hpos, hlen⟩
  · exact absurd hneg (Int.not_lt.mpr hb)
  · obtain ⟨b, hb⟩ := Int.eq_ofNat_of_zero_le hb
    rw [hb] at hdvd hlen ⊢
    have hdvd' : b ∣ c := Int.natCast_dvd_natCast.mp hdvd
    have hshort : b = 0 ∨ n ≤ b := by
      cases hlen with
      | whole heq _ => exact Or.inr (by omega)
      | last hle _ => exact hle.imp (by omega) (by omega)
    have hsource : ∀ i, i < n → pageSource (2 ^ pageShift) b img (c + i) =
        img (c + i - c % 2 ^ pageShift) := by
      intro i hi
      unfold pageSource
      rw [Int.toNat_natCast, block_start hdvd' (hshort.imp_right (Nat.lt_of_lt_of_le hi))]
    obtain ⟨s, hs, hinv⟩ := pageLoop_wrote h.size_lt hlen.le hok hsource h.info
      (show n < (n : Int).natAbs + (imagePages pageShift size img).length + 1 by omega)
    refine ⟨(n, s.world), ?_, .stored hpos hlen hinv.wrote⟩
    simp only [writePages, hcount]
    rw [hs]
    simp only [Option.map_some, hinv.failed, hinv.totalCopy, Bool.false_eq_true, if_false]

end LinuxDeviceDriver.Memloader
