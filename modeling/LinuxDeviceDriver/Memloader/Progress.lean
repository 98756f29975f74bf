import LinuxDeviceDriver.Memloader.Image

/-!
# What one `memloader_write` achieves

`fw_load_device_firmware` and `memloader_end` rely on each block: `memloader_write` ends, it
takes bytes of the image only, and either it returns how far `info->current_count` has moved, or
it returns an error and `info->current_count` has not moved (`Progresses`). The flat path always
does this.

The page path maps one page after the other, and gives up at the first mapping that fails, with
the pages before it counted. A negative block size counts away from 0, so the loop goes on until
a mapping fails or the pages run out. `memloader_write_progress_iff` says what is left.
-/

namespace LinuxDeviceDriver.Memloader

open Lib

/-- The two shapes in which an image reaches the driver. -/
inductive Shape
  | flat
  | pages

def Shape.firmware (pageShift size : Nat) (img : Nat → Byte) : Shape → Firmware
  | flat => flatFirmware size img
  | pages => pagedFirmware pageShift size img

/-- The context during a load of the image in this shape. -/
def Shape.context (shape : Shape) (pageShift size : Nat) (ctx : FwContext) (img : Nat → Byte) :
    FwContext :=
  { ctx with
    fw := some (shape.firmware pageShift size img)
    data := (shape.firmware pageShift size img).data }

/-- How a block may end, at position `c` of an image of `size` bytes. -/
inductive BlockEnd (size c : Nat) : Int × World → Prop
  | advanced {r : Int} {w' : World} : 0 < r → r ≤ (size : Int) - c →
      w'.info.currentCount = c + r → BlockEnd size c (r, w')
  | refused {r : Int} {w' : World} : r < 0 → w'.info.currentCount = c → BlockEnd size c (r, w')

/-- `memloader_write` returns, its result and `info->current_count` agree, and no byte behind the
image has any influence. -/
structure Progresses (pageShift size : Nat) (shape : Shape) (ctx : FwContext) (img : Nat → Byte)
    (c : Nat) (w : World) : Prop where
  ends : ∃ r, memloaderWrite pageShift (shape.context pageShift size ctx img) w = some r ∧
    BlockEnd size c r
  reads : ∀ img' : Nat → Byte, (∀ i, i < size → img' i = img i) →
    memloaderWrite pageShift (shape.context pageShift size ctx img') w =
      memloaderWrite pageShift (shape.context pageShift size ctx img) w

/-- Every page of the block at position `c` can be mapped. -/
def MapsBlock (pageShift size : Nat) (ctx : FwContext) (c : Nat) (w : World) : Prop :=
  0 ≤ ctx.blocksize ∧
    ∀ k, c + k * 2 ^ pageShift < size →
      (ctx.blocksize = 0 ∨ ((k * 2 ^ pageShift : Nat) : Int) < ctx.blocksize) →
      w.ioremapOk (w.ioremaps + k) = true

/-- Nothing is required of a flat image. For pages the first mapping fails, or the block size is
not negative and no mapping of the block fails. -/
def Shape.Steady (pageShift size : Nat) (ctx : FwContext) (c : Nat) (w : World) : Shape → Prop
  | flat => True
  | pages => w.ioremapOk w.ioremaps = false ∨ MapsBlock pageShift size ctx c w

theorem AtPosition.inShape {ctx : FwContext} {w : World} {size c : Nat}
    (h : AtPosition ctx w size c) (shape : Shape) (pageShift : Nat) (img : Nat → Byte) :
    AtPosition (shape.context pageShift size ctx img) w size c :=
  ⟨h.total, h.current, h.info, h.lt, h.size_lt⟩

/-- `memloader_load` takes no more bytes than it is told to. -/
theorem memloaderLoad_congr (phyAddress : BitVec 64) {d d' : Nat → Byte} {count : Int} (w : World)
    (h : ∀ i, i < count.toNat → d' i = d i) :
    memloaderLoad phyAddress (some d') count w = memloaderLoad phyAddress (some d) count w := by
  have hblit : blit w.target (fun i => phyAddress + BitVec.ofNat 64 i) d' count.toNat =
      blit w.target (fun i => phyAddress + BitVec.ofNat 64 i) d count.toNat :=
    blit_congr w.target (fun _ _ => rfl) h
  simp only [memloaderLoad, hblit]

/-! ## The flat path -/

section Flat

variable {pageShift size c : Nat} {ctx : FwContext} {w : World}

theorem writeFlat_congr (h : AtPosition ctx w size c) {img img' : Nat → Byte}
    (hsame : ∀ i, i < size → img' i = img i) : writeFlat ctx img' w = writeFlat ctx img w := by
  have hload : memloaderLoad (w.info.loadBaseAddress + BitVec.ofInt 64 ctx.currentCount)
      (some fun i => img' (ctx.currentCount.toNat + i)) (blockCount ctx) w =
      memloaderLoad (w.info.loadBaseAddress + BitVec.ofInt 64 ctx.currentCount)
      (some fun i => img (ctx.currentCount.toNat + i)) (blockCount ctx) w := by
    refine memloaderLoad_congr _ _ fun i hi => hsame _ ?_
    rw [h.current, Int.toNat_natCast]
    rcases blockCount_cases h with ⟨hneg, hcount⟩ | ⟨-, n, hcount, -, hlen⟩
    · omega
    · have := hlen.le
      omega
  unfold writeFlat
  rw [hload]

theorem flat_progresses (h : AtPosition ctx w size c) (img : Nat → Byte) :
    Progresses pageShift size .flat ctx img c w where
  ends := by
    have hwrite := writeFlat_blockWrite (h.inShape .flat pageShift img) img
    refine ⟨writeFlat (Shape.flat.context pageShift size ctx img) img w, rfl, ?_⟩
    generalize writeFlat (Shape.flat.context pageShift size ctx img) img w = r at hwrite ⊢
    cases hwrite with
    | refused hneg _ hwrote => exact .refused hneg hwrote.count
    | stored hpos hlen hwrote =>
      have hle := hlen.le
      exact .advanced (by omega) (by omega) hwrote.count
  reads := by
    intro img' hsame
    exact congrArg some (writeFlat_congr (h.inShape .flat pageShift img) hsame)

end Flat

/-! ## The page path -/

section Pages

variable {pageShift size c n : Nat} {img f : Nat → Byte} {w : World}

/-- The entry of the page loop. -/
def PageCopy.entry (w : World) (count : Int) : PageCopy := ⟨w, count, 0, false⟩

theorem PageInv.entry (hinfo : w.info.currentCount = c) :
    PageInv pageShift f c n w 0 (.entry w n) :=
  ⟨Nat.zero_le n, Or.inl (Nat.dvd_zero _), rfl, rfl, rfl, rfl, rfl, hinfo, rfl⟩

/-- How the page loop of a block ends: with the whole block, or at the page `k` whose mapping
fails, with the pages before it counted. -/
inductive PageExit (pageShift c n : Nat) (w : World) (s : PageCopy) : Prop
  | whole : s.failed = false → s.totalCopy = n → s.world.info.currentCount = (c + n : Nat) →
      (∀ k, k * 2 ^ pageShift < n → w.ioremapOk (w.ioremaps + k) = true) →
      PageExit pageShift c n w s
  | refused {k : Nat} : s.failed = true → k * 2 ^ pageShift < n →
      w.ioremapOk (w.ioremaps + k) = false →
      s.world.info.currentCount = (c + k * 2 ^ pageShift : Nat) → PageExit pageShift c n w s

/-- At its `k`-th head the loop has made `k` mappings, for `k` pages or for the whole block. -/
structure PageHead (pageShift : Nat) (f : Nat → Byte) (c n : Nat) (w : World) (k : Nat)
    (s : PageCopy) : Prop where
  inv : PageInv pageShift f c n w (min (k * 2 ^ pageShift) n) s
  calls : s.world.ioremaps = w.ioremaps + k
  mapped : ∀ j, j < k → w.ioremapOk (w.ioremaps + j) = true

/-- What one pass of the loop makes of a head. -/
theorem PageHead.pass (hsize : size < 2 ^ 31) (hend : c + n ≤ size)
    (hf : ∀ i, i < n → f (c + i) = img (c + i - c % 2 ^ pageShift)) {k : Nat} {s : PageCopy}
    (h : PageHead pageShift f c n w k s) :
    (∃ s', pageBody pageShift (imagePages pageShift size img) s = .done s' ∧
      PageExit pageShift c n w s') ∨
    (k * 2 ^ pageShift < n ∧
      ∃ s', pageBody pageShift (imagePages pageShift size img) s = .next s' ∧
        PageHead pageShift f c n w (k + 1) s') := by
  by_cases hmore : k * 2 ^ pageShift < n
  · have hinv := h.inv
    rw [Nat.min_eq_left (Nat.le_of_lt hmore)] at hinv
    rcases pageBody_pass hsize hend hf hinv hmore with
      ⟨hrefused, w', hbody, hwrote⟩ | ⟨hmapped, s', hbody, hinv', hcalls⟩
    · rw [h.calls, hinv.wrote.ioremapOk] at hrefused
      exact Or.inl ⟨_, hbody, .refused rfl hmore hrefused hwrote.count⟩
    · rw [h.calls, hinv.wrote.ioremapOk] at hmapped
      refine Or.inr ⟨hmore, s', hbody, ?_, ?_, ?_⟩
      · have hnext : min ((k + 1) * 2 ^ pageShift) n =
            k * 2 ^ pageShift + min (2 ^ pageShift) (n - k * 2 ^ pageShift) := by
          rw [Nat.succ_mul]
          omega
        rw [hnext]
        exact hinv'
      · rw [hcalls, h.calls, Nat.add_assoc]
      · intro j hj
        rcases Nat.lt_succ_iff_lt_or_eq.mp hj with hlt | rfl
        · exact h.mapped j hlt
        · exact hmapped
  · have hinv := h.inv
    rw [Nat.min_eq_right (Nat.not_lt.mp hmore)] at hinv
    refine Or.inl ⟨s, pageBody_end hinv, ?_⟩
    refine .whole hinv.failed hinv.totalCopy hinv.wrote.count fun j hj => h.mapped j ?_
    by_contra hle
    have := Nat.mul_le_mul_right (2 ^ pageShift) (Nat.not_lt.mp hle)
    omega

/-- The loop of a block of `n` bytes ends. -/
theorem pageLoop_exit (pageShift : Nat) (img : Nat → Byte) (hsize : size < 2 ^ 31)
    (hend : c + n ≤ size) (hinfo : w.info.currentCount = c) (k : Nat) :
    ∃ s, iterate (pageBody pageShift (imagePages pageShift size img)) (n + k + 1) (.entry w n) =
      some s ∧ PageExit pageShift c n w s := by
  have hP : 0 < 2 ^ pageShift := Nat.two_pow_pos pageShift
  have hf : ∀ i, i < n → (fun x => img (x - c % 2 ^ pageShift)) (c + i) =
      img (c + i - c % 2 ^ pageShift) := fun _ _ => rfl
  refine iterate_total
    (I := fun s => ∃ k, PageHead pageShift (fun x => img (x - c % 2 ^ pageShift)) c n w k s)
    (μ := fun s => s.count.toNat) ?_ ?_ ?_
  · rintro s ⟨k, h⟩
    rcases h.pass hsize hend hf with hdone | ⟨hmore, s', hbody, h'⟩
    · exact Or.inl hdone
    · refine Or.inr ⟨s', hbody, ⟨k + 1, h'⟩, ?_⟩
      show s'.count.toNat < s.count.toNat
      rw [h.inv.count, h'.inv.count, Nat.succ_mul]
      omega
  · refine ⟨0, ?_, rfl, fun j hj => absurd hj (Nat.not_lt_zero j)⟩
    rw [Nat.zero_mul, Nat.zero_min]
    exact .entry hinfo
  · show (n : Int).toNat < n + k + 1
    omega

/-- Inside of a block the loop reads the image only. -/
theorem pageBody_congr (hsize : size < 2 ^ 31) (hend : c + n ≤ size) {img' : Nat → Byte}
    (hsame : ∀ i, i < size → img' i = img i) {m : Nat} {s : PageCopy}
    (h : PageInv pageShift f c n w m s) :
    pageBody pageShift (imagePages pageShift size img') s =
      pageBody pageShift (imagePages pageShift size img) s := by
  rcases Nat.lt_or_eq_of_le h.le with hlt | rfl
  · rw [pageBody_at hsize hend h hlt, pageBody_at hsize hend h hlt]
    refine congrArg (afterPage s) (memloaderLoad_congr _ _ fun i hi => hsame _ ?_)
    have hfloor := Nat.div_mul_le_self (c + m) (2 ^ pageShift)
    rw [Int.toNat_natCast] at hi
    omega
  · rw [pageBody_end h, pageBody_end h]

theorem pageLoop_congr (hsize : size < 2 ^ 31) (hend : c + n ≤ size)
    (hinfo : w.info.currentCount = c) {img' : Nat → Byte}
    (hsame : ∀ i, i < size → img' i = img i) (fuel : Nat) :
    iterate (pageBody pageShift (imagePages pageShift size img')) fuel (.entry w n) =
      iterate (pageBody pageShift (imagePages pageShift size img)) fuel (.entry w n) := by
  have hf : ∀ i, i < n → (fun x => img (x - c % 2 ^ pageShift)) (c + i) =
      img (c + i - c % 2 ^ pageShift) := fun _ _ => rfl
  refine iterate_congr
    (I := fun s => ∃ m, PageInv pageShift (fun x => img (x - c % 2 ^ pageShift)) c n w m s)
    ?_ ?_ fuel ⟨0, .entry hinfo⟩
  · rintro s ⟨m, h⟩
    exact pageBody_congr hsize hend hsame h
  · rintro s s' ⟨m, h⟩ hbody
    rcases Nat.lt_or_eq_of_le h.le with hlt | rfl
    · rcases pageBody_pass hsize hend hf h hlt with ⟨-, w', hdone, -⟩ | ⟨-, s₁, hnext, h', -⟩
      · rw [hbody] at hdone
        cases hdone
      · rw [hbody] at hnext
        cases hnext
        exact ⟨_, h'⟩
    · rw [pageBody_end h] at hbody
      cases hbody

/-- When its mapping fails, `memloader_load` gives up whatever it was to copy. -/
theorem memloaderLoad_refused (h : w.ioremapOk w.ioremaps = false) (phyAddress : BitVec 64)
    (count : Int) :
    ∃ ret w', ret ≤ 0 ∧ w'.info = w.info ∧
      ∀ d, memloaderLoad phyAddress (some d) count w = (ret, w') := by
  by_cases hcount : count ≤ 0
  · refine ⟨Errno.einval.neg, w, Int.le_of_lt (Errno.neg_lt_zero _), rfl, fun d => ?_⟩
    simp only [memloaderLoad, if_pos hcount]
  · refine ⟨Errno.ebusy.neg, { w with ioremaps := w.ioremaps + 1 },
      Int.le_of_lt (Errno.neg_lt_zero _), rfl, fun d => ?_⟩
    simp only [memloaderLoad, if_neg hcount, h]
    rfl

/-- A pass over a page that exists. -/
theorem pageBody_eq {pages : List (Nat → Byte)} {s : PageCopy} {k : Nat} {page : Nat → Byte}
    (hcount : s.count ≠ 0) (hnr : s.world.info.currentCount / 2 ^ pageShift = k)
    (hpage : pages[k]? = some page) :
    pageBody pageShift pages s =
      afterPage s (memloaderLoad
        (s.world.info.loadBaseAddress + BitVec.ofInt 64 s.world.info.currentCount) (some page)
        (toInt32 (min (2 ^ pageShift) (s.count % 2 ^ 64))) s.world) := by
  unfold pageBody
  rw [if_neg hcount]
  simp only [hnr, Int.toNat_natCast, hpage]
  rw [if_neg (Int.not_lt.mpr (Int.natCast_nonneg _))]

/-- When the first mapping fails the loop ends with nothing counted. -/
theorem pageLoop_refused (pageShift : Nat) (hrefused : w.ioremapOk w.ioremaps = false)
    (hinfo : w.info.currentCount = c) (hlt : c < size) {count : Int} (hcount : count ≠ 0) :
    ∃ w', w'.info = w.info ∧ ∀ (img : Nat → Byte) (fuel : Nat),
      iterate (pageBody pageShift (imagePages pageShift size img)) (fuel + 1) (.entry w count) =
        some { PageCopy.entry w count with world := w', failed := true } := by
  obtain ⟨ret, w', hret, hinfo', hload⟩ := memloaderLoad_refused hrefused
    (w.info.loadBaseAddress + BitVec.ofInt 64 w.info.currentCount)
    (toInt32 (min (2 ^ pageShift) (count % 2 ^ 64)))
  refine ⟨w', hinfo', fun img fuel => iterate_of_done ?_ fuel⟩
  have hnr : (PageCopy.entry w count).world.info.currentCount / 2 ^ pageShift =
      (c / 2 ^ pageShift : Nat) := by
    show w.info.currentCount / 2 ^ pageShift = _
    rw [hinfo]
    norm_cast
  rw [pageBody_eq hcount hnr (imagePages_get img hlt)]
  show afterPage _ (memloaderLoad _ _ (toInt32 (min (2 ^ pageShift) (count % 2 ^ 64))) w) = _
  rw [show (PageCopy.entry w count).world = w from rfl, hload, afterPage,
    if_neg (Int.not_lt.mpr hret)]

end Pages

/-! ## Counting away from 0 -/

section Negative

variable {pageShift c : Nat} {b : Int} {w : World}

/-- What a pass does with any count, when a page fits an `int`. -/
inductive PageStep (pageShift : Nat) (s : PageCopy) : Iter PageCopy → Prop
  | ended : s.count = 0 → PageStep pageShift s (.done s)
  | wild : PageStep pageShift s .stuck
  | refused {w' : World} : s.world.ioremapOk s.world.ioremaps = false →
      w'.info = s.world.info → PageStep pageShift s (.done { s with world := w', failed := true })
  | copied {len : Nat} {w' : World} : 0 < len → len ≤ 2 ^ pageShift →
      0 ≤ s.world.info.currentCount → w'.info = s.world.info →
      w'.ioremapOk = s.world.ioremapOk →
      PageStep pageShift s (.next { s with
        world := w'.addCount len
        count := toInt32 (s.count - len)
        totalCopy := toInt32 (s.totalCopy + len) })

/-- `min_t(size_t, PAGE_SIZE, count)` is the page for a negative count. -/
theorem page_len_pos (hshift : pageShift ≤ 30) {count : Int} (hne : count ≠ 0)
    (hlo : -2 ^ 31 ≤ count) (hhi : count < 2 ^ 31) :
    ∃ len : Nat, toInt32 (min (2 ^ pageShift) (count % 2 ^ 64)) = len ∧ 0 < len ∧
      len ≤ 2 ^ pageShift := by
  have hpow : 2 ^ pageShift ≤ 2 ^ 30 := Nat.pow_le_pow_right (by decide) hshift
  have hP : 0 < 2 ^ pageShift := Nat.two_pow_pos pageShift
  have hcast : ((2 ^ pageShift : Nat) : Int) = 2 ^ pageShift := by norm_cast
  rw [← hcast]
  generalize 2 ^ pageShift = P at hpow hP
  refine ⟨(min (P : Int) (count % 2 ^ 64)).toNat, ?_, ?_, ?_⟩
  · rw [toInt32_of_range (by omega) (by omega)]
    omega
  · omega
  · omega

theorem pageBody_step (hshift : pageShift ≤ 30) (pages : List (Nat → Byte)) {s : PageCopy}
    (hlo : -2 ^ 31 ≤ s.count) (hhi : s.count < 2 ^ 31) :
    PageStep pageShift s (pageBody pageShift pages s) := by
  by_cases hcount : s.count = 0
  · rw [pageBody, if_pos hcount]
    exact .ended hcount
  by_cases hneg : s.world.info.currentCount / 2 ^ pageShift < 0
  · rw [pageBody, if_neg hcount]
    simp only [if_pos hneg]
    exact .wild
  obtain ⟨k, hk⟩ := Int.eq_ofNat_of_zero_le (Int.not_lt.mp hneg)
  cases hpage : pages[k]? with
  | none =>
    rw [pageBody, if_neg hcount]
    simp only [hk, Int.toNat_natCast, hpage]
    exact .wild
  | some page =>
    obtain ⟨len, hlen, hpos, hle⟩ := page_len_pos hshift hcount hlo hhi
    have hpos' : ¬ (len : Int) ≤ 0 := by omega
    have hP : (0 : Int) < 2 ^ pageShift := by
      have := Nat.two_pow_pos pageShift
      exact_mod_cast this
    rw [pageBody_eq hcount hk hpage, hlen]
    simp only [memloaderLoad, if_neg hpos']
    by_cases hok : s.world.ioremapOk s.world.ioremaps = true
    · rw [if_pos hok, afterPage, if_pos (Int.not_le.mp hpos')]
      exact .copied hpos hle
        (Int.not_lt.mp fun hlt => hneg (Int.ediv_neg_of_neg_of_pos hlt hP)) rfl rfl
    · rw [if_neg hok, afterPage,
        if_neg (Int.not_lt.mpr (Int.le_of_lt (Errno.neg_lt_zero _)))]
      exact .refused (Bool.eq_false_iff.mpr hok) rfl

/-- The loop after `t` bytes, all counters modulo 2^32. -/
structure Walk (pageShift c : Nat) (b : Int) (w : World) (t : Nat) (s : PageCopy) : Prop where
  count : s.count = toInt32 (b - t)
  totalCopy : s.totalCopy = toInt32 t
  info : s.world.info.currentCount = toInt32 (c + t)
  failed : s.failed = false
  ioremapOk : s.world.ioremapOk = w.ioremapOk
  first : t = 0 → s.world.ioremaps = w.ioremaps
  bound : c + t < 2 ^ 31 + 2 ^ pageShift

theorem Walk.entry (hneg : b < 0) (hlo : -2 ^ 31 ≤ b) (hc : c < 2 ^ 31)
    (hinfo : w.info.currentCount = c) : Walk pageShift c b w 0 (.entry w b) where
  count := by
    rw [Int.natCast_zero, Int.sub_zero, toInt32_of_range hlo (by omega)]
    rfl
  totalCopy := rfl
  info := by
    rw [Int.natCast_zero, Int.add_zero, toInt32_of_range (by omega) (by omega)]
    exact hinfo
  failed := rfl
  ioremapOk := rfl
  first := fun _ => rfl
  bound := by
    have := Nat.two_pow_pos pageShift
    omega

/-- Bytes are counted, and the result is an error or the negative block size. -/
def Overrun (b : Int) (c : Nat) (s : PageCopy) : Prop :=
  s.world.info.currentCount ≠ c ∧ (s.failed = true ∨ (s.failed = false ∧ s.totalCopy = b))

theorem Walk.next (hshift : pageShift ≤ 30) {t len : Nat} {s : PageCopy}
    (h : Walk pageShift c b w t s) (hpos : 0 < len) (hle : len ≤ 2 ^ pageShift)
    (hinfo : 0 ≤ s.world.info.currentCount) {w' : World} (hw : w'.info = s.world.info)
    (hok : w'.ioremapOk = s.world.ioremapOk) :
    Walk pageShift c b w (t + len) { s with
      world := w'.addCount len
      count := toInt32 (s.count - len)
      totalCopy := toInt32 (s.totalCopy + len) } := by
  have hpow : 2 ^ pageShift ≤ 2 ^ 30 := Nat.pow_le_pow_right (by decide) hshift
  have hbound := h.bound
  have hin : c + t < 2 ^ 31 := by
    rw [h.info, toInt32, Int.bmod_def] at hinfo
    split at hinfo <;> omega
  refine ⟨?_, ?_, ?_, h.failed, hok.trans h.ioremapOk, by omega, by omega⟩
  · show toInt32 (s.count - len) = _
    rw [h.count, toInt32_sub]
    congr 1
    omega
  · show toInt32 (s.totalCopy + len) = _
    rw [h.totalCopy, toInt32_add]
    congr 1
  · show toInt32 (w'.info.currentCount + len) = _
    rw [hw, h.info, toInt32_add]
    congr 1
    omega

theorem Walk.overrun (hshift : pageShift ≤ 30) (hc : c < 2 ^ 31) {t : Nat} {s : PageCopy}
    (h : Walk pageShift c b w t s) (ht : 0 < t) : s.world.info.currentCount ≠ c := by
  have hpow : 2 ^ pageShift ≤ 2 ^ 30 := Nat.pow_le_pow_right (by decide) hshift
  have hbound := h.bound
  rw [h.info, toInt32, Int.bmod_def]
  split <;> omega

/-- A loop that begins with a negative count, and whose first mapping does not fail, does not
end well. -/
theorem pageLoop_overrun (hshift : pageShift ≤ 30) (pages : List (Nat → Byte)) (hneg : b < 0)
    (hlo : -2 ^ 31 ≤ b) (hc : c < 2 ^ 31) (hinfo : w.info.currentCount = c)
    (hmapped : w.ioremapOk w.ioremaps = true) {fuel : Nat} {s : PageCopy}
    (h : iterate (pageBody pageShift pages) fuel (.entry w b) = some s) : Overrun b c s := by
  have hstep : ∀ {t : Nat} {s : PageCopy}, Walk pageShift c b w t s →
      PageStep pageShift s (pageBody pageShift pages s) := by
    intro t s hwalk
    refine pageBody_step hshift pages ?_ ?_
    · rw [hwalk.count]
      exact toInt32_ge _
    · rw [hwalk.count]
      exact toInt32_lt _
  refine iterate_done (I := fun s => ∃ t, Walk pageShift c b w t s) ?_ ?_ ⟨0, ?_⟩ h
  · rintro s s' ⟨t, hwalk⟩ hbody
    have hcases := hstep hwalk
    rw [hbody] at hcases
    cases hcases with
    | copied hpos hle hnonneg hw hok => exact ⟨_, hwalk.next hshift hpos hle hnonneg hw hok⟩
  · rintro s s' ⟨t, hwalk⟩ hbody
    have hcases := hstep hwalk
    rw [hbody] at hcases
    cases hcases with
    | ended hzero =>
      -- the count has come round to 0, and what has been copied is the block size modulo 2^32
      have hcount := hwalk.count
      have htotal := hwalk.totalCopy
      rw [hzero] at hcount
      rw [toInt32, Int.bmod_def] at hcount htotal
      have ht : 0 < t := by
        split at hcount <;> omega
      refine ⟨hwalk.overrun hshift hc ht, Or.inr ⟨hwalk.failed, ?_⟩⟩
      split at hcount <;> split at htotal <;> omega
    | refused hrefused hw =>
      have ht : 0 < t := by
        refine Nat.pos_of_ne_zero fun hzero => ?_
        rw [hwalk.ioremapOk, hwalk.first hzero, hmapped] at hrefused
        cases hrefused
      refine ⟨?_, Or.inl rfl⟩
      rw [hw]
      exact hwalk.overrun hshift hc ht
  · exact .entry hneg hlo hc hinfo

end Negative

/-! ## Both paths -/

section Both

variable {pageShift size c : Nat} {ctx : FwContext} {w : World}

/-- The bytes of a block. -/
theorem BlockLen.lt_iff {b : Int} {n : Nat} (h : BlockLen b size c n) (hpos : 0 < n) (x : Nat) :
    x < n ↔ c + x < size ∧ (b = 0 ∨ (x : Int) < b) := by
  cases h with
  | whole heq hle => omega
  | last hb hend => omega

theorem imagePages_length (img : Nat → Byte) : (imagePages pageShift size img).length =
    (size + 2 ^ pageShift - 1) / 2 ^ pageShift := by
  rw [imagePages, List.length_map, List.length_range]

/-- What the page path returns behind its loop. -/
def pageResult (s : PageCopy) : Int × World :=
  (if s.failed then Errno.enomem.neg else s.totalCopy, s.world)

theorem write_pages_eq (img : Nat → Byte) :
    memloaderWrite pageShift (Shape.pages.context pageShift size ctx img) w =
      (iterate (pageBody pageShift (imagePages pageShift size img))
        ((blockCount ctx).natAbs + (size + 2 ^ pageShift - 1) / 2 ^ pageShift + 1)
        (.entry w (blockCount ctx))).map pageResult := by
  rw [← imagePages_length img]
  rfl

/-- An error with bytes counted is not how a block may end. -/
theorem not_blockEnd {r : Int} {w' : World} (hr : r < 0) (hinfo : w'.info.currentCount ≠ c) :
    ¬ BlockEnd size c (r, w') := by
  intro hend
  cases hend with
  | advanced hpos _ _ => exact absurd hpos (Int.lt_asymm hr)
  | refused _ hcount => exact hinfo hcount

theorem pages_progresses (h : AtPosition ctx w size c) (img : Nat → Byte)
    (hsteady : Shape.pages.Steady pageShift size ctx c w) :
    Progresses pageShift size .pages ctx img c w := by
  rcases hsteady with hrefused | ⟨hb, hmaps⟩
  · have hcount : blockCount ctx ≠ 0 := by
      rcases blockCount_cases h with ⟨hneg, hcount⟩ | ⟨-, n, hcount, hpos, -⟩ <;> omega
    obtain ⟨w', hinfo, hloop⟩ := pageLoop_refused pageShift hrefused h.info h.lt hcount
    refine ⟨⟨(Errno.enomem.neg, w'), ?_, ?_⟩, fun img' _ => ?_⟩
    · rw [write_pages_eq, hloop]
      rfl
    · refine .refused (Errno.neg_lt_zero _) ?_
      rw [hinfo]
      exact h.info
    · rw [write_pages_eq, write_pages_eq, hloop, hloop]
  · rcases blockCount_cases h with ⟨hneg, -⟩ | ⟨-, n, hcount, hpos, hlen⟩
    · exact absurd hb (Int.not_le.mpr hneg)
    have hle := hlen.le
    refine ⟨?_, fun img' hsame => ?_⟩
    · obtain ⟨s, hs, hexit⟩ := pageLoop_exit pageShift img h.size_lt hle h.info
        ((size + 2 ^ pageShift - 1) / 2 ^ pageShift)
      refine ⟨pageResult s, ?_, ?_⟩
      · rw [write_pages_eq, hcount, Int.natAbs_natCast, hs]
        rfl
      · cases hexit with
        | whole hfailed htotal hinfo _ =>
          rw [pageResult, hfailed, htotal]
          exact .advanced (by simpa using hpos) (by simp; omega) (by simpa using hinfo)
        | refused hfailed hk hrefused _ =>
          have hin := (hlen.lt_iff hpos _).mp hk
          rw [hmaps _ hin.1 hin.2] at hrefused
          cases hrefused
    · rw [write_pages_eq, write_pages_eq, hcount, pageLoop_congr h.size_lt hle h.info hsame]

/-- Otherwise the page path returns, if it does, an error with bytes counted. -/
theorem pages_unsteady (hshift : pageShift ≤ 30) (h : AtPosition ctx w size c)
    (hb : -2 ^ 31 ≤ ctx.blocksize) {img : Nat → Byte}
    (hunsteady : ¬ Shape.pages.Steady pageShift size ctx c w) {s : PageCopy}
    (hs : iterate (pageBody pageShift (imagePages pageShift size img))
      ((blockCount ctx).natAbs + (size + 2 ^ pageShift - 1) / 2 ^ pageShift + 1)
      (.entry w (blockCount ctx)) = some s) :
    (pageResult s).1 < 0 ∧ s.world.info.currentCount ≠ c := by
  have hlt := h.lt
  have hsize := h.size_lt
  obtain ⟨hfirst, hmaps⟩ := not_or.mp hunsteady
  have hmapped : w.ioremapOk w.ioremaps = true := Bool.eq_true_of_not_eq_false hfirst
  rcases blockCount_cases h with ⟨hneg, hcount⟩ | ⟨hnonneg, n, hcount, hpos, hlen⟩
  · rw [hcount] at hs
    obtain ⟨hinfo, hfailed | ⟨hfailed, htotal⟩⟩ :=
      pageLoop_overrun hshift _ hneg hb (by omega) h.info hmapped hs
    · rw [pageResult, hfailed]
      exact ⟨Errno.neg_lt_zero _, hinfo⟩
    · rw [pageResult, hfailed, htotal]
      exact ⟨hneg, hinfo⟩
  · obtain ⟨s', hs', hexit⟩ := pageLoop_exit pageShift img hsize hlen.le h.info
      ((size + 2 ^ pageShift - 1) / 2 ^ pageShift)
    rw [hcount, Int.natAbs_natCast, hs'] at hs
    cases hs
    cases hexit with
    | whole _ _ _ hall =>
      refine absurd ⟨hnonneg, fun k hin hk => ?_⟩ hmaps
      exact hall k ((hlen.lt_iff hpos _).mpr ⟨hin, hk⟩)
    | @refused j hfailed hj hrefused hinfo =>
      have hjpos : 0 < j := by
        refine Nat.pos_of_ne_zero fun hzero => ?_
        rw [hzero, Nat.add_zero, hmapped] at hrefused
        cases hrefused
      have hP := Nat.mul_pos hjpos (Nat.two_pow_pos pageShift)
      rw [pageResult, hfailed, hinfo]
      exact ⟨Errno.neg_lt_zero _, by omega⟩

theorem steady_of_pages (hshift : pageShift ≤ 30) (h : AtPosition ctx w size c)
    (hb : -2 ^ 31 ≤ ctx.blocksize) {img : Nat → Byte}
    (hprog : Progresses pageShift size .pages ctx img c w) :
    Shape.pages.Steady pageShift size ctx c w := by
  by_contra hunsteady
  obtain ⟨r, hr, hend⟩ := hprog.ends
  rw [write_pages_eq] at hr
  obtain ⟨s, hs, rfl⟩ := Option.map_eq_some_iff.mp hr
  obtain ⟨hneg, hinfo⟩ := pages_unsteady hshift h hb hunsteady hs
  exact not_blockEnd hneg hinfo hend

/-- Whatever happens, a result that is not negative is that of a block that has advanced. -/
theorem write_advances (hshift : pageShift ≤ 30) (h : AtPosition ctx w size c)
    (hb : -2 ^ 31 ≤ ctx.blocksize) (shape : Shape) (img : Nat → Byte) {r : Int} {w' : World}
    (hr : memloaderWrite pageShift (shape.context pageShift size ctx img) w = some (r, w'))
    (hpos : 0 < r) : r ≤ (size : Int) - c ∧ w'.info.currentCount = c + r := by
  have hadvanced : BlockEnd size c (r, w') →
      r ≤ (size : Int) - c ∧ w'.info.currentCount = c + r := by
    intro hend
    cases hend with
    | advanced _ hle hinfo => exact ⟨hle, hinfo⟩
    | refused hneg _ => exact absurd hpos (Int.lt_asymm hneg)
  by_cases hsteady : shape.Steady pageShift size ctx c w
  · have hprog : Progresses pageShift size shape ctx img c w := by
      cases shape with
      | flat => exact flat_progresses h img
      | pages => exact pages_progresses h img hsteady
    obtain ⟨r', hr', hend⟩ := hprog.ends
    rw [hr] at hr'
    cases hr'
    exact hadvanced hend
  · cases shape with
    | flat => exact absurd trivial hsteady
    | pages =>
      rw [write_pages_eq] at hr
      obtain ⟨s, hs, hresult⟩ := Option.map_eq_some_iff.mp hr
      have hneg : (pageResult s).1 < 0 := (pages_unsteady hshift h hb hsteady hs).1
      rw [hresult] at hneg
      exact absurd hpos (Int.lt_asymm hneg)

/-- **Progress of a block**, at every position of every image, for every `int` block size, both
shapes and every pattern of failing mappings: `memloader_write` does what its callers rely on
exactly when the image is flat, or the first mapping of the block fails, or the block size is not
negative and none of its mappings fails. -/
theorem memloader_write_progress_iff (hshift : pageShift ≤ 30) (h : AtPosition ctx w size c)
    (hb : -2 ^ 31 ≤ ctx.blocksize) (shape : Shape) (img : Nat → Byte) :
    Progresses pageShift size shape ctx img c w ↔ shape.Steady pageShift size ctx c w := by
  cases shape with
  | flat => exact iff_of_true (flat_progresses h img) trivial
  | pages => exact ⟨steady_of_pages hshift h hb, pages_progresses h img⟩

end Both

/-- A load of `size` bytes that stands at its beginning. -/
def loadingContext (size blocksize : Int) : FwContext :=
  { FwContext.zero with totalCount := size, blocksize := blocksize, state := .loading }

/-- Nothing has been counted, and the mappings fail where `ioremapOk` says. -/
def freshWorld (ioremapOk : Nat → Bool) : World := ⟨⟨0x80000000, 0⟩, fun _ => 0, ioremapOk, 0⟩

/-- One page and a bit, with one mapping for each; whether a third would fail does not matter. -/
theorem memloader_write_progress_two_pages :
    Progresses 12 5000 .pages (loadingContext 5000 0) (fun i => UInt8.ofNat i) 0
      (freshWorld fun k => k < 2) := by
  refine (memloader_write_progress_iff (by decide) ⟨rfl, rfl, rfl, by decide, by decide⟩
    (by decide) .pages _).mpr (Or.inr ⟨by decide, fun k hin _ => ?_⟩)
  have hk : 0 + k < 2 := by omega
  exact decide_eq_true hk

/-- The second mapping of a block fails: -ENOMEM, with the first page counted. And a block size of
-1 takes all 4096 bytes of the page that holds the five of the image, and then a page that does
not exist. -/
theorem memloader_write_half_block :
    (∃ w', memloaderWrite 12 (Shape.pages.context 12 8192 (loadingContext 8192 0) fun _ => 7)
        (freshWorld fun k => k == 0) = some (-12, w') ∧ w'.info.currentCount = 4096) ∧
      memloaderWrite 12 (Shape.pages.context 12 5 (loadingContext 5 (-1)) fun _ => 7)
        (freshWorld fun _ => true) = none := by
  refine ⟨⟨_, rfl, ?_⟩, ?_⟩
  · decide
  · rfl

end LinuxDeviceDriver.Memloader
