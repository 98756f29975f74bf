import LinuxDeviceDriver.Memloader.Core

/-!
# The image a load leaves in memory

The load loop of `fw_load_device_firmware` over the callbacks of memloader. Both
paths of `memloader_write` are block writers (`BlockWriter`): at a multiple of the
block size they refuse the block or store it. The loop invariant (`LoadInv`) is
therefore the same for both: the first `current_count` bytes of the path's source
stand at the load address, and nothing else has changed.

- `memloader_flat_image`: the flat path stores the image itself, at every loop head
  and at the exit, under any cancellation and any pattern of `ioremap` failures.
- `memloader_pages_agree_iff`: the page path stores the same only if its blocks
  start at page boundaries.
-/

namespace LinuxDeviceDriver.Memloader

open Lib

/-! ## Cancellation between blocks -/

/-- What another thread may do to the state of a running load. -/
inductive Cancel
  | cancel
  | cleanup
deriving DecidableEq, Repr

def Cancel.apply (ctx : FwContext) : Cancel → FwContext
  | cancel => cancelLoad ctx
  | cleanup => fwCleanup ctx

/-- Other threads cancel the load at the loop heads `cancels` says. -/
def cancelEnv (cancels : Nat → List Cancel) : Env World := fun k s =>
  ((cancels k).foldl Cancel.apply s.1, s.2)

/-- The fields of a context that a load reads and a cancellation leaves alone. -/
structure SameLoad (ctx ctx' : FwContext) : Prop where
  fw : ctx'.fw = ctx.fw
  data : ctx'.data = ctx.data
  total : ctx'.totalCount = ctx.totalCount
  current : ctx'.currentCount = ctx.currentCount
  blocksize : ctx'.blocksize = ctx.blocksize

theorem SameLoad.refl (ctx : FwContext) : SameLoad ctx ctx := ⟨rfl, rfl, rfl, rfl, rfl⟩

theorem SameLoad.trans {a b c : FwContext} (h₁ : SameLoad a b) (h₂ : SameLoad b c) :
    SameLoad a c where
  fw := h₂.fw.trans h₁.fw
  data := h₂.data.trans h₁.data
  total := h₂.total.trans h₁.total
  current := h₂.current.trans h₁.current
  blocksize := h₂.blocksize.trans h₁.blocksize

theorem Cancel.apply_same (ctx : FwContext) (c : Cancel) : SameLoad ctx (c.apply ctx) := by
  cases c with
  | cancel => exact ⟨rfl, rfl, rfl, rfl, rfl⟩
  | cleanup =>
    show SameLoad ctx (fwCleanup ctx)
    unfold fwCleanup
    split
    · exact ⟨rfl, rfl, rfl, rfl, rfl⟩
    · exact .refl ctx

theorem foldl_cancel_same (cs : List Cancel) (ctx : FwContext) :
    SameLoad ctx (cs.foldl Cancel.apply ctx) := by
  induction cs generalizing ctx with
  | nil => exact .refl ctx
  | cons c cs ih => exact (c.apply_same ctx).trans (ih _)

/-! ## The load loop over a block writer -/

/-- What one pass of the loop does when `write` refuses the block at `c` or stores it. -/
inductive BlockPass (b : Int) (size : Nat) (f : Nat → Byte) (c : Nat) (s : LoadState World) :
    Iter (LoadState World) → Prop
  | finished : ¬ s.Loading → BlockPass b size f c s (.done s)
  | refused {ret : Int} {w : World} : s.Loading → ret < 0 → b < 0 ∨ s.world.Refuses →
      Wrote f c 0 s.world w → BlockPass b size f c s (.done { s with ret := ret, world := w })
  | stored {n : Nat} {w : World} : s.Loading → 0 < n → BlockLen b size c n →
      Wrote f c n s.world w → BlockPass b size f c s (.next (s.written n w).nap)

/-- Whatever the other threads did at the head of the loop. -/
theorem loadBody_blockPass {ops : FwOps World} {write : Callback World} {env : Env World}
    {s : LoadState World} {b : Int} {size c : Nat} {f : Nat → Byte} (hread : ops.read = none)
    (hcall : (s.interfere env).Loading →
      ∃ r, write (s.interfere env).ctx (s.interfere env).world = some r ∧
        BlockWrite b size f c (s.interfere env).world r) :
    BlockPass b size f c (s.interfere env) (loadBody ops write env s) := by
  have hcases := loadBody_cases ops write env s
  generalize loadBody ops write env s = out at hcases ⊢
  cases hcases with
  | finished hnot => exact .finished hnot
  | crash hloading hnone =>
    obtain ⟨r, hr, -⟩ := hcall hloading
    rw [hnone] at hr
    cases hr
  | stop hloading hsome hle =>
    obtain ⟨r, hr, hblock⟩ := hcall hloading
    rw [hsome] at hr
    cases hr
    cases hblock with
    | refused hneg hwhy hwrote => exact .refused hloading hneg hwhy hwrote
    | stored hpos _ _ => omega
  | wrote hloading hsome hpos hafter =>
    obtain ⟨r, hr, hblock⟩ := hcall hloading
    rw [hsome] at hr
    cases hr
    cases hblock with
    | refused hneg _ _ => omega
    | stored hn hlen hwrote =>
      -- memloader has no `read` callback
      cases hafter with
      | noRead => exact .stored hloading hn hlen hwrote
      | readCrash hsome _ | readFailed hsome _ _ | readDone hsome _ _ =>
        rw [hread] at hsome
        cases hsome

/-- Along a load of `fw` with block size `b`, `write` refuses blocks or stores
them from the source `f`. `w₁` is the world in which the load starts. -/
def BlockWriter (write : Callback World) (fw : Firmware) (b : Int) (f : Nat → Byte)
    (w₁ : World) : Prop :=
  ∀ ctx w c, ctx.fw = some fw → ctx.data = fw.data → ctx.blocksize = b →
    AtPosition ctx w fw.size c → b ∣ c → w.ioremapOk = w₁.ioremapOk →
    ∃ r, write ctx w = some r ∧ BlockWrite b fw.size f c w r

/-- The invariant of the load loop: `c` bytes have been stored. -/
structure LoadInv (fw : Firmware) (b : Int) (f : Nat → Byte) (w₁ : World) (c : Nat)
    (s : LoadState World) : Prop where
  fw_eq : s.ctx.fw = some fw
  data_eq : s.ctx.data = fw.data
  blocksize : s.ctx.blocksize = b
  total : s.ctx.totalCount = fw.size
  current : s.ctx.currentCount = c
  le : c ≤ fw.size
  aligned : b ∣ c ∨ c = fw.size
  image : Wrote f 0 c w₁ s.world

section LoadLoop

variable {pageShift : Nat} {write : Callback World} {fw : Firmware} {b : Int} {f : Nat → Byte}
  {w₁ : World} {cancels : Nat → List Cancel}

/-- Cancellations do not disturb the invariant. -/
theorem LoadInv.interfere {c : Nat} {s : LoadState World} (h : LoadInv fw b f w₁ c s) :
    LoadInv fw b f w₁ c (s.interfere (cancelEnv cancels)) := by
  have hsame : SameLoad s.ctx (s.interfere (cancelEnv cancels)).ctx :=
    foldl_cancel_same (cancels s.heads) s.ctx
  exact ⟨hsame.fw.trans h.fw_eq, hsame.data.trans h.data_eq, hsame.blocksize.trans h.blocksize,
    hsame.total.trans h.total, hsame.current.trans h.current, h.le, h.aligned, h.image⟩

theorem LoadInv.nap {c : Nat} {s : LoadState World} (h : LoadInv fw b f w₁ c s) :
    LoadInv fw b f w₁ c s.nap := by
  constructor
  all_goals first | rw [s.nap_ctx] | rw [s.nap_world] | skip
  · exact h.fw_eq
  · exact h.data_eq
  · exact h.blocksize
  · exact h.total
  · exact h.current
  · exact h.le
  · exact h.aligned
  · exact h.image

/-- A stored block moves the position on. -/
theorem LoadInv.stored (hsize : fw.size < 2 ^ 31) {c n : Nat} {s : LoadState World} {w : World}
    (h : LoadInv fw b f w₁ c s) (hdvd : b ∣ c) (hlen : BlockLen b fw.size c n)
    (hwrote : Wrote f c n s.world w) : LoadInv fw b f w₁ (c + n) (s.written n w) where
  fw_eq := h.fw_eq
  data_eq := h.data_eq
  blocksize := h.blocksize
  total := h.total
  current := by
    have hle := hlen.le
    show toInt32 (s.ctx.currentCount + n) = _
    rw [h.current, toInt32_of_range (by omega) (by omega)]
    exact (Int.natCast_add c n).symm
  le := hlen.le
  aligned := by
    cases hlen with
    | whole heq _ =>
      left
      rw [Int.natCast_add, heq]
      exact Int.dvd_add hdvd (Int.dvd_refl b)
    | last _ heq => exact Or.inr heq
  image := by
    have himage := h.image
    rw [← Nat.zero_add c] at hwrote
    exact himage.trans hwrote

/-- **One pass of the load loop**: it is over, a block is refused, or a block of at
least one byte is stored. -/
theorem loadBody_pass (hsize : fw.size < 2 ^ 31) (hwrite : BlockWriter write fw b f w₁)
    {ops : FwOps World} (hread : ops.read = none) (cancels : Nat → List Cancel) {c : Nat}
    {s : LoadState World} (h : LoadInv fw b f w₁ c s) :
    let s₁ := s.interfere (cancelEnv cancels)
    (∃ s', loadBody ops write (cancelEnv cancels) s = .done s' ∧ s' = s₁ ∧ ¬ s₁.Loading) ∨
    (∃ s', loadBody ops write (cancelEnv cancels) s = .done s' ∧ s'.ret < 0 ∧
      (b < 0 ∨ w₁.Refuses) ∧ LoadInv fw b f w₁ c s') ∨
    (∃ s' n, loadBody ops write (cancelEnv cancels) s = .next s' ∧ 0 < s'.ret ∧ 0 < n ∧
      s'.ctx.state = s₁.ctx.state ∧ LoadInv fw b f w₁ (c + n) s') := by
  intro s₁
  have h₁ : LoadInv fw b f w₁ c s₁ := h.interfere
  have hlt : s₁.Loading → c < fw.size := by
    rintro ⟨hlt, -⟩
    rw [h₁.current, h₁.total] at hlt
    omega
  have hdvd : s₁.Loading → b ∣ c := fun hloading =>
    h₁.aligned.resolve_right (Nat.ne_of_lt (hlt hloading))
  have hinfo : s₁.world.info.currentCount = c := by rw [h₁.image.count, Nat.zero_add]
  have hpass := loadBody_blockPass hread fun hloading =>
    hwrite s₁.ctx s₁.world c h₁.fw_eq h₁.data_eq h₁.blocksize
      ⟨h₁.total, h₁.current, hinfo, hlt hloading, hsize⟩ (hdvd hloading) h₁.image.ioremapOk
  generalize loadBody ops write (cancelEnv cancels) s = out at hpass ⊢
  cases hpass with
  | finished hnot => exact Or.inl ⟨s₁, rfl, rfl, hnot⟩
  | refused _ hneg hwhy hwrote =>
    refine Or.inr (Or.inl ⟨_, rfl, hneg, ?_, ?_⟩)
    · refine hwhy.imp_right ?_
      rintro ⟨k, hk⟩
      exact ⟨k, by rw [← h₁.image.ioremapOk, hk]⟩
    · rw [← Nat.zero_add c] at hwrote
      exact ⟨h₁.fw_eq, h₁.data_eq, h₁.blocksize, h₁.total, h₁.current, h₁.le, h₁.aligned,
        h₁.image.trans hwrote⟩
  | @stored n w hloading hn hlen hwrote =>
    refine Or.inr (Or.inr ⟨_, n, rfl, ?_, hn, ?_,
      (h₁.stored hsize (hdvd hloading) hlen hwrote).nap⟩)
    · rw [LoadState.nap_ret]
      exact Int.natCast_pos.mpr hn
    · rw [LoadState.nap_ctx]
      rfl

/-- At the head of the loop: the invariant, no error so far, and the state still
`FW_LOADING` unless someone cancels. -/
def AtHead (fw : Firmware) (b : Int) (f : Nat → Byte) (w₁ : World)
    (cancels : Nat → List Cancel) (s : LoadState World) : Prop :=
  0 ≤ s.ret ∧ ((∀ k, cancels k = []) → s.ctx.state = .loading) ∧ ∃ c, LoadInv fw b f w₁ c s

/-- Behind the loop: a block was refused, or the loop condition has become false. -/
def AtExit (fw : Firmware) (b : Int) (f : Nat → Byte) (w₁ : World)
    (cancels : Nat → List Cancel) (s : LoadState World) : Prop :=
  (∃ c, LoadInv fw b f w₁ c s) ∧
    (s.ret < 0 ∧ (b < 0 ∨ w₁.Refuses) ∨
      0 ≤ s.ret ∧ ¬ s.Loading ∧ ((∀ k, cancels k = []) → s.ctx.state = .loading))

theorem interfere_state (hquiet : ∀ k, cancels k = []) (s : LoadState World) :
    (s.interfere (cancelEnv cancels)).ctx.state = s.ctx.state := by
  show ((cancels s.heads).foldl Cancel.apply s.ctx).state = _
  rw [hquiet]
  rfl

theorem load_pass (ops : FwOps World) (hread : ops.read = none) (hsize : fw.size < 2 ^ 31)
    (hwrite : BlockWriter write fw b f w₁) (s : LoadState World)
    (h : AtHead fw b f w₁ cancels s) :
    Pass (loadBody ops write (cancelEnv cancels)) (AtHead fw b f w₁ cancels)
      (AtExit fw b f w₁ cancels) (fun s => (s.ctx.totalCount - s.ctx.currentCount).toNat) s := by
  obtain ⟨hret, hstate, c, hinv⟩ := h
  have hstate₁ : (∀ k, cancels k = []) →
      (s.interfere (cancelEnv cancels)).ctx.state = .loading := fun hquiet =>
    (interfere_state hquiet s).trans (hstate hquiet)
  rcases loadBody_pass hsize hwrite hread cancels hinv with
    ⟨s', hbody, rfl, hnot⟩ | ⟨s', hbody, hneg, hwhy, hinv'⟩ |
    ⟨s', n, hbody, hpos, hn, hsame, hinv'⟩
  · exact Or.inl ⟨_, hbody, ⟨c, hinv.interfere⟩, Or.inr ⟨hret, hnot, hstate₁⟩⟩
  · exact Or.inl ⟨_, hbody, ⟨c, hinv'⟩, Or.inl ⟨hneg, hwhy⟩⟩
  · refine Or.inr ⟨_, hbody, ⟨Int.le_of_lt hpos, ?_, c + n, hinv'⟩, ?_⟩
    · intro hquiet
      rw [hsame]
      exact hstate₁ hquiet
    · have hle := hinv'.le
      show (s'.ctx.totalCount - s'.ctx.currentCount).toNat <
        (s.ctx.totalCount - s.ctx.currentCount).toNat
      rw [hinv'.total, hinv'.current, hinv.total, hinv.current]
      omega

end LoadLoop

/-! ## The whole load -/

theorem finishLoad_world {σ : Type} (s : LoadState σ) : (finishLoad s).2.2 = s.world := by
  unfold finishLoad
  split <;> rfl

theorem finishLoad_same {σ : Type} (s : LoadState σ) : SameLoad s.ctx (finishLoad s).2.1 := by
  unfold finishLoad
  split <;> exact ⟨rfl, rfl, rfl, rfl, rfl⟩

/-- Only a load that is still `FW_LOADING` behind `end` becomes `FW_LOADED`. -/
theorem finishLoad_loaded_iff {σ : Type} (s : LoadState σ) :
    (finishLoad s).2.1.state = .loaded ↔ s.ctx.state = .loading := by
  unfold finishLoad
  cases hstate : s.ctx.state <;> simp [hstate]

theorem markFailed_same {σ : Type} (s : LoadState σ) : SameLoad s.ctx s.markFailed.ctx := by
  unfold LoadState.markFailed
  split
  · exact ⟨rfl, rfl, rfl, rfl, rfl⟩
  · exact .refl _

theorem markFailed_world {σ : Type} (s : LoadState σ) : s.markFailed.world = s.world := by
  unfold LoadState.markFailed
  split <;> rfl

/-- `memloader_end` has nothing to complain about when the counters agree. -/
theorem runEnd_memloader (pageShift : Nat) {s : LoadState World}
    (h : s.world.info.currentCount = s.ctx.currentCount) :
    runEnd (memloaderOps pageShift) s = some { s with ret := 0 } := by
  simp [runEnd, memloaderOps, memloaderEnd, h, LoadState.markFailed]

/-- The driver's data after `memloader_start`. -/
def World.started (w : World) : World :=
  { w with info := { w.info with currentCount := 0 } }

/-- The state in which the load loop is entered. -/
def loadEntry (ctx : FwContext) (fw : Firmware) (w : World) : LoadState World :=
  { ctx := beginLoad ctx fw, world := w.started, ret := 0, prevDelayCount := 0,
    prevReadCount := 0, currCount := 0, heads := 0 }

theorem runStart_memloader (pageShift : Nat) (ctx : FwContext) (fw : Firmware) (w : World) :
    runStart (memloaderOps pageShift) (beginLoad ctx fw) w = some (loadEntry ctx fw w) := rfl

theorem loadEntry_atHead {fw : Firmware} (hsize : fw.size < 2 ^ 31) (ctx : FwContext) (w : World)
    (f : Nat → Byte) (cancels : Nat → List Cancel) :
    AtHead fw ctx.blocksize f w.started cancels (loadEntry ctx fw w).loopEntry := by
  have htotal : (loadEntry ctx fw w).loopEntry.ctx.totalCount = fw.size := by
    simp only [loadEntry, LoadState.loopEntry, beginLoad_totalCount]
    exact toInt32_of_range (by omega) (by omega)
  exact ⟨Int.le_refl 0, fun _ => rfl, 0, rfl, rfl, rfl, htotal, rfl, Nat.zero_le _,
    Or.inl (Int.dvd_zero _), rfl, rfl, rfl, rfl⟩

/-- Behind a loop that left the counters in agreement, `memloader_end` succeeds, and
the load is `FW_LOADED` unless a block was refused or someone cancelled. -/
theorem loadImage_of_exit {pageShift : Nat} {env : Env World} {fuel : Nat} {fw : Firmware}
    {ctx : FwContext} {w : World} {s : LoadState World}
    (hs : iterate (loadBody (memloaderOps pageShift) (memloaderWrite pageShift) env) fuel
      (loadEntry ctx fw w).loopEntry = some s)
    (hcount : s.world.info.currentCount = s.ctx.currentCount) :
    ∃ ret ctx', loadImage (memloaderOps pageShift) env fuel fw ctx w =
        some (ret, ctx', s.world) ∧ SameLoad s.ctx ctx' ∧
      (ctx'.state = .loaded ↔ 0 ≤ s.ret ∧ s.ctx.state = .loading) := by
  have hcounters : s.markFailed.world.info.currentCount = s.markFailed.ctx.currentCount := by
    rw [markFailed_world, (markFailed_same s).current, hcount]
  obtain ⟨s', hs'⟩ : ∃ s' : LoadState World, s' = { s.markFailed with ret := 0 } := ⟨_, rfl⟩
  have hctx : s'.ctx = s.markFailed.ctx := by rw [hs']
  have hworld : (finishLoad s').2.2 = s.world := by rw [finishLoad_world, hs', markFailed_world]
  have hrun : loadImage (memloaderOps pageShift) env fuel fw ctx w = some (finishLoad s') := by
    have hblocks : loadBlocks (memloaderOps pageShift) env fuel (loadEntry ctx fw w) = some s := hs
    simp only [loadImage, runStart_memloader, hblocks, runEnd_memloader pageShift hcounters,
      bind, Option.bind, pure, hs']
  refine ⟨(finishLoad s').1, (finishLoad s').2.1, ?_,
    (markFailed_same s).trans (hctx ▸ finishLoad_same s'), ?_⟩
  · rw [hrun, ← hworld]
  · rw [finishLoad_loaded_iff, hctx, LoadState.markFailed]
    split
    · next hneg => simp [LoadState.setState, Int.not_le.mpr hneg]
    · next hpos => simp [Int.not_lt.mp hpos]

/-- What a load over a block writer leaves behind. -/
structure LoadResult (fw : Firmware) (b : Int) (f : Nat → Byte) (w₁ : World)
    (cancels : Nat → List Cancel) (ctx : FwContext) (w : World) : Prop where
  total : ctx.totalCount = fw.size
  position : ∃ c, ctx.currentCount = (c : Nat) ∧ c ≤ fw.size ∧ Wrote f 0 c w₁ w
  complete : ctx.state = .loaded → ctx.currentCount = ctx.totalCount
  succeeds : (∀ k, cancels k = []) → 0 ≤ b → ¬ w₁.Refuses → ctx.state = .loaded

/-- **The load ends**, with as much of the source in memory as the counter says. -/
theorem loadImage_memloader {pageShift : Nat} {fw : Firmware} (hsize : fw.size < 2 ^ 31)
    {ctx : FwContext} {w : World} {f : Nat → Byte}
    (hwrite : BlockWriter (memloaderWrite pageShift) fw ctx.blocksize f w.started)
    (cancels : Nat → List Cancel) {fuel : Nat} (hfuel : fw.size < fuel) :
    ∃ ret ctx' w', loadImage (memloaderOps pageShift) (cancelEnv cancels) fuel fw ctx w =
        some (ret, ctx', w') ∧
      LoadResult fw ctx.blocksize f w.started cancels ctx' w' := by
  have hentry := loadEntry_atHead hsize ctx w f cancels
  have hmeasure : ((loadEntry ctx fw w).loopEntry.ctx.totalCount -
      (loadEntry ctx fw w).loopEntry.ctx.currentCount).toNat < fuel := by
    obtain ⟨-, -, c, hinv⟩ := hentry
    rw [hinv.total, hinv.current]
    omega
  obtain ⟨s, hs, ⟨c, hinv⟩, hexit⟩ := iterate_total
    (load_pass (memloaderOps pageShift) rfl hsize hwrite) hentry hmeasure
  have hcount : s.world.info.currentCount = s.ctx.currentCount := by
    rw [hinv.image.count, hinv.current, Nat.zero_add]
  obtain ⟨ret, ctx', hrun, hsame, hloaded⟩ := loadImage_of_exit hs hcount
  refine ⟨ret, ctx', s.world, hrun, hsame.total.trans hinv.total,
    ⟨c, hsame.current.trans hinv.current, hinv.le, hinv.image⟩, ?_, ?_⟩
  · intro hstate
    obtain ⟨hret, hloading⟩ := hloaded.mp hstate
    rw [hsame.current, hsame.total]
    rcases hexit with ⟨hneg, -⟩ | ⟨-, hover, -⟩
    · omega
    · have hle := hinv.le
      have hge : ¬ s.ctx.currentCount < s.ctx.totalCount := fun hlt => hover ⟨hlt, hloading⟩
      rw [hinv.current, hinv.total] at hge ⊢
      omega
  · intro hquiet hb hok
    rcases hexit with ⟨-, hwhy⟩ | ⟨hpos, -, hstate⟩
    · exact absurd hwhy (not_or.mpr ⟨Int.not_lt.mpr hb, hok⟩)
    · exact hloaded.mpr ⟨hpos, hstate hquiet⟩

/-! ## The flat path -/

theorem flat_blockWriter (pageShift : Nat) {fw : Firmware} {img : Nat → Byte}
    (hdata : fw.data = some img) (b : Int) (w₁ : World) :
    BlockWriter (memloaderWrite pageShift) fw b img w₁ := by
  intro ctx w c _ hctx hb hat _ _
  refine ⟨writeFlat ctx img w, ?_, ?_⟩
  · simp only [memloaderWrite, hctx, hdata]
  · rw [← hb]
    exact writeFlat_blockWrite hat img

/-- Offsets below 2^64 are told apart by their addresses. -/
theorem address_inj (base : BitVec 64) {i j : Nat} (hi : i < 2 ^ 64) (hj : j < 2 ^ 64)
    (h : base + BitVec.ofNat 64 i = base + BitVec.ofNat 64 j) : i = j := by
  have hoff : BitVec.ofNat 64 i = BitVec.ofNat 64 j := (BitVec.add_right_inj base).mp h
  have hnat := congrArg BitVec.toNat hoff
  rwa [BitVec.toNat_ofNat, BitVec.toNat_ofNat, Nat.mod_eq_of_lt hi, Nat.mod_eq_of_lt hj] at hnat

/-- The block at `c` joins the bytes that already stand at the load address. -/
theorem Wrote.placed {f : Nat → Byte} {c n : Nat} {w w' : World} (h : Wrote f c n w w')
    (hend : c + n < 2 ^ 64)
    (hbefore : ∀ i, i < c → w.target (w.info.loadBaseAddress + BitVec.ofNat 64 i) = f i) :
    ∀ i, i < c + n → w'.target (w.info.loadBaseAddress + BitVec.ofNat 64 i) = f i := by
  intro i hi
  rw [h.target]
  by_cases hc : i < c
  · rw [blit_frame, hbefore i hc]
    intro j hj heq
    have := address_inj _ (by omega) (by omega) heq
    omega
  · obtain ⟨j, rfl⟩ := Nat.exists_eq_add_of_le (Nat.not_lt.mp hc)
    refine blit_lane w.target (fun i => w.info.loadBaseAddress + BitVec.ofNat 64 (c + i))
      (fun i => f (c + i)) ?_ (by omega)
    intro k hk heq
    have := address_inj _ (by omega) (by omega) heq
    omega

/-- The first `current_count` bytes of an image of `size` bytes are in memory, and
nothing else has changed since `w₀`. -/
structure ImageAt (img : Nat → Byte) (size : Nat) (w₀ : World) (ctx : FwContext) (w : World) :
    Prop where
  counters : w.info.currentCount = ctx.currentCount
  total : ctx.totalCount = size
  nonneg : 0 ≤ ctx.currentCount
  le : ctx.currentCount ≤ ctx.totalCount
  stored : ∀ i : Nat, i < ctx.currentCount →
    w.target (w₀.info.loadBaseAddress + BitVec.ofNat 64 i) = img i
  kept : ∀ a, (∀ i : Nat, i < ctx.currentCount → a ≠ w₀.info.loadBaseAddress + BitVec.ofNat 64 i) →
    w.target a = w₀.target a

theorem Wrote.imageAt {img : Nat → Byte} {size c : Nat} {w₀ w : World} {ctx : FwContext}
    (h : Wrote img 0 c w₀.started w) (hsize : size < 2 ^ 31) (hle : c ≤ size)
    (htotal : ctx.totalCount = size) (hcurrent : ctx.currentCount = c) :
    ImageAt img size w₀ ctx w where
  counters := by rw [h.count, hcurrent, Nat.zero_add]
  total := htotal
  nonneg := by
    rw [hcurrent]
    omega
  le := by
    rw [hcurrent, htotal]
    omega
  stored := by
    intro i hi
    rw [hcurrent] at hi
    exact h.placed (by omega) (fun _ hlt => absurd hlt (Nat.not_lt_zero _)) i (by omega)
  kept := by
    intro a ha
    rw [hcurrent] at ha
    rw [h.target]
    simp only [Nat.zero_add]
    exact blit_frame w₀.target _ img fun i hi => ha i (by omega)

/-- **The memory image of a flat load**: at every loop head and at the exit, the
first `current_count` bytes of the image stand at the load address and the rest of
the memory is untouched, for every block size, every pattern of `ioremap` failures
and every cancellation; and the load ends, complete if it ends `FW_LOADED`. -/
theorem memloader_flat_image (pageShift : Nat) {fw : Firmware} {img : Nat → Byte}
    (hdata : fw.data = some img) (hsize : fw.size < 2 ^ 31) {ctx : FwContext}
    (hstate : ctx.state = .empty ∨ ctx.state = .failed) (w : World)
    (cancels : Nat → List Cancel) :
    (∃ s₁, runStart (memloaderOps pageShift) (beginLoad ctx fw) w = some s₁ ∧
      ∀ s, Heads (loadBody (memloaderOps pageShift) (memloaderWrite pageShift)
          (cancelEnv cancels)) s₁.loopEntry s →
        ImageAt img fw.size w s.ctx s.world) ∧
    (∃ fuel₀, ∀ fuel, fuel₀ ≤ fuel → ∃ ret ctx' w',
      fwLoadDeviceFirmware (memloaderOps pageShift) (cancelEnv cancels) fuel (.ok fw) ctx w 1 =
        some (ret, ctx', w') ∧
      ImageAt img fw.size w ctx' w' ∧
      (ctx'.state = .loaded → ctx'.currentCount = ctx'.totalCount)) := by
  have hwrite := flat_blockWriter pageShift hdata ctx.blocksize w.started
  constructor
  · refine ⟨_, runStart_memloader pageShift ctx fw w, fun s hs => ?_⟩
    obtain ⟨-, -, c, hinv⟩ := hs.of_pass (load_pass (memloaderOps pageShift) rfl hsize hwrite)
      (loadEntry_atHead hsize ctx w img cancels)
    exact hinv.image.imageAt hsize hinv.le hinv.total hinv.current
  · refine ⟨fw.size + 1, fun fuel hfuel => ?_⟩
    obtain ⟨ret, ctx', w', hrun, hresult⟩ := loadImage_memloader hsize hwrite cancels hfuel
    obtain ⟨c, hcurrent, hle, himage⟩ := hresult.position
    refine ⟨ret, ctx', w', ?_, himage.imageAt hsize hle hresult.total hcurrent,
      hresult.complete⟩
    rw [fwLoad_eq_loadImage _ _ _ _ hstate, hrun]

/-- Five bytes in blocks of two, with a mapping that fails for the third block. -/
theorem memloader_flat_image_refused :
    ∃ fuel₀, ∀ fuel, fuel₀ ≤ fuel → ∃ ret ctx' w',
      fwLoadDeviceFirmware (memloaderOps 12) (cancelEnv fun _ => []) fuel
        (.ok ⟨5, some fun i => UInt8.ofNat i, none⟩) { FwContext.zero with blocksize := 2 }
        ⟨⟨0x80000000, 7⟩, fun _ => 0, fun k => k != 2, 0⟩ 1 = some (ret, ctx', w') ∧
      ImageAt (fun i => UInt8.ofNat i) 5 ⟨⟨0x80000000, 7⟩, fun _ => 0, fun k => k != 2, 0⟩ ctx' w' ∧
      (ctx'.state = .loaded → ctx'.currentCount = ctx'.totalCount) :=
  (memloader_flat_image 12 rfl (by decide) (Or.inl rfl) _ _).2

/-! ## The page path -/

/-- An image that `request_firmware` could map. -/
def flatFirmware (size : Nat) (img : Nat → Byte) : Firmware := ⟨size, some img, none⟩

/-- The same image as a list of pages. -/
def pagedFirmware (pageShift size : Nat) (img : Nat → Byte) : Firmware :=
  ⟨size, none, some (imagePages pageShift size img)⟩

theorem paged_blockWriter {pageShift size : Nat} (img : Nat → Byte) {b : Int} (hb : 0 ≤ b)
    {w₁ : World} (hok : ¬ w₁.Refuses) :
    BlockWriter (memloaderWrite pageShift) (pagedFirmware pageShift size img) b
      (pageSource (2 ^ pageShift) b img) w₁ := by
  intro ctx w c hfw hdata hctx hat hdvd hioremap
  have hcall : memloaderWrite pageShift ctx w =
      writePages pageShift ctx (imagePages pageShift size img) w := by
    simp only [memloaderWrite, hdata, hfw, pagedFirmware]
  have hokay : ¬ w.Refuses := by
    unfold World.Refuses
    rw [hioremap]
    exact hok
  rw [hcall, ← hctx]
  rw [← hctx] at hb hdvd
  exact writePages_blockWrite hat img hb hdvd hokay

/-- The undisturbed load of `fw` returns, ends `FW_LOADED`, and leaves the memory
`m`. -/
def Loads (pageShift : Nat) (fw : Firmware) (ctx : FwContext) (w : World)
    (m : BitVec 64 → Byte) : Prop :=
  ∃ fuel₀, ∀ fuel, fuel₀ ≤ fuel → ∃ ret ctx' w',
    fwLoadDeviceFirmware (memloaderOps pageShift) noEnv fuel (.ok fw) ctx w 1 =
      some (ret, ctx', w') ∧ ctx'.state = .loaded ∧ w'.target = m

section Agree

variable {pageShift : Nat} {ctx : FwContext} {w : World}

/-- A load leaves one memory. -/
theorem Loads.unique {fw : Firmware} {m m' : BitVec 64 → Byte} (h : Loads pageShift fw ctx w m)
    (h' : Loads pageShift fw ctx w m') : m = m' := by
  obtain ⟨fuel, hrun⟩ := h
  obtain ⟨fuel', hrun'⟩ := h'
  obtain ⟨ret, ctx₁, w₁, heq, -, htarget⟩ := hrun (max fuel fuel') (Nat.le_max_left ..)
  obtain ⟨ret', ctx₁', w₁', heq', -, htarget'⟩ := hrun' (max fuel fuel') (Nat.le_max_right ..)
  rw [heq] at heq'
  cases heq'
  rw [← htarget, htarget']

/-- A load over a block writer stores the whole source, when nothing fails. -/
theorem loads_blit {fw : Firmware} (hsize : fw.size < 2 ^ 31)
    (hstate : ctx.state = .empty ∨ ctx.state = .failed) (hb : 0 ≤ ctx.blocksize)
    (hok : ¬ w.Refuses) {f : Nat → Byte}
    (hwrite : BlockWriter (memloaderWrite pageShift) fw ctx.blocksize f w.started) :
    Loads pageShift fw ctx w
      (blit w.target (fun i => w.info.loadBaseAddress + BitVec.ofNat 64 i) f fw.size) := by
  refine ⟨fw.size + 1, fun fuel hfuel => ?_⟩
  obtain ⟨ret, ctx', w', hrun, hresult⟩ :=
    loadImage_memloader hsize hwrite (fun _ => []) hfuel
  have hloaded : ctx'.state = .loaded := hresult.succeeds (fun _ => rfl) hb hok
  obtain ⟨c, hcurrent, -, himage⟩ := hresult.position
  have hc : c = fw.size := by
    have hfull := hresult.complete hloaded
    rw [hcurrent, hresult.total] at hfull
    omega
  refine ⟨ret, ctx', w', ?_, hloaded, ?_⟩
  · rw [fwLoad_eq_loadImage _ _ _ _ hstate]
    exact hrun
  · rw [himage.target, hc]
    simp only [Nat.zero_add]
    rfl

section Sources

variable (pageShift) {size : Nat} (hsize : size < 2 ^ 31)
  (hstate : ctx.state = .empty ∨ ctx.state = .failed) (hb : 0 ≤ ctx.blocksize)
  (hok : ¬ w.Refuses) (img : Nat → Byte)

include hsize hstate hb hok

theorem flat_loads : Loads pageShift (flatFirmware size img) ctx w
    (blit w.target (fun i => w.info.loadBaseAddress + BitVec.ofNat 64 i) img size) := by
  refine loads_blit ?_ hstate hb hok ?_
  · exact hsize
  · exact flat_blockWriter pageShift rfl ctx.blocksize w.started

theorem paged_loads : Loads pageShift (pagedFirmware pageShift size img) ctx w
    (blit w.target (fun i => w.info.loadBaseAddress + BitVec.ofNat 64 i)
      (pageSource (2 ^ pageShift) ctx.blocksize img) size) := by
  refine loads_blit ?_ hstate hb hok ?_
  · exact hsize
  · exact paged_blockWriter img hb hok

/-- Both paths leave the same memory exactly when the page path's source is the
image. -/
theorem loads_agree_iff :
    (∃ m, Loads pageShift (flatFirmware size img) ctx w m ∧
      Loads pageShift (pagedFirmware pageShift size img) ctx w m) ↔
    ∀ i, i < size → pageSource (2 ^ pageShift) ctx.blocksize img i = img i := by
  have hflat := flat_loads pageShift hsize hstate hb hok img
  have hpaged := paged_loads pageShift hsize hstate hb hok img
  have hinj : ∀ i j, i < size → j < size →
      w.info.loadBaseAddress + BitVec.ofNat 64 i = w.info.loadBaseAddress + BitVec.ofNat 64 j →
      i = j := fun i j hi hj h => address_inj _ (by omega) (by omega) h
  rw [← blit_eq_iff w.target hinj]
  constructor
  · rintro ⟨m, h₁, h₂⟩
    rw [← h₂.unique hpaged, h₁.unique hflat]
  · intro heq
    rw [heq] at hpaged
    exact ⟨_, hflat, hpaged⟩

end Sources

/-- Blocks that start at page boundaries, or a single block, make the page path's
source the image; any other block size shifts the second block. -/
theorem pageSource_eq_iff {pageSize size : Nat} {b : Int} (hb : 0 ≤ b) :
    (∀ img : Nat → Byte, ∀ i, i < size → pageSource pageSize b img i = img i) ↔
      (pageSize : Int) ∣ b ∨ (size : Int) ≤ b := by
  obtain ⟨b, rfl⟩ := Int.eq_ofNat_of_zero_le hb
  unfold pageSource
  rw [Int.toNat_natCast, Int.natCast_dvd_natCast]
  constructor
  · intro h
    by_contra hnot
    obtain ⟨hdvd, hlt⟩ := not_or.mp hnot
    have hmod : b % pageSize ≠ 0 := fun hzero => hdvd (Nat.dvd_of_mod_eq_zero hzero)
    have hpos : 0 < b := by
      rcases Nat.eq_zero_or_pos b with hzero | hpos
      · rw [hzero] at hdvd
        exact absurd (Nat.dvd_zero _) hdvd
      · exact hpos
    -- the first byte of the second block
    have hbyte := h (fun i => if i = b then 1 else 0) b (by omega)
    rw [Nat.div_self hpos, Nat.one_mul] at hbyte
    have hle := Nat.mod_le b pageSize
    rw [if_neg (by omega), if_pos rfl] at hbyte
    exact absurd hbyte (by decide)
  · rintro (hdvd | hle) img i hi
    · have hzero : i / b * b % pageSize = 0 :=
        Nat.mod_eq_zero_of_dvd (Nat.dvd_trans hdvd (Nat.dvd_mul_left b (i / b)))
      rw [hzero, Nat.sub_zero]
    · rw [Nat.div_eq_of_lt (by omega), Nat.zero_mul, Nat.zero_mod, Nat.sub_zero]

/-- **When the page path agrees with the flat path**: both loads succeed, but they
leave the same memory only where every byte equals the one at the start of its
block's page offset; for every image of a size this takes a block size that is a
multiple of the page size, or a single block. -/
theorem memloader_pages_agree_iff {size : Nat} (hsize : size < 2 ^ 31)
    (hstate : ctx.state = .empty ∨ ctx.state = .failed) (hb : 0 ≤ ctx.blocksize)
    (hok : ∀ k, w.ioremapOk k = true) :
    (∀ img, (∃ m, Loads pageShift (flatFirmware size img) ctx w m) ∧
      ∃ m, Loads pageShift (pagedFirmware pageShift size img) ctx w m) ∧
    (∀ img, (∃ m, Loads pageShift (flatFirmware size img) ctx w m ∧
        Loads pageShift (pagedFirmware pageShift size img) ctx w m) ↔
      ∀ i, i < size →
        img (i - i / ctx.blocksize.toNat * ctx.blocksize.toNat % 2 ^ pageShift) = img i) ∧
    ((∀ img, ∃ m, Loads pageShift (flatFirmware size img) ctx w m ∧
        Loads pageShift (pagedFirmware pageShift size img) ctx w m) ↔
      ((2 ^ pageShift : Nat) : Int) ∣ ctx.blocksize ∨ (size : Int) ≤ ctx.blocksize) := by
  have hrefuses : ¬ w.Refuses := by
    rintro ⟨k, hk⟩
    rw [hok k] at hk
    cases hk
  refine ⟨fun img => ⟨?_, ?_⟩,
    fun img => loads_agree_iff pageShift hsize hstate hb hrefuses img, ?_⟩
  · exact ⟨_, flat_loads pageShift hsize hstate hb hrefuses img⟩
  · exact ⟨_, paged_loads pageShift hsize hstate hb hrefuses img⟩
  · rw [← pageSource_eq_iff hb]
    exact forall_congr' fun img => loads_agree_iff pageShift hsize hstate hb hrefuses img

end Agree

/-- The device tree example of the test suite: blocks of 32 pages. -/
theorem memloader_pages_agree_page_blocks :
    ∃ m, Loads 12 (flatFirmware 0x400000 fun i => UInt8.ofNat i)
        { FwContext.zero with blocksize := 0x20000 }
        ⟨⟨0x6e000000, 0⟩, fun _ => 0, fun _ => true, 0⟩ m ∧
      Loads 12 (pagedFirmware 12 0x400000 fun i => UInt8.ofNat i)
        { FwContext.zero with blocksize := 0x20000 }
        ⟨⟨0x6e000000, 0⟩, fun _ => 0, fun _ => true, 0⟩ m :=
  (memloader_pages_agree_iff (by decide) (Or.inl rfl) (by decide) fun _ => rfl).2.2.mpr
    (Or.inl (by decide)) _

/-- Two bytes in blocks of one, with pages of 4096 bytes: the second block takes the
first byte of the page again. -/
theorem memloader_pages_second_block :
    ∃ ret ctx' w' ret₁ ctx₁ w₁,
      fwLoadDeviceFirmware (memloaderOps 12) noEnv 4
        (.ok (flatFirmware 2 fun i => UInt8.ofNat (i + 1)))
        { FwContext.zero with blocksize := 1 }
        ⟨⟨0x80000000, 0⟩, fun _ => 0, fun _ => true, 0⟩ 1 = some (ret, ctx', w') ∧
      fwLoadDeviceFirmware (memloaderOps 12) noEnv 4
        (.ok (pagedFirmware 12 2 fun i => UInt8.ofNat (i + 1)))
        { FwContext.zero with blocksize := 1 }
        ⟨⟨0x80000000, 0⟩, fun _ => 0, fun _ => true, 0⟩ 1 = some (ret₁, ctx₁, w₁) ∧
      ctx'.state = .loaded ∧ ctx₁.state = .loaded ∧
      w'.target 0x80000001 = 2 ∧ w₁.target 0x80000001 = 1 :=
  ⟨_, _, _, _, _, _, rfl, rfl, rfl, rfl, by decide, by decide⟩

end LinuxDeviceDriver.Memloader
