import LinuxDeviceDriver.Memloader.Image

/-!
# The sysfs attributes, and loads that are reconfigured while they run

`memloader_show`/`memloader_store` and `fw_store`, with the parsers behind them.
No attribute is protected by a lock: a store takes effect at once, also between
two blocks of a running load, and `memloader_write` reads `load_base_address` and
`blocksize` anew for every block.

`memloader_load_contiguous`: a flat load that ends `FW_LOADED` has put the image at
one address, provided `load_base_address` was the same for all of its blocks. The
condition is on the address only; `blocksize` and the other attributes may change
at will. Without it the image can end up in two places
(`memloader_load_split`), and the load still reports success: the counters which
`memloader_end` compares do not depend on the address.
-/

namespace LinuxDeviceDriver.Memloader

open Lib

universe u

variable {σ : Type u}

/-! ## Attributes of the memloader kobject -/

/-- `memloader_attrs`. -/
inductive MemloaderAttr
  | loadAddress
  | loadSize
deriving DecidableEq, Repr

def memloaderSetLoadAddress (longBits : Nat) (info : MemloaderInfo) (buf : List Byte) :
    Int × MemloaderInfo :=
  let val := simpleStrtol longBits 16 buf
  (0, { info with loadBaseAddress := BitVec.ofInt 64 val })

/-- The text a read of the attribute delivers. -/
def memloaderShow (info : MemloaderInfo) : MemloaderAttr → List Byte
  | .loadAddress => hexText info.loadBaseAddress.toNat
  | .loadSize => hexText (info.currentCount % 2 ^ 32).toNat

/-- `load-size` has no setter, so a store to it keeps the initial `-EINVAL`. -/
def memloaderStore (longBits : Nat) (attr : MemloaderAttr) (buf : List Byte)
    (info : MemloaderInfo) : Int × MemloaderInfo :=
  let (ret, info) := match attr with
    | .loadAddress => memloaderSetLoadAddress longBits info buf
    | .loadSize => (Errno.einval.neg, info)
  (if ret < 0 then Errno.einval.neg else buf.length, info)

/-! ## Attributes of the firmware kobject -/

/-- `fw_attrs`. -/
inductive FwAttr
  | state
  | filename
  | blockread
  | blocksize
  | blockdelay
  | devicemask
  | progressPct
  | progressSize
  | totalSize
deriving DecidableEq, Repr

/-- The setters of the integer attributes. -/
def fwSetInt (set : FwContext → Int → FwContext) (longBits : Nat) (ctx : FwContext)
    (buf : List Byte) : Int × FwContext :=
  (0, set ctx (toInt32 (simpleStrtol longBits 10 buf)))

def fwSetBlockread := fwSetInt fun ctx val => { ctx with blockread := val }
def fwSetBlocksize := fwSetInt fun ctx val => { ctx with blocksize := val }
def fwSetDelay := fwSetInt fun ctx val => { ctx with blockdelay := val }
def fwSetDevicemask := fwSetInt fun ctx val => { ctx with devicemask := val }

/-- A store to `state`: `load` is `fw_load_device_firmware`. -/
def fwLoadFirmware (longBits : Nat) (load : FwContext → σ → Int → Option (Int × FwContext × σ))
    (ctx : FwContext) (w : σ) (buf : List Byte) : Option (Int × FwContext × σ) :=
  load ctx w (toInt32 (simpleStrtol longBits 10 buf))

/-- `fw_store`; `none` when the call it makes does not return. -/
def fwStore (longBits : Nat) (load : FwContext → σ → Int → Option (Int × FwContext × σ))
    (attr : FwAttr) (buf : List Byte) (ctx : FwContext) (w : σ) :
    Option (Int × FwContext × σ) :=
  let set (r : Int × FwContext) : Option (Int × FwContext × σ) := some (r.1, r.2, w)
  (match attr with
    | .state => fwLoadFirmware longBits load ctx w buf
    | .filename => set (fwSetFilename ctx buf)
    | .blockread => set (fwSetBlockread longBits ctx buf)
    | .blocksize => set (fwSetBlocksize longBits ctx buf)
    | .blockdelay => set (fwSetDelay longBits ctx buf)
    | .devicemask => set (fwSetDevicemask longBits ctx buf)
    | .progressPct | .progressSize | .totalSize => some (Errno.eio.neg, ctx, w)).map
    fun (ret, r) => (if ret < 0 then ret else buf.length, r)

/-! ## Stores during a load -/

/-- A write to one of the attributes. -/
inductive Store
  | memloader (attr : MemloaderAttr) (buf : List Byte)
  | fw (attr : FwAttr) (buf : List Byte)

/-- `fw_load_device_firmware` called while a load is running: a cancellation returns
at once, everything else waits for `serial_lock`. -/
def loadMeanwhile (ctx : FwContext) (w : σ) (load : Int) : Option (Int × FwContext × σ) :=
  if load = 0 then some (0, cancelLoad ctx, w) else none

/-- The effect of a store while a load is running. One that waits has none. -/
def Store.apply (longBits : Nat) (s : FwContext × World) : Store → FwContext × World
  | memloader attr buf =>
    (s.1, { s.2 with info := (memloaderStore longBits attr buf s.2.info).2 })
  | fw attr buf =>
    match fwStore longBits loadMeanwhile attr buf s.1 s.2 with
    | none => s
    | some r => r.2

/-- The stores other threads make at each loop head. -/
def storeEnv (longBits : Nat) (stores : Nat → List Store) : Env World := fun k s =>
  (stores k).foldl (Store.apply longBits) s

/-- What no store touches: the image, the position in it, and the target memory. -/
structure SameTransfer (s s' : FwContext × World) : Prop where
  data : s'.1.data = s.1.data
  total : s'.1.totalCount = s.1.totalCount
  current : s'.1.currentCount = s.1.currentCount
  info : s'.2.info.currentCount = s.2.info.currentCount
  target : s'.2.target = s.2.target

theorem SameTransfer.refl (s : FwContext × World) : SameTransfer s s := ⟨rfl, rfl, rfl, rfl, rfl⟩

theorem SameTransfer.trans {s₁ s₂ s₃ : FwContext × World} (h₁ : SameTransfer s₁ s₂)
    (h₂ : SameTransfer s₂ s₃) : SameTransfer s₁ s₃ where
  data := h₂.data.trans h₁.data
  total := h₂.total.trans h₁.total
  current := h₂.current.trans h₁.current
  info := h₂.info.trans h₁.info
  target := h₂.target.trans h₁.target

theorem memloaderStore_count (longBits : Nat) (attr : MemloaderAttr) (buf : List Byte)
    (info : MemloaderInfo) :
    (memloaderStore longBits attr buf info).2.currentCount = info.currentCount := by
  cases attr <;> rfl

/-- What a store can do to the context while a load is running. -/
inductive StoredTo (ctx : FwContext) : FwContext → Prop
  | nothing : StoredTo ctx ctx
  | cancelled : StoredTo ctx (cancelLoad ctx)
  | filename (name : List Byte) : StoredTo ctx { ctx with filename := name }
  | blockread (val : Int) : StoredTo ctx { ctx with blockread := val }
  | blocksize (val : Int) : -2 ^ 31 ≤ val → StoredTo ctx { ctx with blocksize := val }
  | blockdelay (val : Int) : StoredTo ctx { ctx with blockdelay := val }
  | devicemask (val : Int) : StoredTo ctx { ctx with devicemask := val }

theorem fwSetFilename_storedTo (ctx : FwContext) (buf : List Byte) :
    StoredTo ctx (fwSetFilename ctx buf).2 := by
  rcases fwSetFilename_cases ctx buf with h | ⟨-, -, h⟩
  · rw [h]
    exact .nothing
  · rw [h]
    exact .filename _

/-- `fw_store` has no access to the driver's own data. -/
theorem fwStore_spec {longBits : Nat} {attr : FwAttr} {buf : List Byte} {ctx : FwContext}
    {w : World} {r : Int × FwContext × World}
    (h : fwStore longBits loadMeanwhile attr buf ctx w = some r) :
    StoredTo ctx r.2.1 ∧ r.2.2 = w := by
  obtain ⟨r', hr', rfl⟩ := Option.map_eq_some_iff.mp h
  cases attr with
  | state =>
    simp only [fwLoadFirmware, loadMeanwhile] at hr'
    split at hr'
    · cases hr'
      exact ⟨.cancelled, rfl⟩
    · cases hr'
  | filename =>
    cases hr'
    exact ⟨fwSetFilename_storedTo ctx buf, rfl⟩
  | blockread =>
    cases hr'
    exact ⟨.blockread _, rfl⟩
  | blocksize =>
    cases hr'
    exact ⟨.blocksize _ (toInt32_ge _), rfl⟩
  | blockdelay =>
    cases hr'
    exact ⟨.blockdelay _, rfl⟩
  | devicemask =>
    cases hr'
    exact ⟨.devicemask _, rfl⟩
  | progressPct | progressSize | totalSize =>
    cases hr'
    exact ⟨.nothing, rfl⟩

/-- One store… -/
theorem Store.apply_storedTo (longBits : Nat) (s : FwContext × World) (st : Store) :
    StoredTo s.1 (st.apply longBits s).1 := by
  cases st with
  | memloader attr buf => exact .nothing
  | fw attr buf =>
    simp only [Store.apply]
    split
    · exact .nothing
    · next r hr => exact (fwStore_spec hr).1

theorem Store.apply_world (longBits : Nat) (s : FwContext × World) (st : Store) :
    (st.apply longBits s).2.info.currentCount = s.2.info.currentCount ∧
      (st.apply longBits s).2.target = s.2.target := by
  cases st with
  | memloader attr buf => exact ⟨memloaderStore_count _ _ _ _, rfl⟩
  | fw attr buf =>
    simp only [Store.apply]
    split
    · exact ⟨rfl, rfl⟩
    · next r hr =>
      rw [(fwStore_spec hr).2]
      exact ⟨rfl, rfl⟩

theorem Store.apply_same (longBits : Nat) (s : FwContext × World) (st : Store) :
    SameTransfer s (st.apply longBits s) := by
  obtain ⟨hinfo, htarget⟩ := st.apply_world longBits s
  have hctx := st.apply_storedTo longBits s
  generalize st.apply longBits s = s' at hinfo htarget hctx ⊢
  obtain ⟨ctx', w'⟩ := s'
  cases hctx <;> exact ⟨rfl, rfl, rfl, hinfo, htarget⟩

/-- …and all stores at a loop head: what each of them keeps, and what is kept from one to the
next. -/
theorem storeEnv_rel {R : FwContext × World → FwContext × World → Prop} {longBits : Nat}
    (hrefl : ∀ s, R s s) (htrans : ∀ {s₁ s₂ s₃}, R s₁ s₂ → R s₂ s₃ → R s₁ s₃)
    (happly : ∀ s (st : Store), R s (st.apply longBits s)) (stores : Nat → List Store) (k : Nat)
    (s : FwContext × World) : R s (storeEnv longBits stores k s) := by
  unfold storeEnv
  generalize stores k = sts
  induction sts generalizing s with
  | nil => exact hrefl s
  | cons st sts ih => exact htrans (happly s st) (ih _)

theorem storeEnv_same (longBits : Nat) (stores : Nat → List Store) (k : Nat)
    (s : FwContext × World) : SameTransfer s (storeEnv longBits stores k s) :=
  storeEnv_rel .refl .trans (fun s st => st.apply_same longBits s) stores k s

/-! ## Flat loads under stores -/

section Contiguous

variable (pageShift longBits : Nat) (stores : Nat → List Store) (ctx : FwContext) (fw : Firmware)
  (w : World)

/-- The states in which the load of `fw` passes the head of its loop. -/
def LoadHeads : LoadState World → Prop :=
  Heads (loadBody (memloaderOps pageShift) (memloaderWrite pageShift) (storeEnv longBits stores))
    (loadEntry ctx fw w).loopEntry

/-- At some moment of the load a read of `load-address` reports the address `b`. -/
def Shown (b : BitVec 64) : Prop :=
  ∃ s, LoadHeads pageShift longBits stores ctx fw w s ∧
    memloaderShow (s.interfere (storeEnv longBits stores)).world.info .loadAddress =
      hexText b.toNat

/-- The stores made between two blocks leave `load_base_address` as it was. -/
def AddressKept : Prop :=
  ∀ s, LoadHeads pageShift longBits stores ctx fw w s → 0 < s.ctx.currentCount →
    (s.interfere (storeEnv longBits stores)).Loading →
    (s.interfere (storeEnv longBits stores)).world.info.loadBaseAddress =
      s.world.info.loadBaseAddress

end Contiguous

/-- A flat load in progress: `c` bytes stand at the address `b`, which has been shown
if there are any. -/
structure FlatInv (img : Nat → Byte) (size : Nat) (shown : BitVec 64 → Prop) (c : Nat)
    (b : BitVec 64) (s : LoadState World) : Prop where
  data : s.ctx.data = some img
  total : s.ctx.totalCount = size
  current : s.ctx.currentCount = c
  info : s.world.info.currentCount = c
  le : c ≤ size
  placed : ∀ i, i < c → s.world.target (b + BitVec.ofNat 64 i) = img i
  shown : 0 < c → shown b

section FlatLoop

variable {img : Nat → Byte} {size : Nat} {shown : BitVec 64 → Prop} {c : Nat} {b : BitVec 64}
  {s : LoadState World}

theorem FlatInv.interfere (h : FlatInv img size shown c b s) (longBits : Nat)
    (stores : Nat → List Store) :
    FlatInv img size shown c b (s.interfere (storeEnv longBits stores)) := by
  have hsame := storeEnv_same longBits stores s.heads (s.ctx, s.world)
  refine ⟨hsame.data.trans h.data, hsame.total.trans h.total, hsame.current.trans h.current,
    hsame.info.trans h.info, h.le, fun i hi => ?_, h.shown⟩
  exact (congrFun hsame.target _).trans (h.placed i hi)

theorem FlatInv.nap (h : FlatInv img size shown c b s) : FlatInv img size shown c b s.nap := by
  obtain ⟨hdata, htotal, hcurrent, hinfo, hle, hplaced, hshown⟩ := h
  rw [← s.nap_ctx] at hdata htotal hcurrent
  rw [← s.nap_world] at hinfo hplaced
  exact ⟨hdata, htotal, hcurrent, hinfo, hle, hplaced, hshown⟩

/-- A block stored at the address of the earlier ones. -/
theorem FlatInv.stored (hsize : size < 2 ^ 31) (h : FlatInv img size shown c b s)
    (hb : s.world.info.loadBaseAddress = b) (hshown : shown b) {n : Nat} {w : World}
    (hend : c + n ≤ size) (hwrote : Wrote img c n s.world w) :
    FlatInv img size shown (c + n) b (s.written n w) where
  data := h.data
  total := h.total
  current := by
    show toInt32 (s.ctx.currentCount + n) = _
    rw [h.current, toInt32_of_range (by omega) (by omega)]
    exact (Int.natCast_add c n).symm
  info := hwrote.count
  le := hend
  placed := by
    subst hb
    exact hwrote.placed (by omega) h.placed
  shown := fun _ => hshown

/-- A refused block changes nothing. -/
theorem FlatInv.refused (h : FlatInv img size shown c b s) {ret : Int} {w : World}
    (hwrote : Wrote img c 0 s.world w) :
    FlatInv img size shown c b { s with ret := ret, world := w } := by
  refine ⟨h.data, h.total, h.current, hwrote.count, h.le, fun i hi => ?_, h.shown⟩
  show w.target _ = _
  rw [hwrote.target]
  exact h.placed i hi

/-- The first block may go anywhere: no byte has been placed yet. -/
theorem FlatInv.rebase (h : FlatInv img size shown 0 b s) (b' : BitVec 64) :
    FlatInv img size shown 0 b' s :=
  ⟨h.data, h.total, h.current, h.info, h.le, fun _ hi => absurd hi (Nat.not_lt_zero _),
    fun hpos => absurd hpos (Nat.lt_irrefl 0)⟩

end FlatLoop

section Contiguous

variable {pageShift longBits : Nat} {stores : Nat → List Store} {ctx : FwContext} {fw : Firmware}
  {w : World} {img : Nat → Byte}

/-- At the head of the loop the bytes written so far stand at the present address. -/
def FlatHead (pageShift longBits : Nat) (stores : Nat → List Store) (ctx : FwContext)
    (fw : Firmware) (w : World) (img : Nat → Byte) (s : LoadState World) : Prop :=
  LoadHeads pageShift longBits stores ctx fw w s ∧ 0 ≤ s.ret ∧
    ∃ c b, FlatInv img fw.size (Shown pageShift longBits stores ctx fw w) c b s ∧
      (0 < c → s.world.info.loadBaseAddress = b)

/-- Behind the loop the address may have been changed once more. -/
def FlatExit (pageShift longBits : Nat) (stores : Nat → List Store) (ctx : FwContext)
    (fw : Firmware) (w : World) (img : Nat → Byte) (s : LoadState World) : Prop :=
  (s.ret < 0 ∨ ¬ s.Loading) ∧
    ∃ c b, FlatInv img fw.size (Shown pageShift longBits stores ctx fw w) c b s

theorem flat_pass (hsize : fw.size < 2 ^ 31)
    (hkept : AddressKept pageShift longBits stores ctx fw w) (s : LoadState World)
    (h : FlatHead pageShift longBits stores ctx fw w img s) :
    Pass (loadBody (memloaderOps pageShift) (memloaderWrite pageShift) (storeEnv longBits stores))
      (FlatHead pageShift longBits stores ctx fw w img)
      (FlatExit pageShift longBits stores ctx fw w img)
      (fun s => (s.ctx.totalCount - s.ctx.currentCount).toNat) s := by
  obtain ⟨hheads, hret, c, b, hinv, hbase⟩ := h
  obtain ⟨s₁, hs₁⟩ : ∃ s₁, s₁ = s.interfere (storeEnv longBits stores) := ⟨_, rfl⟩
  have h₁ : FlatInv img fw.size (Shown pageShift longBits stores ctx fw w) c b s₁ :=
    hs₁ ▸ hinv.interfere longBits stores
  have hshown : Shown pageShift longBits stores ctx fw w s₁.world.info.loadBaseAddress :=
    ⟨s, hheads, by rw [← hs₁]; rfl⟩
  have hcall : s₁.Loading → ∃ r, memloaderWrite pageShift s₁.ctx s₁.world = some r ∧
      BlockWrite s₁.ctx.blocksize fw.size img c s₁.world r := by
    rintro ⟨hlt, -⟩
    rw [h₁.current, h₁.total] at hlt
    refine ⟨writeFlat s₁.ctx img s₁.world, ?_, writeFlat_blockWrite
      ⟨h₁.total, h₁.current, h₁.info, by omega, hsize⟩ img⟩
    simp only [memloaderWrite, h₁.data]
  have hpass := loadBody_blockPass (show (memloaderOps pageShift).read = none from rfl)
    (hs₁ ▸ hcall)
  rw [← hs₁] at hpass
  generalize hbody : loadBody (memloaderOps pageShift) (memloaderWrite pageShift)
    (storeEnv longBits stores) s = out at hpass
  cases hpass with
  | finished hnot => exact Or.inl ⟨s₁, hbody, Or.inr hnot, c, b, h₁⟩
  | refused _ hneg _ hwrote => exact Or.inl ⟨_, hbody, Or.inl hneg, c, b, h₁.refused hwrote⟩
  | @stored n w' hloading hn hlen hwrote =>
    -- the address of this block is that of the bytes before it, if there are any
    have h₂ : FlatInv img fw.size (Shown pageShift longBits stores ctx fw w) c
        s₁.world.info.loadBaseAddress s₁ := by
      rcases Nat.eq_zero_or_pos c with rfl | hpos
      · exact h₁.rebase _
      · have hsteady := hkept s hheads (by rw [hinv.current]; omega) (hs₁ ▸ hloading)
        rw [← hs₁, hbase hpos] at hsteady
        rwa [hsteady]
    have h₃ := (h₂.stored hsize rfl hshown hlen.le hwrote).nap
    refine Or.inr ⟨_, hbody, ⟨hheads.again hbody, ?_, c + n, _, h₃, fun _ => ?_⟩, ?_⟩
    · rw [LoadState.nap_ret]
      exact Int.natCast_nonneg n
    · rw [LoadState.nap_world]
      exact hwrote.base
    · have hle := h₃.le
      show ((s₁.written n w').nap.ctx.totalCount - (s₁.written n w').nap.ctx.currentCount).toNat <
        (s.ctx.totalCount - s.ctx.currentCount).toNat
      rw [h₃.total, h₃.current, hinv.total, hinv.current]
      omega

theorem loadEntry_flatHead (hdata : fw.data = some img) (hsize : fw.size < 2 ^ 31) :
    FlatHead pageShift longBits stores ctx fw w img (loadEntry ctx fw w).loopEntry := by
  have htotal : (loadEntry ctx fw w).loopEntry.ctx.totalCount = fw.size := by
    simp only [loadEntry, LoadState.loopEntry, beginLoad_totalCount]
    exact toInt32_of_range (by omega) (by omega)
  exact ⟨.entry, Int.le_refl 0, 0, 0, ⟨hdata, htotal, rfl, rfl, Nat.zero_le _,
    fun _ hi => absurd hi (Nat.not_lt_zero _), fun hpos => absurd hpos (Nat.lt_irrefl 0)⟩,
    fun hpos => absurd hpos (Nat.lt_irrefl 0)⟩

/-! ### A condition on the stores themselves -/

/-- A store to `load-address`. -/
def Store.setsAddress : Store → Bool
  | memloader .loadAddress _ => true
  | _ => false

theorem Store.apply_address {st : Store} (h : st.setsAddress = false) (longBits : Nat)
    (s : FwContext × World) :
    (st.apply longBits s).2.info.loadBaseAddress = s.2.info.loadBaseAddress := by
  cases st with
  | memloader attr buf =>
    cases attr with
    | loadAddress => cases h
    | loadSize => rfl
  | fw attr buf =>
    simp only [Store.apply]
    split
    · rfl
    · next r hr => rw [(fwStore_spec hr).2]

theorem storeEnv_address {k : Nat} (h : ∀ st ∈ stores k, st.setsAddress = false)
    (s : FwContext × World) :
    (storeEnv longBits stores k s).2.info.loadBaseAddress = s.2.info.loadBaseAddress := by
  unfold storeEnv
  generalize stores k = sts at h
  induction sts generalizing s with
  | nil => rfl
  | cons st sts ih =>
    obtain ⟨hst, hsts⟩ := List.forall_mem_cons.mp h
    exact (ih _ hsts).trans (Store.apply_address hst longBits s)

/-- Between two blocks the loop has passed its head at least once. -/
theorem LoadHeads.heads_pos {s : LoadState World}
    (h : LoadHeads pageShift longBits stores ctx fw w s) (hpos : 0 < s.ctx.currentCount) :
    0 < s.heads := by
  refine Heads.invariant (I := fun s => 0 < s.ctx.currentCount → 0 < s.heads) ?_ ?_ h hpos
  · intro hentry
    exact absurd hentry (Int.lt_irrefl 0)
  · intro s s' _ hbody _
    rw [loadBody_heads hbody]
    exact Nat.succ_pos _

/-- It is enough that nobody stores to `load-address` once the first block is written. -/
theorem addressKept_of_stores (h : ∀ k, 0 < k → ∀ st ∈ stores k, st.setsAddress = false) :
    AddressKept pageShift longBits stores ctx fw w := fun s hs hpos _ =>
  storeEnv_address (h s.heads (hs.heads_pos hpos)) (s.ctx, s.world)

/-! ### The whole load -/

/-- **A completed load is contiguous at one address**, when the stores between its
blocks leave `load_base_address` alone: the load returns, and if it ends `FW_LOADED`
the whole image stands at an address that a read of `load-address` reports at some
moment of the load. -/
theorem memloader_load_contiguous (hdata : fw.data = some img) (hsize : fw.size < 2 ^ 31)
    (hstate : ctx.state = .empty ∨ ctx.state = .failed)
    (hkept : AddressKept pageShift longBits stores ctx fw w) :
    ∃ fuel₀, ∀ fuel, fuel₀ ≤ fuel → ∃ ret ctx' w',
      fwLoadDeviceFirmware (memloaderOps pageShift) (storeEnv longBits stores) fuel (.ok fw) ctx w
          1 =
        some (ret, ctx', w') ∧
      ctx'.totalCount = fw.size ∧
      (ctx'.state = .loaded → ∃ b, Shown pageShift longBits stores ctx fw w b ∧
        ∀ i, i < fw.size → w'.target (b + BitVec.ofNat 64 i) = img i) := by
  refine ⟨fw.size + 1, fun fuel hfuel => ?_⟩
  have hentry : FlatHead pageShift longBits stores ctx fw w img (loadEntry ctx fw w).loopEntry :=
    loadEntry_flatHead hdata hsize
  have hmeasure : ((loadEntry ctx fw w).loopEntry.ctx.totalCount -
      (loadEntry ctx fw w).loopEntry.ctx.currentCount).toNat < fuel := by
    obtain ⟨-, -, c, b, hinv, -⟩ := hentry
    rw [hinv.total, hinv.current]
    omega
  obtain ⟨s, hs, hexit, c, b, hinv⟩ := iterate_total (flat_pass hsize hkept) hentry hmeasure
  obtain ⟨ret, ctx', hrun, hsame, hloaded⟩ :=
    loadImage_of_exit hs (hinv.info.trans hinv.current.symm)
  refine ⟨ret, ctx', s.world, ?_, hsame.total.trans hinv.total, fun hend => ?_⟩
  · rw [fwLoad_eq_loadImage _ _ _ _ hstate, hrun]
  · obtain ⟨hret, hloading⟩ := hloaded.mp hend
    have hover := hexit.resolve_left (Int.not_lt.mpr hret)
    have hc : c = fw.size := by
      have hge : ¬ s.ctx.currentCount < s.ctx.totalCount := fun hlt => hover ⟨hlt, hloading⟩
      rw [hinv.current, hinv.total] at hge
      have hle := hinv.le
      omega
    subst hc
    rcases Nat.eq_zero_or_pos fw.size with hzero | hpos
    · rw [hzero]
      exact ⟨_, ⟨_, .entry, rfl⟩, fun _ hi => absurd hi (Nat.not_lt_zero _)⟩
    · exact ⟨b, hinv.shown hpos, hinv.placed⟩

end Contiguous

/-- The address and the block size are set at the start of the load, the block size
again later on. -/
def resizedBlocks (k : Nat) : List Store :=
  if k = 0 then [.memloader .loadAddress (hexText 0x90000000), .fw .blocksize [49]]
  else [.fw .blocksize [48]]

theorem memloader_load_contiguous_resized :
    ∃ fuel₀, ∀ fuel, fuel₀ ≤ fuel → ∃ ret ctx' w',
      fwLoadDeviceFirmware (memloaderOps 12) (storeEnv 64 resizedBlocks) fuel
        (.ok (flatFirmware 4 fun i => UInt8.ofNat i)) FwContext.zero
        ⟨⟨0x80000000, 0⟩, fun _ => 0, fun _ => true, 0⟩ 1 = some (ret, ctx', w') ∧
      ctx'.totalCount = 4 ∧
      (ctx'.state = .loaded → ∃ b, Shown 12 64 resizedBlocks FwContext.zero
          (flatFirmware 4 fun i => UInt8.ofNat i)
          ⟨⟨0x80000000, 0⟩, fun _ => 0, fun _ => true, 0⟩ b ∧
        ∀ i, i < 4 → w'.target (b + BitVec.ofNat 64 i) = UInt8.ofNat i) := by
  refine memloader_load_contiguous rfl (by decide) (Or.inl rfl) (addressKept_of_stores ?_)
  intro k hk st hst
  rw [resizedBlocks, if_neg (Nat.ne_of_gt hk), List.mem_singleton] at hst
  rw [hst]
  rfl

/-- The new address arrives between the two blocks. -/
def movedAddress (k : Nat) : List Store :=
  if k = 1 then [.memloader .loadAddress (hexText 0x90000000)] else []

/-- The first byte is at the old address, the second one at the new: the image is
nowhere in memory, and yet the load ends `FW_LOADED`. -/
theorem memloader_load_split :
    ∃ ret ctx' w',
      fwLoadDeviceFirmware (memloaderOps 12) (storeEnv 64 movedAddress) 4
        (.ok (flatFirmware 2 fun i => UInt8.ofNat (i + 1))) { FwContext.zero with blocksize := 1 }
        ⟨⟨0x80000000, 0⟩, fun _ => 0, fun _ => true, 0⟩ 1 = some (ret, ctx', w') ∧
      ret = 0 ∧ ctx'.state = .loaded ∧
      ¬ ∃ b, ∀ i, i < 2 → w'.target (b + BitVec.ofNat 64 i) = UInt8.ofNat (i + 1) := by
  obtain ⟨ret, ctx', w', hrun, hret, hstate, htarget⟩ : ∃ ret ctx' w',
      fwLoadDeviceFirmware (memloaderOps 12) (storeEnv 64 movedAddress) 4
        (.ok (flatFirmware 2 fun i => UInt8.ofNat (i + 1))) { FwContext.zero with blocksize := 1 }
        ⟨⟨0x80000000, 0⟩, fun _ => 0, fun _ => true, 0⟩ 1 = some (ret, ctx', w') ∧
      ret = 0 ∧ ctx'.state = .loaded ∧
      w'.target = Function.update (Function.update (fun _ => 0) 0x80000000#64 1) 0x90000001#64 2 :=
    ⟨_, _, _, rfl, rfl, rfl, rfl⟩
  refine ⟨ret, ctx', w', hrun, hret, hstate, ?_⟩
  rintro ⟨b, hb⟩
  have hfirst := hb 0 (by decide)
  have hsecond := hb 1 (by decide)
  rw [htarget, BitVec.add_zero] at hfirst
  rw [htarget] at hsecond
  -- the only 1 in memory is not followed by a 2
  by_cases hold : b = 0x80000000#64
  · subst hold
    revert hsecond
    decide
  · simp only [Function.update_apply, if_neg hold] at hfirst
    revert hfirst
    split <;> decide

end LinuxDeviceDriver.Memloader
