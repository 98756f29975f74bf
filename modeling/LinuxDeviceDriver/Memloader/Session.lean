import LinuxDeviceDriver.Lib.Transition
import LinuxDeviceDriver.Memloader.Show

/-!
# A session with the sysfs files of a memloader

What one user does with a device after `memloader_probe`: stores to the attributes of both
kobjects, in any order and with any text. Between two stores the firmware files may be exchanged,
and any call of `ioremap` may fail.

`Patch` says what this amounts to: each load puts a first part of its image at the address that
`load-address` holds at that moment. The memory is the old memory with these patches laid over it,
one after the other, and `FW_LOADED` promises that the last of them is whole
(`memloader_session`). The answer to the store promises less: a load whose blocks are refused is
answered like one that succeeds.

Only images that `request_firmware` delivers in one piece and that fit an `int` are covered; the
page lists are in `Memloader.Image`.
-/

namespace LinuxDeviceDriver.Memloader

open Lib

/-! ## The load nobody disturbs -/

section Undisturbed

variable {σ : Type} {ops : FwOps σ}

/-- Alone, the load loop never changes the state. -/
theorem loadBody_noEnv_state {write : Callback σ} {s : LoadState σ} {out : Iter (LoadState σ)}
    (h : loadBody ops write noEnv s = out) :
    ∀ s', out = .next s' ∨ out = .done s' → s'.ctx.state = s.ctx.state := by
  have hcases := loadBody_cases ops write noEnv s
  rw [h] at hcases
  intro s' hout
  cases hcases with
  | finished _ | stop _ _ _ =>
    rcases hout with hout | hout
    · cases hout
    · cases hout
      rfl
  | crash _ _ => rcases hout with hout | hout <;> cases hout
  | wrote _ _ _ hafter =>
    cases hafter with
    | noRead | readDone _ _ _ =>
      rcases hout with hout | hout
      · cases hout
        rw [LoadState.nap_ctx]
        rfl
      · cases hout
    | readCrash _ _ => rcases hout with hout | hout <;> cases hout
    | readFailed _ _ _ =>
      rcases hout with hout | hout
      · cases hout
      · cases hout
        rfl

theorem loadBlocks_noEnv_state {fuel : Nat} {s s' : LoadState σ}
    (h : loadBlocks ops noEnv fuel s = some s') : s'.ctx.state = s.ctx.state := by
  unfold loadBlocks at h
  split at h
  · cases h
    rfl
  · split at h
    · refine iterate_done (I := fun s' => s'.ctx.state = s.ctx.state)
        (Q := fun s' => s'.ctx.state = s.ctx.state) ?_ ?_ rfl h
      · intro s₁ s₂ hI hbody
        exact (loadBody_noEnv_state hbody s₂ (.inl rfl)).trans hI
      · intro s₁ s₂ hI hbody
        exact (loadBody_noEnv_state hbody s₂ (.inr rfl)).trans hI
    · cases h
      rfl

theorem markFailed_state (s : LoadState σ) :
    s.markFailed.ctx.state = s.ctx.state ∨ s.markFailed.ctx.state = .failed := by
  unfold LoadState.markFailed
  split
  · exact .inr rfl
  · exact .inl rfl

end Undisturbed

/-- Alone, a load by memloader ends `FW_LOADED` or `FW_FAILED`; and when the driver has counted
what the context has, the caller is told that all is well in both cases. -/
theorem loadImage_answer {pageShift fuel : Nat} {fw : Firmware} {ctx ctx' : FwContext}
    {w w' : World} {ret : Int}
    (h : loadImage (memloaderOps pageShift) noEnv fuel fw ctx w = some (ret, ctx', w'))
    (hcount : w'.info.currentCount = ctx'.currentCount) :
    ret = 0 ∧ (ctx'.state = .loaded ∨ ctx'.state = .failed) := by
  simp only [loadImage, runStart_memloader, bind, pure, Option.bind_eq_some_iff,
    Option.some.injEq] at h
  obtain ⟨s₁, rfl, s₂, hblocks, s₃, hend, hfinish⟩ := h
  have hloading : s₂.ctx.state = .loading := loadBlocks_noEnv_state hblocks
  have hworld : w' = s₃.world := by rw [← finishLoad_world s₃, hfinish]
  have hctx : SameLoad s₃.ctx ctx' := by
    have hsame := finishLoad_same s₃
    rwa [hfinish] at hsame
  -- `end` leaves the counters alone, so it has compared those that agree
  have hagree : s₂.markFailed.world.info.currentCount = s₂.markFailed.ctx.currentCount := by
    simp only [runEnd, memloaderOps, memloaderEnd, Option.map_some, Option.some.injEq] at hend
    have hinfo : s₃.world = s₂.markFailed.world := by rw [← hend, markFailed_world]
    have hcurrent : s₃.ctx.currentCount = s₂.markFailed.ctx.currentCount := by
      rw [← hend, (markFailed_same _).current]
    rw [← hinfo, ← hcurrent, ← hworld, ← hctx.current]
    exact hcount
  rw [runEnd_memloader pageShift hagree, Option.some.injEq] at hend
  subst hend
  have hstate : s₂.markFailed.ctx.state = .loading ∨ s₂.markFailed.ctx.state = .failed := by
    rw [← hloading]
    exact markFailed_state s₂
  rcases hstate with hstate | hstate
  all_goals
    simp only [finishLoad, hstate, Prod.mk.injEq] at hfinish
    obtain ⟨rfl, rfl, -⟩ := hfinish
  · exact ⟨rfl, .inl rfl⟩
  · exact ⟨rfl, .inr hstate⟩

/-! ## Accesses -/

/-- The first `count` bytes of an image of `size` bytes, at their addresses. -/
structure Patch where
  address : BitVec 64
  img : Nat → Byte
  size : Nat
  count : Nat

/-- Lay a patch over the memory. -/
def Patch.apply (m : BitVec 64 → Byte) (p : Patch) : BitVec 64 → Byte :=
  blit m (fun i => p.address + BitVec.ofNat 64 i) p.img p.count

/-- A store to one of the attributes. `files` is what `request_firmware` finds under each name. -/
inductive Access
  | memloader (attr : MemloaderAttr) (buf : List Byte)
  | fw (attr : FwAttr) (buf : List Byte) (files : List Byte → RequestResult)

/-- The device, and beside it the loads so far. -/
structure Session where
  ctx : FwContext
  world : World
  patches : List Patch

/-- The device behind `memloader_probe`. -/
def Session.probed (node : DtNode) (devTarget : Option Nat) (w : World) : Session :=
  ⟨(fwInitializeContext node devTarget .zero).2, w, []⟩

/-- The image that the store starts to load. -/
def Session.starts (longBits : Nat) (s : Session) : Access → Option Firmware
  | .fw .state buf files =>
    if toInt32 (simpleStrtol longBits 10 buf) ≠ 0 ∧
        (s.ctx.state = .empty ∨ s.ctx.state = .failed) then
      match files s.ctx.name with
      | .ok fw => some fw
      | .fail _ _ => none
    else none
  | _ => none

/-- What the load has put into memory when it is over. -/
def Session.patch (s : Session) (ctx : FwContext) (fw : Firmware) : List Patch :=
  (fw.data.map fun img =>
    ⟨s.world.info.loadBaseAddress, img, fw.size, ctx.currentCount.toNat⟩).toList

/-- `fw_load_device_firmware` with the files as they are. No image of less than 2^31 bytes takes
more passes of the load loop than there is fuel. -/
def loadFrom (pageShift : Nat) (files : List Byte → RequestResult) (ctx : FwContext) (w : World)
    (load : Int) : Option (Int × FwContext × World) :=
  fwLoadDeviceFirmware (memloaderOps pageShift) noEnv (2 ^ 31) (files ctx.name) ctx w load

/-- One store, with its answer; `none` when it does not return. -/
def Session.access (longBits pageShift : Nat) (s : Session) (a : Access) :
    Option (Int × Session) :=
  match a with
  | .memloader attr buf =>
    let (ret, info) := memloaderStore longBits attr buf s.world.info
    some (ret, { s with world := { s.world with info := info } })
  | .fw attr buf files =>
    (fwStore longBits (loadFrom pageShift files) attr buf s.ctx s.world).map fun (ret, ctx, w) =>
      (ret, ⟨ctx, w, s.patches ++ (s.starts longBits a).toList.flatMap (s.patch ctx)⟩)

def Session.step (longBits pageShift : Nat) (s : Session) (a : Access) : Option Session :=
  (s.access longBits pageShift a).map Prod.snd

/-- All images come in one piece and fit an `int`. -/
def Access.Flat : Access → Prop
  | .memloader _ _ => True
  | .fw _ _ files => ∀ name fw, files name = .ok fw → fw.data ≠ none ∧ fw.size < 2 ^ 31

/-- The ends of a load of `size` bytes at the address that the session has. -/
structure LoadEnd (s s' : Session) (size : Nat) (img : Nat → Byte) (count : Nat) : Prop where
  state : s'.ctx.state = .loaded ∨ s'.ctx.state = .failed
  total : s'.ctx.totalCount = size
  current : s'.ctx.currentCount = count
  info : s'.world.info.currentCount = count
  le : count ≤ size
  target : s'.world.target =
    Patch.apply s.world.target ⟨s.world.info.loadBaseAddress, img, size, count⟩
  patches : s'.patches = s.patches ++ [⟨s.world.info.loadBaseAddress, img, size, count⟩]
  whole : s'.ctx.state = .loaded → count = size
  succeeds : 0 ≤ s.ctx.blocksize → ¬ s.world.Refuses → s'.ctx.state = .loaded

/-- What an access can do. -/
inductive Outcome (longBits : Nat) (s : Session) (a : Access) : Int × Session → Prop
  | setting {ret : Int} {ctx : FwContext} {info : MemloaderInfo} :
      s.starts longBits a = none → StoredTo s.ctx ctx →
      info.currentCount = s.world.info.currentCount →
      Outcome longBits s a (ret, ⟨ctx, { s.world with info := info }, s.patches⟩)
  | noFile {ret : Int} : s.starts longBits a = none →
      Outcome longBits s a
        (ret, ⟨{ s.ctx with state := .failed, currentCount := 0, totalCount := 0 }, s.world,
          s.patches⟩)
  | load {fw : Firmware} {img : Nat → Byte} {count buflen : Nat} {s' : Session} :
      s.starts longBits a = some fw → fw.data = some img → fw.size < 2 ^ 31 →
      LoadEnd s s' fw.size img count →
      Outcome longBits s a (buflen, s')

section Accesses

variable {longBits pageShift : Nat} {s s' : Session} {a : Access}

/-- A store that starts a load. -/
theorem access_load {fw : Firmware} {img : Nat → Byte} {buf : List Byte}
    {files : List Byte → RequestResult} (hdata : fw.data = some img) (hsize : fw.size < 2 ^ 31)
    (hload : toInt32 (simpleStrtol longBits 10 buf) ≠ 0)
    (hstate : s.ctx.state = .empty ∨ s.ctx.state = .failed) (hfile : files s.ctx.name = .ok fw) :
    ∃ s' count, s.access longBits pageShift (.fw .state buf files) = some ((buf.length : Int), s') ∧
      LoadEnd s s' fw.size img count := by
  have hstarts : s.starts longBits (.fw .state buf files) = some fw := by
    simp only [Session.starts, if_pos (And.intro hload hstate), hfile]
  obtain ⟨ret, ctx', w', hrun, hresult⟩ := loadImage_memloader hsize
    (flat_blockWriter pageShift hdata s.ctx.blocksize s.world.started) (fun _ => []) hsize
  obtain ⟨count, hcurrent, hle, himage⟩ := hresult.position
  have hagree : w'.info.currentCount = ctx'.currentCount := by
    rw [himage.count, hcurrent, Nat.zero_add]
  obtain ⟨rfl, hend⟩ := loadImage_answer hrun hagree
  have hcall : loadFrom pageShift files s.ctx s.world (toInt32 (simpleStrtol longBits 10 buf)) =
      some (0, ctx', w') := by
    unfold loadFrom fwLoadDeviceFirmware
    rw [if_neg hload, hfile]
    rcases hstate with hs | hs <;> rw [hs] <;> exact hrun
  refine ⟨⟨ctx', w', s.patches ++ [⟨s.world.info.loadBaseAddress, img, fw.size, count⟩]⟩, count,
    ?_, ?_⟩
  · simp only [Session.access, fwStore, fwLoadFirmware, hcall, hstarts, Option.map_some,
      Session.patch, hdata, hcurrent, Int.toNat_natCast, Option.toList_some,
      List.flatMap_singleton, Int.lt_irrefl, if_false]
  · refine ⟨hend, hresult.total, hcurrent, hagree.trans hcurrent, hle, ?_, rfl, ?_, ?_⟩
    · rw [himage.target]
      simp only [Nat.zero_add]
      rfl
    · intro hloaded
      have hfull := hresult.complete hloaded
      rw [hcurrent, hresult.total] at hfull
      exact Int.natCast_inj.mp hfull
    · exact hresult.succeeds fun _ => rfl

/-- A store that starts no load and leaves the driver's own data alone. -/
theorem access_of_fwStore {attr : FwAttr} {buf : List Byte} {files : List Byte → RequestResult}
    {ret : Int} {ctx : FwContext}
    (hstore : fwStore longBits (loadFrom pageShift files) attr buf s.ctx s.world =
      some (ret, ctx, s.world)) (hstarts : s.starts longBits (.fw attr buf files) = none) :
    s.access longBits pageShift (.fw attr buf files) = some (ret, ⟨ctx, s.world, s.patches⟩) := by
  simp only [Session.access, hstore, hstarts, Option.map_some, Option.toList_none,
    List.flatMap_nil, List.append_nil]

/-- A store to `state`. -/
theorem access_state {buf : List Byte} {files : List Byte → RequestResult}
    (hflat : (Access.fw .state buf files).Flat)
    (hrest : s.ctx.state = .empty ∨ s.ctx.state = .loaded ∨ s.ctx.state = .failed) :
    ∃ r, s.access longBits pageShift (.fw .state buf files) = some r ∧
      Outcome longBits s (.fw .state buf files) r := by
  by_cases hload : toInt32 (simpleStrtol longBits 10 buf) = 0
  · have hstarts : s.starts longBits (.fw .state buf files) = none := by
      simp [Session.starts, hload]
    have hstore : fwStore longBits (loadFrom pageShift files) .state buf s.ctx s.world =
        some ((buf.length : Int), cancelLoad s.ctx, s.world) := by
      simp [fwStore, fwLoadFirmware, loadFrom, fwLoadDeviceFirmware, hload]
    exact ⟨_, access_of_fwStore hstore hstarts, .setting hstarts .cancelled rfl⟩
  by_cases hloaded : s.ctx.state = .loaded
  · have hstarts : s.starts longBits (.fw .state buf files) = none := by
      simp [Session.starts, hloaded]
    have hstore : fwStore longBits (loadFrom pageShift files) .state buf s.ctx s.world =
        some (Errno.einval.neg, s.ctx, s.world) := by
      simp [fwStore, fwLoadFirmware, loadFrom, fwLoadDeviceFirmware, hload, hloaded,
        Errno.neg_lt_zero]
    exact ⟨_, access_of_fwStore hstore hstarts, .setting hstarts .nothing rfl⟩
  have hstate : s.ctx.state = .empty ∨ s.ctx.state = .failed := by
    rcases hrest with h | h | h
    · exact .inl h
    · exact absurd h hloaded
    · exact .inr h
  cases hfile : files s.ctx.name with
  | fail err hneg =>
    have hstarts : s.starts longBits (.fw .state buf files) = none := by
      simp [Session.starts, hfile]
    have hstore : fwStore longBits (loadFrom pageShift files) .state buf s.ctx s.world =
        some (err, { s.ctx with state := .failed, currentCount := 0, totalCount := 0 },
          s.world) := by
      rcases hstate with hs | hs <;>
        simp [fwStore, fwLoadFirmware, loadFrom, fwLoadDeviceFirmware, hload, hs, hfile, hneg]
    exact ⟨_, access_of_fwStore hstore hstarts, .noFile hstarts⟩
  | ok fw =>
    obtain ⟨hdata, hsize⟩ := hflat _ fw hfile
    obtain ⟨img, hdata⟩ := Option.ne_none_iff_exists'.mp hdata
    obtain ⟨s', count, haccess, hend⟩ := access_load hdata hsize hload hstate hfile
    refine ⟨_, haccess, .load ?_ hdata hsize hend⟩
    simp only [Session.starts, if_pos (And.intro hload hstate), hfile]

/-- **One access** returns, and does one of three things. -/
theorem access_outcome (hflat : a.Flat)
    (hrest : s.ctx.state = .empty ∨ s.ctx.state = .loaded ∨ s.ctx.state = .failed) :
    ∃ r, s.access longBits pageShift a = some r ∧ Outcome longBits s a r := by
  cases a with
  | memloader attr buf =>
    exact ⟨_, rfl, .setting rfl .nothing (memloaderStore_count longBits attr buf _)⟩
  | fw attr buf files =>
    cases attr with
    | state => exact access_state hflat hrest
    | filename =>
      exact ⟨_, access_of_fwStore rfl rfl, .setting rfl (fwSetFilename_storedTo s.ctx buf) rfl⟩
    | blockread => exact ⟨_, access_of_fwStore rfl rfl, .setting rfl (.blockread _) rfl⟩
    | blocksize =>
      exact ⟨_, access_of_fwStore rfl rfl, .setting rfl (.blocksize _ (toInt32_ge _)) rfl⟩
    | blockdelay => exact ⟨_, access_of_fwStore rfl rfl, .setting rfl (.blockdelay _) rfl⟩
    | devicemask => exact ⟨_, access_of_fwStore rfl rfl, .setting rfl (.devicemask _) rfl⟩
    | progressPct | progressSize | totalSize =>
      exact ⟨_, access_of_fwStore rfl rfl, .setting rfl .nothing rfl⟩

end Accesses

/-! ## Sessions -/

/-- What holds between two accesses. -/
structure Settled (m₀ : BitVec 64 → Byte) (s : Session) : Prop where
  rest : s.ctx.state = .empty ∨ s.ctx.state = .loaded ∨ s.ctx.state = .failed
  memory : s.world.target = s.patches.foldl Patch.apply m₀
  whole : s.ctx.state = .loaded → ∃ ps p, s.patches = ps ++ [p] ∧ p.count = p.size ∧
    p.size < 2 ^ 31 ∧ s.ctx.currentCount = p.size ∧ s.ctx.totalCount = p.size ∧
    s.world.info.currentCount = p.size

section Sessions

variable {longBits pageShift : Nat} {m₀ : BitVec 64 → Byte} {s s' : Session} {a : Access}

theorem settled_probed (node : DtNode) (devTarget : Option Nat) (w : World) :
    Settled w.target (.probed node devTarget w) where
  rest := .inl (fwInitializeContext_state node devTarget .zero)
  memory := rfl
  whole := by
    intro hloaded
    have hempty := fwInitializeContext_state node devTarget .zero
    simp only [Session.probed, hempty] at hloaded
    cases hloaded

/-- A store keeps the state, or it is a cancellation. -/
theorem StoredTo.state {ctx ctx' : FwContext} (h : StoredTo ctx ctx') :
    ctx'.state = ctx.state ∨ ctx'.state = .empty := by
  cases h with
  | cancelled => exact .inr rfl
  | _ => exact .inl rfl

theorem Settled.outcome (h : Settled m₀ s) {ret : Int}
    (hout : Outcome longBits s a (ret, s')) : Settled m₀ s' := by
  cases hout with
  | setting _ hstored hcount =>
    constructor
    · rcases hstored.state with hsame | hempty
      · rw [hsame]
        exact h.rest
      · exact .inl hempty
    · exact h.memory
    · intro hloaded
      rcases hstored.state with hsame | hempty
      · rw [hsame] at hloaded
        obtain ⟨ps, p, hp, hwhole, hsize, hcur, htot, hinfo⟩ := h.whole hloaded
        refine ⟨ps, p, hp, hwhole, hsize, ?_, ?_, hcount.trans hinfo⟩
        all_goals cases hstored <;> assumption
      · simp only [hempty] at hloaded
        cases hloaded
  | noFile _ => exact ⟨.inr (.inr rfl), h.memory, fun hloaded => by cases hloaded⟩
  | load _ _ hsize hend =>
    constructor
    · exact hend.state.elim (fun h => .inr (.inl h)) (fun h => .inr (.inr h))
    · rw [hend.patches, List.foldl_append, ← h.memory]
      exact hend.target
    · intro hloaded
      have hfull := hend.whole hloaded
      subst hfull
      exact ⟨_, _, hend.patches, rfl, hsize, hend.current, hend.total, hend.info⟩

/-- A whole patch that was laid last is what the memory holds there. -/
theorem apply_last {p : Patch} (hsize : p.size < 2 ^ 31) (hwhole : p.count = p.size)
    (m : BitVec 64 → Byte) {i : Nat} (hi : i < p.size) :
    p.apply m (p.address + BitVec.ofNat 64 i) = p.img i := by
  refine blit_lane m (fun i => p.address + BitVec.ofNat 64 i) p.img ?_ (by omega)
  intro k hk heq
  have := address_inj _ (by omega) (by omega) heq
  omega

theorem Settled.step (h : Settled m₀ s) (hflat : a.Flat)
    (hstep : s.step longBits pageShift a = some s') : Settled m₀ s' := by
  obtain ⟨⟨ret, s₁⟩, haccess, rfl⟩ := Option.map_eq_some_iff.mp hstep
  obtain ⟨r, hr, hout⟩ : ∃ r, s.access longBits pageShift a = some r ∧ Outcome longBits s a r :=
    access_outcome hflat h.rest
  rw [haccess, Option.some.injEq] at hr
  rw [← hr] at hout
  exact h.outcome hout

/-- **Sessions.** After any stores to the attributes, with any firmware files and any refusals of
`ioremap`: the state is `FW_EMPTY`, `FW_LOADED` or `FW_FAILED`; the memory is what the loads so far
have laid over it, each at the address of its time; `FW_LOADED` means that the last of these images
is in memory as a whole, and that all counters show its size; every further store returns; and a
store that finds its image is answered with success, and ends `FW_LOADED` if the block size is not
negative and no mapping is refused. -/
theorem memloader_session {node : DtNode} {devTarget : Option Nat} {w₀ : World} {s : Session}
    (h : Reach (Session.step longBits pageShift) (fun _ a => a.Flat)
      (.probed node devTarget w₀) s) :
    (s.ctx.state = .empty ∨ s.ctx.state = .loaded ∨ s.ctx.state = .failed) ∧
    s.world.target = s.patches.foldl Patch.apply w₀.target ∧
    (s.ctx.state = .loaded → ∃ ps p, s.patches = ps ++ [p] ∧
      fwShow s.ctx .progressSize = decText p.size ∧ fwShow s.ctx .totalSize = decText p.size ∧
      memloaderShow s.world.info .loadSize = hexText p.size ∧
      ∀ i, i < p.size → s.world.target (p.address + BitVec.ofNat 64 i) = p.img i) ∧
    (∀ a : Access, a.Flat → ∃ r, s.access longBits pageShift a = some r) ∧
    ∀ buf files fw, (Access.fw .state buf files).Flat → files s.ctx.name = .ok fw →
      toInt32 (simpleStrtol longBits 10 buf) ≠ 0 → s.ctx.state ≠ .loaded →
      ∃ s', s.access longBits pageShift (.fw .state buf files) = some ((buf.length : Int), s') ∧
        (0 ≤ s.ctx.blocksize → ¬ s.world.Refuses → s'.ctx.state = .loaded) := by
  have hsettled : Settled w₀.target s :=
    h.invariant (settled_probed node devTarget w₀) Settled.step
  refine ⟨hsettled.rest, hsettled.memory, ?_, ?_, ?_⟩
  · intro hloaded
    obtain ⟨ps, p, hp, hwhole, hsize, hcur, htot, hinfo⟩ := hsettled.whole hloaded
    refine ⟨ps, p, hp, ?_, ?_, ?_, ?_⟩
    · rw [fwShow, hcur]
    · rw [fwShow, htot]
    · rw [memloaderShow, hinfo]
      congr 1
      omega
    · intro i hi
      rw [hsettled.memory, hp, List.foldl_append]
      exact apply_last hsize hwhole _ hi
  · intro a hflat
    obtain ⟨r, hr, -⟩ := access_outcome hflat hsettled.rest
    exact ⟨r, hr⟩
  · intro buf files fw hflat hfile hload hstate
    obtain ⟨hdata, hsize⟩ := hflat _ fw hfile
    obtain ⟨img, hdata⟩ := Option.ne_none_iff_exists'.mp hdata
    have hfree : s.ctx.state = .empty ∨ s.ctx.state = .failed := by
      rcases hsettled.rest with hs | hs | hs
      · exact .inl hs
      · exact absurd hs hstate
      · exact .inr hs
    obtain ⟨s', count, haccess, hend⟩ := access_load hdata hsize hload hfree hfile
    exact ⟨s', haccess, hend.succeeds⟩

end Sessions

/-- A device behind `memloader_probe`, with the defaults for its blocks. -/
def freshDevice : Session :=
  .probed ⟨true, none, none, none, none, none⟩ (some 0) ⟨⟨0, 0⟩, fun _ => 0, fun _ => true, 0⟩

/-- The address is set to 0x80, and five bytes are loaded. -/
theorem memloader_session_five_bytes :
    ∃ s s' : Session,
      freshDevice.step 64 12 (.memloader .loadAddress [56, 48]) = some s ∧
      s.world.info.loadBaseAddress = 0x80 ∧
      s.access 64 12 (.fw .state [49] fun _ => .ok ⟨5, some fun i => .ofNat i, none⟩) =
        some (1, s') ∧ s'.ctx.state = .loaded := by
  obtain ⟨s, hs, haddress, hempty, hblocks, hmaps⟩ : ∃ s,
      freshDevice.step 64 12 (.memloader .loadAddress [56, 48]) = some s ∧
      s.world.info.loadBaseAddress = 0x80 ∧ s.ctx.state = .empty ∧ s.ctx.blocksize = 20 ∧
      s.world.ioremapOk = fun _ => true := ⟨_, rfl, rfl, rfl, rfl, rfl⟩
  have hreach : Reach (Session.step 64 12) (fun _ a => a.Flat) freshDevice s :=
    Reach.init.tail (a := .memloader .loadAddress [56, 48]) trivial hs
  obtain ⟨-, -, -, -, hload⟩ := memloader_session hreach
  have hflat : (Access.fw .state [49] fun _ => .ok ⟨5, some fun i => .ofNat i, none⟩).Flat := by
    intro _ fw h
    cases h
    exact ⟨Option.some_ne_none _, by decide⟩
  obtain ⟨s', haccess, hloaded⟩ :=
    hload [49] _ _ hflat rfl (by decide) (by rw [hempty]; decide)
  refine ⟨s, s', hs, haddress, haccess, hloaded ?_ ?_⟩
  · rw [hblocks]
    decide
  · rintro ⟨k, hk⟩
    rw [hmaps] at hk
    cases hk

end LinuxDeviceDriver.Memloader
