import LinuxDeviceDriver.Memloader.Attributes
import LinuxDeviceDriver.Memloader.Progress
import LinuxDeviceDriver.Numbers

/-!
# What the attributes show: `fw_show`, `memloader_show`

An attribute that is printed and stored back should be as before. The `int` attributes are
(`fwStore_fwShow_int`); `load-address` is a 64-bit number that is read into a `long`
(`load_address_round_trip_iff`).

`progress_pct` is computed in `int`s from the counters of the load, without a lock. The counters
themselves are in order at every head of the load loop, whatever is stored meanwhile (`Counting`),
so what is shown is the percentage as long as `100 * cur` fits an `int` (`progress_pct_iff`).
-/

namespace LinuxDeviceDriver.Memloader

open Lib

/-- `FW_EMPTY` to `FW_DELETED` -/
def FwState.code : FwState → Int
  | empty => 0
  | loading => 1
  | loaded => 2
  | failed => 3
  | deleted => 4

/-- The C string in `ctx->filename`. -/
def FwContext.name (ctx : FwContext) : List Byte := ctx.filename.takeWhile (· ≠ 0)

/-- `tot ? (100 * cur / tot) : 0` -/
def progressPct (ctx : FwContext) : Int :=
  let cur := ctx.currentCount
  let tot := ctx.totalCount
  if tot ≠ 0 then toInt32 ((toInt32 (100 * cur)).tdiv tot) else 0

/-- `fw_show`: the text a read of the attribute delivers. -/
def fwShow (ctx : FwContext) : FwAttr → List Byte
  | .state => decText ctx.state.code
  | .filename => ctx.name ++ [10]
  | .blockread => decText ctx.blockread
  | .blocksize => decText ctx.blocksize
  | .blockdelay => decText ctx.blockdelay
  | .devicemask => decText ctx.devicemask
  | .progressPct => decText (progressPct ctx)
  | .progressSize => decText ctx.currentCount
  | .totalSize => decText ctx.totalCount

/-! ## Storing back what is shown -/

section RoundTrip

/-- The configurable attributes hold `int`s. -/
structure IntAttrs (ctx : FwContext) : Prop where
  blockread : -2 ^ 31 ≤ ctx.blockread ∧ ctx.blockread < 2 ^ 31
  blocksize : -2 ^ 31 ≤ ctx.blocksize ∧ ctx.blocksize < 2 ^ 31
  blockdelay : -2 ^ 31 ≤ ctx.blockdelay ∧ ctx.blockdelay < 2 ^ 31
  devicemask : -2 ^ 31 ≤ ctx.devicemask ∧ ctx.devicemask < 2 ^ 31

/-- An attribute that is set by a number. -/
def FwAttr.isInt : FwAttr → Bool
  | blockread | blocksize | blockdelay | devicemask => true
  | _ => false

theorem fwSetInt_decText (set : FwContext → Int → FwContext) {longBits : Nat}
    (hlong : 32 ≤ longBits) (ctx : FwContext) {v : Int} (h : -2 ^ 31 ≤ v ∧ v < 2 ^ 31) :
    fwSetInt set longBits ctx (decText v) = (0, set ctx v) := by
  unfold fwSetInt
  rw [simpleStrtol_decText hlong h.1 h.2, toInt32_of_range h.1 h.2]

/-- Storing back what an `int` attribute shows is accepted and changes nothing. -/
theorem fwStore_fwShow_int {σ : Type} {longBits : Nat} (hlong : 32 ≤ longBits)
    (load : FwContext → σ → Int → Option (Int × FwContext × σ)) {attr : FwAttr}
    (hattr : attr.isInt = true) {ctx : FwContext} (hints : IntAttrs ctx) (w : σ) :
    fwStore longBits load attr (fwShow ctx attr) ctx w =
      some (((fwShow ctx attr).length : Int), ctx, w) := by
  cases attr with
  | blockread =>
    simp only [fwStore, fwShow, fwSetBlockread, fwSetInt_decText _ hlong ctx hints.blockread]
    rfl
  | blocksize =>
    simp only [fwStore, fwShow, fwSetBlocksize, fwSetInt_decText _ hlong ctx hints.blocksize]
    rfl
  | blockdelay =>
    simp only [fwStore, fwShow, fwSetDelay, fwSetInt_decText _ hlong ctx hints.blockdelay]
    rfl
  | devicemask =>
    simp only [fwStore, fwShow, fwSetDevicemask, fwSetInt_decText _ hlong ctx hints.devicemask]
    rfl
  | state | filename | progressPct | progressSize | totalSize => cases hattr

/-- The address that comes back: the low bits, extended by their sign. -/
theorem memloaderStore_shown (longBits : Nat) (info : MemloaderInfo) :
    memloaderStore longBits .loadAddress (memloaderShow info .loadAddress) info =
      (((memloaderShow info .loadAddress).length : Int),
        { info with
          loadBaseAddress :=
            BitVec.ofInt 64 ((info.loadBaseAddress.toNat : Int).bmod (2 ^ longBits)) }) := by
  have hlt : info.loadBaseAddress.toNat < 2 ^ 64 := info.loadBaseAddress.isLt
  have hparse : simpleStrtol longBits 16 (memloaderShow info .loadAddress) =
      (info.loadBaseAddress.toNat : Int).bmod (2 ^ longBits) := simpleStrtol_hexText longBits hlt
  simp only [memloaderStore, memloaderSetLoadAddress, hparse]
  rfl

theorem ofInt_bmod_32_iff (x : BitVec 64) :
    BitVec.ofInt 64 ((x.toNat : Int).bmod (2 ^ 32)) = x ↔
      x.toNat < 2 ^ 31 ∨ 2 ^ 64 - 2 ^ 31 ≤ x.toNat := by
  have hlt : x.toNat < 2 ^ 64 := x.isLt
  rw [← BitVec.toNat_inj, BitVec.toNat_ofInt, Int.bmod_def]
  generalize x.toNat = n at hlt ⊢
  split <;> omega

theorem ofInt_bmod_64 (x : BitVec 64) :
    BitVec.ofInt 64 ((x.toNat : Int).bmod (2 ^ 64)) = x := by
  have hlt : x.toNat < 2 ^ 64 := x.isLt
  rw [← BitVec.toNat_inj, BitVec.toNat_ofInt, Int.bmod_def]
  generalize x.toNat = n at hlt ⊢
  split <;> omega

/-- **The load address survives being shown and stored back** on a 64-bit kernel, and on a 32-bit
one exactly when it is the sign extension of its lower half. -/
theorem load_address_round_trip_iff {longBits : Nat} (hlong : longBits = 32 ∨ longBits = 64)
    (info : MemloaderInfo) :
    (memloaderStore longBits .loadAddress (memloaderShow info .loadAddress)
        info).2.loadBaseAddress = info.loadBaseAddress ↔
      longBits = 64 ∨ info.loadBaseAddress.toNat < 2 ^ 31 ∨
        2 ^ 64 - 2 ^ 31 ≤ info.loadBaseAddress.toNat := by
  rw [memloaderStore_shown]
  rcases hlong with rfl | rfl
  · rw [or_iff_right (by decide : ¬ 32 = 64)]
    exact ofInt_bmod_32_iff info.loadBaseAddress
  · exact iff_of_true (ofInt_bmod_64 info.loadBaseAddress) (Or.inl rfl)

/-- The last address below 2^31, on a 32-bit kernel. -/
theorem load_address_round_trip_low :
    (memloaderStore 32 .loadAddress (memloaderShow ⟨0x7fffffff, 0⟩ .loadAddress)
      ⟨0x7fffffff, 0⟩).2.loadBaseAddress = 0x7fffffff :=
  (load_address_round_trip_iff (Or.inl rfl) ⟨0x7fffffff, 0⟩).mpr (Or.inr (Or.inl (by decide)))

/-- The address behind it comes back with its upper half filled. -/
theorem load_address_sign_extended :
    (memloaderStore 32 .loadAddress (memloaderShow ⟨0x80000000, 0⟩ .loadAddress)
      ⟨0x80000000, 0⟩).2.loadBaseAddress = 0xffffffff80000000 := by
  decide

end RoundTrip

/-! ## The counters of a load -/

section Counting

variable {pageShift size longBits : Nat} {shape : Shape} {img : Nat → Byte}
  {stores : Nat → List Store}

/-- What a store leaves of the image and of the range of `blocksize`. -/
structure KeepsImage (ctx ctx' : FwContext) : Prop where
  fw : ctx'.fw = ctx.fw
  blocksize : -2 ^ 31 ≤ ctx.blocksize → -2 ^ 31 ≤ ctx'.blocksize

theorem KeepsImage.refl (ctx : FwContext) : KeepsImage ctx ctx := ⟨rfl, id⟩

theorem KeepsImage.trans {ctx₁ ctx₂ ctx₃ : FwContext} (h₁ : KeepsImage ctx₁ ctx₂)
    (h₂ : KeepsImage ctx₂ ctx₃) : KeepsImage ctx₁ ctx₃ where
  fw := h₂.fw.trans h₁.fw
  blocksize hlo := h₂.blocksize (h₁.blocksize hlo)

theorem StoredTo.keepsImage {ctx ctx' : FwContext} (h : StoredTo ctx ctx') :
    KeepsImage ctx ctx' := by
  cases h with
  | blocksize val hval => exact ⟨rfl, fun _ => hval⟩
  | nothing | cancelled | filename _ | blockread _ | blockdelay _ | devicemask _ =>
    exact ⟨rfl, id⟩

theorem storeEnv_keepsImage (longBits : Nat) (stores : Nat → List Store) (k : Nat)
    (s : FwContext × World) : KeepsImage s.1 (storeEnv longBits stores k s).1 :=
  storeEnv_rel (R := fun s s' => KeepsImage s.1 s'.1) (fun s => .refl s.1) .trans
    (fun s st => (st.apply_storedTo longBits s).keepsImage) stores k s

/-- At a head of the load loop: both counters agree and lie inside of the image. -/
structure Counting (pageShift size : Nat) (shape : Shape) (img : Nat → Byte)
    (s : LoadState World) : Prop where
  fw : s.ctx.fw = some (shape.firmware pageShift size img)
  data : s.ctx.data = (shape.firmware pageShift size img).data
  total : s.ctx.totalCount = size
  info : s.world.info.currentCount = s.ctx.currentCount
  nonneg : 0 ≤ s.ctx.currentCount
  le : s.ctx.currentCount ≤ size
  blocksize : -2 ^ 31 ≤ s.ctx.blocksize

theorem Counting.interfere {s : LoadState World} (h : Counting pageShift size shape img s)
    (longBits : Nat) (stores : Nat → List Store) :
    Counting pageShift size shape img (s.interfere (storeEnv longBits stores)) ∧
      (s.interfere (storeEnv longBits stores)).ctx.currentCount = s.ctx.currentCount := by
  have hsame := storeEnv_same longBits stores s.heads (s.ctx, s.world)
  have hkeeps := storeEnv_keepsImage longBits stores s.heads (s.ctx, s.world)
  refine ⟨⟨hkeeps.fw.trans h.fw, hsame.data.trans h.data, hsame.total.trans h.total,
    hsame.info.trans (h.info.trans hsame.current.symm), ?_, ?_, hkeeps.blocksize h.blocksize⟩,
    hsame.current⟩
  · exact le_of_le_of_eq h.nonneg hsame.current.symm
  · exact le_of_eq_of_le hsame.current h.le

/-- A block that was written moves both counters on. -/
theorem Counting.written (hshift : pageShift ≤ 30) (hsize : size < 2 ^ 31) {s : LoadState World}
    (h : Counting pageShift size shape img s) (hloading : s.Loading) {ret : Int} {w : World}
    (hwrite : memloaderWrite pageShift s.ctx s.world = some (ret, w)) (hpos : 0 < ret) :
    Counting pageShift size shape img (s.written ret w).nap ∧
      s.ctx.currentCount ≤ (s.written ret w).nap.ctx.currentCount := by
  obtain ⟨c, hc⟩ := Int.eq_ofNat_of_zero_le h.nonneg
  have hlt := hloading.1
  rw [h.total, hc] at hlt
  have hat : AtPosition s.ctx s.world size c :=
    ⟨h.total, hc, h.info.trans hc, Int.ofNat_lt.mp hlt, hsize⟩
  have hctx : shape.context pageShift size s.ctx img = s.ctx := by
    unfold Shape.context
    rw [← h.fw, ← h.data]
  obtain ⟨hle, hinfo⟩ := write_advances hshift hat h.blocksize shape img
    (by rw [hctx]; exact hwrite) hpos
  have hcount : (s.written ret w).nap.ctx.currentCount = c + ret := by
    rw [LoadState.nap_ctx]
    show toInt32 (s.ctx.currentCount + ret) = _
    rw [hc, toInt32_of_range (by omega) (by omega)]
  refine ⟨⟨?_, ?_, ?_, ?_, ?_, ?_, ?_⟩, ?_⟩
  · rw [LoadState.nap_ctx]
    exact h.fw
  · rw [LoadState.nap_ctx]
    exact h.data
  · rw [LoadState.nap_ctx]
    exact h.total
  · rw [hcount, LoadState.nap_world]
    exact hinfo
  · rw [hcount]
    omega
  · rw [hcount]
    omega
  · rw [LoadState.nap_ctx]
    exact h.blocksize
  · rw [hcount, hc]
    omega

/-- One pass of the load loop. -/
theorem Counting.next (hshift : pageShift ≤ 30) (hsize : size < 2 ^ 31) {s s' : LoadState World}
    (h : Counting pageShift size shape img s)
    (hbody : loadBody (memloaderOps pageShift) (memloaderWrite pageShift)
      (storeEnv longBits stores) s = .next s') :
    Counting pageShift size shape img s' ∧ s.ctx.currentCount ≤ s'.ctx.currentCount := by
  obtain ⟨h₁, hcurrent⟩ := h.interfere longBits stores
  have hcases := loadBody_cases (memloaderOps pageShift) (memloaderWrite pageShift)
    (storeEnv longBits stores) s
  rw [hbody] at hcases
  cases hcases with
  | wrote hloading hwrite hpos hafter =>
    cases hafter with
    | noRead =>
      rw [← hcurrent]
      exact h₁.written hshift hsize hloading hwrite hpos
    | readDone hread _ _ => cases hread

theorem loadEntry_counting (pageShift : Nat) (hsize : size < 2 ^ 31) {ctx : FwContext}
    (hb : -2 ^ 31 ≤ ctx.blocksize) (shape : Shape) (img : Nat → Byte) (w : World) :
    Counting pageShift size shape img
      (loadEntry ctx (shape.firmware pageShift size img) w).loopEntry where
  fw := rfl
  data := rfl
  total := by
    have hfw : (shape.firmware pageShift size img).size = size := by
      cases shape <;> rfl
    simp only [loadEntry, LoadState.loopEntry, beginLoad_totalCount, hfw]
    exact toInt32_of_range (by omega) (by omega)
  info := rfl
  nonneg := Int.le_refl 0
  le := Int.natCast_nonneg size
  blocksize := hb

end Counting

/-! ## The percentage -/

/-- The percentage of the image that has been written; 0 for an empty image. -/
def truePct (ctx : FwContext) : Int := 100 * ctx.currentCount / ctx.totalCount

section Percentage

variable {ctx : FwContext}

theorem truePct_range (hcur : 0 ≤ ctx.currentCount) (hle : ctx.currentCount ≤ ctx.totalCount) :
    0 ≤ truePct ctx ∧ truePct ctx ≤ 100 := by
  have htot : 0 ≤ ctx.totalCount := Int.le_trans hcur hle
  refine ⟨Int.ediv_nonneg (by omega) htot, ?_⟩
  rcases Int.lt_or_eq_of_le htot with hpos | hzero
  · exact Int.ediv_le_of_le_mul hpos (by omega)
  · rw [truePct, ← hzero, Int.ediv_zero]
    decide

theorem truePct_mono {ctx' : FwContext} (htot : ctx.totalCount = ctx'.totalCount)
    (hnonneg : 0 ≤ ctx.totalCount) (hle : ctx.currentCount ≤ ctx'.currentCount) :
    truePct ctx ≤ truePct ctx' := by
  unfold truePct
  rw [← htot]
  rcases Int.lt_or_eq_of_le hnonneg with hpos | hzero
  · exact Int.ediv_le_ediv hpos (by omega)
  · rw [← hzero, Int.ediv_zero, Int.ediv_zero]

/-- The quotient rounded towards 0 is not far above the exact one. -/
theorem tdiv_mul_lt (a : Int) {b : Int} (hb : 0 < b) : a.tdiv b * b < a + b := by
  have hsplit := Int.mul_tdiv_add_tmod a b
  have hrest := Int.lt_tmod_of_pos a hb
  rw [Int.mul_comm] at hsplit
  omega

/-- While `100 * cur` fits an `int`, `progress_pct` is the percentage. -/
theorem progressPct_eq (hcur : 0 ≤ ctx.currentCount) (hle : ctx.currentCount ≤ ctx.totalCount)
    (hfits : ctx.currentCount ≤ 21474836) : progressPct ctx = truePct ctx := by
  have hrange := truePct_range hcur hle
  have hproduct : toInt32 (100 * ctx.currentCount) = 100 * ctx.currentCount :=
    toInt32_of_range (by omega) (by omega)
  unfold progressPct
  dsimp only
  rw [hproduct, Int.tdiv_eq_ediv_of_nonneg (by omega)]
  split
  · exact toInt32_of_range (Int.le_trans (by decide) hrange.1)
      (Int.lt_of_le_of_lt hrange.2 (by decide))
  · next hzero =>
    rw [truePct, not_not.mp hzero, Int.ediv_zero]

/-- Behind that it never is: the wrapped product is at least 2^32 too small, which is more than
twice the size of any image. -/
theorem progressPct_ne (hle : ctx.currentCount ≤ ctx.totalCount) (htot : ctx.totalCount < 2 ^ 31)
    (hbig : 21474836 < ctx.currentCount) : progressPct ctx ≠ truePct ctx := by
  have hpos : 0 < ctx.totalCount := by omega
  have hwrap : toInt32 (100 * ctx.currentCount) ≤ 100 * ctx.currentCount - 2 ^ 32 := by
    rw [toInt32, Int.bmod_def]
    split <;> omega
  have hlow := toInt32_ge (100 * ctx.currentCount)
  have hhigh := toInt32_lt (100 * ctx.currentCount)
  unfold progressPct truePct
  dsimp only
  rw [if_pos (Int.ne_of_gt hpos)]
  generalize toInt32 (100 * ctx.currentCount) = a at hwrap hlow hhigh
  have hquot := tdiv_mul_lt a hpos
  have hexact := Int.lt_ediv_add_one_mul_self (100 * ctx.currentCount) hpos
  rw [Int.add_mul, Int.one_mul] at hexact
  have habs := Int.natAbs_tdiv_le_natAbs a ctx.totalCount
  intro heq
  have hsmall : a.tdiv ctx.totalCount < 2 ^ 31 := by
    by_cases hneg : a ≤ 0
    · have hone : a.tdiv ctx.totalCount * ctx.totalCount < 1 * ctx.totalCount := by omega
      have := Int.lt_of_mul_lt_mul_right hone (Int.le_of_lt hpos)
      omega
    · omega
  rw [toInt32_of_range (by omega) hsmall] at heq
  rw [← heq] at hexact
  omega

end Percentage

section Show

variable {pageShift size longBits : Nat} {stores : Nat → List Store} {shape : Shape}
  {img : Nat → Byte} {ctx : FwContext} {w : World}

/-- One head of the load loop comes after another. -/
def Later (pageShift longBits : Nat) (stores : Nat → List Store) :
    LoadState World → LoadState World → Prop :=
  Heads (loadBody (memloaderOps pageShift) (memloaderWrite pageShift) (storeEnv longBits stores))

theorem Counting.later (hshift : pageShift ≤ 30) (hsize : size < 2 ^ 31) {r s : LoadState World}
    (h : Counting pageShift size shape img r) (hlater : Later pageShift longBits stores r s) :
    Counting pageShift size shape img s ∧ r.ctx.currentCount ≤ s.ctx.currentCount := by
  refine Heads.invariant (I := fun s => Counting pageShift size shape img s ∧
    r.ctx.currentCount ≤ s.ctx.currentCount) ⟨h, Int.le_refl _⟩ ?_ hlater
  rintro s s' ⟨hs, hle⟩ hbody
  obtain ⟨hs', hle'⟩ := hs.next hshift hsize hbody
  exact ⟨hs', Int.le_trans hle hle'⟩

/-- What is shown at `r` is the percentage, it lies in 0..100, and no less is shown at `s`. -/
structure PctShown (r s : FwContext) : Prop where
  text : fwShow r .progressPct = decText (truePct r)
  nonneg : 0 ≤ progressPct r
  le : progressPct r ≤ 100
  mono : progressPct r ≤ progressPct s

/-- **`progress_pct` is a true percentage up to 21474836 bytes**: at each moment of a load of
fewer than 2^31 bytes, whatever is stored meanwhile, it has been right and has never fallen
exactly when `100 * current_count` still fits an `int`. -/
theorem progress_pct_iff (hshift : pageShift ≤ 30) (hsize : size < 2 ^ 31)
    (hb : -2 ^ 31 ≤ ctx.blocksize) {s : LoadState World}
    (h : LoadHeads pageShift longBits stores ctx (shape.firmware pageShift size img) w s) :
    (∀ r, LoadHeads pageShift longBits stores ctx (shape.firmware pageShift size img) w r →
      Later pageShift longBits stores r s → PctShown r.ctx s.ctx) ↔
    s.ctx.currentCount ≤ 21474836 := by
  have hentry := loadEntry_counting pageShift hsize hb shape img w
  have hcount : ∀ r, LoadHeads pageShift longBits stores ctx
      (shape.firmware pageShift size img) w r → Counting pageShift size shape img r :=
    fun r hr => (hentry.later hshift hsize hr).1
  have hs := hcount s h
  have hsle : s.ctx.currentCount ≤ s.ctx.totalCount := le_of_le_of_eq hs.le hs.total.symm
  have hstot : s.ctx.totalCount < 2 ^ 31 := by
    rw [hs.total]
    omega
  constructor
  · intro hshown
    by_contra hbig
    refine progressPct_ne hsle hstot (Int.not_le.mp hbig) ?_
    obtain ⟨hlo, hhi⟩ := truePct_range hs.nonneg hsle
    have hself := hshown s h .entry
    exact decText_inj (Int.le_trans (by decide) hself.nonneg)
      (Int.lt_of_le_of_lt hself.le (by decide)) (by omega) (by omega) hself.text
  · intro hfits r hr hlater
    have hr := hcount r hr
    have hmono := (hr.later hshift hsize hlater).2
    have hrle : r.ctx.currentCount ≤ r.ctx.totalCount := le_of_le_of_eq hr.le hr.total.symm
    have hreq := progressPct_eq hr.nonneg hrle (Int.le_trans hmono hfits)
    have hseq := progressPct_eq hs.nonneg hsle hfits
    obtain ⟨hlo, hhi⟩ := truePct_range hr.nonneg hrle
    refine ⟨congrArg decText hreq, ?_, ?_, ?_⟩
    · rw [hreq]
      exact hlo
    · rw [hreq]
      exact hhi
    · rw [hreq, hseq]
      exact truePct_mono (hr.total.trans hs.total.symm) (Int.le_trans hr.nonneg hrle) hmono

end Show

/-- Two of five bytes have been written, and 40 percent are shown. -/
theorem progress_pct_two_of_five :
    ∃ s, LoadHeads 12 64 (fun _ => []) (loadingContext 0 2)
        (Shape.flat.firmware 12 5 fun _ => 7) (freshWorld fun _ => true) s ∧
      fwShow s.ctx .progressPct = [52, 48, 10] ∧ PctShown s.ctx s.ctx := by
  obtain ⟨s, hs, hcur, htext⟩ : ∃ s, LoadHeads 12 64 (fun _ => []) (loadingContext 0 2)
        (Shape.flat.firmware 12 5 fun _ => 7) (freshWorld fun _ => true) s ∧
      s.ctx.currentCount = 2 ∧ fwShow s.ctx .progressPct = [52, 48, 10] :=
    ⟨_, .again .entry rfl, rfl, by decide⟩
  have hfits : s.ctx.currentCount ≤ 21474836 := by
    rw [hcur]
    decide
  exact ⟨s, hs, htext,
    (progress_pct_iff (by decide) (by decide) (by decide) hs).mpr hfits s hs .entry⟩

/-- All of 21474837 bytes have been written in one block, and -99 percent are shown. -/
theorem progress_pct_negative :
    ∃ s, LoadHeads 12 64 (fun _ => []) (loadingContext 0 0)
        (Shape.flat.firmware 12 21474837 fun _ => 7) (freshWorld fun _ => true) s ∧
      s.ctx.currentCount = 21474837 ∧ s.ctx.totalCount = 21474837 ∧
      fwShow s.ctx .progressPct = [45, 57, 57, 10] :=
  ⟨_, .again .entry rfl, by decide, by decide, by decide⟩

end LinuxDeviceDriver.Memloader
