import LinuxDeviceDriver.Memutil.Region

/-!
# What a return value of 0 means

`moveRegion_success` collects what both functions have done when they return 0. From it:

- `success_transfers_iff`: the pages cover the region and the region has been moved, as long as
  the length fits a `size_t` and the address arrives at `mmap` (`Arrives`): through an `off_t` that
  has it, or by chance where `mmap64` is not declared. A longer region is cut, and the check at
  the end compares with the same cut length.
- `save_load_round_trip`: what was saved is loaded again.
-/

namespace LinuxDeviceDriver.Memutil

open Lib

variable {σ : Type} {m : Machine} {p : WorkingParams}

/-- The mapping that both functions work with. -/
theorem mapMemory_some {arg : OffsetArg} {ok : Bool} {map : Mapping} {vaddr : Nat}
    (h : mapMemory m p arg ok = some (map, vaddr)) :
    map = ⟨arg.received m (phyAddrForMap m p), lengthForMap m p % 2 ^ m.size.bits⟩ ∧
      vaddr = map.phys + pageOffset m p := by
  obtain ⟨map', hmap, heq⟩ := Option.map_eq_some_iff.mp h
  cases heq
  unfold mapMemoryFixed mmapPages at hmap
  dsimp only at hmap
  split at hmap
  · cases hmap
    refine ⟨rfl, ?_⟩
    have hoff := pageOffset_lt m p
    have hpage := m.pageSize_le
    rw [start_sub_base, toInt32_of_range (by omega) (by omega)]
    omega
  · cases hmap

/-- What is true behind a return value of 0. -/
structure Success (m : Machine) (p : WorkingParams) (arg : OffsetArg) (c : Channel σ) (s : σ)
    (r : Outcome σ) : Prop where
  mapping : r.mapping = some ⟨arg.received m (phyAddrForMap m p),
    lengthForMap m p % 2 ^ m.size.bits⟩
  first : r.first = arg.received m (phyAddrForMap m p) + pageOffset m p
  last : r.last = r.first + (p.length : Nat) % 2 ^ m.size.bits
  lower : (p.length : Nat) % 2 ^ m.size.bits < 2 ^ (m.size.bits - 1)
  state : r.state = c.move s r.first ((p.length : Nat) % 2 ^ m.size.bits)

theorem moveRegion_success {c : Channel σ} {old s : σ} {calls : Calls} {r : Outcome σ}
    (h : moveRegion m p calls old (fun vaddr count io =>
      safeTransfer m.size c count io s vaddr (m.size.signed count)) = some r)
    (hret : r.ret = 0) : Success m p calls.offset c s r := by
  have hcount : m.size.unsigned p.length = (p.length : Nat) % 2 ^ m.size.bits := rfl
  have hlt : (p.length : Nat) % 2 ^ m.size.bits < 2 ^ m.size.bits :=
    Nat.mod_lt _ (Nat.two_pow_pos _)
  unfold moveRegion at h
  split at h
  · cases h
    cases hret
  · next map vaddr hmap =>
    obtain ⟨rfl, rfl⟩ := mapMemory_some hmap
    split at h
    · rw [hcount] at h
      obtain ⟨⟨cnt, s', last⟩, hmove, heq⟩ := Option.map_eq_some_iff.mp h
      have hexit := safeTransfer_exit hlt hmove
      dsimp only at heq
      split at heq
      · subst heq
        cases hret
      · next hneg =>
        split at heq
        · subst heq
          cases hret
        · next hall =>
          subst heq
          obtain ⟨hlower, hmoved⟩ := hexit.complete hlt (not_lt.mp hneg) (not_ne_iff.mp hall)
          cases hmoved
          exact ⟨rfl, rfl, rfl, hlower, rfl⟩
    · cases h
      cases hret

/-! ## Regions that are reported and not transferred -/

/-- The mapped pages cover the region, and exactly the region was moved to or from the file. -/
structure Transferred (p : WorkingParams) (c : Channel σ) (s : σ) (r : Outcome σ) : Prop where
  covered : ∃ map, r.mapping = some map ∧ map.phys ≤ p.startPhyAddr ∧
    (p.startPhyAddr : Nat) + p.length ≤ map.phys + map.len
  first : r.first = p.startPhyAddr
  last : r.last = p.startPhyAddr + p.length
  moved : r.state = c.move s p.startPhyAddr p.length

section Success

variable {arg : OffsetArg} {c : Channel σ} {s : σ} {r : Outcome σ}

theorem Success.first_eq_iff (h : Success m p arg c s r) :
    r.first = p.startPhyAddr ↔ Arrives m p arg := by
  rw [h.first, ← received_eq_iff, ← phyAddrForMap_add m p, Nat.add_right_cancel_iff]

theorem Success.transferred_iff (h : Success m p arg c s r) :
    Transferred p c s r ↔ (p.length : Nat) < 2 ^ m.size.bits ∧ Arrives m p arg := by
  have hlast := h.last
  constructor
  · rintro ⟨-, hfirst, hend, -⟩
    refine ⟨?_, h.first_eq_iff.mp hfirst⟩
    have hsame : (p.length : Nat) % 2 ^ m.size.bits = p.length := by omega
    exact hsame ▸ Nat.mod_lt _ (Nat.two_pow_pos _)
  · rintro ⟨hlen, hoff⟩
    have hlower := h.lower
    have hmoved := h.state
    have hfirst := h.first_eq_iff.mpr hoff
    rw [Nat.mod_eq_of_lt hlen] at hlast hlower hmoved
    rw [hfirst] at hlast hmoved
    refine ⟨⟨_, h.mapping, ?_⟩, hfirst, hlast, hmoved⟩
    have hbase := phyAddrForMap_add m p
    have hcover := m.le_roundUp (p.length + pageOffset m p)
    rw [(received_eq_iff arg).mpr hoff, lengthForMap_mod hlower]
    dsimp only
    omega

end Success

/-- **When success means that the region was transferred**: a call of either function that
returns 0 has mapped the pages of the region and moved exactly the region, if and only if the
length fits a `size_t` and the address of the first page arrives at `mmap`. -/
theorem success_transfers_iff (m : Machine) (p : WorkingParams) (mem : Nat → Byte)
    (file : List Byte) (calls : Calls) :
    (∀ r, saveMemRegionToFile m p mem file calls = some r → r.ret = 0 →
      (Transferred p (fileForWrite mem) [] r ↔
        (p.length : Nat) < 2 ^ m.size.bits ∧ Arrives m p calls.offset)) ∧
    (∀ r, loadMemRegionFromFile m p mem file calls = some r → r.ret = 0 →
      (Transferred p (fileForRead file) (mem, 0) r ↔
        (p.length : Nat) < 2 ^ m.size.bits ∧ Arrives m p calls.offset)) :=
  ⟨fun _ h hret => (moveRegion_success h hret).transferred_iff,
    fun _ h hret => (moveRegion_success h hret).transferred_iff⟩

/-- The default build: 32-bit `size_t` and `off_t`, pages of 4 KiB. -/
def armMachine : Machine := ⟨.w32, .w32, 12, by decide⟩

/-- Five bytes over the end of a page. -/
def fiveBytes : WorkingParams := ⟨⟨0x1ffe, by decide⟩, ⟨5, by decide⟩, true, false, some "region"⟩

/-- Two bytes, an interruption, and the rest. -/
def shortCalls (arg : OffsetArg) : Calls := ⟨arg, true, true, [.moved 2, .eintr, .moved 9]⟩

/-- With `mmap64` declared. -/
theorem success_transfers_five :
    ∃ r, saveMemRegionToFile armMachine fiveBytes (fun a => UInt8.ofNat a) []
        (shortCalls .declared) = some r ∧ r.ret = 0 ∧
      Transferred fiveBytes (fileForWrite fun a => UInt8.ofNat a) [] r := by
  obtain ⟨r, hsave, hret⟩ : ∃ r, saveMemRegionToFile armMachine fiveBytes
      (fun a => UInt8.ofNat a) [] (shortCalls .declared) = some r ∧ r.ret = 0 := ⟨_, rfl, rfl⟩
  refine ⟨r, hsave, hret, ?_⟩
  refine ((success_transfers_iff ..).1 r hsave hret).mpr ⟨by decide, Or.inr (Or.inl ?_)⟩
  decide

/-- 5 bytes more than 4 GiB. -/
def hugeRegion : WorkingParams :=
  ⟨⟨0x1000, by decide⟩, ⟨0x100000005, by decide⟩, true, false, some "region"⟩

/-- The default build. Of the huge region five bytes are written, although the right offset
arrives. For the five bytes over the end of a page another offset arrives, and other pages are
written. Both calls return 0. -/
theorem success_transfers_huge :
    (checkParas hugeRegion = .ok () ∧
      ∃ r, saveMemRegionToFile armMachine hugeRegion (fun a => UInt8.ofNat a) []
          (shortCalls (.undeclared ⟨0x1000, by decide⟩)) = some r ∧
        r = ⟨0, some ⟨0x1000, 4096⟩, 0x1000, 0x1005, [0, 1, 2, 3, 4]⟩ ∧
        ¬ Transferred hugeRegion (fileForWrite fun a => UInt8.ofNat a) [] r) ∧
    (checkParas fiveBytes = .ok () ∧
      ∃ r, saveMemRegionToFile armMachine fiveBytes (fun a => UInt8.ofNat a) []
          (shortCalls (.undeclared ⟨0x5000, by decide⟩)) = some r ∧
        r = ⟨0, some ⟨0x5000, 0x2000⟩, 0x5ffe, 0x6003, [0xfe, 0xff, 0, 1, 2]⟩ ∧
        ¬ Transferred fiveBytes (fileForWrite fun a => UInt8.ofNat a) [] r) := by
  refine ⟨⟨rfl, _, rfl, by decide +kernel, fun h => absurd h.last (by decide +kernel)⟩,
    rfl, _, rfl, by decide +kernel, fun h => absurd h.first (by decide +kernel)⟩

/-! ## Saving and loading again -/

/-- The end of the region, rounded up to a page. -/
def regionEnd (m : Machine) (p : WorkingParams) : Nat := m.roundUp (p.startPhyAddr + p.length)

/-- A region that ends below the limits of both types. -/
structure Below (m : Machine) (p : WorkingParams) : Prop where
  size : regionEnd m p < 2 ^ m.size.bits
  off : regionEnd m p < 2 ^ (m.off.bits - 1)

/-- `mmap` shows the pages that it is asked for. A declared function does; one that is not has to
find the address where its argument should be. -/
def Exposes (m : Machine) (p : WorkingParams) : OffsetArg → Prop
  | .declared => True
  | .undeclared slot => slot = phyAddrForMap m p

theorem Below.fits (h : Below m p) {arg : OffsetArg} (hexposes : Exposes m p arg) :
    (p.length : Nat) < 2 ^ m.size.bits ∧ Arrives m p arg := by
  have hend := m.le_roundUp (p.startPhyAddr + p.length)
  have hsize := h.size
  have hoff := h.off
  have hbase := phyAddrForMap_add m p
  unfold regionEnd at hsize hoff
  refine ⟨by omega, ?_⟩
  cases arg with
  | undeclared slot => exact hexposes
  | declared =>
    show OffFits m p
    unfold OffFits
    cases hwidth : m.off with
    | w64 => exact Or.inl rfl
    | w32 =>
      rw [hwidth] at hoff
      simp only [Width.bits] at hoff
      exact Or.inr (Or.inl (by omega))

/-- A transfer that succeeds is one move of the region. -/
theorem Success.state_eq {arg : OffsetArg} {c : Channel σ} {s : σ} {r : Outcome σ}
    (h : Success m p arg c s r) (hbelow : Below m p) (hexposes : Exposes m p arg) :
    r.state = c.move s p.startPhyAddr p.length :=
  (h.transferred_iff.mpr (hbelow.fits hexposes)).moved

/-- **Round trip**: a save that returns 0 leaves exactly the region in the file; a load of the same
region from that file that returns 0, at any later memory, puts these bytes back and changes no
other. `mmap` is assumed to expose the requested pages. -/
theorem save_load_round_trip (hbelow : Below m p) {mem : Nat → Byte} {file : List Byte}
    {calls : Calls} (hexposes : Exposes m p calls.offset) {r : Outcome (List Byte)}
    (hsave : saveMemRegionToFile m p mem file calls = some r) (hret : r.ret = 0) :
    r.state = slice mem p.startPhyAddr p.length ∧
    ∀ (p' : WorkingParams) (mem' : Nat → Byte) (calls' : Calls)
      (r' : Outcome ((Nat → Byte) × Nat)), p'.startPhyAddr = p.startPhyAddr →
      p'.length = p.length → Exposes m p' calls'.offset →
      loadMemRegionFromFile m p' mem' r.state calls' = some r' → r'.ret = 0 → ∀ a, r'.state.1 a =
        if (p.startPhyAddr : Nat) ≤ a ∧ a < p.startPhyAddr + p.length then mem a else mem' a := by
  have hfile : r.state = slice mem p.startPhyAddr p.length :=
    (moveRegion_success hsave hret).state_eq hbelow hexposes
  refine ⟨hfile, ?_⟩
  intro p' mem' calls' r' hstart hlength hexposes' hload hret' a
  have hbelow' : Below m p' := by
    constructor <;> rw [regionEnd, hstart, hlength]
    · exact hbelow.size
    · exact hbelow.off
  have hmem : r'.state = (fileForRead r.state).move (mem', 0) p'.startPhyAddr p'.length :=
    (moveRegion_success hload hret').state_eq hbelow' hexposes'
  rw [hmem, hstart, hlength]
  show blit mem' (fun i => p.startPhyAddr + i) (fun i => r.state.getD (0 + i) 0) p.length a = _
  rw [blit_adjacent]
  split
  · next hin =>
    rw [hfile, slice_getD mem _ (by omega)]
    congr 1
    omega
  · rfl

/-- A 32-bit build with `mmap64` declared, a save with short writes and a load with short reads
into cleared memory. -/
theorem save_load_five :
    ∃ r r', saveMemRegionToFile armMachine fiveBytes (fun a => UInt8.ofNat a) []
        (shortCalls .declared) = some r ∧
      loadMemRegionFromFile armMachine fiveBytes (fun _ => 0) r.state (shortCalls .declared) =
        some r' ∧
      r'.ret = 0 ∧ r'.state.1 0x2000 = 0 ∧ r'.state.1 0x2001 = 1 ∧ r'.state.1 0x2003 = 0 := by
  obtain ⟨r, hsave, hret⟩ : ∃ r, saveMemRegionToFile armMachine fiveBytes
      (fun a => UInt8.ofNat a) [] (shortCalls .declared) = some r ∧ r.ret = 0 := ⟨_, rfl, rfl⟩
  have hbelow : Below armMachine fiveBytes := ⟨by decide, by decide⟩
  have hexposes : Exposes armMachine fiveBytes (shortCalls .declared).offset := trivial
  obtain ⟨hfile, hload⟩ := save_load_round_trip hbelow hexposes hsave hret
  obtain ⟨r', hrun, hret'⟩ : ∃ r', loadMemRegionFromFile armMachine fiveBytes (fun _ => 0)
      r.state (shortCalls .declared) = some r' ∧ r'.ret = 0 := by
    rw [hfile]
    exact ⟨_, rfl, rfl⟩
  have hbytes := hload fiveBytes (fun _ => 0) (shortCalls .declared) r' rfl rfl hexposes hrun hret'
  exact ⟨r, r', hsave, hrun, hret', hbytes _, hbytes _, hbytes _⟩

end LinuxDeviceDriver.Memutil
