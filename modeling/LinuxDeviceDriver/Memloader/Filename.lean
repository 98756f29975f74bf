import LinuxDeviceDriver.Memloader.Show

/-!
# The name of the firmware file

`fw_set_filename` has two callers. A write to the attribute `filename` hands it the bytes as they
are; for them it strips trailing blanks and takes what is left, if it has a length from 1 to 31
(`fw_set_filename_spec`). The device tree hands it the property with its terminating NUL, which
counts as a character and is not a blank: nothing is stripped, the empty name is taken, and one
character less fits. `fw_names_agree_iff` says for which names the two do the same.

The loop that strips runs over an `int`, which has the last index of a buffer of up to 2^31 bytes.
That no caller hands over a longer one is the assumption `SysfsDelivers`: sysfs passes on at most a
page.
-/

namespace LinuxDeviceDriver.Memloader

/-- The bytes of a C string. -/
def NulFree (buf : List Byte) : Prop := ∀ b ∈ buf, b ≠ 0

/-- Without the longest trailing run of CR, LF, TAB and space. -/
def stripTrailing (buf : List Byte) : List Byte := buf.rdropWhile isTrailing

/-- The lengths of names that fit `ctx->filename` with their terminator. -/
def FitsName (name : List Byte) : Prop := 1 ≤ name.length ∧ name.length ≤ 31

instance (name : List Byte) : Decidable (FitsName name) :=
  inferInstanceAs (Decidable (_ ∧ _))

/-- What a store can be handed: sysfs delivers at most a page, far below the 2^31 bytes that the
`int` of the loop allows. -/
def SysfsDelivers (buf : List Byte) : Prop := buf.length ≤ 2 ^ 31

instance (buf : List Byte) : Decidable (SysfsDelivers buf) :=
  inferInstanceAs (Decidable (_ ≤ _))

/-! ## `fw_set_filename` -/

section SetFilename

variable {buf : List Byte}

theorem scannedBytes_of_le {count : Nat} (h : count ≤ 2 ^ 31) : scannedBytes count = count := by
  unfold scannedBytes
  rw [toUInt32_of_lt (by omega), if_pos h]

theorem keptName_of_le (h : buf.length ≤ 2 ^ 31) : keptName buf = stripTrailing buf := by
  unfold keptName
  rw [scannedBytes_of_le h, List.take_length]
  rfl

theorem fwSetFilename_eq (ctx : FwContext) (buf : List Byte) :
    fwSetFilename ctx buf =
      if FitsName (keptName buf) then (0, { ctx with filename := keptName buf })
      else (Errno.einval.neg, ctx) := by
  have hsize : filenameSize = 32 := rfl
  unfold fwSetFilename
  generalize keptName buf = kept
  dsimp only
  by_cases hempty : kept.length = 0
  · rw [if_pos hempty, if_neg fun hfits => absurd hfits.1 (by omega)]
  by_cases hlong : kept.length ≥ filenameSize
  · rw [if_neg hempty, if_pos hlong, if_neg fun hfits => absurd hfits.2 (by omega)]
  · rw [if_neg hempty, if_neg hlong, if_pos ⟨by omega, by omega⟩]

theorem name_of_nulFree {ctx : FwContext} (h : NulFree ctx.filename) : ctx.name = ctx.filename := by
  unfold FwContext.name
  exact List.takeWhile_eq_self_iff.mpr fun b hb => decide_eq_true (h b hb)

/-- What is kept comes from the buffer… -/
theorem mem_of_mem_keptName {b : Byte} (h : b ∈ keptName buf) : b ∈ buf := by
  have hpart := List.rdropWhile_prefix isTrailing (buf.take (scannedBytes buf.length))
  exact List.mem_of_mem_take (hpart.subset h)

theorem NulFree.keptName (h : NulFree buf) : NulFree (keptName buf) :=
  fun b hb => h b (mem_of_mem_keptName hb)

/-- …and does not end with a blank. -/
theorem stripTrailing_keptName (buf : List Byte) : stripTrailing (keptName buf) = keptName buf :=
  List.rdropWhile_idempotent _ _

end SetFilename

/-! ## Names stored through sysfs -/

/-- What a store of `buf` should do with the name. -/
structure NameStored (ctx : FwContext) (buf : List Byte) (r : Int × FwContext) : Prop where
  accepted : 0 ≤ r.1 ↔ FitsName (stripTrailing buf)
  name : 0 ≤ r.1 → r.2.name = stripTrailing buf
  refused : r.1 < 0 → r.2 = ctx

theorem fwSetFilename_nameStored (ctx : FwContext) {buf : List Byte} (hnul : NulFree buf)
    (hlen : buf.length ≤ 2 ^ 31) : NameStored ctx buf (fwSetFilename ctx buf) := by
  have hname := hnul.keptName
  rw [fwSetFilename_eq, keptName_of_le hlen] at *
  by_cases hfits : FitsName (stripTrailing buf)
  · rw [if_pos hfits]
    exact ⟨iff_of_true (Int.le_refl 0) hfits, fun _ => name_of_nulFree hname,
      fun hneg => absurd hneg (Int.lt_irrefl 0)⟩
  · rw [if_neg hfits]
    have hneg := Errno.neg_lt_zero .einval
    exact ⟨iff_of_false (Int.not_le.mpr hneg) hfits,
      fun hnonneg => absurd hneg (Int.not_lt.mpr hnonneg), fun _ => rfl⟩

/-- The contexts reached through stores: the name is the default of `fw_initialize`, or a store
has been accepted; a store that is refused and changes to other fields may follow. -/
inductive NamedByStores : FwContext → Prop
  | initial {ctx : FwContext} : ctx.filename = defFirmwareName → NamedByStores ctx
  | accepted {ctx : FwContext} {buf : List Byte} : NulFree buf → 0 ≤ (fwSetFilename ctx buf).1 →
      NamedByStores (fwSetFilename ctx buf).2
  | refused {ctx : FwContext} {buf : List Byte} : NamedByStores ctx →
      (fwSetFilename ctx buf).1 < 0 → NamedByStores (fwSetFilename ctx buf).2
  | other {ctx ctx' : FwContext} : NamedByStores ctx → ctx'.filename = ctx.filename →
      NamedByStores ctx'

/-- A name that can be shown and stored back. -/
structure WellNamed (name : List Byte) : Prop where
  fits : FitsName name
  nulFree : NulFree name
  stripped : stripTrailing name = name

theorem wellNamed_default : WellNamed defFirmwareName where
  fits := by decide
  nulFree := List.forall_mem_ne'.mpr (by decide)
  stripped := by decide

theorem NamedByStores.wellNamed {ctx : FwContext} (h : NamedByStores ctx) :
    WellNamed ctx.filename := by
  induction h with
  | initial hname =>
    rw [hname]
    exact wellNamed_default
  | @accepted ctx buf hnul hok =>
    rw [fwSetFilename_eq] at hok ⊢
    by_cases hfits : FitsName (keptName buf)
    · rw [if_pos hfits]
      exact ⟨hfits, hnul.keptName, stripTrailing_keptName buf⟩
    · rw [if_neg hfits] at hok
      exact absurd (Errno.neg_lt_zero .einval) (Int.not_lt.mpr hok)
  | @refused ctx buf _ hneg ih =>
    rw [fwSetFilename_eq] at hneg ⊢
    by_cases hfits : FitsName (keptName buf)
    · rw [if_pos hfits] at hneg
      exact absurd hneg (Int.lt_irrefl 0)
    · rw [if_neg hfits]
      exact ih
  | other _ hsame ih =>
    rw [hsame]
    exact ih

/-- The newline behind the name is stripped again. -/
theorem WellNamed.store_shown {ctx : FwContext} (h : WellNamed ctx.filename) :
    fwSetFilename ctx (fwShow ctx .filename) = (0, ctx) := by
  have hshow : fwShow ctx .filename = ctx.filename ++ [10] := by
    rw [fwShow, name_of_nulFree h.nulFree]
  have hlen : (ctx.filename ++ [10]).length ≤ 2 ^ 31 := by
    have := h.fits.2
    rw [List.length_append, List.length_singleton]
    omega
  have hkept : keptName (ctx.filename ++ [10]) = ctx.filename := by
    rw [keptName_of_le hlen, stripTrailing, List.rdropWhile_concat_pos _ _ _ (by decide)]
    exact h.stripped
  rw [hshow, fwSetFilename_eq, hkept, if_pos h.fits]

/-- A write to the attribute `filename`. -/
theorem fwStore_filename (longBits : Nat)
    (load : FwContext → World → Int → Option (Int × FwContext × World)) (buf : List Byte)
    (ctx : FwContext) (w : World) :
    fwStore longBits load .filename buf ctx w =
      some (if (fwSetFilename ctx buf).1 < 0 then (fwSetFilename ctx buf).1 else buf.length,
        (fwSetFilename ctx buf).2, w) := rfl

/-- **Names through sysfs**: a store is accepted exactly when 1 to 31 bytes are left without the
trailing blanks, which are then the name; a refused one changes nothing. What is shown can be
stored back in every context reached through stores. -/
theorem fw_set_filename_spec :
    (∀ (ctx : FwContext) (buf : List Byte), NulFree buf → SysfsDelivers buf →
      NameStored ctx buf (fwSetFilename ctx buf)) ∧
    (∀ ctx : FwContext, NamedByStores ctx → ∀ longBits load (w : World),
      fwStore longBits load .filename (fwShow ctx .filename) ctx w =
        some (((fwShow ctx .filename).length : Int), ctx, w)) := by
  refine ⟨fun ctx _ hnul hlen => fwSetFilename_nameStored ctx hnul hlen, ?_⟩
  intro ctx hnamed longBits load w
  rw [fwStore_filename, hnamed.wellNamed.store_shown]
  rfl

/-- A context with the name that `fw_initialize` gives it. -/
def defaultNamed : FwContext := { FwContext.zero with filename := defFirmwareName }

/-- The name "a" with a blank behind it, and the nine bytes of the default name stored back. -/
theorem fw_set_filename_spec_letter :
    (fwSetFilename defaultNamed [97, 32]).2.name = [97] ∧
      fwStore 64 loadMeanwhile .filename (fwShow defaultNamed .filename) defaultNamed
        (freshWorld fun _ => true) = some (9, defaultNamed, freshWorld fun _ => true) := by
  constructor
  · have hstored := fw_set_filename_spec.1 defaultNamed [97, 32]
      (List.forall_mem_ne'.mpr (by decide)) (by decide)
    exact hstored.name (hstored.accepted.mpr (by decide))
  · exact fw_set_filename_spec.2 defaultNamed (.initial rfl) 64 loadMeanwhile _

/-! ## Names from the device tree -/

/-- A node that asks for a load, on a target that exists if it names one, of the file `name`. -/
structure GivesName (node : DtNode) (name : List Byte) : Prop where
  load : node.firmwareLoad = true
  target : node.firmwareTarget = none ∨ ∃ d, node.firmwareTarget = some (.device d)
  filename : node.firmwareFilename = some (name ++ [0])

/-- `fw_get_parameters` sets the name behind everything else. -/
theorem fwGetParameters_filename {node : DtNode} {name : List Byte} (h : GivesName node name)
    (ctx : FwContext) :
    ∃ ctx₁ : FwContext, ctx₁.filename = ctx.filename ∧
      fwGetParameters node ctx =
        if (fwSetFilename ctx₁ (name ++ [0])).1 < 0 then fwSetFilename ctx₁ (name ++ [0])
        else (1, (fwSetFilename ctx₁ (name ++ [0])).2) := by
  rcases h.target with htarget | ⟨d, htarget⟩
  · refine ⟨fwGetBlockParameters node ctx, rfl, ?_⟩
    simp only [fwGetParameters, h.load, htarget, h.filename]
    rfl
  · refine ⟨fwGetBlockParameters node { ctx with dev := some d }, rfl, ?_⟩
    simp only [fwGetParameters, h.load, htarget, h.filename]
    rfl

/-- The property is accepted when it has at most 30 characters, blanks and all. -/
theorem fwGetParameters_outcome {node : DtNode} {name : List Byte} (h : GivesName node name)
    (hnul : NulFree name) (hlen : name.length + 1 < 2 ^ 31) (ctx : FwContext) :
    (name.length ≤ 30 ∧ (fwGetParameters node ctx).1 = 1 ∧
      (fwGetParameters node ctx).2.name = name) ∨
    (30 < name.length ∧ (fwGetParameters node ctx).1 < 0 ∧
      (fwGetParameters node ctx).2.name = ctx.name) := by
  obtain ⟨ctx₁, hsame, hget⟩ := fwGetParameters_filename h ctx
  have hlength : (name ++ [0]).length = name.length + 1 := by
    rw [List.length_append, List.length_singleton]
  have hkept : keptName (name ++ [0]) = name ++ [0] := by
    rw [keptName_of_le (by omega), stripTrailing, List.rdropWhile_concat_neg _ _ _ (by decide)]
  have hstring : (name ++ [0]).takeWhile (· ≠ 0) = name :=
    takeWhile_append_stop (fun hmem => hnul 0 hmem rfl) []
  rw [hget, fwSetFilename_eq, hkept]
  by_cases hshort : name.length ≤ 30
  · have hfits : FitsName (name ++ [0]) := ⟨by omega, by omega⟩
    rw [if_pos hfits]
    exact Or.inl ⟨hshort, rfl, hstring⟩
  · have hfits : ¬ FitsName (name ++ [0]) := fun hfits => by
      have := hfits.2
      omega
    rw [if_neg hfits, if_pos (Errno.neg_lt_zero _)]
    exact Or.inr ⟨Nat.not_le.mp hshort, Errno.neg_lt_zero _, congrArg (List.takeWhile _) hsame⟩

/-- The property `name` is accepted exactly when a write of `name` to the attribute is, and both
leave the same C string. -/
def NamesAgree (longBits : Nat)
    (load : FwContext → World → Int → Option (Int × FwContext × World)) (node : DtNode)
    (name : List Byte) (ctx : FwContext) (w : World) : Prop :=
  ∃ ret ctx', fwStore longBits load .filename name ctx w = some (ret, ctx', w) ∧
    (0 < (fwGetParameters node ctx).1 ↔ 0 ≤ ret) ∧ (fwGetParameters node ctx).2.name = ctx'.name

/-- `fw_store` only adds the number of bytes to what `fw_set_filename` does. -/
theorem namesAgree_iff {longBits : Nat}
    {load : FwContext → World → Int → Option (Int × FwContext × World)} {node : DtNode}
    {name : List Byte} {ctx : FwContext} {w : World} :
    NamesAgree longBits load node name ctx w ↔
      (0 < (fwGetParameters node ctx).1 ↔ 0 ≤ (fwSetFilename ctx name).1) ∧
        (fwGetParameters node ctx).2.name = (fwSetFilename ctx name).2.name := by
  unfold NamesAgree
  rw [fwStore_filename longBits load name ctx w]
  constructor
  · rintro ⟨ret, ctx', heq, haccepted, hname⟩
    cases heq
    refine ⟨haccepted.trans ?_, hname⟩
    split <;> omega
  · rintro ⟨haccepted, hname⟩
    refine ⟨_, _, rfl, haccepted.trans ?_, hname⟩
    split <;> omega

/-- A name of 1 to 30 characters without a blank at its end, or a longer one that is too long for
the attribute too, or nothing but blanks. -/
def AgreedName (name : List Byte) : Prop :=
  (1 ≤ name.length ∧ name.length ≤ 30 ∧ stripTrailing name = name) ∨
    (31 ≤ name.length ∧ ((stripTrailing name).length = 0 ∨ 32 ≤ (stripTrailing name).length))

/-- **The device tree and sysfs agree on a name** exactly when it is an `AgreedName`, for every
string whose length with the NUL is an `int`. -/
theorem fw_names_agree_iff {node : DtNode} {name : List Byte} (h : GivesName node name)
    (hnul : NulFree name) (hlen : name.length + 1 < 2 ^ 31) (longBits : Nat)
    (load : FwContext → World → Int → Option (Int × FwContext × World)) (ctx : FwContext)
    (w : World) : NamesAgree longBits load node name ctx w ↔ AgreedName name := by
  have hstored := fwSetFilename_nameStored ctx hnul (by omega)
  have hdt := fwGetParameters_outcome h hnul hlen ctx
  rw [namesAgree_iff]
  -- the attribute looks at the stripped name, the device tree at the length of the whole one
  by_cases hfits : FitsName (stripTrailing name)
  · have hok := hstored.accepted.mpr hfits
    rw [hstored.name hok]
    rcases hdt with ⟨hshort, hret, hname⟩ | ⟨hlong, hret, hname⟩
    · rw [hret, hname]
      constructor
      · rintro ⟨-, hsame⟩
        refine Or.inl ⟨?_, hshort, hsame.symm⟩
        rw [hsame]
        exact hfits.1
      · rintro (⟨-, -, hsame⟩ | ⟨hlong, -⟩)
        · exact ⟨iff_of_true (by decide) hok, hsame.symm⟩
        · omega
    · refine iff_of_false (fun hboth => ?_) ?_
      · have := hboth.1.mpr hok
        omega
      · rintro (⟨-, hshort, -⟩ | ⟨-, hempty | hbig⟩)
        · omega
        · have := hfits.1
          omega
        · have := hfits.2
          omega
  · have hneg : (fwSetFilename ctx name).1 < 0 :=
      Int.not_le.mp fun hok => hfits (hstored.accepted.mp hok)
    rw [hstored.refused hneg]
    rcases hdt with ⟨hshort, hret, hname⟩ | ⟨hlong, hret, hname⟩
    · refine iff_of_false (fun hboth => ?_) ?_
      · have := hboth.1.mp (by omega)
        omega
      · rintro (⟨hone, -, hsame⟩ | ⟨hlong, -⟩)
        · refine hfits ?_
          rw [hsame]
          exact ⟨hone, by omega⟩
        · omega
    · refine iff_of_true ⟨iff_of_false (by omega) (by omega), hname⟩ (Or.inr ⟨hlong, ?_⟩)
      by_contra hbetween
      exact hfits ⟨by omega, by omega⟩

/-- A node for the file `name`. -/
def nodeFor (name : List Byte) : DtNode := ⟨true, none, none, none, none, some (name ++ [0])⟩

theorem nodeFor_gives (name : List Byte) : GivesName (nodeFor name) name :=
  ⟨rfl, Or.inl rfl, rfl⟩

theorem fw_names_agree_default :
    NamesAgree 64 loadMeanwhile (nodeFor defFirmwareName) defFirmwareName FwContext.zero
      (freshWorld fun _ => true) := by
  refine (fw_names_agree_iff (nodeFor_gives _) wellNamed_default.nulFree (by decide) 64
    loadMeanwhile _ _).mpr (Or.inl ⟨by decide, by decide, ?_⟩)
  exact wellNamed_default.stripped

/-- A name of 31 letters: refused from the device tree, taken from sysfs. A name with a blank at
its end: kept with the blank, and without. -/
theorem fw_names_differ :
    ((fwGetParameters (nodeFor (List.replicate 31 97)) FwContext.zero).1 = -22 ∧
      (fwSetFilename FwContext.zero (List.replicate 31 97)).1 = 0) ∧
    ((fwGetParameters (nodeFor [97, 32]) FwContext.zero).2.name = [97, 32] ∧
      (fwSetFilename FwContext.zero [97, 32]).2.name = [97]) := by
  decide

end LinuxDeviceDriver.Memloader
