import LinuxDeviceDriver.Gmem.Device
import LinuxDeviceDriver.Lib.Transition

/-!
# gmem as a set of files of a fixed size

`Files` is what the devices are for: each is an array of `GMEM_SIZE` bytes, and an open file is
a position in one of them. The types keep a position in `0..GMEM_SIZE` and an index in the array.

`Refines` relates the driver to it. `serve_refines` is the simulation step for the calls that
meet `Plain`: reads and writes that do not fault, `MEM_CLEAR`, and relative seeks.
`gmem_is_files` follows it along any sequence of such calls.
-/

namespace LinuxDeviceDriver.Gmem

open Lib

/-! ## Files of a fixed size -/

/-- The bytes of a device. -/
abbrev Content := Fin gmemSize → Byte

def Content.read (c : Content) (i : Nat) : Byte := if h : i < gmemSize then c ⟨i, h⟩ else 0

/-- `n` bytes of a buffer, from `pos` on. -/
def Content.write (c : Content) (pos n : Nat) (buf : Nat → Byte) : Content :=
  fun i => if pos ≤ i ∧ i < pos + n then buf (i - pos) else c i

/-- An open file. -/
structure Cursor (D : Type) where
  device : D
  pos : Fin (gmemSize + 1)

structure Files (D F : Type) where
  content : D → Content
  cursors : F → Option (Cursor D)

theorem pos_add_available (pos : Fin (gmemSize + 1)) (size : Nat) :
    pos + available size pos < gmemSize + 1 := by
  have := pos.isLt
  unfold available
  omega

section Calls

variable {D F : Type} [DecidableEq D] [DecidableEq F]

def Cursor.advance (c : Cursor D) (size : Nat) : Cursor D :=
  { c with pos := ⟨c.pos + available size c.pos, pos_add_available c.pos size⟩ }

/-- A relative seek stays in the file or does nothing. -/
def Cursor.seek (c : Cursor D) (offset : Int) : Int × Cursor D :=
  if h : 0 ≤ c.pos + offset ∧ c.pos + offset ≤ gmemSize then
    (c.pos + offset, { c with pos := ⟨((c.pos : Int) + offset).toNat, by omega⟩ })
  else (Errno.einval.neg, c)

def Files.setCursor (t : Files D F) (f : F) (c : Option (Cursor D)) : Files D F :=
  { t with cursors := Function.update t.cursors f c }

def Files.setContent (t : Files D F) (d : D) (c : Content) : Files D F :=
  { t with content := Function.update t.content d c }

def Files.withCursor (t : Files D F) (f : F) (call : Cursor D → Answer × Files D F) :
    Answer × Files D F :=
  match t.cursors f with
  | none => (.badFile, t)
  | some c => call c

/-- The calls as files of a fixed size answer them; an `ioctl` clears the file, and a seek is a
relative one. -/
def Files.serve (t : Files D F) : Call D F → Answer × Files D F
  | .openFile f d => (⟨0, []⟩, t.setCursor f (some ⟨d, 0⟩))
  | .release f => t.withCursor f fun _ => (⟨0, []⟩, t.setCursor f none)
  | .read f size _ =>
    t.withCursor f fun c =>
      (⟨available size c.pos, slice (t.content c.device).read c.pos (available size c.pos)⟩,
        t.setCursor f (some (c.advance size)))
  | .write f buf size _ =>
    t.withCursor f fun c =>
      (⟨available size c.pos, []⟩,
        (t.setContent c.device
          ((t.content c.device).write c.pos (available size c.pos) buf)).setCursor f
            (some (c.advance size)))
  | .ioctl f _ => t.withCursor f fun c => (⟨0, []⟩, t.setContent c.device fun _ => 0)
  | .llseek f offset _ =>
    t.withCursor f fun c => (⟨(c.seek offset).1, []⟩, t.setCursor f (some (c.seek offset).2))

end Calls

variable {D F : Type}

/-- A call without a fault, of a size below 2^31, the clearing `ioctl`, or a relative seek by a
64-bit offset. -/
def Call.Plain : Call D F → Prop
  | .openFile _ _ => True
  | .release _ => True
  | .read _ size userOk => size < 2 ^ 31 ∧ size ≤ userOk
  | .write _ _ size userOk => size < 2 ^ 31 ∧ size ≤ userOk
  | .ioctl _ cmd => cmd = memClearCmd
  | .llseek _ offset orig => orig = 1 ∧ -2 ^ 63 ≤ offset ∧ offset < 2 ^ 63

/-! ## Refinement -/

/-- The file of the driver. -/
def Cursor.file (c : Cursor D) : File D := ⟨c.device, c.pos⟩

/-- The driver holds the files; what lies behind the arrays is as it was in `s₀`. -/
structure Refines (s₀ s : System D F) (t : Files D F) : Prop where
  content : ∀ d (i : Fin gmemSize), s.mem d i = t.content d i
  outside : ∀ d i, gmemSize ≤ i → s.mem d i = s₀.mem d i
  files : ∀ f, s.files f = (t.cursors f).map Cursor.file

theorem refines_fresh : Refines (D := D) (F := F) .fresh .fresh ⟨fun _ _ => 0, fun _ => none⟩ :=
  ⟨fun _ _ => rfl, fun _ _ _ => rfl, fun _ => rfl⟩

section Steps

variable {s₀ s : System D F} {t : Files D F} {f : F}

theorem Refines.setFile [DecidableEq F] (h : Refines s₀ s t) (f : F) (c : Option (Cursor D)) :
    Refines s₀ (s.setFile f (c.map Cursor.file)) (t.setCursor f c) := by
  refine ⟨h.content, h.outside, ?_⟩
  intro f'
  show Function.update s.files f _ f' = (Function.update t.cursors f c f').map Cursor.file
  by_cases hf : f' = f
  · subst hf
    rw [Function.update_self, Function.update_self]
  · rw [Function.update_of_ne hf, Function.update_of_ne hf]
    exact h.files f'

theorem Refines.setMem [DecidableEq D] (h : Refines s₀ s t) {d : D} {mem : Memory} {c : Content}
    (hin : ∀ i : Fin gmemSize, mem i = c i) (hout : ∀ i, gmemSize ≤ i → mem i = s.mem d i) :
    Refines s₀ (s.setMem d mem) (t.setContent d c) := by
  refine ⟨?_, ?_, h.files⟩
  · intro d' i
    show Function.update s.mem d mem d' i = Function.update t.content d c d' i
    by_cases hd : d' = d
    · subst hd
      rw [Function.update_self, Function.update_self]
      exact hin i
    · rw [Function.update_of_ne hd, Function.update_of_ne hd]
      exact h.content d' i
  · intro d' i hi
    show Function.update s.mem d mem d' i = s₀.mem d' i
    by_cases hd : d' = d
    · subst hd
      rw [Function.update_self, hout i hi]
      exact h.outside d' i hi
    · rw [Function.update_of_ne hd]
      exact h.outside d' i hi

/-- What a call does through an open file is what matters. -/
theorem Refines.withFile (h : Refines s₀ s t) {call : File D → Answer × System D F}
    {call' : Cursor D → Answer × Files D F}
    (hcall : ∀ c, (call c.file).1 = (call' c).1 ∧ Refines s₀ (call c.file).2 (call' c).2) :
    (s.withFile f call).1 = (t.withCursor f call').1 ∧
      Refines s₀ (s.withFile f call).2 (t.withCursor f call').2 := by
  unfold System.withFile Files.withCursor
  rw [h.files f]
  cases t.cursors f with
  | none => exact ⟨rfl, h⟩
  | some c => exact hcall c

theorem Cursor.pos_le (c : Cursor D) : (c.pos : Nat) ≤ gmemSize := Nat.le_of_lt_succ c.pos.isLt

/-- The bytes that are read. -/
theorem Refines.slice_eq (h : Refines s₀ s t) (c : Cursor D) (size : Nat) :
    slice (s.mem c.device) c.pos (available size c.pos) =
      slice (t.content c.device).read c.pos (available size c.pos) := by
  refine slice_congr fun i hi => ?_
  have hlt : (c.pos : Nat) + i < gmemSize := by
    unfold available at hi
    omega
  unfold Content.read
  rw [dif_pos hlt]
  exact h.content c.device ⟨_, hlt⟩

/-- The bytes that are written. -/
theorem Refines.blit_eq (h : Refines s₀ s t) (c : Cursor D) (buf : Nat → Byte) (n : Nat)
    (i : Fin gmemSize) :
    blit (s.mem c.device) (fun i => (c.pos : Nat) + i) buf n i =
      (t.content c.device).write c.pos n buf i := by
  rw [blit_adjacent, h.content c.device i]
  rfl

/-- `MEM_CLEAR` clears the array. -/
theorem gmemClear_inside (mem : Memory) (i : Fin gmemSize) : gmemClear mem i = 0 :=
  blit_lane mem id (fun _ => 0) (fun _ _ hij => hij) i.isLt

theorem gmemClear_outside (mem : Memory) {i : Nat} (h : gmemSize ≤ i) : gmemClear mem i = mem i :=
  blit_frame mem _ _ fun _ hj hji => absurd (hji ▸ hj : i < gmemSize) (Nat.not_lt.mpr h)

/-- The driver's seek is that of the file. -/
theorem gmemLlseek_cursor (c : Cursor D) {offset : Int} (hlo : -2 ^ 63 ≤ offset)
    (hhi : offset < 2 ^ 63) :
    gmemLlseek c.pos offset 1 = ((c.seek offset).1, ((c.seek offset).2.pos : Int)) := by
  rw [gmemLlseek_relative hlo hhi c.pos_le]
  unfold Cursor.seek
  split
  · next hin =>
    show _ = ((c.pos : Int) + offset, ((((c.pos : Int) + offset).toNat : Nat) : Int))
    rw [Int.toNat_of_nonneg hin.1]
  · rfl

theorem Cursor.seek_device (c : Cursor D) (offset : Int) :
    (c.seek offset).2.device = c.device := by
  unfold Cursor.seek
  split <;> rfl

/-- **Simulation step**: a plain call has the answer of the files, and the driver goes on to
hold them. -/
theorem serve_refines [DecidableEq D] [DecidableEq F] {arch : Arch} (h : Refines s₀ s t)
    {call : Call D F} (hplain : call.Plain) :
    (s.serve arch call).1 = (t.serve call).1 ∧
      Refines s₀ (s.serve arch call).2 (t.serve call).2 := by
  cases call with
  | openFile f d => exact ⟨rfl, h.setFile f (some ⟨d, 0⟩)⟩
  | release f => exact h.withFile fun _ => ⟨rfl, h.setFile f none⟩
  | read f size userOk =>
    refine h.withFile fun c => ?_
    have hread := gmemRead_eq arch (s.mem c.device) hplain.1 hplain.2 c.pos_le
    rw [h.slice_eq] at hread
    simp only [Cursor.file, hread]
    exact ⟨trivial, h.setFile f (some (c.advance size))⟩
  | write f buf size userOk =>
    refine h.withFile fun c => ?_
    have hwrite := gmemWrite_eq arch (s.mem c.device) buf hplain.1 hplain.2 c.pos_le
    simp only [Cursor.file, hwrite]
    refine ⟨trivial, Refines.setFile (h.setMem (h.blit_eq c buf _) ?_) f (some (c.advance size))⟩
    intro i hi
    refine blit_frame _ _ _ fun j hj => ?_
    have := c.pos_le
    unfold available at hj
    omega
  | ioctl f cmd =>
    refine h.withFile fun c => ?_
    cases hplain
    exact ⟨rfl, h.setMem (gmemClear_inside _) fun _ => gmemClear_outside _⟩
  | llseek f offset orig =>
    obtain ⟨rfl, hlo, hhi⟩ := hplain
    refine h.withFile fun c => ?_
    have hfile := h.setFile f (some (c.seek offset).2)
    rw [Option.map_some, Cursor.file, c.seek_device] at hfile
    simp only [Cursor.file, gmemLlseek_cursor c hlo hhi]
    exact ⟨trivial, hfile⟩

end Steps

/-! ## Sequences of calls -/

/-- The position of an open file is in the file. -/
theorem Refines.position {s₀ s : System D F} {t : Files D F} (h : Refines s₀ s t) {f : F}
    {file : File D} (hfile : s.files f = some file) : 0 ≤ file.fPos ∧ file.fPos ≤ gmemSize := by
  rw [h.files f] at hfile
  obtain ⟨c, _, rfl⟩ := Option.map_eq_some_iff.mp hfile
  exact ⟨Int.natCast_nonneg _, Int.ofNat_le.mpr c.pos_le⟩

/-- **gmem is a set of files of a fixed size**: over any sequence of plain calls, through any
files on any devices, the driver gives the answers of the files and goes on to hold them, no byte
outside the arrays changes, and every position stays in `0..GMEM_SIZE`. -/
theorem gmem_is_files [DecidableEq D] [DecidableEq F] (arch : Arch) {s₀ : System D F}
    {t₀ : Files D F} (h₀ : Refines s₀ s₀ t₀) {calls : List (Call D F)}
    (hplain : ∀ call ∈ calls, call.Plain) :
    (answers (System.serve arch) s₀ calls).1 = (answers Files.serve t₀ calls).1 ∧
    Refines s₀ (answers (System.serve arch) s₀ calls).2 (answers Files.serve t₀ calls).2 ∧
    ∀ f file, (answers (System.serve arch) s₀ calls).2.files f = some file →
      0 ≤ file.fPos ∧ file.fPos ≤ gmemSize := by
  obtain ⟨hanswers, hrefines⟩ :
      (answers (System.serve arch) s₀ calls).1 = (answers Files.serve t₀ calls).1 ∧
        Refines s₀ (answers (System.serve arch) s₀ calls).2 (answers Files.serve t₀ calls).2 :=
    answers_refine (fun h hcall => serve_refines h hcall) hplain h₀
  exact ⟨hanswers, hrefines, fun f file => hrefines.position⟩

/-- Two devices. Three bytes reach the end of the first; behind the end nothing is written; a
seek past it fails, and one by two bytes back finds the last two. -/
def twoFiles : List (Call Bool Bool) :=
  [.openFile false false, .openFile true true, .llseek false 4093 1,
    .write false (fun i => UInt8.ofNat (i + 7)) 5 5, .write false (fun _ => 1) 1 1,
    .llseek false 1 1, .llseek false (-2) 1, .read false 9 9, .read true 2 2]

theorem gmem_is_files_two :
    (answers (System.serve ⟨32, Nat.le_refl 32⟩) .fresh twoFiles).1 =
      [⟨0, []⟩, ⟨0, []⟩, ⟨4093, []⟩, ⟨3, []⟩, ⟨0, []⟩, ⟨-22, []⟩, ⟨4094, []⟩, ⟨2, [8, 9]⟩,
        ⟨2, [0, 0]⟩] := by
  have hplain : ∀ call ∈ twoFiles, call.Plain := by
    simp [twoFiles, Call.Plain]
  rw [(gmem_is_files ⟨32, Nat.le_refl 32⟩ refines_fresh hplain).1]
  decide +kernel

end LinuxDeviceDriver.Gmem
