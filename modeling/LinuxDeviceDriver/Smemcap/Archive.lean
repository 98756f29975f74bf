import LinuxDeviceDriver.Smemcap.Header

/-!
# The archive of smemcap

`smemcap` copies the memory statistics of every process from `/proc` to its standard output, as a
tar archive. The files there have no size: `archivefile` reads one block by block into a list,
counts what it has read, and only then writes the header and the blocks.

What a reader of tar archives (`Lib.Tar.members`) gets from the output are the files, each with
what `read` delivered up to the first call that did not fill a block. A file that cannot be opened
is one that delivers nothing; its header has whatever the record of `fstat` holds.
-/

namespace LinuxDeviceDriver.Smemcap

open Lib

/-! ## Files and the output -/

/-- What one `read` of a block delivers; nothing at the end of the file or after an error. -/
structure Read where
  data : List Byte
  fits : data.length ≤ 512

structure Stat where
  mode : Nat
  uid : Nat
  gid : Nat
  mtime : Int

/-- What `fstat` and the calls of `read` give for a file; after the last one of the list, `read`
delivers nothing. -/
structure File where
  stat : Stat
  reads : List Read

/-- The standard output: the calls of `write` so far and the bytes they took. -/
structure Output where
  calls : Nat
  bytes : List Byte

/-- Call `write`; the environment decides how many bytes the call takes, or that it fails. -/
def Output.write (accept : Nat → Option Nat) (out : Output) (data : List Byte) : Output × Bool :=
  match accept out.calls with
  | some n => (⟨out.calls + 1, out.bytes ++ data.take n⟩, true)
  | none => (⟨out.calls + 1, out.bytes⟩, false)

/-- The first loop of `archivefile`: the blocks of the list and the `size`. Each block is allocated
before the call of `read` that may leave it empty. -/
def buffer : List Read → Int → List (List Byte) × Int
  | [], size => ([padded 512 []], size)
  | r :: reads, size =>
    let size := toInt32 (size + r.data.length)
    if r.data.length = 512 then
      let (blocks, total) := buffer reads size
      (padded 512 r.data :: blocks, total)
    else ([padded 512 r.data], size)

/-- The second loop; `none` when it reads behind the end of the list. -/
def dump (accept : Nat → Option Nat) : List (List Byte) → Int → Output → Option Output
  | [], size, out => if size > 0 then none else some out
  | block :: blocks, size, out =>
    if size > 0 then
      let (out, written) := out.write accept block
      if written then dump accept blocks (size - 512) out else some out
    else some out

section Program

variable (signedChar : Bool) (accept : Nat → Option Nat)

def archivefile (path : List Byte) (file : File) (out : Output) : Option Output :=
  let (blocks, size) := buffer file.reads 0
  let header := writeheader signedChar path (toInt32 file.stat.mode) (toInt32 file.stat.uid)
    (toInt32 file.stat.gid) size (toInt32 file.stat.mtime) 0
  dump accept blocks size (out.write accept header).1

/-- The bytes of a text. -/
def chars (cs : List Char) : List Byte := cs.map fun c => UInt8.ofNat c.toNat

/-- The files of a process that are archived. -/
inductive Sub
  | smaps | cmdline | stat

def Sub.name : Sub → List Byte
  | .smaps => chars ['s', 'm', 'a', 'p', 's']
  | .cmdline => chars ['c', 'm', 'd', 'l', 'i', 'n', 'e']
  | .stat => chars ['s', 't', 'a', 't']

/-- An entry of `/proc`. -/
structure Dirent where
  name : List Byte
  stat : Stat
  file : Sub → File

/-- `"%s/%s"`. -/
def joined (sub name : List Byte) : List Byte := sub ++ 47 :: name

def archivejoin (de : Dirent) (sub : Sub) (out : Output) : Option Output :=
  archivefile signedChar accept (joined de.name sub.name) (de.file sub) out

/-- The name begins with a digit. -/
def Dirent.isProcess (de : Dirent) : Bool :=
  match de.name with
  | c :: _ => 48 ≤ c ∧ c ≤ 57
  | [] => false

/-- What the loop of `main` does for one process. -/
def archiveProcess (de : Dirent) (out : Output) : Option Output := do
  let header := writeheader signedChar de.name 0o555 (toInt32 de.stat.uid) (toInt32 de.stat.gid) 0
    (toInt32 de.stat.mtime) 5
  let out ← archivejoin signedChar accept de .smaps (out.write accept header).1
  let out ← archivejoin signedChar accept de .cmdline out
  archivejoin signedChar accept de .stat out

def readdirLoop : List Dirent → Output → Option Output
  | [], out => some out
  | de :: entries, out =>
    if de.isProcess then (archiveProcess signedChar accept de out).bind (readdirLoop entries)
    else readdirLoop entries out

/-- `/proc` as the program finds it. -/
structure Proc where
  meminfo : File
  version : File
  entries : List Dirent

/-- `main` behind a successful `chdir`. -/
def main (proc : Proc) : Option Output := do
  let out ← archivefile signedChar accept (chars ['m', 'e', 'm', 'i', 'n', 'f', 'o']) proc.meminfo
    ⟨0, []⟩
  let out ← archivefile signedChar accept (chars ['v', 'e', 'r', 's', 'i', 'o', 'n']) proc.version
    out
  readdirLoop signedChar accept proc.entries out

end Program

/-! ## The blocks of a file -/

/-- What the calls of `read` deliver up to the first one that does not fill a block. -/
def content : List Read → List Byte
  | [] => []
  | r :: reads => if r.data.length = 512 then r.data ++ content reads else r.data

/-- The buffered blocks are full ones that hold the content, and there is one more than it fills. -/
theorem buffer_blocks (reads : List Read) (size : Int) :
    (∀ block ∈ (buffer reads size).1, block.length = 512) ∧
      (content reads).length ≤ 512 * (buffer reads size).1.length ∧
      (content reads) <+: (buffer reads size).1.flatten := by
  induction reads generalizing size with
  | nil =>
    refine ⟨fun block hblock => ?_, Nat.zero_le _, List.nil_prefix⟩
    rw [List.mem_singleton.mp hblock]
    exact length_padded (Nat.zero_le 512)
  | cons r reads ih =>
    obtain ⟨hlen, hroom, hcontent⟩ := ih (toInt32 (size + r.data.length))
    have hblock : (padded 512 r.data).length = 512 := length_padded r.fits
    simp only [buffer, content]
    split
    · next hfull =>
      have hsame : padded 512 r.data = r.data := by
        rw [padded, hfull, Nat.sub_self, List.replicate_zero, List.append_nil]
      refine ⟨?_, ?_, ?_⟩
      · rintro block (_ | ⟨_, hmem⟩)
        · exact hblock
        · exact hlen block hmem
      · rw [List.length_append, List.length_cons]
        omega
      · rw [List.flatten_cons, hsame]
        exact List.prefix_append_right_inj _ |>.mpr hcontent
    · refine ⟨fun block hmem => ?_, ?_, ?_⟩
      · rw [List.mem_singleton.mp hmem]
        exact hblock
      · exact r.fits
      · exact ⟨List.replicate (512 - r.data.length) 0, by rw [List.flatten_singleton]; rfl⟩

/-- The `size` is the length of the content while it fits an `int`. -/
theorem buffer_size {reads : List Read} {size : Int} (hsize : 0 ≤ size)
    (h : size + (content reads).length < 2 ^ 31) :
    (buffer reads size).2 = size + (content reads).length := by
  induction reads generalizing size with
  | nil => exact (Int.add_zero size).symm
  | cons r reads ih =>
    simp only [buffer, content] at h ⊢
    split at h
    · next hfull =>
      rw [if_pos hfull, if_pos hfull]
      rw [List.length_append] at h ⊢
      have hsum : toInt32 (size + r.data.length) = size + r.data.length :=
        toInt32_of_range (by omega) (by omega)
      simp only [hsum]
      rw [ih (by omega) (by push_cast at h ⊢; omega)]
      push_cast
      omega
    · next hshort =>
      rw [if_neg hshort, if_neg hshort]
      exact toInt32_of_range (by omega) (by omega)

/-- Writes that take whole blocks. -/
def Whole (accept : Nat → Option Nat) : Prop := ∀ k, accept k = some 512

theorem Output.write_whole {accept : Nat → Option Nat} (h : Whole accept) (out : Output)
    {data : List Byte} (hdata : data.length = 512) :
    out.write accept data = (⟨out.calls + 1, out.bytes ++ data⟩, true) := by
  simp only [Output.write, h out.calls]
  rw [List.take_of_length_le (by omega)]

/-- Whatever the writes do, the loop stays in the list. -/
theorem dump_isSome (accept : Nat → Option Nat) {blocks : List (List Byte)} {size : Int}
    (h : size ≤ 512 * blocks.length) (out : Output) :
    ∃ out', dump accept blocks size out = some out' := by
  induction blocks generalizing size out with
  | nil => exact ⟨out, if_neg (by rw [List.length_nil] at h; omega)⟩
  | cons block blocks ih =>
    rw [List.length_cons] at h
    simp only [dump]
    split
    · split
      · exact ih (by push_cast at h; omega) _
      · exact ⟨_, rfl⟩
    · exact ⟨out, rfl⟩

/-- Whole writes put out the blocks that the content needs. -/
theorem dump_whole {accept : Nat → Option Nat} (hwhole : Whole accept) {blocks : List (List Byte)}
    {size : Int} (hblocks : ∀ block ∈ blocks, block.length = 512)
    (h : size ≤ 512 * blocks.length) (out : Output) :
    ∃ calls, dump accept blocks size out =
      some ⟨calls, out.bytes ++ blocks.flatten.take (Tar.roundUp size.toNat)⟩ := by
  induction blocks generalizing size out with
  | nil =>
    rw [List.length_nil] at h
    refine ⟨out.calls, ?_⟩
    rw [dump, if_neg (by omega), List.flatten_nil, List.take_nil, List.append_nil]
  | cons block blocks ih =>
    have hblock : block.length = 512 := hblocks block List.mem_cons_self
    rw [List.length_cons] at h
    simp only [dump, out.write_whole hwhole hblock, if_true]
    split
    · next hpos =>
      have hround : Tar.roundUp size.toNat = block.length + Tar.roundUp (size - 512).toNat := by
        simp only [Tar.roundUp]
        omega
      have hless : size - 512 ≤ 512 * blocks.length := by
        push_cast at h
        omega
      obtain ⟨calls, hrest⟩ := ih (fun b hb => hblocks b (List.mem_cons_of_mem block hb)) hless
        ⟨out.calls + 1, out.bytes ++ block⟩
      refine ⟨calls, ?_⟩
      rw [hrest, hround, List.flatten_cons, List.take_length_add_append, List.append_assoc]
    · next hzero =>
      have hnone : Tar.roundUp size.toNat = 0 := by
        simp only [Tar.roundUp]
        omega
      refine ⟨out.calls, ?_⟩
      rw [hnone, List.take_zero, List.append_nil]

/-! ## The archive -/

/-- A part of the program that always comes to its end and, when the writes are whole, adds the
members to the archive. -/
def Adds (accept : Nat → Option Nat) (run : Output → Option Output) (ms : List Tar.Member) : Prop :=
  ∀ out, ∃ out', run out = some out' ∧
    (Whole accept → ∃ part, out'.bytes = out.bytes ++ part ∧ Tar.Holds part ms)

section Parts

variable (signedChar : Bool) {accept : Nat → Option Nat}

theorem Adds.bind {run run' : Output → Option Output} {ms ms' : List Tar.Member}
    (h : Adds accept run ms) (h' : Adds accept run' ms') :
    Adds accept (fun out => (run out).bind run') (ms ++ ms') := by
  intro out
  obtain ⟨out₁, hrun, hpart⟩ := h out
  obtain ⟨out₂, hrun', hpart'⟩ := h' out₁
  refine ⟨out₂, ?_, fun hwhole => ?_⟩
  · simp only [hrun, Option.bind_some, hrun']
  · obtain ⟨part, hbytes, hholds⟩ := hpart hwhole
    obtain ⟨part', hbytes', hholds'⟩ := hpart' hwhole
    exact ⟨part ++ part', by rw [hbytes', hbytes, List.append_assoc], hholds.append hholds'⟩

/-- What a header has room for, and an `int` for the size. -/
structure File.Ok (file : File) : Prop where
  uid : file.stat.uid < 2 ^ 24
  gid : file.stat.gid < 2 ^ 24
  size : (content file.reads).length < 2 ^ 31

/-- The member for a file. -/
def fileMember (path : List Byte) (file : File) : Tar.Member where
  header := ⟨path, file.stat.mode % 512, file.stat.uid, file.stat.gid, (content file.reads).length,
    (file.stat.mtime % 2 ^ 32).toNat, 48⟩
  data := content file.reads

theorem toInt32_emod (x : Int) : toInt32 x % 2 ^ 32 = x % 2 ^ 32 := Int.bmod_emod

theorem toInt32_emod_512 (x : Int) : toInt32 x % 512 = x % 512 := by
  have hmod := toInt32_emod x
  omega

/-- The member for a directory. -/
def dirMember (de : Dirent) : Tar.Member where
  header := ⟨de.name, 0o555, de.stat.uid, de.stat.gid, 0, (de.stat.mtime % 2 ^ 32).toNat, 53⟩
  data := []

/-- A path that a header has room for. -/
structure PathOk (path : List Byte) : Prop where
  short : path.length ≤ 100
  string : 0 ∉ path
  ascii : Ascii path

theorem PathOk.fits {path : List Byte} (h : PathOk path) {uid gid : Nat} (huid : uid < 2 ^ 24)
    (hgid : gid < 2 ^ 24) : Fits path (toInt32 uid) (toInt32 gid) where
  short := h.short
  string := h.string
  ascii := h.ascii
  uid := by
    rw [toInt32_emod]
    omega
  gid := by
    rw [toInt32_emod]
    omega

/-- The header that `archivefile` writes. -/
def fileHeader (path : List Byte) (file : File) : List Byte :=
  writeheader signedChar path (toInt32 file.stat.mode) (toInt32 file.stat.uid)
    (toInt32 file.stat.gid) (buffer file.reads 0).2 (toInt32 file.stat.mtime) 0

theorem archivefile_eq (path : List Byte) (file : File) (out : Output) :
    archivefile signedChar accept path file out =
      dump accept (buffer file.reads 0).1 (buffer file.reads 0).2
        (out.write accept (fileHeader signedChar path file)).1 := rfl

theorem File.Ok.size_eq {file : File} (h : file.Ok) :
    (buffer file.reads 0).2 = (content file.reads).length := by
  have hsize := h.size
  rw [buffer_size (Int.le_refl 0) (by omega), Int.zero_add]

theorem header_fileHeader {path : List Byte} {file : File} (hpath : PathOk path)
    (hfile : file.Ok) :
    (fileHeader signedChar path file).length = 512 ∧
      Tar.header (fileHeader signedChar path file) = some (fileMember path file).header := by
  obtain ⟨hlen, hheader⟩ := header_writeheader signedChar (hpath.fits hfile.uid hfile.gid)
    (toInt32 file.stat.mode) (buffer file.reads 0).2 (toInt32 file.stat.mtime)
    (by decide : 0 < 10)
  refine ⟨hlen, ?_⟩
  have hmode : (toInt32 file.stat.mode % 512).toNat = file.stat.mode % 512 := by
    rw [toInt32_emod_512]
    omega
  have huid : (toInt32 file.stat.uid % 2 ^ 32).toNat = file.stat.uid := by
    have := hfile.uid
    rw [toInt32_emod]
    omega
  have hgid : (toInt32 file.stat.gid % 2 ^ 32).toNat = file.stat.gid := by
    have := hfile.gid
    rw [toInt32_emod]
    omega
  have hsize : ((buffer file.reads 0).2 % 2 ^ 32).toNat = (content file.reads).length := by
    have := hfile.size
    rw [hfile.size_eq]
    omega
  rw [fileHeader, hheader, hmode, huid, hgid, hsize, toInt32_emod]
  rfl

theorem length_flatten_blocks {blocks : List (List Byte)} (h : ∀ b ∈ blocks, b.length = 512) :
    blocks.flatten.length = 512 * blocks.length := by
  induction blocks with
  | nil => rfl
  | cons block blocks ih =>
    rw [List.flatten_cons, List.length_append, h block List.mem_cons_self,
      ih fun b hb => h b (List.mem_cons_of_mem block hb), List.length_cons]
    omega

/-- **A file** adds the member with its content. -/
theorem archivefile_adds {path : List Byte} {file : File} (hpath : PathOk path)
    (hfile : file.Ok) :
    Adds accept (archivefile signedChar accept path file) [fileMember path file] := by
  intro out
  obtain ⟨hblocks, hroom, fill, hcontent⟩ := buffer_blocks file.reads 0
  have hroom' : (buffer file.reads 0).2 ≤ 512 * (buffer file.reads 0).1.length := by
    rw [hfile.size_eq]
    exact_mod_cast hroom
  obtain ⟨hlen, hheader⟩ := header_fileHeader signedChar hpath hfile
  rw [archivefile_eq]
  obtain ⟨out', hrun⟩ := dump_isSome accept hroom'
    (out.write accept (fileHeader signedChar path file)).1
  refine ⟨out', hrun, fun hwhole => ?_⟩
  rw [out.write_whole hwhole hlen] at hrun
  obtain ⟨calls, hdump⟩ := dump_whole hwhole hblocks hroom'
    ⟨out.calls + 1, out.bytes ++ fileHeader signedChar path file⟩
  rw [hdump, hfile.size_eq, Int.toNat_natCast] at hrun
  cases hrun
  let n := (content file.reads).length
  have hround : n ≤ Tar.roundUp n ∧ Tar.roundUp n ≤ 512 * (buffer file.reads 0).1.length := by
    simp only [Tar.roundUp]
    omega
  have hflat := length_flatten_blocks hblocks
  rw [← hcontent, List.length_append] at hflat
  have hdata : (buffer file.reads 0).1.flatten.take (Tar.roundUp n) =
      content file.reads ++ fill.take (Tar.roundUp n - n) := by
    rw [← hcontent, List.take_append, List.take_of_length_le hround.1]
  refine ⟨fileHeader signedChar path file ++
    (content file.reads ++ fill.take (Tar.roundUp n - n)), ?_, ?_⟩
  · rw [hdata, List.append_assoc]
  · refine Tar.holds_member hlen hheader rfl ?_
    rw [List.length_take]
    show n + min (Tar.roundUp n - n) fill.length = Tar.roundUp n
    omega

/-- The header of a directory, which has no data. -/
theorem archiveDir_adds {de : Dirent} (hpath : PathOk de.name) (huid : de.stat.uid < 2 ^ 24)
    (hgid : de.stat.gid < 2 ^ 24) :
    Adds accept (fun out => some (out.write accept (writeheader signedChar de.name 0o555
      (toInt32 de.stat.uid) (toInt32 de.stat.gid) 0 (toInt32 de.stat.mtime) 5)).1)
      [dirMember de] := by
  intro out
  obtain ⟨hlen, hheader⟩ := header_writeheader signedChar (hpath.fits huid hgid) 0o555 0
    (toInt32 de.stat.mtime) (by decide : 5 < 10)
  refine ⟨_, rfl, fun hwhole => ?_⟩
  rw [out.write_whole hwhole hlen]
  refine ⟨_, rfl, ?_⟩
  have huid' : (toInt32 de.stat.uid % 2 ^ 32).toNat = de.stat.uid := by
    rw [toInt32_emod]
    omega
  have hgid' : (toInt32 de.stat.gid % 2 ^ 32).toNat = de.stat.gid := by
    rw [toInt32_emod]
    omega
  rw [huid', hgid', toInt32_emod] at hheader
  have hround : ([] : List Byte).length + ([] : List Byte).length = Tar.roundUp 0 := by decide
  have hholds := Tar.holds_member hlen hheader rfl hround
  rwa [List.append_nil, List.append_nil] at hholds

theorem PathOk.joined {name : List Byte} (h : PathOk name) (hshort : name.length ≤ 92) (sub : Sub) :
    PathOk (joined name sub.name) where
  short := by
    have hsub : sub.name.length ≤ 7 := by cases sub <;> decide
    simp only [Smemcap.joined, List.length_append, List.length_cons]
    omega
  string := by
    have hsub : 0 ∉ 47 :: sub.name := by cases sub <;> decide
    rw [Smemcap.joined, List.mem_append]
    exact fun hmem => hmem.elim h.string hsub
  ascii := by
    have hsub : Ascii (47 :: sub.name) := by cases sub <;> decide
    exact h.ascii.append hsub

/-- A process whose headers can be written: its name leaves room for `/cmdline`. -/
structure Dirent.Ok (de : Dirent) : Prop where
  path : PathOk de.name
  short : de.name.length ≤ 92
  uid : de.stat.uid < 2 ^ 24
  gid : de.stat.gid < 2 ^ 24
  files : ∀ sub, (de.file sub).Ok

def Dirent.members (de : Dirent) : List Tar.Member :=
  dirMember de :: [Sub.smaps, .cmdline, .stat].map fun sub =>
    fileMember (joined de.name sub.name) (de.file sub)

theorem archiveProcess_adds {de : Dirent} (h : de.Ok) :
    Adds accept (archiveProcess signedChar accept de) de.members := by
  have hfile : ∀ sub, Adds accept (archivejoin signedChar accept de sub)
      [fileMember (joined de.name sub.name) (de.file sub)] := fun sub =>
    archivefile_adds signedChar (h.path.joined h.short sub) (h.files sub)
  exact (archiveDir_adds signedChar h.path h.uid h.gid).bind
    ((hfile .smaps).bind ((hfile .cmdline).bind (hfile .stat)))

/-- **All processes**, in the order of the directory. -/
theorem readdirLoop_adds {entries : List Dirent} (h : ∀ de ∈ entries, de.isProcess → de.Ok) :
    Adds accept (readdirLoop signedChar accept entries)
      ((entries.filter Dirent.isProcess).flatMap Dirent.members) := by
  induction entries with
  | nil =>
    intro out
    exact ⟨out, rfl, fun _ => ⟨[], (List.append_nil _).symm, Tar.holds_nil⟩⟩
  | cons de entries ih =>
    have hrest := ih fun d hd => h d (List.mem_cons_of_mem de hd)
    by_cases hprocess : de.isProcess = true
    · rw [List.filter_cons_of_pos hprocess, List.flatMap_cons]
      have hboth := (archiveProcess_adds signedChar
        (h de List.mem_cons_self hprocess)).bind hrest
      intro out
      rw [readdirLoop, if_pos hprocess]
      exact hboth out
    · rw [List.filter_cons_of_neg hprocess]
      intro out
      rw [readdirLoop, if_neg hprocess]
      exact hrest out

end Parts

structure Proc.Ok (proc : Proc) : Prop where
  meminfo : proc.meminfo.Ok
  version : proc.version.Ok
  entries : ∀ de ∈ proc.entries, de.isProcess → de.Ok

/-- What the archive of `/proc` is to hold. -/
def Proc.members (proc : Proc) : List Tar.Member :=
  [fileMember (chars ['m', 'e', 'm', 'i', 'n', 'f', 'o']) proc.meminfo] ++
    ([fileMember (chars ['v', 'e', 'r', 's', 'i', 'o', 'n']) proc.version] ++
      (proc.entries.filter Dirent.isProcess).flatMap Dirent.members)

/-- **smemcap writes a tar archive**: whatever the writes do, the program does not leave the lists
of blocks it has built; when they are whole, a reader of the output gets for each process its
directory and its files, with what was read of them. -/
theorem smemcap_archive_reads_back (signedChar : Bool) (accept : Nat → Option Nat) {proc : Proc}
    (hproc : proc.Ok) :
    ∃ out, main signedChar accept proc = some out ∧
      (Whole accept → Tar.members out.bytes = some proc.members) := by
  have hmeminfo : PathOk (chars ['m', 'e', 'm', 'i', 'n', 'f', 'o']) :=
    ⟨by decide, by decide, by decide⟩
  have hversion : PathOk (chars ['v', 'e', 'r', 's', 'i', 'o', 'n']) :=
    ⟨by decide, by decide, by decide⟩
  have hall : Adds accept _ proc.members :=
    (archivefile_adds signedChar hmeminfo hproc.meminfo).bind
      ((archivefile_adds signedChar hversion hproc.version).bind
        (readdirLoop_adds signedChar hproc.entries))
  obtain ⟨out, hrun, hpart⟩ := hall ⟨0, []⟩
  refine ⟨out, hrun, fun hwhole => ?_⟩
  obtain ⟨part, hbytes, hholds⟩ := hpart hwhole
  rw [hbytes, List.nil_append]
  exact hholds.members_eq

/-- A file of two bytes. -/
def shortFile : File := ⟨⟨0o100444, 0, 0, 1500000000⟩, [⟨[107, 66], by decide⟩]⟩

theorem shortFile_ok : shortFile.Ok := ⟨by decide, by decide, by decide⟩

/-- One process and an entry that is none. -/
def oneProcess : Proc where
  meminfo := shortFile
  version := ⟨⟨0o100444, 0, 0, 1500000000⟩, []⟩
  entries := [⟨[49], ⟨0o40555, 0, 0, 1500000000⟩, fun _ => shortFile⟩,
    ⟨[115, 101, 108, 102], ⟨0o120777, 0, 0, 1500000000⟩, fun _ => shortFile⟩]

theorem oneProcess_ok : oneProcess.Ok where
  meminfo := shortFile_ok
  version := ⟨by decide, by decide, by decide⟩
  entries := by
    intro de hde hprocess
    rcases List.mem_cons.mp hde with rfl | hde
    · exact ⟨⟨by decide, by decide, by decide⟩, by decide, by decide, by decide,
        fun _ => shortFile_ok⟩
    · rw [List.mem_singleton.mp hde] at hprocess
      exact absurd hprocess (by decide)

theorem smemcap_archive_reads_back_one :
    oneProcess.Ok ∧ ∃ out, main true (fun _ => some 512) oneProcess = some out ∧
      Tar.members out.bytes = some oneProcess.members := by
  refine ⟨oneProcess_ok, ?_⟩
  obtain ⟨out, hrun, hmembers⟩ :=
    smemcap_archive_reads_back true (fun _ => some 512) oneProcess_ok
  exact ⟨out, hrun, hmembers fun _ => rfl⟩

end LinuxDeviceDriver.Smemcap
