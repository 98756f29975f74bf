import Mathlib.Algebra.Order.Ring.Nat
import LinuxDeviceDriver.Limitfs.Tree
import LinuxDeviceDriver.Lib.Transition

/-!
# The operations of `limitfs.c`

A file system in user space that passes every operation on to the tree under `src` and keeps
the total size of its regular files in `cur_size`, to refuse writes above `max_size`. Two
virtual files show the two numbers.

The state is the tree, the descriptors of the process, what FUSE has open (`handles`), and
`cur_size`. Every operation of the source is a function from the state to its return value and
the new state. Its arguments end with what the system calls in it do: which inode number or
descriptor a call is given, and how it fails.

`log` is for the specification only: which descriptors were returned by `open`, closed, and
read or written through. A descriptor number is used again after it has been closed, so each
call of `open` gets an identity of its own (`inst`).
-/

namespace LinuxDeviceDriver.Limitfs

/-! ## State -/

/-- The width of `unsigned long`, and `max_size`. -/
structure Config where
  longBits : Nat
  maxSize : Nat

/-- An open descriptor: which call of `open` in limitfs returned it, if one did, and its inode. -/
structure Descriptor where
  inst : Option Nat
  ino : Option Nat

inductive FdEvent
  | opened (inst fd : Nat)
  | closed (fd : Nat) (was : Option Descriptor)
  | used (inst : Option Nat) (fd : Nat) (was : Option Descriptor)

/-- `struct fuse_file_info`, as FUSE keeps it between `open` and `release`. -/
structure FileInfo where
  fh : Nat
  isVirtual : Bool
  inst : Option Nat

structure World where
  tree : Tree
  fds : Nat → Option Descriptor
  opens : Nat
  handles : Nat → Option FileInfo
  curSize : Nat
  log : List FdEvent

def pathCurSize : Path := ["cur_size"]

def pathMaxSize : Path := ["max_size"]

def isVirtual (path : Path) : Bool := path = pathCurSize ∨ path = pathMaxSize

/-- `get_dir_size(src, …)` as an exact count in an `unsigned long`; `Limitfs.DirSize` has the
walk itself. -/
def getDirSize (cfg : Config) (t : Tree) : Nat := t.total % 2 ^ cfg.longBits

/-- `get_file_size`, into an `unsigned long`; `stat` may fail. -/
def getFileSize (cfg : Config) (fail : Option SysError) (path : Path) (w : World) : Option Nat :=
  match fail with
  | some _ => none
  | none => (w.tree.find path).map fun e => e.node.stSize % 2 ^ cfg.longBits

/-! ## Descriptors -/

/-- A call of `open` returns `fd`. -/
def World.openFd (w : World) (fd ino : Nat) : World :=
  { w with
    fds := Function.update w.fds fd (some ⟨some w.opens, some ino⟩)
    opens := w.opens + 1
    log := w.log ++ [.opened w.opens fd] }

/-- `close` -/
def World.closeFd (w : World) (fd : Nat) : World :=
  { w with
    fds := Function.update w.fds fd none
    log := w.log ++ [.closed fd (w.fds fd)] }

/-- `pread` or `pwrite` through a handle. -/
def World.useFd (w : World) (fi : FileInfo) : World :=
  { w with log := w.log ++ [.used fi.inst fi.fh (w.fds fi.fh)] }

/-- The outcome of `pread` or `pwrite`: a number of bytes, at most `size`. -/
def transfer (w : World) (fi : FileInfo) (size : Nat) (outcome : Except SysError Nat) :
    Except SysError Nat :=
  match w.fds fi.fh, outcome with
  | none, _ => .error .ebadf
  | some _, .error e => .error e
  | some _, .ok count => .ok (min count size)

/-! ## Operations -/

/-- `-errno` or 0, with the tree as a call has left it. -/
def World.settle (w : World) (res : Except SysError Tree) : Int × World :=
  match res with
  | .error e => (e.neg, w)
  | .ok tree => (0, { w with tree := tree })

theorem settle_cases (w : World) (res : Except SysError Tree) :
    (w.settle res).2 = w ∨ ∃ t, res = .ok t ∧ (w.settle res).2 = { w with tree := t } := by
  cases res with
  | error e => exact Or.inl rfl
  | ok t => exact Or.inr ⟨t, rfl, rfl⟩

/-- `get_dir_size(src, &cur_size)` behind a call. -/
def recount (cfg : Config) (r : Int × World) : Int × World :=
  (r.1, { r.2 with curSize := getDirSize cfg r.2.tree })

/-- Most operations refuse the virtual files with -1. -/
def World.unlessVirtual (w : World) (path : Path) (r : Int × World) : Int × World :=
  if isVirtual path then (-1, w) else r

/-- `S_ISREG(mode)`, `S_ISFIFO(mode)`, or neither. -/
inductive Mode
  | regular
  | fifo
  | device

def limitfsMknod (cfg : Config) (path : Path) (mode : Mode) (ino fd : Nat)
    (fail : Option SysError) (w : World) : Int × World :=
  if w.curSize > cfg.maxSize then (SysError.enobufs.neg, w)
  else if isVirtual path then (0, w)
  else
    match mode with
    | .regular =>
      match w.fds fd, w.tree.create fail path ino (.file 0) with
      | some _, _ => (SysError.emfile.neg, w)
      | none, .error e => (e.neg, w)
      | none, .ok tree => (0, (World.openFd { w with tree := tree } fd ino).closeFd fd)
    | .fifo => w.settle (w.tree.create fail path ino .special)
    | .device => w.settle (w.tree.create fail path ino .special)

/-- `limitfs_open`, with the `fi->fh` that it leaves; `fi` comes zeroed. -/
def limitfsOpen (path : Path) (fd : Nat) (fail : Option SysError) (w : World) :
    Int × FileInfo × World :=
  if isVirtual path then (0, ⟨0, true, none⟩, w)
  else
    match fail, w.tree.find path, w.fds fd with
    | some e, _, _ => (e.neg, ⟨0, false, none⟩, w)
    | none, none, _ => ((w.tree.lookupError Tree.root path).neg, ⟨0, false, none⟩, w)
    | none, some _, some _ => (SysError.emfile.neg, ⟨0, false, none⟩, w)
    | none, some e, none => (0, ⟨fd, false, some w.opens⟩, w.openFd fd e.ino)

/-- `sprintf(buf, "%lu\n", n)` -/
def printed (n : Nat) : Int := (toString n).length + 1

def limitfsRead (cfg : Config) (path : Path) (size : Nat) (fi : FileInfo)
    (outcome : Except SysError Nat) (w : World) : Int × World :=
  if path = pathCurSize then (printed w.curSize, w)
  else if path = pathMaxSize then (printed cfg.maxSize, w)
  else
    match transfer w fi size outcome with
    | .error e => (e.neg, (w.useFd fi).closeFd fi.fh)
    | .ok count => (count, w.useFd fi)

/-- How the two calls of `stat` and `pwrite` go. -/
structure WriteCalls where
  statBefore : Option SysError
  outcome : Except SysError Nat
  statAfter : Option SysError

/-- `pwrite`, and `close` when it fails. -/
def pwriteOrClose (w : World) (fi : FileInfo) (size offset : Nat)
    (outcome : Except SysError Nat) : Int × World :=
  match transfer w fi size outcome with
  | .error e => (e.neg, (w.useFd fi).closeFd fi.fh)
  | .ok count =>
    match (w.fds fi.fh).bind Descriptor.ino with
    | none => (count, w.useFd fi)
    | some ino => (count, { w.useFd fi with tree := w.tree.writeAt ino offset count })

/-- `cur_size >= old_size ? cur_size - old_size + new_size : new_size` -/
def adjusted (cfg : Config) (curSize oldSize newSize : Nat) : Nat :=
  if oldSize ≤ curSize then (curSize - oldSize + newSize) % 2 ^ cfg.longBits
  else newSize % 2 ^ cfg.longBits

def limitfsWrite (cfg : Config) (path : Path) (size offset : Nat) (fi : FileInfo)
    (calls : WriteCalls) (w : World) : Int × World :=
  if isVirtual path then (0, w)
  else if w.curSize > cfg.maxSize then (SysError.enobufs.neg, w.closeFd fi.fh)
  else
    match getFileSize cfg calls.statBefore path w with
    | none => (-1, w)
    | some oldSize =>
      let (res, w) := pwriteOrClose w fi size offset calls.outcome
      match getFileSize cfg calls.statAfter path w with
      | none => (-1, w)
      | some newSize => (res, { w with curSize := adjusted cfg w.curSize oldSize newSize })

def limitfsMkdir (path : Path) (ino stSize : Nat) (fail : Option SysError) (w : World) :
    Int × World :=
  w.unlessVirtual path <| w.settle (w.tree.create fail path ino (.dir stSize))

def limitfsTruncate (cfg : Config) (path : Path) (size : Int) (fail : Option SysError)
    (w : World) : Int × World :=
  w.unlessVirtual path <| recount cfg (w.settle (w.tree.truncate fail path size))

def limitfsChmod (path : Path) (fail : Option SysError) (w : World) : Int × World :=
  w.unlessVirtual path <| w.settle (w.tree.touch fail path)

def limitfsChown (path : Path) (fail : Option SysError) (w : World) : Int × World :=
  w.unlessVirtual path <| w.settle (w.tree.touch fail path)

def limitfsRmdir (cfg : Config) (path : Path) (fail : Option SysError) (w : World) :
    Int × World :=
  w.unlessVirtual path <| recount cfg (w.settle (w.tree.rmdir fail path))

def limitfsRename (old new : Path) (fail : Option SysError) (w : World) : Int × World :=
  w.unlessVirtual old <| w.unlessVirtual new <| w.settle (w.tree.rename fail old new)

def limitfsUnlink (cfg : Config) (path : Path) (fail : Option SysError) (w : World) :
    Int × World :=
  w.unlessVirtual path <| recount cfg (w.settle (w.tree.unlink fail path))

def limitfsRelease (fi : FileInfo) (w : World) : Int × World :=
  match w.fds fi.fh with
  | none => (SysError.ebadf.neg, w.closeFd fi.fh)
  | some _ => (0, w.closeFd fi.fh)

/-! ## What FUSE calls -/

inductive Op
  | mknod (path : Path) (mode : Mode) (ino fd : Nat) (fail : Option SysError)
  | openFile (h : Nat) (path : Path) (fd : Nat) (fail : Option SysError)
  | read (h : Nat) (path : Path) (size : Nat) (outcome : Except SysError Nat)
  | write (h : Nat) (path : Path) (size offset : Nat) (calls : WriteCalls)
  | release (h : Nat)
  | mkdir (path : Path) (ino stSize : Nat) (fail : Option SysError)
  | truncate (path : Path) (size : Int) (fail : Option SysError)
  | chmod (path : Path) (fail : Option SysError)
  | chown (path : Path) (fail : Option SysError)
  | rmdir (path : Path) (fail : Option SysError)
  | rename (old new : Path) (fail : Option SysError)
  | unlink (path : Path) (fail : Option SysError)

/-- The open file that FUSE passes with a path: a virtual file has a virtual path. -/
def World.handle (w : World) (h : Nat) (path : Path) : Option FileInfo :=
  match w.handles h with
  | none => none
  | some fi => if fi.isVirtual = isVirtual path then some fi else none

theorem handle_some {w : World} {path : Path} {h : Nat} {fi : FileInfo}
    (hfi : w.handle h path = some fi) :
    w.handles h = some fi ∧ fi.isVirtual = isVirtual path := by
  unfold World.handle at hfi
  split at hfi
  · cases hfi
  · next hopen =>
    split at hfi
    · next hvirtual =>
      cases hfi
      exact ⟨hopen, hvirtual⟩
    · cases hfi

/-- `open`, and FUSE keeps `fi` when it succeeds. -/
def World.openHandle (w : World) (h : Nat) (path : Path) (fd : Nat) (fail : Option SysError) :
    World :=
  let r := limitfsOpen path fd fail w
  if r.1 = 0 then { r.2.2 with handles := Function.update r.2.2.handles h (some r.2.1) }
  else r.2.2

/-- One operation. FUSE reads, writes and releases what is open, and releases it once. -/
def step (cfg : Config) (w : World) : Op → Option World
  | .mknod path mode ino fd fail => some (limitfsMknod cfg path mode ino fd fail w).2
  | .openFile h path fd fail =>
    match w.handles h with
    | some _ => none
    | none => some (w.openHandle h path fd fail)
  | .read h path size outcome =>
    (w.handle h path).map fun fi => (limitfsRead cfg path size fi outcome w).2
  | .write h path size offset calls =>
    (w.handle h path).map fun fi => (limitfsWrite cfg path size offset fi calls w).2
  | .release h =>
    (w.handles h).map fun fi =>
      { (limitfsRelease fi w).2 with handles := Function.update w.handles h none }
  | .mkdir path ino stSize fail => some (limitfsMkdir path ino stSize fail w).2
  | .truncate path size fail => some (limitfsTruncate cfg path size fail w).2
  | .chmod path fail => some (limitfsChmod path fail w).2
  | .chown path fail => some (limitfsChown path fail w).2
  | .rmdir path fail => some (limitfsRmdir cfg path fail w).2
  | .rename old new fail => some (limitfsRename old new fail w).2
  | .unlink path fail => some (limitfsUnlink cfg path fail w).2

/-- `main`: the size is counted once; the standard descriptors are open. -/
def mounted (cfg : Config) (t : Tree) : World where
  tree := t
  fds := fun fd => if fd < 3 then some ⟨none, none⟩ else none
  opens := 0
  handles := fun _ => none
  curSize := getDirSize cfg t
  log := []

/-- Three files in `src`. -/
def sampleTree : Tree :=
  ⟨[⟨1, 0, "a", .file 10⟩, ⟨2, 0, "b", .file 5⟩, ⟨3, 0, "c", .file 0⟩], by decide, by decide⟩

/-- 20 bytes are allowed. -/
def sampleConfig : Config := ⟨64, 20⟩

end LinuxDeviceDriver.Limitfs
