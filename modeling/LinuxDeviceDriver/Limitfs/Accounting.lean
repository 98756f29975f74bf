import LinuxDeviceDriver.Limitfs.Operations

/-!
# What limitfs knows of the size of its tree

`cur_size` is counted anew by some operations, adjusted by `limitfs_write`, and left alone by
the others.

- `SameSizes`: what the operations of the last kind do; `pwriteOrClose_tree` is what a write
  does to the tree.
- `limitfs_exact`: `cur_size` stays the total, as long as no rename replaces a file that is not
  empty, and a write goes to the file that its path names (`Accountable`). Counting anew is taken
  to give the total; `Limitfs.Recount` says when the walk does.
- `limitfs_within_quota`: the total stays below `max_size` as long as writes and truncations
  ask for no more than is left (`WithinQuota`); the code refuses none of them for that.
-/

namespace LinuxDeviceDriver.Limitfs

open Lib

/-! ## What each operation does to the sizes -/

/-- Neither the total nor `cur_size` changes. -/
def SameSizes (w w' : World) : Prop :=
  w'.tree.total = w.tree.total ∧ w'.curSize = w.curSize

theorem SameSizes.refl (w : World) : SameSizes w w := ⟨rfl, rfl⟩

section Operations

variable {cfg : Config} {w : World} {path : Path} {fail : Option SysError}

/-- A call that keeps the total. -/
theorem settle_same {res : Except SysError Tree}
    (h : ∀ t, res = .ok t → t.total = w.tree.total) : SameSizes w (w.settle res).2 := by
  rcases settle_cases w res with heq | ⟨t, hok, heq⟩
  · rw [heq]
    exact .refl w
  · rw [heq]
    exact ⟨h t hok, rfl⟩

theorem unlessVirtual_same {r : Int × World} (h : SameSizes w r.2) :
    SameSizes w (w.unlessVirtual path r).2 := by
  unfold World.unlessVirtual
  split
  · exact .refl w
  · exact h

theorem create_same {ino : Nat} {node : Node} (hnode : node.size = 0) :
    ∀ t, w.tree.create fail path ino node = .ok t → t.total = w.tree.total := by
  intro t hok
  rw [Tree.create_total hok, hnode, Nat.zero_add]

theorem mknod_same (cfg : Config) (path : Path) (mode : Mode) (ino fd : Nat)
    (fail : Option SysError) (w : World) :
    SameSizes w (limitfsMknod cfg path mode ino fd fail w).2 := by
  unfold limitfsMknod
  split
  · exact .refl w
  split
  · exact .refl w
  cases mode with
  | regular =>
    dsimp only
    split
    · exact .refl w
    · exact .refl w
    · next hok => exact ⟨create_same rfl _ hok, rfl⟩
  | fifo => exact settle_same (create_same rfl)
  | device => exact settle_same (create_same rfl)

theorem mkdir_same (path : Path) (ino stSize : Nat) (fail : Option SysError) (w : World) :
    SameSizes w (limitfsMkdir path ino stSize fail w).2 :=
  unlessVirtual_same (settle_same (create_same rfl))

theorem chmod_same (path : Path) (fail : Option SysError) (w : World) :
    SameSizes w (limitfsChmod path fail w).2 :=
  unlessVirtual_same (settle_same fun _ hok => congrArg Tree.total (Tree.touch_ok hok))

theorem open_same (h : Nat) (path : Path) (fd : Nat) (fail : Option SysError) (w : World) :
    SameSizes w (w.openHandle h path fd fail) := by
  have hopen : SameSizes w (limitfsOpen path fd fail w).2.2 := by
    unfold limitfsOpen
    split
    · exact .refl w
    · split <;> exact ⟨rfl, rfl⟩
  unfold World.openHandle
  dsimp only
  split
  · exact hopen
  · exact hopen

theorem read_same (cfg : Config) (path : Path) (size : Nat) (fi : FileInfo)
    (outcome : Except SysError Nat) (w : World) :
    SameSizes w (limitfsRead cfg path size fi outcome w).2 := by
  unfold limitfsRead
  split
  · exact .refl w
  split
  · exact .refl w
  split <;> exact ⟨rfl, rfl⟩

theorem release_same (fi : FileInfo) (w : World) : SameSizes w (limitfsRelease fi w).2 := by
  unfold limitfsRelease
  split <;> exact ⟨rfl, rfl⟩

/-- A rename that fails changes nothing; one that succeeds must not drop a size. -/
theorem rename_same {old new : Path}
    (hempty : (limitfsRename old new fail w).1 = 0 → ∀ e target, w.tree.find old = some e →
      w.tree.find new = some target → e.ino ≠ target.ino → target.node.size = 0) :
    SameSizes w (limitfsRename old new fail w).2 := by
  unfold limitfsRename World.unlessVirtual at hempty ⊢
  split
  · exact .refl w
  · next hold =>
    split
    · exact .refl w
    · next hnew =>
      rw [if_neg hold, if_neg hnew] at hempty
      refine settle_same fun t hok => Tree.rename_total hok (hempty ?_)
      rw [hok]
      rfl

/-- A `pwrite` that succeeds has an open descriptor, and writes no more than it was given. -/
theorem transfer_bounds {fi : FileInfo} {size count : Nat} {outcome : Except SysError Nat}
    (h : transfer w fi size outcome = .ok count) :
    (∃ d, w.fds fi.fh = some d) ∧ count ≤ size := by
  unfold transfer at h
  split at h
  · cases h
  · cases h
  · next d n hd =>
    cases h
    exact ⟨⟨d, hd⟩, min_le_right ..⟩

/-- What `pwrite` does to the tree: nothing, or a write to the inode of the descriptor. -/
theorem pwriteOrClose_tree (w : World) (fi : FileInfo) (size offset : Nat)
    (outcome : Except SysError Nat) :
    (pwriteOrClose w fi size offset outcome).2.tree = w.tree ∨
      ∃ d ino count, w.fds fi.fh = some d ∧ d.ino = some ino ∧
        transfer w fi size outcome = .ok count ∧
        (pwriteOrClose w fi size offset outcome).2.tree = w.tree.writeAt ino offset count := by
  unfold pwriteOrClose
  split
  · exact Or.inl rfl
  · next count htransfer =>
    split
    · exact Or.inl rfl
    · next ino hino =>
      obtain ⟨d, hd, hdino⟩ := Option.bind_eq_some_iff.mp hino
      exact Or.inr ⟨d, ino, count, hd, hdino, htransfer, rfl⟩

theorem pwriteOrClose_failed {fi : FileInfo} {size : Nat} {outcome : Except SysError Nat}
    {e : SysError} (h : transfer w fi size outcome = .error e) (offset : Nat) :
    (pwriteOrClose w fi size offset outcome).2.tree = w.tree := by
  unfold pwriteOrClose
  rw [h]
  rfl

theorem pwriteOrClose_curSize (w : World) (fi : FileInfo) (size offset : Nat)
    (outcome : Except SysError Nat) :
    (pwriteOrClose w fi size offset outcome).2.curSize = w.curSize := by
  unfold pwriteOrClose
  split
  · rfl
  · split <;> rfl

theorem getFileSize_some {fail : Option SysError} {n : Nat}
    (h : getFileSize cfg fail path w = some n) :
    fail = none ∧ ∃ e, w.tree.find path = some e ∧ e.node.stSize % 2 ^ cfg.longBits = n := by
  unfold getFileSize at h
  split at h
  · cases h
  · exact ⟨rfl, Option.map_eq_some_iff.mp h⟩

/-- `limitfs_write` gets to `pwrite`: there is room, and the first `stat` finds `e`. -/
structure ReachesPwrite (cfg : Config) (w : World) (path : Path) (calls : WriteCalls)
    (e : Entry) : Prop where
  real : isVirtual path = false
  room : w.curSize ≤ cfg.maxSize
  stat : calls.statBefore = none
  named : w.tree.find path = some e

/-- How far `limitfs_write` gets. -/
theorem write_cases (cfg : Config) (path : Path) (size offset : Nat) (fi : FileInfo)
    (calls : WriteCalls) (w : World) :
    SameSizes w (limitfsWrite cfg path size offset fi calls w).2 ∨
      ∃ e, ReachesPwrite cfg w path calls e ∧
        (limitfsWrite cfg path size offset fi calls w).2.tree =
          (pwriteOrClose w fi size offset calls.outcome).2.tree ∧
        (limitfsWrite cfg path size offset fi calls w).2.curSize =
          match getFileSize cfg calls.statAfter path
            (pwriteOrClose w fi size offset calls.outcome).2 with
          | none => w.curSize
          | some newSize =>
            adjusted cfg w.curSize (e.node.stSize % 2 ^ cfg.longBits) newSize := by
  unfold limitfsWrite
  split
  · exact Or.inl (.refl w)
  · next hreal =>
    split
    · exact Or.inl ⟨rfl, rfl⟩
    · next hroom =>
      split
      · exact Or.inl (.refl w)
      · next oldSize hold =>
        obtain ⟨hstat, e, hfind, rfl⟩ := getFileSize_some hold
        refine Or.inr ⟨e, ⟨by simpa using hreal, Nat.not_lt.mp hroom, hstat, hfind⟩, ?_⟩
        have hcur := pwriteOrClose_curSize w fi size offset calls.outcome
        dsimp only
        cases getFileSize cfg calls.statAfter path
          (pwriteOrClose w fi size offset calls.outcome).2 with
        | none => exact ⟨rfl, hcur⟩
        | some newSize =>
          rw [hcur]
          exact ⟨rfl, rfl⟩

end Operations

/-! ## `cur_size` is the total -/

/-- `cur_size` is right. -/
def Exact (w : World) : Prop := w.curSize = w.tree.total

/-- What the accounting relies on: the total is a number of type `unsigned long`; a rename that
succeeds replaces no file that has a size; a write that gets to `pwrite` has the path of a regular
file, and when `pwrite` succeeds the descriptor was that file's and the second `stat` succeeds. -/
structure Accountable (cfg : Config) (w : World) (op : Op) : Prop where
  small : w.tree.total < 2 ^ cfg.longBits ∧
    ∀ w', step cfg w op = some w' → w'.tree.total < 2 ^ cfg.longBits
  rename : ∀ old new fail, op = .rename old new fail → (limitfsRename old new fail w).1 = 0 →
    ∀ e target, w.tree.find old = some e → w.tree.find new = some target → e.ino ≠ target.ino →
      target.node.size = 0
  file : ∀ h path size offset calls, op = .write h path size offset calls →
    ∀ e, ReachesPwrite cfg w path calls e → ∃ k, e.node = .file k
  pwrite : ∀ h path size offset calls, op = .write h path size offset calls →
    ∀ e fi d count, ReachesPwrite cfg w path calls e → w.handles h = some fi →
      w.fds fi.fh = some d → transfer w fi size calls.outcome = .ok count →
        d.ino = some e.ino ∧ calls.statAfter = none

theorem Exact.same {w w' : World} (h : Exact w) (hsame : SameSizes w w') : Exact w' := by
  unfold Exact
  rw [hsame.1, hsame.2]
  exact h

/-- The operations that count anew. -/
theorem recount_exact {cfg : Config} {w : World} {path : Path} {r : Int × World} (h : Exact w)
    (hsmall : (w.unlessVirtual path (recount cfg r)).2.tree.total < 2 ^ cfg.longBits) :
    Exact (w.unlessVirtual path (recount cfg r)).2 := by
  unfold World.unlessVirtual at hsmall ⊢
  cases hvirtual : isVirtual path with
  | true => exact h
  | false =>
    rw [hvirtual] at hsmall
    exact Nat.mod_eq_of_lt hsmall

/-- The difference between the new size and the old one is what the total has changed by. -/
theorem adjusted_eq {cfg : Config} {total total' oldSize newSize : Nat} (hle : oldSize ≤ total)
    (htotal : total' + oldSize = total + newSize) (hsmall : total' < 2 ^ cfg.longBits) :
    adjusted cfg total oldSize newSize = total' := by
  have hsum : total - oldSize + newSize = total' := by omega
  unfold adjusted
  rw [if_pos hle, hsum, Nat.mod_eq_of_lt hsmall]

/-- A `pwrite` that fails, or goes to the file that the path names: the total changes as the size
of that file does. -/
theorem pwriteOrClose_named {w : World} {path : Path} {fi : FileInfo} {e : Entry} {oldSize : Nat}
    (hfind : w.tree.find path = some e) (hfile : e.node = .file oldSize)
    {size : Nat} {outcome : Except SysError Nat}
    (hdesc : ∀ d count, w.fds fi.fh = some d → transfer w fi size outcome = .ok count →
      d.ino = some e.ino) (offset : Nat) :
    ∃ newSize, ((pwriteOrClose w fi size offset outcome).2.tree.find path).map
        (fun e => e.node.stSize) = some newSize ∧
      (pwriteOrClose w fi size offset outcome).2.tree.total + oldSize =
        w.tree.total + newSize := by
  have hstill : (w.tree.find path).map (fun e => e.node.stSize) = some oldSize := by
    rw [hfind, Option.map_some, hfile]
    rfl
  rcases pwriteOrClose_tree w fi size offset outcome with
    hsame | ⟨d, ino, count, hd, hino, htransfer, hwrite⟩
  · rw [hsame]
    exact ⟨oldSize, hstill, rfl⟩
  rw [hwrite]
  rcases w.tree.writeAt_cases ino offset count with hnone | ⟨x, n, hx, hxino, hxfile, hresize⟩
  · rw [hnone]
    exact ⟨oldSize, hstill, rfl⟩
  -- the descriptor's inode is the one that the path names
  have hsame : ino = e.ino := Option.some.inj (hino.symm.trans (hdesc d count hd htransfer))
  obtain rfl : x = e := w.tree.eq_of_ino hx (Tree.find_mem hfind) (hxino.trans hsame)
  obtain rfl : n = oldSize := Node.file.inj (hxfile.symm.trans hfile)
  subst hsame
  rw [hresize]
  exact ⟨_, Tree.stSize_find_resize hfind hfile _, Tree.total_resize hx hfile _⟩

theorem write_exact {cfg : Config} {w : World} {path : Path} {size offset : Nat} {fi : FileInfo}
    {calls : WriteCalls} (h : Exact w) (hfits : w.tree.total < 2 ^ cfg.longBits)
    (hsmall : (limitfsWrite cfg path size offset fi calls w).2.tree.total < 2 ^ cfg.longBits)
    (hregular : ∀ e, ReachesPwrite cfg w path calls e → ∃ k, e.node = .file k)
    (hpwrite : ∀ e d count, ReachesPwrite cfg w path calls e → w.fds fi.fh = some d →
      transfer w fi size calls.outcome = .ok count →
        d.ino = some e.ino ∧ calls.statAfter = none) :
    Exact (limitfsWrite cfg path size offset fi calls w).2 := by
  rcases write_cases cfg path size offset fi calls w with
    hsame | ⟨e, hreaches, htree, hcur⟩
  · exact h.same hsame
  obtain ⟨k, hfile⟩ := hregular e hreaches
  have hle : k ≤ w.tree.total := by
    have hsize := Tree.size_le_total (Tree.find_mem hreaches.named)
    rwa [hfile] at hsize
  have hold : e.node.stSize % 2 ^ cfg.longBits = k := by
    rw [hfile]
    exact Nat.mod_eq_of_lt (Nat.lt_of_le_of_lt hle hfits)
  rw [hold] at hcur
  obtain ⟨newSize, hnew, htotal⟩ := pwriteOrClose_named hreaches.named hfile
    (fun d count hd htransfer => (hpwrite e d count hreaches hd htransfer).1) offset
  rw [htree] at hsmall
  have hget : calls.statAfter = none → getFileSize cfg calls.statAfter path
      (pwriteOrClose w fi size offset calls.outcome).2 = some newSize := by
    intro hafter
    obtain ⟨e', hfind', rfl⟩ := Option.map_eq_some_iff.mp hnew
    unfold getFileSize
    rw [hafter]
    dsimp only
    rw [hfind', Option.map_some, Nat.mod_eq_of_lt (by omega)]
  unfold Exact
  rw [hcur, htree]
  cases hafter : calls.statAfter with
  | none =>
    rw [hafter] at hget
    rw [hget rfl, h]
    exact adjusted_eq hle htotal hsmall
  | some err =>
    -- the second `stat` fails, so the `pwrite` did, and the tree is as before
    cases htransfer : transfer w fi size calls.outcome with
    | ok count =>
      obtain ⟨d, hd⟩ := (transfer_bounds htransfer).1
      have hnone := (hpwrite e d count hreaches hd htransfer).2
      rw [hafter] at hnone
      cases hnone
    | error err' =>
      rw [pwriteOrClose_failed htransfer]
      exact h

/-- One accountable operation keeps `cur_size` right. -/
theorem step_exact {cfg : Config} {w w' : World} {op : Op} (h : Exact w)
    (hguard : Accountable cfg w op) (hstep : step cfg w op = some w') : Exact w' := by
  have hsmall := hguard.small.2 w' hstep
  cases op with
  | mknod path mode ino fd fail =>
    cases hstep
    exact h.same (mknod_same ..)
  | openFile hd path fd fail =>
    simp only [step] at hstep
    split at hstep
    · cases hstep
    · cases hstep
      exact h.same (open_same ..)
  | read hd path size outcome =>
    obtain ⟨fi, -, rfl⟩ := Option.map_eq_some_iff.mp hstep
    exact h.same (read_same ..)
  | write hd path size offset calls =>
    obtain ⟨fi, hfi, rfl⟩ := Option.map_eq_some_iff.mp hstep
    have hhandle := (handle_some hfi).1
    have hpwrite := hguard.pwrite hd path size offset calls rfl
    exact write_exact h hguard.small.1 hsmall (hguard.file hd path size offset calls rfl)
      fun e d count hreaches => hpwrite e fi d count hreaches hhandle
  | release hd =>
    obtain ⟨fi, -, rfl⟩ := Option.map_eq_some_iff.mp hstep
    exact h.same (release_same fi w)
  | mkdir path ino stSize fail =>
    cases hstep
    exact h.same (mkdir_same ..)
  | truncate path size fail =>
    cases hstep
    exact recount_exact h hsmall
  | chmod path fail =>
    cases hstep
    exact h.same (chmod_same ..)
  | chown path fail =>
    cases hstep
    exact h.same (chmod_same ..)
  | rmdir path fail =>
    cases hstep
    exact recount_exact h hsmall
  | rename old new fail =>
    cases hstep
    exact h.same (rename_same (hguard.rename old new fail rfl))
  | unlink path fail =>
    cases hstep
    exact recount_exact h hsmall

/-- **`cur_size` is the total size of the regular files** after every operation of an
accountable run. -/
theorem limitfs_exact (cfg : Config) {w₀ w : World} (h₀ : w₀.curSize = w₀.tree.total)
    (hreach : Reach (step cfg) (Accountable cfg) w₀ w) : w.curSize = w.tree.total :=
  hreach.invariant (I := Exact) h₀ step_exact

/-- `b` takes the place of `c`, which is empty. -/
theorem limitfs_exact_rename_over_empty :
    ∃ w, Reach (step sampleConfig) (Accountable sampleConfig) (mounted sampleConfig sampleTree) w ∧
      w.tree.find ["c"] = some ⟨2, 0, "c", .file 5⟩ ∧ w.curSize = w.tree.total := by
  obtain ⟨w, hstep, hfind, htotal⟩ : ∃ w, step sampleConfig (mounted sampleConfig sampleTree)
      (.rename ["b"] ["c"] none) = some w ∧ w.tree.find ["c"] = some ⟨2, 0, "c", .file 5⟩ ∧
      w.tree.total = 15 := ⟨_, rfl, by decide, rfl⟩
  have hguard : Accountable sampleConfig (mounted sampleConfig sampleTree)
      (.rename ["b"] ["c"] none) := by
    refine ⟨⟨by decide, ?_⟩, ?_, fun _ _ _ _ _ hop => Op.noConfusion hop,
      fun _ _ _ _ _ hop => Op.noConfusion hop⟩
    · intro w' hstep'
      obtain rfl : w = w' := Option.some.inj (hstep.symm.trans hstep')
      rw [htotal]
      decide
    · intro old new fail hop _ e target _ htarget _
      cases hop
      cases htarget
      rfl
  have hreach := Reach.init.tail hguard hstep
  exact ⟨w, hreach, hfind, limitfs_exact sampleConfig rfl hreach⟩

/-- `b` takes the place of `a`: the 10 bytes of `a` are gone, and still counted. -/
theorem limitfs_rename_overcounts :
    ∃ w, Reach (step sampleConfig) anyStep (mounted sampleConfig sampleTree) w ∧
      (mounted sampleConfig sampleTree).curSize = (mounted sampleConfig sampleTree).tree.total ∧
      w.curSize = 15 ∧ w.tree.total = 5 := by
  obtain ⟨w, hrun, hcur, htotal⟩ : ∃ w,
      runFrom (step sampleConfig) (mounted sampleConfig sampleTree) [.rename ["b"] ["a"] none] =
        some w ∧ w.curSize = 15 ∧ w.tree.total = 5 :=
    ⟨_, rfl, rfl, rfl⟩
  exact ⟨w, reach_runFrom hrun, rfl, hcur, htotal⟩

/-! ## The quota -/

/-- A write ends, and a truncation puts the end of a file, at most as far behind the end of the
file as there is room below `max_size`. -/
structure WithinQuota (cfg : Config) (w : World) (op : Op) : Prop where
  write : ∀ h path size offset calls, op = .write h path size offset calls →
    ∀ fi d ino n, w.handles h = some fi → w.fds fi.fh = some d → d.ino = some ino →
      w.tree.fileSize ino = some n → offset + size ≤ n + (cfg.maxSize - w.tree.total)
  truncate : ∀ path size fail, op = .truncate path size fail → ∀ e n, w.tree.find path = some e →
    e.node = .file n → size.toNat ≤ n + (cfg.maxSize - w.tree.total)

section Quota

variable {cfg : Config} {w : World} {path : Path}

/-- An operation that makes nothing larger. -/
theorem unlessVirtual_total_le {r : Int × World} {n : Nat} (hw : w.tree.total ≤ n)
    (h : r.2.tree.total ≤ n) : (w.unlessVirtual path r).2.tree.total ≤ n := by
  unfold World.unlessVirtual
  split
  · exact hw
  · exact h

theorem settle_total_le {res : Except SysError Tree} {n : Nat} (hw : w.tree.total ≤ n)
    (h : ∀ t, res = .ok t → t.total ≤ n) : (w.settle res).2.tree.total ≤ n := by
  rcases settle_cases w res with heq | ⟨t, hok, heq⟩
  · rw [heq]
    exact hw
  · rw [heq]
    exact h t hok

/-- A truncation that puts the end of its file at most `B` bytes behind the old one. -/
theorem truncate_grows {B : Nat} {size : Int} {fail : Option SysError}
    (hroom : ∀ e n, w.tree.find path = some e → e.node = .file n → size.toNat ≤ n + B) :
    (limitfsTruncate cfg path size fail w).2.tree.total ≤ w.tree.total + B := by
  have hle : w.tree.total ≤ w.tree.total + B := Nat.le_add_right ..
  refine unlessVirtual_total_le hle (settle_total_le hle fun t hok => ?_)
  obtain ⟨e, n, hfind, hfile, rfl⟩ := Tree.truncate_ok hok
  have htotal := Tree.total_resize (Tree.find_mem hfind) hfile size.toNat
  have hsize := hroom e n hfind hfile
  omega

/-- A write that ends at most `B` bytes behind the end of the file it goes to. -/
theorem write_grows {B size offset : Nat} {fi : FileInfo} {calls : WriteCalls}
    (hroom : ∀ d ino n, w.fds fi.fh = some d → d.ino = some ino → w.tree.fileSize ino = some n →
      offset + size ≤ n + B) :
    (limitfsWrite cfg path size offset fi calls w).2.tree.total ≤ w.tree.total + B := by
  rcases write_cases cfg path size offset fi calls w with hsame | ⟨e, -, htree, -⟩
  · rw [hsame.1]
    exact Nat.le_add_right ..
  rw [htree]
  rcases pwriteOrClose_tree w fi size offset calls.outcome with
    hsame | ⟨d, ino, count, hd, hino, htransfer, hwrite⟩
  · rw [hsame]
    exact Nat.le_add_right ..
  rw [hwrite]
  rcases w.tree.writeAt_cases ino offset count with hnone | ⟨e, n, he, rfl, hfile, hresize⟩
  · rw [hnone]
    exact Nat.le_add_right ..
  · rw [hresize]
    have hcount := (transfer_bounds htransfer).2
    have htotal := Tree.total_resize he hfile (max n (offset + count))
    have hsize := hroom d e.ino n hd hino (Tree.fileSize_of_mem he hfile)
    omega

/-- Only writes and truncations make the files larger. -/
theorem step_total {w' : World} {op : Op} (hstep : step cfg w op = some w') :
    w'.tree.total ≤ w.tree.total ∨
      (∃ h path size offset calls fi, op = .write h path size offset calls ∧
        w.handles h = some fi ∧ w' = (limitfsWrite cfg path size offset fi calls w).2) ∨
      ∃ path size fail, op = .truncate path size fail ∧
        w' = (limitfsTruncate cfg path size fail w).2 := by
  have hle : w.tree.total ≤ w.tree.total := Nat.le_refl _
  have hsame : ∀ {w'}, SameSizes w w' → w'.tree.total ≤ w.tree.total := fun h => Nat.le_of_eq h.1
  cases op with
  | write hd path size offset calls =>
    obtain ⟨fi, hfi, rfl⟩ := Option.map_eq_some_iff.mp hstep
    exact .inr (.inl ⟨hd, path, size, offset, calls, fi, rfl, (handle_some hfi).1, rfl⟩)
  | truncate path size fail =>
    cases hstep
    exact .inr (.inr ⟨path, size, fail, rfl, rfl⟩)
  | mknod path mode ino fd fail =>
    cases hstep
    exact .inl (hsame (mknod_same ..))
  | openFile hd path fd fail =>
    simp only [step] at hstep
    split at hstep
    · cases hstep
    · cases hstep
      exact .inl (hsame (open_same ..))
  | read hd path size outcome =>
    obtain ⟨fi, -, rfl⟩ := Option.map_eq_some_iff.mp hstep
    exact .inl (hsame (read_same ..))
  | release hd =>
    obtain ⟨fi, -, rfl⟩ := Option.map_eq_some_iff.mp hstep
    exact .inl (hsame (release_same fi w))
  | mkdir path ino stSize fail =>
    cases hstep
    exact .inl (hsame (mkdir_same ..))
  | chmod path fail | chown path fail =>
    cases hstep
    exact .inl (hsame (chmod_same ..))
  | rmdir path fail =>
    cases hstep
    exact .inl (unlessVirtual_total_le hle (settle_total_le hle fun _ => Tree.rmdir_total_le))
  | rename old new fail =>
    cases hstep
    exact .inl (unlessVirtual_total_le hle (unlessVirtual_total_le hle
      (settle_total_le hle fun _ => Tree.rename_total_le)))
  | unlink path fail =>
    cases hstep
    exact .inl (unlessVirtual_total_le hle (settle_total_le hle fun _ => Tree.unlink_total_le))

/-- One operation within the quota keeps the total within it. -/
theorem step_total_le {w' : World} {op : Op} (hw : w.tree.total ≤ cfg.maxSize)
    (hguard : WithinQuota cfg w op) (hstep : step cfg w op = some w') :
    w'.tree.total ≤ cfg.maxSize := by
  have hfull : w.tree.total + (cfg.maxSize - w.tree.total) ≤ cfg.maxSize := by omega
  rcases step_total hstep with
    hle | ⟨h, path, size, offset, calls, fi, rfl, hfi, rfl⟩ | ⟨path, size, fail, rfl, rfl⟩
  · exact hle.trans hw
  · have hroom := hguard.write h path size offset calls rfl
    exact (write_grows fun d ino n => hroom fi d ino n hfi).trans hfull
  · exact (truncate_grows (hguard.truncate path size fail rfl)).trans hfull

end Quota

/-- **The files stay within the quota** in every run whose writes and truncations do. -/
theorem limitfs_within_quota (cfg : Config) {w₀ w : World} (h₀ : w₀.tree.total ≤ cfg.maxSize)
    (hreach : Reach (step cfg) (WithinQuota cfg) w₀ w) : w.tree.total ≤ cfg.maxSize :=
  hreach.invariant (I := fun w => w.tree.total ≤ cfg.maxSize) h₀ step_total_le

/-- The file `b` is enlarged by all that is left. -/
theorem limitfs_within_quota_full :
    ∃ w, Reach (step sampleConfig) (WithinQuota sampleConfig) (mounted sampleConfig sampleTree) w ∧
      w.tree.total = 20 ∧ w.tree.total ≤ sampleConfig.maxSize := by
  obtain ⟨w, hstep, htotal⟩ : ∃ w, step sampleConfig (mounted sampleConfig sampleTree)
      (.truncate ["b"] 10 none) = some w ∧ w.tree.total = 20 := ⟨_, rfl, rfl⟩
  have hguard : WithinQuota sampleConfig (mounted sampleConfig sampleTree)
      (.truncate ["b"] 10 none) := by
    refine ⟨fun _ _ _ _ _ hop => Op.noConfusion hop, ?_⟩
    intro path size fail hop e n hfind hfile
    cases hop
    cases hfind
    cases hfile
    decide
  have hreach := Reach.init.tail hguard hstep
  exact ⟨w, hreach, htotal, limitfs_within_quota sampleConfig (by decide) hreach⟩

/-- 15 of 20 bytes are used. A write of 100 bytes is not refused, and neither is a truncation
of a file to 100 bytes. -/
theorem limitfs_exceeds_quota :
    (mounted sampleConfig sampleTree).curSize = (mounted sampleConfig sampleTree).tree.total ∧
    (mounted sampleConfig sampleTree).tree.total ≤ sampleConfig.maxSize ∧
    (∃ w, Reach (step sampleConfig) anyStep (mounted sampleConfig sampleTree) w ∧
      w.tree.total = 115) ∧
    ∃ w, Reach (step sampleConfig) anyStep (mounted sampleConfig sampleTree) w ∧
      w.tree.total = 105 := by
  obtain ⟨w, hrun, htotal⟩ : ∃ w,
      runFrom (step sampleConfig) (mounted sampleConfig sampleTree)
        [.openFile 0 ["a"] 3 none, .write 0 ["a"] 100 10 ⟨none, .ok 100, none⟩] = some w ∧
      w.tree.total = 115 :=
    ⟨_, rfl, rfl⟩
  obtain ⟨w', hrun', htotal'⟩ : ∃ w,
      runFrom (step sampleConfig) (mounted sampleConfig sampleTree) [.truncate ["a"] 100 none] =
        some w ∧ w.tree.total = 105 :=
    ⟨_, rfl, rfl⟩
  exact ⟨rfl, by decide, ⟨w, reach_runFrom hrun, htotal⟩, ⟨w', reach_runFrom hrun', htotal'⟩⟩

end LinuxDeviceDriver.Limitfs
