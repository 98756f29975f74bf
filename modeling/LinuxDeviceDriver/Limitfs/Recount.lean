import Mathlib.Data.List.Perm.Basic
import LinuxDeviceDriver.Limitfs.DirSize

/-!
# Counting again: `limitfs_truncate`, `limitfs_rmdir`, `limitfs_unlink`

The three operations call `get_dir_size(src, &cur_size)` behind their system call. The walk adds
up in `cur_size` itself, so a walk that fails leaves what it had counted by then there; the
operation prints a warning and goes on.

`Operations` has the same operations with an exact count. `recounting_exact` says when the walk
gives that: the listing is one of the tree, and nothing in it is counted again.
-/

namespace LinuxDeviceDriver.Limitfs

/-- How a count goes: the text of `src`, what `readdir` lists of a tree, how many calls of
`opendir` and `stat` succeed, and what the next one sets `errno` to. -/
structure Recount where
  src : String
  listing : Tree → Listing
  succeed : Nat
  error : SysError

namespace Recount

/-- `get_dir_size(src, &cur_size)` behind a call; `none` when the walk overruns a buffer. -/
def run (rc : Recount) (cfg : Config) (r : Int × World) : Option (Int × World) :=
  match (rc.listing r.2.tree).getDirSize cfg rc.src rc.succeed with
  | .done size _ => some (r.1, { r.2 with curSize := size })
  -- a warning is printed; `-errno` is then about the count and not about the system call
  | .failed size => some (if r.1 = 0 then 0 else rc.error.neg, { r.2 with curSize := size })
  | .overrun => none

def unlessVirtual (rc : Recount) (cfg : Config) (path : Path) (res : Except SysError Tree)
    (w : World) : Option (Int × World) :=
  if isVirtual path then some (-1, w) else rc.run cfg (w.settle res)

def limitfsTruncate (rc : Recount) (cfg : Config) (path : Path) (size : Int)
    (fail : Option SysError) (w : World) : Option (Int × World) :=
  rc.unlessVirtual cfg path (w.tree.truncate fail path size) w

def limitfsRmdir (rc : Recount) (cfg : Config) (path : Path) (fail : Option SysError)
    (w : World) : Option (Int × World) :=
  rc.unlessVirtual cfg path (w.tree.rmdir fail path) w

def limitfsUnlink (rc : Recount) (cfg : Config) (path : Path) (fail : Option SysError)
    (w : World) : Option (Int × World) :=
  rc.unlessVirtual cfg path (w.tree.unlink fail path) w

/-! ## Counts that fail -/

/-- A call in the walk of this tree fails. -/
def Fails (rc : Recount) (t : Tree) : Prop := rc.succeed ≤ (rc.listing t).calls

/-- Until the call that fails, every path fits, and `size` is counted. -/
def HasCounted (rc : Recount) (cfg : Config) (t : Tree) (size : Nat) : Prop :=
  (0 < rc.succeed → (rc.listing t).Fits rc.src (rc.succeed - 1)) ∧
    ((rc.listing t).before (rc.succeed - 1)).counted % 2 ^ cfg.longBits = size

/-- The operation returns, with this `cur_size`. -/
def LeavesSize (r : Option (Int × World)) (size : Nat) : Prop :=
  ∃ ret w, r = some (ret, w) ∧ w.curSize = size

section Failed

variable {rc : Recount} {cfg : Config}

theorem run_failed_iff {r : Int × World} (hfails : rc.Fails r.2.tree) (size : Nat) :
    LeavesSize (rc.run cfg r) size ↔ rc.HasCounted cfg r.2.tree size := by
  unfold LeavesSize HasCounted run
  rw [Listing.getDirSize_failed hfails]
  by_cases hfits : 0 < rc.succeed → (rc.listing r.2.tree).Fits rc.src (rc.succeed - 1)
  · rw [if_pos hfits]
    constructor
    · rintro ⟨ret, w, hrun, rfl⟩
      cases hrun
      exact ⟨hfits, rfl⟩
    · rintro ⟨-, hsize⟩
      exact ⟨_, _, rfl, hsize⟩
  · rw [if_neg hfits]
    refine iff_of_false ?_ fun h => hfits h.1
    rintro ⟨ret, w, hrun, -⟩
    cases hrun

/-- A path of the tree is counted behind whatever its call has done. -/
theorem unlessVirtual_failed_iff {path : Path} (hpath : isVirtual path = false)
    {res : Except SysError Tree} {w : World} (hfails : rc.Fails (w.settle res).2.tree) :
    LeavesSize (rc.unlessVirtual cfg path res w) w.curSize ↔
      rc.HasCounted cfg (w.settle res).2.tree w.curSize := by
  unfold unlessVirtual
  rw [hpath]
  exact run_failed_iff hfails w.curSize

end Failed

/-- **A count that fails keeps `cur_size` only by chance**: an operation whose walk meets a call
that fails leaves `cur_size` as it was exactly when the entries before that call count to it. -/
theorem failed_recount_iff (rc : Recount) (cfg : Config) (w : World) {path : Path}
    (hpath : isVirtual path = false) (fail : Option SysError) :
    (∀ size, rc.Fails (w.settle (w.tree.truncate fail path size)).2.tree →
      (LeavesSize (rc.limitfsTruncate cfg path size fail w) w.curSize ↔
        rc.HasCounted cfg (w.settle (w.tree.truncate fail path size)).2.tree w.curSize)) ∧
    (rc.Fails (w.settle (w.tree.rmdir fail path)).2.tree →
      (LeavesSize (rc.limitfsRmdir cfg path fail w) w.curSize ↔
        rc.HasCounted cfg (w.settle (w.tree.rmdir fail path)).2.tree w.curSize)) ∧
    (rc.Fails (w.settle (w.tree.unlink fail path)).2.tree →
      (LeavesSize (rc.limitfsUnlink cfg path fail w) w.curSize ↔
        rc.HasCounted cfg (w.settle (w.tree.unlink fail path)).2.tree w.curSize)) :=
  ⟨fun _ => unlessVirtual_failed_iff hpath, unlessVirtual_failed_iff hpath,
    unlessVirtual_failed_iff hpath⟩

/-- In `src` are the files "a" and "b" of 10 and 5 bytes, and the first `stat` on "b" fails. -/
def statFails : Recount where
  src := "src"
  listing := fun _ => .file Listing.nameA 10 (.file Listing.nameB 5 .nil)
  succeed := 3
  error := .other 4

/-- The three sample files, with 10 in `cur_size`. -/
def countedTen : World := { mounted sampleConfig sampleTree with curSize := 10 }

/-- `unlink` of the empty file "c": the walk gets to 10 again. -/
theorem failed_recount_same :
    LeavesSize (statFails.limitfsUnlink sampleConfig ["c"] none countedTen) 10 := by
  have hpath : isVirtual ["c"] = false := by decide
  have hfails : statFails.succeed ≤ (statFails.listing sampleTree).calls := by decide
  have hcounted : statFails.HasCounted sampleConfig sampleTree 10 :=
    ⟨fun _ => by decide +kernel, by decide +kernel⟩
  exact ((failed_recount_iff statFails sampleConfig countedTen hpath none).2.2 hfails).mpr hcounted

/-- When all three files were counted, `unlink` of the empty one lowers `cur_size` to 10. -/
theorem failed_recount_lowers :
    (mounted sampleConfig sampleTree).curSize = 15 ∧
    LeavesSize (statFails.limitfsUnlink sampleConfig ["c"] none
      (mounted sampleConfig sampleTree)) 10 :=
  ⟨by decide, _, _, rfl, rfl⟩

end Recount

/-! ## Counts that are exact -/

/-- `l` lists the entries `es` of a directory in this order; `below` are they and all that is
below them. -/
inductive Lists (t : Tree) : List Entry → Listing → List Entry → Prop
  | nil : Lists t [] .nil []
  | dots {es below : List Entry} {l : Listing} :
      Lists t es l below → Lists t es (.dots l) below
  | file {e : Entry} {es below : List Entry} {name : Name} {l : Listing} :
      e.node.isDir = false → name.val = e.name → Lists t es l below →
      Lists t (e :: es) (.file name e.node.stSize l) (e :: below)
  | dir {e : Entry} {es es' below below' : List Entry} {name : Name} {sub l : Listing} :
      e.node.isDir = true → name.val = e.name →
      es'.Perm (t.entries.filter fun x => x.parent = e.ino) → Lists t es' sub below' →
      Lists t es l below → Lists t (e :: es) (.dir name sub l) (e :: (below' ++ below))

/-- The listing has the tree: what is in `src`, and all of it. -/
def ListsTree (t : Tree) (l : Listing) : Prop :=
  ∃ es below, es.Perm (t.entries.filter fun x => x.parent = Tree.root) ∧ Lists t es l below ∧
    below.Perm t.entries

theorem sizes_append (l l' : List Entry) :
    Tree.sizes (l ++ l') = Tree.sizes l + Tree.sizes l' := by
  induction l with
  | nil => exact (Nat.zero_add _).symm
  | cons e l ih => rw [List.cons_append, Tree.sizes_cons, Tree.sizes_cons, ih, Nat.add_assoc]

theorem Lists.total {t : Tree} {es below : List Entry} {l : Listing} (h : Lists t es l below) :
    l.total = Tree.sizes below := by
  induction h with
  | nil => rfl
  | dots _ ih => exact ih
  | @file e es below name l hdir _ _ ih =>
    rw [Listing.total, Tree.sizes_cons, ih, Node.stSize_eq_size hdir]
  | @dir e es es' below below' name sub l hdir _ _ _ _ ihSub ihRest =>
    rw [Listing.total, Tree.sizes_cons, sizes_append, ihSub, ihRest, Node.size_of_isDir hdir,
      Nat.zero_add]

theorem ListsTree.total {t : Tree} {l : Listing} (h : ListsTree t l) : l.total = t.total := by
  obtain ⟨es, below, -, hlists, hall⟩ := h
  rw [hlists.total]
  exact (hall.map _).foldr_eq 0

/-- **The exact count**: on a listing of the tree in which no subdirectory stands right behind
an entry that is not empty, with paths that fit and no call that fails, the operations count as
`Operations` has them. -/
theorem Recount.recounting_exact {rc : Recount} {cfg : Config} {path : Path}
    {res : Except SysError Tree} {w : World}
    (hlists : ListsTree (w.settle res).2.tree (rc.listing (w.settle res).2.tree))
    (hapart : (rc.listing (w.settle res).2.tree).Apart)
    (hfits : (rc.listing (w.settle res).2.tree).Fits rc.src (rc.succeed - 1))
    (hcalls : (rc.listing (w.settle res).2.tree).calls < rc.succeed) :
    rc.unlessVirtual cfg path res w = some (w.unlessVirtual path (recount cfg (w.settle res))) := by
  have hcount : (rc.listing (w.settle res).2.tree).counted = (w.settle res).2.tree.total := by
    rw [Listing.counted_eq, (Listing.recounted_eq_zero_iff _).mpr hapart, hlists.total,
      Nat.add_zero]
  unfold Recount.unlessVirtual World.unlessVirtual
  split
  · rfl
  · unfold Recount.run
    rw [Listing.getDirSize_done hcalls, if_pos hfits, hcount]
    rfl

end LinuxDeviceDriver.Limitfs
