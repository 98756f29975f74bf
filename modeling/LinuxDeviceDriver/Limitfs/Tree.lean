import Mathlib.Data.List.Nodup
import Mathlib.Order.Nat

/-!
# A directory tree and the calls that change it

The tree under `src`, as the system calls of `limitfs.c` see it: a table of inodes, each with
the directory it is in and its name there. There are no links, so an inode stands in the table
once, and a name stands in a directory once; a `Tree` carries both facts.

Every call takes an argument `fail`: `some e` when it fails for a reason that is not in the
tree (no permission, an I/O error, a full disk). A call that fails leaves the tree alone.

- `total`: the size of all regular files together.
- `total_resize`, `total_erase_le`, `total_insert`, `total_put`: what the changes do to it, and
  from them what the calls do (`create_total`, `unlink_total_le`, `rename_total`, ...).
-/

namespace LinuxDeviceDriver.Limitfs

/-! ## Trees -/

/-- Error codes of the system calls; the last constructor is any other code, `n + 1`. -/
inductive SysError
  | enoent
  | ebadf
  | eexist
  | enotdir
  | eisdir
  | einval
  | emfile
  | enospc
  | enotempty
  | enobufs
  | other (n : Nat)
deriving DecidableEq

/-- `-errno` -/
def SysError.neg : SysError → Int
  | enoent => -2
  | ebadf => -9
  | eexist => -17
  | enotdir => -20
  | eisdir => -21
  | einval => -22
  | emfile => -24
  | enospc => -28
  | enotempty => -39
  | enobufs => -105
  | other n => -(n + 1)

theorem SysError.neg_ne_zero (e : SysError) : e.neg ≠ 0 := by
  cases e with
  | other n =>
    show -((n : Int) + 1) ≠ 0
    omega
  | _ => decide

/-- The components of a path, from the root of the file system on. -/
abbrev Path := List String

/-- What an inode is, with its `st_size`. -/
inductive Node
  | file (size : Nat)
  | dir (stSize : Nat)
  | special
deriving DecidableEq

/-- What the inode counts for in the size of the tree. -/
def Node.size : Node → Nat
  | file size => size
  | _ => 0

/-- `st_size` -/
def Node.stSize : Node → Nat
  | file size => size
  | dir stSize => stSize
  | special => 0

def Node.isDir : Node → Bool
  | dir _ => true
  | _ => false

/-- What is not a directory counts with its `st_size`. -/
theorem Node.stSize_eq_size {n : Node} (h : n.isDir = false) : n.stSize = n.size := by
  cases n with
  | dir _ => cases h
  | file _ => rfl
  | special => rfl

theorem Node.size_of_isDir {n : Node} (h : n.isDir = true) : n.size = 0 := by
  cases n with
  | dir _ => rfl
  | file _ => cases h
  | special => rfl

structure Entry where
  ino : Nat
  parent : Nat
  name : String
  node : Node
deriving DecidableEq

/-- Where an entry is. -/
def Entry.place (e : Entry) : Nat × String := (e.parent, e.name)

structure Tree where
  entries : List Entry
  inos : (entries.map Entry.ino).Nodup
  places : (entries.map Entry.place).Nodup

namespace Tree

/-- The inode of `src` itself. -/
def root : Nat := 0

/-- The size of some entries together. -/
def sizes (l : List Entry) : Nat := (l.map fun e => e.node.size).foldr (· + ·) 0

/-- The size of all regular files together. -/
def total (t : Tree) : Nat := sizes t.entries

def child (t : Tree) (d : Nat) (name : String) : Option Entry :=
  t.entries.find? fun e => e.place = (d, name)

/-- The directory that a path leads to. -/
def dirOf (t : Tree) : Nat → Path → Option Nat
  | d, [] => some d
  | d, name :: rest =>
    match t.child d name with
    | some e => if e.node.isDir then t.dirOf e.ino rest else none
    | none => none

/-- The directory and the name that a path stands for, whether there is such an entry or not. -/
def locate (t : Tree) (path : Path) : Option (Nat × String) :=
  match path.getLast? with
  | none => none
  | some name => (t.dirOf root path.dropLast).map fun d => (d, name)

def find (t : Tree) (path : Path) : Option Entry :=
  match t.locate path with
  | none => none
  | some (d, name) => t.child d name

/-- Why a path is not found, or is no directory: `ENOENT` at the first name that is missing,
`ENOTDIR` at the first that is something else. -/
def lookupError (t : Tree) : Nat → Path → SysError
  | _, [] => .enoent
  | d, name :: rest =>
    match t.child d name with
    | some e => if e.node.isDir then t.lookupError e.ino rest else .enotdir
    | none => .enoent

/-- The size of a regular file of the tree. -/
def fileSize (t : Tree) (ino : Nat) : Option Nat :=
  match t.entries.find? fun e => e.ino = ino with
  | some ⟨_, _, _, .file size⟩ => some size
  | _ => none

/-! ## Changes -/

/-- Give a regular file a new size. -/
def Entry.resized (size : Nat) (e : Entry) : Entry :=
  match e.node with
  | .file _ => { e with node := .file size }
  | _ => e

theorem Entry.resized_ino (size : Nat) (e : Entry) : (Entry.resized size e).ino = e.ino := by
  unfold Entry.resized
  split <;> rfl

theorem Entry.resized_place (size : Nat) (e : Entry) :
    (Entry.resized size e).place = e.place := by
  unfold Entry.resized
  split <;> rfl

/-- Apply `f` to the entry of `ino`. -/
def modifyIno (ino : Nat) (f : Entry → Entry) (e : Entry) : Entry := if e.ino = ino then f e else e

theorem modifyIno_keeps {β : Type} (ino : Nat) {f : Entry → Entry} {g : Entry → β}
    (h : ∀ e, g (f e) = g e) (l : List Entry) :
    (l.map (modifyIno ino f)).map g = l.map g := by
  rw [List.map_map]
  refine List.map_congr_left fun e _ => ?_
  show g (modifyIno ino f e) = g e
  unfold modifyIno
  split
  · exact h e
  · rfl

def resize (t : Tree) (ino size : Nat) : Tree where
  entries := t.entries.map (modifyIno ino (Entry.resized size))
  inos := by
    rw [modifyIno_keeps ino (Entry.resized_ino size)]
    exact t.inos
  places := by
    rw [modifyIno_keeps ino (Entry.resized_place size)]
    exact t.places

def erase (t : Tree) (ino : Nat) : Tree where
  entries := t.entries.filter fun e => e.ino ≠ ino
  inos := t.inos.sublist (List.filter_sublist.map _)
  places := t.places.sublist (List.filter_sublist.map _)

/-- A new inode; there is none, or the name is taken. -/
def insert (t : Tree) (e : Entry) : Except SysError Tree :=
  if hplace : e.place ∈ t.entries.map Entry.place then .error .eexist
  else if hino : e.ino ∈ t.entries.map Entry.ino then .error .enospc
  else .ok {
    entries := e :: t.entries
    inos := List.nodup_cons.mpr ⟨hino, t.inos⟩
    places := List.nodup_cons.mpr ⟨hplace, t.places⟩ }

/-- An inode has one entry. -/
theorem eq_of_ino (t : Tree) {e e' : Entry} (he : e ∈ t.entries) (he' : e' ∈ t.entries)
    (h : e.ino = e'.ino) : e = e' :=
  List.inj_on_of_nodup_map t.inos he he' h

/-- A place has one entry. -/
theorem eq_of_place (t : Tree) {e e' : Entry} (he : e ∈ t.entries) (he' : e' ∈ t.entries)
    (h : e.place = e'.place) : e = e' :=
  List.inj_on_of_nodup_map t.places he he' h

/-- The entries without what is at a place, other than `ino`. -/
def cleared (t : Tree) (ino : Nat) (place : Nat × String) : List Entry :=
  t.entries.filter fun e => e.ino = ino ∨ e.place ≠ place

theorem mem_cleared {t : Tree} {ino : Nat} {place : Nat × String} {e : Entry} :
    e ∈ t.cleared ino place ↔ e ∈ t.entries ∧ (e.ino = ino ∨ e.place ≠ place) := by
  simp [cleared]

/-- The entry at its new place. -/
def moved (place : Nat × String) (e : Entry) : Entry :=
  { e with parent := place.1, name := place.2 }

theorem moved_ino (place : Nat × String) (e : Entry) : (moved place e).ino = e.ino := rfl

/-- Moving keeps names apart, because nothing else is left at the new place. -/
theorem modifyIno_moved_inj (t : Tree) {ino : Nat} {place : Nat × String} {e e' : Entry}
    (he : e ∈ t.cleared ino place) (he' : e' ∈ t.cleared ino place)
    (h : (modifyIno ino (moved place) e).place = (modifyIno ino (moved place) e').place) :
    e = e' := by
  obtain ⟨hmem, hfree⟩ := mem_cleared.mp he
  obtain ⟨hmem', hfree'⟩ := mem_cleared.mp he'
  unfold modifyIno at h
  split at h
  · next hino =>
    split at h
    · next hino' => exact t.eq_of_ino hmem hmem' (hino.trans hino'.symm)
    · next hino' => exact absurd h.symm (hfree'.resolve_left hino')
  · next hino =>
    split at h
    · exact absurd h (hfree.resolve_left hino)
    · exact t.eq_of_place hmem hmem' h

/-- Move an inode to a place, over what is there. -/
def put (t : Tree) (ino : Nat) (place : Nat × String) : Tree where
  entries := (t.cleared ino place).map (modifyIno ino (moved place))
  inos := by
    rw [modifyIno_keeps ino (moved_ino place)]
    exact t.inos.sublist (List.filter_sublist.map _)
  places := by
    have hnodup : (t.cleared ino place).Nodup :=
      (t.inos.of_map _).sublist List.filter_sublist
    rw [List.map_map]
    exact hnodup.map_on fun e he e' he' => t.modifyIno_moved_inj he he'

/-! ## System calls -/

section Calls

variable (t : Tree) (fail : Option SysError)

/-- A call that may fail for a reason of its own. -/
def call (body : Except SysError Tree) : Except SysError Tree :=
  match fail with
  | some e => .error e
  | none => body

/-- `open` with `O_CREAT | O_EXCL`, `mkfifo`, `mknod`, `mkdir`: make an inode. -/
def create (path : Path) (ino : Nat) (node : Node) : Except SysError Tree :=
  call fail <|
    match t.locate path with
    | none => .error (t.lookupError root path.dropLast)
    | some (d, name) => t.insert ⟨ino, d, name, node⟩

def truncate (path : Path) (size : Int) : Except SysError Tree :=
  call fail <|
    match t.find path with
    | none => .error (t.lookupError root path)
    | some e =>
      match e.node with
      | .dir _ => .error .eisdir
      | .special => .error .einval
      | .file _ => if size < 0 then .error .einval else .ok (t.resize e.ino size.toNat)

def unlink (path : Path) : Except SysError Tree :=
  call fail <|
    match t.find path with
    | none => .error (t.lookupError root path)
    | some e => if e.node.isDir then .error .eisdir else .ok (t.erase e.ino)

/-- Nothing is in the directory. -/
def isEmpty (d : Nat) : Bool := t.entries.all fun e => e.parent ≠ d

def rmdir (path : Path) : Except SysError Tree :=
  call fail <|
    match t.find path with
    | none => .error (t.lookupError root path)
    | some e =>
      if !e.node.isDir then .error .enotdir
      else if !t.isEmpty e.ino then .error .enotempty
      else .ok (t.erase e.ino)

/-- `rename`: the target is replaced when it is of the same kind, a directory only when it is
empty; a directory does not go below itself. -/
def rename (old new : Path) : Except SysError Tree :=
  call fail <|
    match t.find old, t.locate new with
    | none, _ => .error (t.lookupError root old)
    | some _, none => .error (t.lookupError root new.dropLast)
    | some e, some (d, name) =>
      if e.node.isDir ∧ old ≠ new ∧ old.isPrefixOf new then .error .einval
      else
        match t.child d name with
        | none => .ok (t.put e.ino (d, name))
        | some target =>
          if target.ino = e.ino then .ok t
          else if e.node.isDir ∧ !target.node.isDir then .error .enotdir
          else if !e.node.isDir ∧ target.node.isDir then .error .eisdir
          else if target.node.isDir ∧ !t.isEmpty target.ino then .error .enotempty
          else .ok (t.put e.ino (d, name))

/-- `chmod`, `lchown`: nothing that is modelled changes. -/
def touch (path : Path) : Except SysError Tree :=
  call fail <|
    match t.find path with
    | none => .error (t.lookupError root path)
    | some _ => .ok t

/-- What a successful `pwrite` of `count` bytes does to the file of an inode. -/
def writeAt (ino offset count : Nat) : Tree :=
  match t.fileSize ino with
  | none => t
  | some size => if count = 0 then t else t.resize ino (max size (offset + count))

end Calls

/-! ## Entries that are found -/

theorem child_mem {t : Tree} {d : Nat} {name : String} {e : Entry} (h : t.child d name = some e) :
    e ∈ t.entries ∧ e.place = (d, name) :=
  ⟨List.mem_of_find?_eq_some h, by simpa using List.find?_some h⟩

theorem find_mem {t : Tree} {path : Path} {e : Entry} (h : t.find path = some e) :
    e ∈ t.entries := by
  unfold find at h
  split at h
  · cases h
  · exact (child_mem h).1

/-- What is looked up by a key that entries have once is found. -/
theorem find_by_key {β : Type} [DecidableEq β] {l : List Entry} {g : Entry → β}
    (hnodup : (l.map g).Nodup) {e : Entry} (he : e ∈ l) :
    l.find? (fun x => g x = g e) = some e := by
  cases hfound : l.find? (fun x => g x = g e) with
  | none =>
    have hne : g e ≠ g e := by simpa using List.find?_eq_none.mp hfound e he
    exact absurd rfl hne
  | some x =>
    have hkey : g x = g e := by simpa using List.find?_some hfound
    rw [List.inj_on_of_nodup_map hnodup (List.mem_of_find?_eq_some hfound) he hkey]

theorem find_of_mem {t : Tree} {path : Path} {e : Entry} (he : e ∈ t.entries)
    (hplace : t.locate path = some e.place) : t.find path = some e := by
  unfold find
  rw [hplace]
  exact find_by_key t.places he

theorem fileSize_of_mem {t : Tree} {e : Entry} {size : Nat} (he : e ∈ t.entries)
    (hfile : e.node = .file size) : t.fileSize e.ino = some size := by
  obtain ⟨ino, parent, name, node⟩ := e
  cases hfile
  unfold fileSize
  rw [find_by_key t.inos he]

theorem mem_of_fileSize {t : Tree} {ino size : Nat} (h : t.fileSize ino = some size) :
    ∃ e ∈ t.entries, e.ino = ino ∧ e.node = .file size := by
  unfold fileSize at h
  split at h
  · next hfound =>
    cases h
    exact ⟨_, List.mem_of_find?_eq_some hfound, by simpa using List.find?_some hfound, rfl⟩
  · cases h

theorem resized_isDir (size : Nat) (e : Entry) :
    (Entry.resized size e).node.isDir = e.node.isDir := by
  unfold Entry.resized
  split
  · next hfile => rw [hfile]; rfl
  · rfl

theorem child_resize (t : Tree) (ino size d : Nat) (name : String) :
    (t.resize ino size).child d name =
      (t.child d name).map (modifyIno ino (Entry.resized size)) := by
  have hplace : ∀ e, (modifyIno ino (Entry.resized size) e).place = e.place := by
    intro e
    unfold modifyIno
    split
    · exact Entry.resized_place size e
    · rfl
  show (t.entries.map _).find? _ = _
  rw [List.find?_map]
  congr 2
  funext e
  show decide ((modifyIno ino (Entry.resized size) e).place = (d, name)) = _
  rw [hplace]

/-- A new size does not change where paths lead. -/
theorem dirOf_resize (t : Tree) (ino size : Nat) (path : Path) :
    ∀ d, (t.resize ino size).dirOf d path = t.dirOf d path := by
  have hino : ∀ e, (modifyIno ino (Entry.resized size) e).ino = e.ino := by
    intro e
    unfold modifyIno
    split
    · exact Entry.resized_ino size e
    · rfl
  have hdir : ∀ e, (modifyIno ino (Entry.resized size) e).node.isDir = e.node.isDir := by
    intro e
    unfold modifyIno
    split
    · exact resized_isDir size e
    · rfl
  induction path with
  | nil => exact fun _ => rfl
  | cons name rest ih =>
    intro d
    unfold dirOf
    rw [child_resize]
    cases t.child d name with
    | none => rfl
    | some e =>
      show (if (modifyIno ino (Entry.resized size) e).node.isDir then _ else _) = _
      rw [hdir, hino, ih]

theorem find_resize (t : Tree) (ino size : Nat) (path : Path) :
    (t.resize ino size).find path =
      (t.find path).map (modifyIno ino (Entry.resized size)) := by
  have hlocate : (t.resize ino size).locate path = t.locate path := by
    simp only [locate, dirOf_resize]
  unfold find
  rw [hlocate]
  cases t.locate path with
  | none => rfl
  | some place => exact child_resize t ino size place.1 place.2

/-- The file that has a new size is found with it. -/
theorem stSize_find_resize {t : Tree} {path : Path} {e : Entry} {size : Nat}
    (hfind : t.find path = some e) (hfile : e.node = .file size) (n : Nat) :
    ((t.resize e.ino n).find path).map (fun e => e.node.stSize) = some n := by
  rw [find_resize, hfind]
  show some (modifyIno e.ino (Entry.resized n) e).node.stSize = some n
  rw [modifyIno, if_pos rfl, Entry.resized, hfile]
  rfl

/-! ## The total -/

theorem sizes_cons (e : Entry) (l : List Entry) : sizes (e :: l) = e.node.size + sizes l := rfl

theorem modifyIno_of_notMem {ino : Nat} {l : List Entry} (h : ino ∉ l.map Entry.ino)
    (f : Entry → Entry) : l.map (modifyIno ino f) = l := by
  refine (List.map_congr_left fun e he => ?_).trans (List.map_id l)
  refine if_neg fun hino => h ?_
  exact hino ▸ List.mem_map_of_mem he

/-- Modifying one entry exchanges its size for the new one. -/
theorem sizes_modifyIno {f : Entry → Entry} {e : Entry} {l : List Entry}
    (hnodup : (l.map Entry.ino).Nodup) (he : e ∈ l) :
    sizes (l.map (modifyIno e.ino f)) + e.node.size = sizes l + (f e).node.size := by
  induction l with
  | nil => cases he
  | cons x l ih =>
    obtain ⟨hx, hl⟩ := List.nodup_cons.mp hnodup
    rw [List.map_cons, sizes_cons, sizes_cons]
    rcases List.mem_cons.mp he with rfl | hmem
    · rw [modifyIno_of_notMem hx, modifyIno, if_pos rfl]
      omega
    · have hne : x.ino ≠ e.ino := fun heq => hx (heq ▸ List.mem_map_of_mem hmem)
      have hrest := ih hl hmem
      rw [modifyIno, if_neg hne]
      omega

/-- Dropping entries drops their sizes. -/
theorem sizes_filter_le (p : Entry → Bool) (l : List Entry) : sizes (l.filter p) ≤ sizes l := by
  induction l with
  | nil => exact Nat.le_refl 0
  | cons x l ih =>
    rw [List.filter_cons]
    split
    · rw [sizes_cons, sizes_cons]
      omega
    · rw [sizes_cons]
      omega

theorem sizes_filter_eq {p : Entry → Bool} {l : List Entry}
    (h : ∀ e ∈ l, p e = false → e.node.size = 0) : sizes (l.filter p) = sizes l := by
  induction l with
  | nil => rfl
  | cons x l ih =>
    have hrest := ih fun e he => h e (List.mem_cons_of_mem _ he)
    rw [List.filter_cons]
    split
    · rw [sizes_cons, sizes_cons, hrest]
    · next hx =>
      rw [sizes_cons, hrest, h x List.mem_cons_self (by simpa using hx), Nat.zero_add]

/-- A file counts in the total. -/
theorem size_le_total {t : Tree} {e : Entry} (he : e ∈ t.entries) : e.node.size ≤ t.total := by
  unfold total
  revert he
  induction t.entries with
  | nil => exact fun he => absurd he List.not_mem_nil
  | cons x l ih =>
    intro he
    rw [sizes_cons]
    rcases List.mem_cons.mp he with rfl | hmem
    · exact Nat.le_add_right ..
    · exact (ih hmem).trans (Nat.le_add_left ..)

theorem total_resize {t : Tree} {e : Entry} {size : Nat} (he : e ∈ t.entries)
    (hfile : e.node = .file size) (n : Nat) : (t.resize e.ino n).total + size = t.total + n := by
  have hsum := sizes_modifyIno (f := Entry.resized n) t.inos he
  have hnew : (Entry.resized n e).node.size = n := by
    unfold Entry.resized
    rw [hfile]
    rfl
  rw [hnew, hfile] at hsum
  exact hsum

theorem total_erase_le (t : Tree) (ino : Nat) : (t.erase ino).total ≤ t.total :=
  sizes_filter_le ..

theorem total_insert {t t' : Tree} {e : Entry} (h : t.insert e = .ok t') :
    t'.total = e.node.size + t.total := by
  unfold insert at h
  split at h
  · cases h
  · split at h
    · cases h
    · cases h
      exact sizes_cons ..

theorem total_put (t : Tree) (ino : Nat) (place : Nat × String) :
    (t.put ino place).total = sizes (t.cleared ino place) := by
  have hsame : ∀ e, (moved place e).node.size = e.node.size := fun _ => rfl
  exact congrArg (List.foldr (· + ·) 0) (modifyIno_keeps ino hsame _)

/-! ## What the calls do to it -/

variable {t t' : Tree} {fail : Option SysError} {path : Path}

theorem call_ok {body : Except SysError Tree} (h : call fail body = .ok t') : body = .ok t' := by
  unfold call at h
  split at h
  · cases h
  · exact h

theorem create_total {ino : Nat} {node : Node} (h : t.create fail path ino node = .ok t') :
    t'.total = node.size + t.total := by
  have hbody := call_ok h
  split at hbody
  · cases hbody
  · exact total_insert hbody

theorem truncate_ok {size : Int} (h : t.truncate fail path size = .ok t') :
    ∃ e k, t.find path = some e ∧ e.node = .file k ∧ t' = t.resize e.ino size.toNat := by
  have hbody := call_ok h
  split at hbody
  · cases hbody
  · next e hfind =>
    split at hbody
    · cases hbody
    · cases hbody
    · next k hfile =>
      split at hbody
      · cases hbody
      · cases hbody
        exact ⟨e, k, hfind, hfile, rfl⟩

theorem unlink_total_le (h : t.unlink fail path = .ok t') : t'.total ≤ t.total := by
  have hbody := call_ok h
  split at hbody
  · cases hbody
  · split at hbody
    · cases hbody
    · cases hbody
      exact total_erase_le ..

theorem rmdir_total_le (h : t.rmdir fail path = .ok t') : t'.total ≤ t.total := by
  have hbody := call_ok h
  split at hbody
  · cases hbody
  · split at hbody
    · cases hbody
    · split at hbody
      · cases hbody
      · cases hbody
        exact total_erase_le ..

theorem rename_ok {new : Path} (h : t.rename fail path new = .ok t') :
    t' = t ∨ ∃ e place, t.find path = some e ∧ t.locate new = some place ∧
      t' = t.put e.ino place := by
  have hbody := call_ok h
  split at hbody
  · cases hbody
  · cases hbody
  · next e d name hfind hlocate =>
    have hput : ∀ {x}, .ok (t.put e.ino (d, name)) = (.ok x : Except SysError Tree) →
        x = t ∨ ∃ e place, t.find path = some e ∧ t.locate new = some place ∧
          x = t.put e.ino place := by
      intro x hx
      cases hx
      exact Or.inr ⟨e, (d, name), hfind, hlocate, rfl⟩
    split at hbody
    · cases hbody
    · split at hbody
      · exact hput hbody
      · split at hbody
        · cases hbody
          exact Or.inl rfl
        · split at hbody
          · cases hbody
          · split at hbody
            · cases hbody
            · split at hbody
              · cases hbody
              · exact hput hbody

theorem rename_total_le {new : Path} (h : t.rename fail path new = .ok t') :
    t'.total ≤ t.total := by
  rcases rename_ok h with rfl | ⟨e, place, -, -, rfl⟩
  · exact le_rfl
  · rw [total_put]
    exact sizes_filter_le ..

/-- Renaming changes the total only by replacing a file that is not empty. -/
theorem rename_total {new : Path} (h : t.rename fail path new = .ok t')
    (hempty : ∀ e target, t.find path = some e → t.find new = some target → e.ino ≠ target.ino →
      target.node.size = 0) : t'.total = t.total := by
  rcases rename_ok h with rfl | ⟨e, place, hfind, hlocate, rfl⟩
  · rfl
  · rw [total_put]
    refine sizes_filter_eq fun x hx hdropped => ?_
    obtain ⟨hino, hplace⟩ : x.ino ≠ e.ino ∧ x.place = place := by simpa using hdropped
    exact hempty e x hfind (find_of_mem hx (hplace ▸ hlocate)) (Ne.symm hino)

theorem touch_ok (h : t.touch fail path = .ok t') : t' = t := by
  have hbody := call_ok h
  split at hbody
  · cases hbody
  · cases hbody
    rfl

/-- Writing makes a file end at least where the data end. -/
theorem writeAt_cases (t : Tree) (ino offset count : Nat) :
    t.writeAt ino offset count = t ∨ ∃ e size, e ∈ t.entries ∧ e.ino = ino ∧ e.node = .file size ∧
      t.writeAt ino offset count = t.resize ino (max size (offset + count)) := by
  unfold writeAt
  split
  · exact Or.inl rfl
  · next size hsize =>
    obtain ⟨e, he, hino, hfile⟩ := mem_of_fileSize hsize
    split
    · exact Or.inl rfl
    · exact Or.inr ⟨e, size, he, hino, hfile, rfl⟩

end Tree

end LinuxDeviceDriver.Limitfs
