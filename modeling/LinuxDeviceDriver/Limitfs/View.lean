import LinuxDeviceDriver.Limitfs.Accounting

/-!
# What is seen through the mount

`limitfs_getattr`, `limitfs_access` and `limitfs_readdir` show the tree under `src`, and two files
more: `cur_size` and `max_size` in the root. Every other operation turns those two names away.

A directory should list what can be looked up in it, and list it once. That fails for a tree that
already has an entry under one of the two names: it is listed twice, and never reached. So the
point is that no operation brings such an entry about (`Proper`), which holds as long as no inode is
given out that is the one of `src` itself; `limitfs_names_agree` then is about every run.

`readdir` lists a directory in any order. The names are in the order of the table here, and nothing
below depends on it.
-/

namespace LinuxDeviceDriver.Limitfs

open Lib

/-! ## Looking and listing -/

/-- What `limitfs_getattr` says a path is, with the `st_size` of a regular file. -/
inductive Attr
  | file (size : Nat)
  | dir
  | special
deriving DecidableEq

def Node.attr : Node → Attr
  | .file size => .file size
  | .dir _ => .dir
  | .special => .special

/-- `lstat`; the empty path is `src` itself. -/
def Tree.lstat (t : Tree) (fail : Option SysError) (path : Path) : Except SysError Attr :=
  match fail, path with
  | some e, _ => .error e
  | none, [] => .ok .dir
  | none, _ =>
    match t.find path with
    | none => .error (t.lookupError Tree.root path)
    | some e => .ok e.node.attr

/-- The virtual files have 128 bytes, whatever is in them. -/
def limitfsGetattr (path : Path) (fail : Option SysError) (w : World) : Except SysError Attr :=
  if isVirtual path then .ok (.file 128) else w.tree.lstat fail path

def limitfsAccess (path : Path) (fail : Option SysError) (w : World) : Int :=
  if isVirtual path then 0
  else
    match w.tree.lstat fail path with
    | .error e => e.neg
    | .ok _ => 0

/-- The names in a directory, without the dots. -/
def Tree.namesIn (t : Tree) (d : Nat) : List String :=
  (t.entries.filter fun e => e.parent = d).map Entry.name

/-- `limitfs_readdir`: what the filler is given, of which it takes `room` names. The virtual files
come first, and before the directory is opened. -/
def limitfsReaddir (path : Path) (fail : Option SysError) (room : Nat) (w : World) :
    Except SysError (List String) :=
  let shown := if path = [] then ["cur_size", "max_size"] else []
  match fail, w.tree.dirOf Tree.root path with
  | some e, _ => .error e
  | none, none => .error (w.tree.lookupError Tree.root path)
  | none, some d => .ok ((shown ++ "." :: ".." :: w.tree.namesIn d).take room)

/-! ## Proper trees -/

/-- Nothing in the tree is `src` itself, or has the name of one of the dots, or stands where a
virtual file is seen. -/
structure Proper (t : Tree) : Prop where
  root : ∀ e ∈ t.entries, e.ino ≠ Tree.root
  dots : ∀ e ∈ t.entries, e.name ≠ "." ∧ e.name ≠ ".."
  real : ∀ e ∈ t.entries, e.parent = Tree.root → e.name ≠ "cur_size" ∧ e.name ≠ "max_size"

/-- FUSE passes no path that ends in a dot, and the file system gives out no inode twice. -/
def Op.Plain : Op → Prop
  | .mknod path _ ino _ _ => ino ≠ Tree.root ∧ path.getLast? ≠ some "." ∧ path.getLast? ≠ some ".."
  | .mkdir path ino _ _ => ino ≠ Tree.root ∧ path.getLast? ≠ some "." ∧ path.getLast? ≠ some ".."
  | .rename _ new _ => new.getLast? ≠ some "." ∧ new.getLast? ≠ some ".."
  | _ => True

section Proper

variable {t t' : Tree} {path : Path} {fail : Option SysError}

/-- A path that goes down ends in a directory of the table. -/
theorem dirOf_mem {d d' : Nat} (h : t.dirOf d path = some d') :
    path = [] ∧ d' = d ∨ ∃ e ∈ t.entries, e.ino = d' := by
  induction path generalizing d with
  | nil =>
    cases h
    exact .inl ⟨rfl, rfl⟩
  | cons name rest ih =>
    right
    simp only [Tree.dirOf] at h
    split at h
    · next e hchild =>
      split at h
      · rcases ih h with ⟨-, rfl⟩ | hmem
        · exact ⟨e, (Tree.child_mem hchild).1, rfl⟩
        · exact hmem
      · cases h
    · cases h

/-- A path that is not virtual leads to no virtual place. -/
theorem Proper.locate (h : Proper t) (hreal : isVirtual path = false) {d : Nat} {name : String}
    (hlocate : t.locate path = some (d, name)) :
    path.getLast? = some name ∧
      (d = Tree.root → name ≠ "cur_size" ∧ name ≠ "max_size") := by
  unfold Tree.locate at hlocate
  split at hlocate
  · cases hlocate
  · next last hlast =>
    obtain ⟨d', hdir, heq⟩ := Option.map_eq_some_iff.mp hlocate
    cases heq
    refine ⟨hlast, ?_⟩
    rintro rfl
    have hfirst : path.dropLast = [] := by
      rcases dirOf_mem hdir with ⟨hnil, -⟩ | ⟨e, he, hino⟩
      · exact hnil
      · exact absurd hino (h.root e he)
    have hpath : path = [name] := by
      have happend := List.dropLast_append_getLast? name hlast
      rw [hfirst] at happend
      exact happend.symm
    subst hpath
    simpa [isVirtual, pathCurSize, pathMaxSize] using hreal

theorem Proper.erase (h : Proper t) (ino : Nat) : Proper (t.erase ino) := by
  have hmem : ∀ e ∈ (t.erase ino).entries, e ∈ t.entries := fun e he => (List.mem_filter.mp he).1
  exact ⟨fun e he => h.root e (hmem e he), fun e he => h.dots e (hmem e he),
    fun e he => h.real e (hmem e he)⟩

/-- An entry that was given another size is where it was. -/
theorem Proper.resize (h : Proper t) (ino size : Nat) : Proper (t.resize ino size) := by
  have hmem : ∀ e ∈ (t.resize ino size).entries,
      ∃ e' ∈ t.entries, e.ino = e'.ino ∧ e.parent = e'.parent ∧ e.name = e'.name := by
    intro e he
    obtain ⟨e', he', rfl⟩ := List.mem_map.mp he
    refine ⟨e', he', ?_⟩
    unfold Tree.modifyIno
    split
    · obtain ⟨hparent, hname⟩ := Prod.mk.inj (Tree.Entry.resized_place size e')
      exact ⟨Tree.Entry.resized_ino size e', hparent, hname⟩
    · exact ⟨rfl, rfl, rfl⟩
  refine ⟨fun e he => ?_, fun e he => ?_, fun e he => ?_⟩ <;>
    obtain ⟨e', he', hino, hparent, hname⟩ := hmem e he
  · rw [hino]
    exact h.root e' he'
  · rw [hname]
    exact h.dots e' he'
  · rw [hparent, hname]
    exact h.real e' he'

theorem Proper.insert (h : Proper t) {e : Entry} (hroot : e.ino ≠ Tree.root)
    (hdots : e.name ≠ "." ∧ e.name ≠ "..")
    (hreal : e.parent = Tree.root → e.name ≠ "cur_size" ∧ e.name ≠ "max_size")
    (hok : t.insert e = .ok t') : Proper t' := by
  unfold Tree.insert at hok
  split at hok
  · cases hok
  · split at hok
    · cases hok
    · cases hok
      exact ⟨List.forall_mem_cons.mpr ⟨hroot, h.root⟩, List.forall_mem_cons.mpr ⟨hdots, h.dots⟩,
        List.forall_mem_cons.mpr ⟨hreal, h.real⟩⟩

/-- An entry that was moved keeps its inode and has its new place, or it is where it was. -/
theorem Proper.put (h : Proper t) (ino : Nat) {place : Nat × String}
    (hdots : place.2 ≠ "." ∧ place.2 ≠ "..")
    (hreal : place.1 = Tree.root → place.2 ≠ "cur_size" ∧ place.2 ≠ "max_size") :
    Proper (t.put ino place) := by
  have hmem : ∀ e ∈ (t.put ino place).entries, ∃ e' ∈ t.entries, e.ino = e'.ino ∧
      (e.place = place ∨ e.place = e'.place) := by
    intro e he
    obtain ⟨e', he', rfl⟩ := List.mem_map.mp he
    refine ⟨e', (Tree.mem_cleared.mp he').1, ?_⟩
    unfold Tree.modifyIno
    split
    · exact ⟨rfl, .inl rfl⟩
    · exact ⟨rfl, .inr rfl⟩
  refine ⟨fun e he => ?_, fun e he => ?_, fun e he => ?_⟩ <;>
    obtain ⟨e', he', hino, hplace⟩ := hmem e he
  · rw [hino]
    exact h.root e' he'
  · rcases hplace with hplace | hplace
    · rw [← hplace] at hdots
      exact hdots
    · rw [show e.name = e'.name from congrArg Prod.snd hplace]
      exact h.dots e' he'
  · rcases hplace with hplace | hplace
    · rw [← hplace] at hreal
      exact hreal
    · rw [show e.name = e'.name from congrArg Prod.snd hplace,
        show e.parent = e'.parent from congrArg Prod.fst hplace]
      exact h.real e' he'

theorem Proper.create (h : Proper t) {ino : Nat} {node : Node} (hreal : isVirtual path = false)
    (hroot : ino ≠ Tree.root) (hdots : path.getLast? ≠ some "." ∧ path.getLast? ≠ some "..")
    (hok : t.create fail path ino node = .ok t') : Proper t' := by
  have hbody := Tree.call_ok hok
  split at hbody
  · cases hbody
  · next d name hlocate =>
    obtain ⟨hlast, hplace⟩ := h.locate hreal hlocate
    rw [hlast] at hdots
    refine h.insert hroot ⟨fun hdot => ?_, fun hdot => ?_⟩ hplace hbody
    · exact hdots.1 (congrArg some hdot)
    · exact hdots.2 (congrArg some hdot)

theorem Proper.rename (h : Proper t) {new : Path} (hreal : isVirtual new = false)
    (hdots : new.getLast? ≠ some "." ∧ new.getLast? ≠ some "..")
    (hok : t.rename fail path new = .ok t') : Proper t' := by
  rcases Tree.rename_ok hok with rfl | ⟨e, ⟨d, name⟩, -, hlocate, rfl⟩
  · exact h
  · obtain ⟨hlast, hplace⟩ := h.locate hreal hlocate
    rw [hlast] at hdots
    refine h.put e.ino ⟨fun hdot => ?_, fun hdot => ?_⟩ hplace
    · exact hdots.1 (congrArg some hdot)
    · exact hdots.2 (congrArg some hdot)

theorem Proper.truncate (h : Proper t) {size : Int} (hok : t.truncate fail path size = .ok t') :
    Proper t' := by
  obtain ⟨e, k, -, -, rfl⟩ := Tree.truncate_ok hok
  exact h.resize ..

theorem Proper.unlink (h : Proper t) (hok : t.unlink fail path = .ok t') : Proper t' := by
  have hbody := Tree.call_ok hok
  split at hbody
  · cases hbody
  · split at hbody
    · cases hbody
    · cases hbody
      exact h.erase _

theorem Proper.rmdir (h : Proper t) (hok : t.rmdir fail path = .ok t') : Proper t' := by
  have hbody := Tree.call_ok hok
  split at hbody
  · cases hbody
  · split at hbody
    · cases hbody
    · split at hbody
      · cases hbody
      · cases hbody
        exact h.erase _

theorem Proper.writeAt (h : Proper t) (ino offset count : Nat) :
    Proper (t.writeAt ino offset count) := by
  rcases t.writeAt_cases ino offset count with hsame | ⟨e, n, -, -, -, hresize⟩
  · rw [hsame]
    exact h
  · rw [hresize]
    exact h.resize ..

end Proper

/-! ## Runs -/

section Runs

variable {cfg : Config} {w w' : World} {path : Path}

theorem Proper.settle (h : Proper w.tree) {res : Except SysError Tree}
    (hok : ∀ t, res = .ok t → Proper t) : Proper (w.settle res).2.tree := by
  rcases settle_cases w res with heq | ⟨t, hres, heq⟩
  · rw [heq]
    exact h
  · rw [heq]
    exact hok t hres

theorem Proper.unlessVirtual (h : Proper w.tree) {r : Int × World}
    (hr : isVirtual path = false → Proper r.2.tree) :
    Proper (w.unlessVirtual path r).2.tree := by
  unfold World.unlessVirtual
  cases hvirtual : isVirtual path with
  | true => exact h
  | false => exact hr hvirtual

theorem Proper.write (h : Proper w.tree) {size offset : Nat} {fi : FileInfo} {calls : WriteCalls} :
    Proper (limitfsWrite cfg path size offset fi calls w).2.tree := by
  have hpwrite : Proper (pwriteOrClose w fi size offset calls.outcome).2.tree := by
    rcases pwriteOrClose_tree w fi size offset calls.outcome with
      hsame | ⟨d, ino, count, -, -, -, hwrite⟩
    · rw [hsame]
      exact h
    · rw [hwrite]
      exact h.writeAt ..
  unfold limitfsWrite
  split
  · exact h
  split
  · exact h
  split
  · exact h
  · dsimp only
    split
    · exact hpwrite
    · exact hpwrite

theorem open_tree (w : World) (hd : Nat) (path : Path) (fd : Nat) (fail : Option SysError) :
    (w.openHandle hd path fd fail).tree = w.tree := by
  have hopen : (limitfsOpen path fd fail w).2.2.tree = w.tree := by
    unfold limitfsOpen
    split
    · rfl
    · split <;> rfl
  unfold World.openHandle
  dsimp only
  split
  · exact hopen
  · exact hopen

theorem read_tree (cfg : Config) (path : Path) (size : Nat) (fi : FileInfo)
    (outcome : Except SysError Nat) (w : World) :
    (limitfsRead cfg path size fi outcome w).2.tree = w.tree := by
  unfold limitfsRead
  split
  · rfl
  split
  · rfl
  split <;> rfl

theorem release_tree (fi : FileInfo) (w : World) : (limitfsRelease fi w).2.tree = w.tree := by
  unfold limitfsRelease
  split <;> rfl

theorem Proper.mknod (h : Proper w.tree) {mode : Mode} {ino fd : Nat} {fail : Option SysError}
    (hplain : (Op.mknod path mode ino fd fail).Plain) :
    Proper (limitfsMknod cfg path mode ino fd fail w).2.tree := by
  unfold limitfsMknod
  split
  · exact h
  split
  · exact h
  next hreal =>
  have hcreate : ∀ node t, w.tree.create fail path ino node = .ok t → Proper t := fun node t =>
    h.create (Bool.eq_false_iff.mpr hreal) hplain.1 hplain.2
  cases mode with
  | regular =>
    dsimp only
    split
    · exact h
    · exact h
    · next hok => exact hcreate _ _ hok
  | fifo => exact h.settle (hcreate _)
  | device => exact h.settle (hcreate _)

/-- **One operation** keeps the tree proper. -/
theorem Proper.step {op : Op} (h : Proper w.tree) (hplain : op.Plain)
    (hstep : step cfg w op = some w') : Proper w'.tree := by
  cases op with
  | mknod path mode ino fd fail =>
    cases hstep
    exact h.mknod hplain
  | openFile hd path fd fail =>
    simp only [Limitfs.step] at hstep
    split at hstep
    · cases hstep
    · cases hstep
      rw [open_tree]
      exact h
  | read hd path size outcome =>
    obtain ⟨fi, -, rfl⟩ := Option.map_eq_some_iff.mp hstep
    rw [read_tree]
    exact h
  | write hd path size offset calls =>
    obtain ⟨fi, hfi, rfl⟩ := Option.map_eq_some_iff.mp hstep
    exact h.write
  | release hd =>
    obtain ⟨fi, -, rfl⟩ := Option.map_eq_some_iff.mp hstep
    show Proper (limitfsRelease fi w).2.tree
    rw [release_tree]
    exact h
  | mkdir path ino stSize fail =>
    cases hstep
    exact h.unlessVirtual fun hreal => h.settle fun t => h.create hreal hplain.1 hplain.2
  | truncate path size fail =>
    cases hstep
    exact h.unlessVirtual fun _ => h.settle fun t => h.truncate
  | chmod path fail | chown path fail =>
    cases hstep
    refine h.unlessVirtual fun _ => h.settle fun t hok => ?_
    rw [Tree.touch_ok hok]
    exact h
  | rmdir path fail =>
    cases hstep
    exact h.unlessVirtual fun _ => h.settle fun t => h.rmdir
  | rename old new fail =>
    cases hstep
    exact h.unlessVirtual fun _ => h.unlessVirtual fun hreal => h.settle fun t =>
      h.rename hreal hplain
  | unlink path fail =>
    cases hstep
    exact h.unlessVirtual fun _ => h.settle fun t => h.unlink

/-- A name is in a directory exactly if it can be found there. -/
theorem mem_namesIn (t : Tree) (d : Nat) (name : String) :
    name ∈ t.namesIn d ↔ ∃ e, t.child d name = some e := by
  constructor
  · intro hmem
    obtain ⟨e, he, rfl⟩ := List.mem_map.mp hmem
    obtain ⟨he, hparent⟩ := List.mem_filter.mp he
    have hsome : (t.entries.find? fun e' => e'.place = (d, e.name)).isSome := by
      rw [List.find?_isSome]
      refine ⟨e, he, ?_⟩
      rw [decide_eq_true_eq] at hparent ⊢
      exact Prod.ext hparent rfl
    exact Option.isSome_iff_exists.mp hsome
  · rintro ⟨e, hchild⟩
    obtain ⟨he, hplace⟩ := Tree.child_mem hchild
    obtain ⟨hparent, hname⟩ := Prod.mk.inj hplace
    refine List.mem_map.mpr ⟨e, List.mem_filter.mpr ⟨he, ?_⟩, hname⟩
    rw [decide_eq_true_eq]
    exact hparent

theorem namesIn_nodup (t : Tree) (d : Nat) : (t.namesIn d).Nodup := by
  have hplaces := t.places.sublist ((List.filter_sublist (p := fun e => e.parent = d)).map _)
  unfold Tree.namesIn
  refine List.Nodup.of_map (fun name => (d, name)) ?_
  rw [List.map_map]
  rw [show (t.entries.filter fun e => e.parent = d).map ((fun name => (d, name)) ∘ Entry.name) =
      (t.entries.filter fun e => e.parent = d).map Entry.place from ?_]
  · exact hplaces
  · refine List.map_congr_left fun e he => ?_
    have hparent := (List.mem_filter.mp he).2
    rw [decide_eq_true_eq] at hparent
    exact Prod.ext hparent.symm rfl

theorem find_append (t : Tree) (path : Path) (name : String) :
    t.find (path ++ [name]) = (t.dirOf Tree.root path).bind fun d => t.child d name := by
  unfold Tree.find Tree.locate
  rw [List.getLast?_concat, List.dropLast_concat]
  cases t.dirOf Tree.root path <;> rfl

theorem isVirtual_append {name : String} (h : isVirtual (path ++ [name]) = true) :
    path = [] ∧ (name = "cur_size" ∨ name = "max_size") := by
  cases path with
  | nil => simpa [isVirtual, pathCurSize, pathMaxSize] using h
  | cons first rest => simp [isVirtual, pathCurSize, pathMaxSize] at h

/-- A path below a directory is there when it is virtual or found. -/
theorem getattr_ok_iff {d : Nat} (hdir : w.tree.dirOf Tree.root path = some d) (name : String) :
    (∃ attr, limitfsGetattr (path ++ [name]) none w = .ok attr) ↔
      isVirtual (path ++ [name]) = true ∨ name ∈ w.tree.namesIn d := by
  have hlstat : w.tree.lstat none (path ++ [name]) =
      match w.tree.child d name with
      | none => .error (w.tree.lookupError Tree.root (path ++ [name]))
      | some e => .ok e.node.attr := by
    have hfind := find_append w.tree path name
    rw [hdir, Option.bind_some] at hfind
    rw [← hfind]
    cases path <;> rfl
  unfold limitfsGetattr
  cases isVirtual (path ++ [name]) with
  | true => exact iff_of_true ⟨_, rfl⟩ (.inl rfl)
  | false =>
    rw [if_neg Bool.false_ne_true, hlstat, mem_namesIn]
    cases w.tree.child d name with
    | none => simp
    | some e => simp

end Runs

/-- The names of the virtual files and the dots, in front of a listing, are not in it. -/
theorem Proper.listing_nodup {t : Tree} (h : Proper t) {path : Path} {d : Nat}
    (hdir : t.dirOf Tree.root path = some d) :
    ((if path = [] then ["cur_size", "max_size"] else []) ++ "." :: ".." :: t.namesIn d).Nodup := by
  have hentry : ∀ name ∈ t.namesIn d, ∃ e ∈ t.entries, e.parent = d ∧ e.name = name := by
    intro name hname
    obtain ⟨e, he, rfl⟩ := List.mem_map.mp hname
    obtain ⟨he, hparent⟩ := List.mem_filter.mp he
    rw [decide_eq_true_eq] at hparent
    exact ⟨e, he, hparent, rfl⟩
  have hdots : ∀ name ∈ t.namesIn d, name ≠ "." ∧ name ≠ ".." := by
    intro name hname
    obtain ⟨e, he, -, rfl⟩ := hentry name hname
    exact h.dots e he
  have hnames : ("." :: ".." :: t.namesIn d).Nodup := by
    refine List.nodup_cons.mpr ⟨?_, List.nodup_cons.mpr ⟨?_, namesIn_nodup t d⟩⟩
    · intro hmem
      rcases List.mem_cons.mp hmem with heq | hmem
      · exact absurd heq (by decide)
      · exact (hdots _ hmem).1 rfl
    · intro hmem
      exact (hdots _ hmem).2 rfl
  split
  · next hroot =>
    subst hroot
    cases hdir
    have hreal : ∀ name ∈ t.namesIn Tree.root, name ≠ "cur_size" ∧ name ≠ "max_size" := by
      intro name hname
      obtain ⟨e, he, hparent, rfl⟩ := hentry name hname
      exact h.real e he hparent
    refine List.nodup_append'.mpr ⟨by decide, hnames, ?_⟩
    intro name hvirtual hmem
    rcases List.mem_cons.mp hmem with rfl | hmem
    · exact absurd hvirtual (by decide)
    rcases List.mem_cons.mp hmem with rfl | hmem
    · exact absurd hvirtual (by decide)
    have hother := hreal name hmem
    simp only [List.mem_cons, List.not_mem_nil, or_false] at hvirtual
    rcases hvirtual with hcur | hmax
    · exact hother.1 hcur
    · exact hother.2 hmax
  · exact hnames

/-- `limitfs_access` lets through what `limitfs_getattr` finds. -/
theorem access_iff_getattr {w : World} {path : Path} {fail : Option SysError} :
    limitfsAccess path fail w = 0 ↔ ∃ attr, limitfsGetattr path fail w = .ok attr := by
  unfold limitfsAccess limitfsGetattr
  split
  · simp
  · split
    · next e herror => simp [herror, e.neg_ne_zero]
    · next attr hok => simp [hok]

/-- Nothing is where a virtual file is seen. -/
theorem Proper.absent {t : Tree} (h : Proper t) {name : String}
    (hname : name = "cur_size" ∨ name = "max_size") : t.child Tree.root name = none := by
  by_contra hne
  obtain ⟨e, hchild⟩ := Option.ne_none_iff_exists'.mp hne
  obtain ⟨he, hplace⟩ := Tree.child_mem hchild
  obtain ⟨hparent, rfl⟩ := Prod.mk.inj hplace
  have hreal := h.real e he hparent
  exact hname.elim hreal.1 hreal.2

/-- **Names agree.** Over a tree that has nothing where the virtual files are seen, in every run:
nothing ever comes there; a directory lists no name twice, and only what can be looked up in it; and
what can be looked up is listed, when the filler has room for everything. -/
theorem limitfs_names_agree (cfg : Config) {t : Tree} (ht : Proper t) {w : World}
    (hreach : Reach (step cfg) (fun _ op => op.Plain) (mounted cfg t) w) :
    (∀ path, isVirtual path = true → w.tree.find path = none) ∧
    ∀ path room names, limitfsReaddir path none room w = .ok names →
      names.Nodup ∧
      (∀ name ∈ names, name = "." ∨ name = ".." ∨
        ∃ attr, limitfsGetattr (path ++ [name]) none w = .ok attr) ∧
      (names.length < room → ∀ name,
        (∃ attr, limitfsGetattr (path ++ [name]) none w = .ok attr) → name ∈ names) := by
  have hproper : Proper w.tree := hreach.invariant (I := fun w => Proper w.tree) ht
    fun h hplain hstep => h.step hplain hstep
  constructor
  · intro path hvirtual
    have hpath : path = ["cur_size"] ∨ path = ["max_size"] := of_decide_eq_true hvirtual
    rcases hpath with rfl | rfl
    · exact (find_append w.tree [] "cur_size").trans (hproper.absent (.inl rfl))
    · exact (find_append w.tree [] "max_size").trans (hproper.absent (.inr rfl))
  · intro path room names hlist
    unfold limitfsReaddir at hlist
    dsimp only at hlist
    split at hlist
    · cases hlist
    · cases hlist
    next d hnone hdir =>
    cases hlist
    refine ⟨(hproper.listing_nodup hdir).sublist (List.take_sublist ..), ?_, ?_⟩
    · intro name hname
      rcases List.mem_append.mp (List.mem_of_mem_take hname) with hshown | hmem
      · split at hshown
        · next hroot =>
          subst hroot
          refine .inr (.inr ((getattr_ok_iff hdir name).mpr (.inl ?_)))
          simpa [isVirtual, pathCurSize, pathMaxSize] using hshown
        · cases hshown
      · rcases List.mem_cons.mp hmem with hdot | hmem
        · exact .inl hdot
        rcases List.mem_cons.mp hmem with hdots | hmem
        · exact .inr (.inl hdots)
        · exact .inr (.inr ((getattr_ok_iff hdir name).mpr (.inr hmem)))
    · intro hroom name hlook
      rw [List.length_take] at hroom
      rw [List.take_of_length_le (by omega)]
      rcases (getattr_ok_iff hdir name).mp hlook with hvirtual | hmem
      · obtain ⟨rfl, hname⟩ := isVirtual_append hvirtual
        refine List.mem_append_left _ ?_
        simpa using hname
      · exact List.mem_append_right _ (List.mem_cons_of_mem _ (List.mem_cons_of_mem _ hmem))

/-- `d` is made, and `a` goes below it under a name that is virtual in the root only. -/
theorem limitfs_names_agree_below :
    ∃ w, Reach (step sampleConfig) (fun _ op => op.Plain) (mounted sampleConfig sampleTree) w ∧
      limitfsReaddir ["d"] none 8 w = .ok [".", "..", "cur_size"] ∧
      limitfsGetattr ["d", "cur_size"] none w = .ok (.file 10) ∧
      w.tree.find ["cur_size"] = none := by
  obtain ⟨w₁, hmkdir⟩ : ∃ w₁, step sampleConfig (mounted sampleConfig sampleTree)
      (.mkdir ["d"] 7 4096 none) = some w₁ := ⟨_, rfl⟩
  obtain ⟨w, hrename, hlist, hattr⟩ : ∃ w,
      step sampleConfig w₁ (.rename ["a"] ["d", "cur_size"] none) = some w ∧
      limitfsReaddir ["d"] none 8 w = .ok [".", "..", "cur_size"] ∧
      limitfsGetattr ["d", "cur_size"] none w = .ok (.file 10) := by
    cases hmkdir
    exact ⟨_, rfl, rfl, rfl⟩
  have hproper : Proper sampleTree := ⟨by decide, by decide, by decide⟩
  have hdir : (Op.mkdir ["d"] 7 4096 none).Plain := ⟨by decide, by decide, by decide⟩
  have hmove : (Op.rename ["a"] ["d", "cur_size"] none).Plain := ⟨by decide, by decide⟩
  have hreach := (Reach.init.tail (g := fun _ op => op.Plain) hdir hmkdir).tail hmove hrename
  exact ⟨w, hreach, hlist, hattr, (limitfs_names_agree sampleConfig hproper hreach).1 _ rfl⟩

end LinuxDeviceDriver.Limitfs
