import LinuxDeviceDriver.Logbuffer.Show
import Mathlib.Data.List.TakeWhile

/-!
# Where the log is: the copy of `buffer_info` and its three tokens

`logbuffer_show` copies the module parameter into `local_buffer_info` and cuts it up
in place: each `get_mytoken` overwrites the next comma with a NUL, copies the string
in front of it to an array of its own and moves the cursor behind it. Neither the copy
nor the tokens are measured against the arrays they go to.

`Show` takes tokens off a list. Here they are taken from the array itself: an array is
the bytes stored to it from its first on, a pointer into it an index, and every index
that is stored to is recorded. `Cursor` ties the two levels together: the array holds,
from the cursor on, the text the list level has left. With it each call delivers the
token of the list level (`getMytokenAt_takes`), and the three calls deliver the first
three fields of the parameter.

What is stored beyond the end of an array lands in another variable, so the strings
mean something only as long as every store is in bounds.
-/

namespace LinuxDeviceDriver.Logbuffer

/-- The arrays of `logbuffer_show`. -/
inductive Local
  | info
  | name
  | length
  | addr
deriving DecidableEq, Repr

/-- How many bytes each array has. -/
def Local.size : Local → Nat
  | .info => 512
  | .name => 128
  | .length => 128
  | .addr => 128

/-- The string a pointer to index `cur` of an array points to. -/
def strAt (mem : List Byte) (cur : Nat) : List Byte := (mem.drop cur).takeWhile (· ≠ 0)

/-- `strchr`: the index of the first `c` in the string at `cur`. -/
def strchr (mem : List Byte) (cur : Nat) (c : Byte) : Option Nat :=
  if c ∈ strAt mem cur then some (cur + (strAt mem cur).idxOf c) else none

/-- The indices `strcpy` stores to, for a string that takes `n` bytes with its NUL. -/
def strcpyStores (dst : Local) (n : Nat) : List (Local × Nat) :=
  (List.range n).map (Prod.mk dst)

/-- After a call of `get_mytoken`: the array it cuts up, what it has stored to `outp`,
the cursor it returns and the comma it has found. -/
structure Token where
  info : List Byte
  outp : List Byte
  cur : Nat
  ptr : Option Nat

/-- `get_mytoken(cur, outp)` for a cursor into `local_buffer_info`. -/
def getMytokenAt (info : List Byte) (cur : Nat) : Token :=
  let ptr := strchr info cur comma
  let info := match ptr with
    | some ptr => info.set ptr 0
    | none => info
  let outp := strAt info cur ++ [0]
  let cur := match ptr with
    | some ptr => ptr + 1
    | none => cur + (strAt outp 0).length
  ⟨info, outp, cur, ptr⟩

/-- Everything a call stores to, for `outp` the array `out`. -/
def Token.stores (t : Token) (out : Local) : List (Local × Nat) :=
  t.ptr.toList.map (Prod.mk .info) ++ strcpyStores out t.outp.length

/-- The three arrays `logbuffer_show` goes on with, and all stores on the way. -/
structure Location where
  name : List Byte
  length : List Byte
  addr : List Byte
  stores : List (Local × Nat)

/-- `logbuffer_show` up to the last `get_mytoken`. -/
def parseLocation (bufferInfo : List Byte) : Location :=
  let info := bufferInfo ++ [0]
  let first := getMytokenAt info 0
  let second := getMytokenAt first.info first.cur
  let third := getMytokenAt second.info second.cur
  { name := first.outp
    length := second.outp
    addr := third.outp
    stores := strcpyStores .info info.length ++ first.stores .name ++
      second.stores .length ++ third.stores .addr }

/-! ## One token -/

/-- The array holds the text `s`, with a NUL behind it, from `cur` on. -/
structure Cursor (info : List Byte) (cur : Nat) (s : List Byte) : Prop where
  split : ∃ before tail, info = before ++ (s ++ 0 :: tail) ∧ before.length = cur
  nulFree : 0 ∉ s

theorem Cursor.strAt_eq {info s : List Byte} {cur : Nat} (h : Cursor info cur s) :
    strAt info cur = s := by
  obtain ⟨before, tail, rfl, rfl⟩ := h.split
  rw [strAt, List.drop_left]
  exact takeWhile_append_stop h.nulFree tail

/-- A string alone in an array. -/
theorem Cursor.start {s : List Byte} (h : 0 ∉ s) : Cursor (s ++ [0]) 0 s :=
  ⟨⟨[], [], rfl, rfl⟩, h⟩

theorem getMytoken_of_notMem {s : List Byte} (h : comma ∉ s) : getMytoken s = (s, []) := by
  have hall := decide_ne_of_notMem h
  rw [getMytoken, List.takeWhile_eq_self_iff.mpr hall, List.dropWhile_eq_nil_iff.mpr hall]
  rfl

theorem getMytoken_append {token rest : List Byte} (h : comma ∉ token) :
    getMytoken (token ++ comma :: rest) = (token, rest) := by
  rw [getMytoken, takeWhile_append_stop h, List.dropWhile_append_of_pos (decide_ne_of_notMem h),
    List.dropWhile_cons_of_neg (by simp)]
  rfl

/-- What a call does with the text `s` at its cursor. -/
structure Takes (info s : List Byte) (t : Token) : Prop where
  outp : t.outp = (getMytoken s).1 ++ [0]
  cursor : Cursor t.info t.cur (getMytoken s).2
  length_info : t.info.length = info.length
  ptr_lt : ∀ ptr ∈ t.ptr, ptr < info.length

/-- Without a comma the whole text is the token, and the cursor goes to its NUL. -/
theorem getMytokenAt_last {info s : List Byte} {cur : Nat} (h : Cursor info cur s)
    (hcomma : comma ∉ s) : Takes info s (getMytokenAt info cur) := by
  have hptr : strchr info cur comma = none := by
    rw [strchr, h.strAt_eq, if_neg hcomma]
  have hlen : (strAt (s ++ [0]) 0).length = s.length := by
    rw [(Cursor.start h.nulFree).strAt_eq]
  obtain ⟨before, tail, hinfo, hbefore⟩ := h.split
  simp only [getMytokenAt, hptr, h.strAt_eq, hlen]
  rw [← hbefore]
  constructor
  · rw [getMytoken_of_notMem hcomma]
  · rw [getMytoken_of_notMem hcomma]
    refine ⟨⟨before ++ s, tail, ?_, List.length_append⟩, List.not_mem_nil⟩
    rw [hinfo, List.nil_append, List.append_assoc]
  · rfl
  · intro ptr hptr
    cases hptr

/-- With a comma the token ends there, and the cursor goes behind it. -/
theorem getMytokenAt_comma {info token rest : List Byte} {cur : Nat}
    (h : Cursor info cur (token ++ comma :: rest)) (hcomma : comma ∉ token) :
    Takes info (token ++ comma :: rest) (getMytokenAt info cur) := by
  have hptr : strchr info cur comma = some (cur + token.length) := by
    rw [strchr, h.strAt_eq, if_pos (by simp), List.idxOf_append_of_notMem hcomma,
      List.idxOf_cons_self, Nat.add_zero]
  obtain ⟨before, tail, hinfo, hbefore⟩ := h.split
  obtain ⟨htoken, hrest⟩ : 0 ∉ token ∧ 0 ∉ rest := by
    have hnul := h.nulFree
    simp only [List.mem_append, List.mem_cons, not_or] at hnul
    exact ⟨hnul.1, hnul.2.2⟩
  -- the NUL goes where the comma was, and ends the token
  have hset : info.set (cur + token.length) 0 =
      before ++ (token ++ 0 :: (rest ++ 0 :: tail)) := by
    rw [hinfo, ← hbefore, List.set_append_right _ _ (Nat.le_add_right _ _),
      Nat.add_sub_cancel_left, List.append_assoc, List.set_append_right _ _ (Nat.le_refl _),
      Nat.sub_self]
    rfl
  have hcut : Cursor (info.set (cur + token.length) 0) cur token :=
    ⟨⟨before, rest ++ 0 :: tail, hset, hbefore⟩, htoken⟩
  simp only [getMytokenAt, hptr, hcut.strAt_eq]
  constructor
  · rw [getMytoken_append hcomma]
  · rw [getMytoken_append hcomma]
    refine ⟨⟨before ++ (token ++ [0]), tail, ?_, ?_⟩, hrest⟩
    · rw [hset]
      simp
    · simp only [List.length_append, List.length_singleton, hbefore]
      omega
  · exact List.length_set
  · intro ptr hptr
    cases hptr
    rw [hinfo]
    simp only [List.length_append, List.length_cons, hbefore]
    omega

/-- On the array a call takes the token it takes on the list. -/
theorem getMytokenAt_takes {info s : List Byte} {cur : Nat} (h : Cursor info cur s) :
    Takes info s (getMytokenAt info cur) := by
  by_cases hcomma : comma ∈ s
  · obtain ⟨token, rest, rfl, hfirst⟩ := List.eq_append_cons_of_mem hcomma
    exact getMytokenAt_comma h hfirst
  · exact getMytokenAt_last h hcomma

theorem getMytoken_nulFree {s : List Byte} (h : 0 ∉ s) : 0 ∉ (getMytoken s).1 :=
  fun hmem => h ((List.takeWhile_sublist _).mem hmem)

theorem Takes.strAt_outp {info s : List Byte} {t : Token} (h : Takes info s t) (hs : 0 ∉ s) :
    strAt t.outp 0 = (getMytoken s).1 := by
  rw [h.outp]
  exact (Cursor.start (getMytoken_nulFree hs)).strAt_eq

/-! ## Stores within the arrays -/

/-- Every store goes to an index the array has. -/
def InBounds (stores : List (Local × Nat)) : Prop := ∀ w ∈ stores, w.2 < w.1.size

theorem inBounds_append {xs ys : List (Local × Nat)} :
    InBounds (xs ++ ys) ↔ InBounds xs ∧ InBounds ys := List.forall_mem_append

theorem inBounds_strcpyStores {dst : Local} {n : Nat} :
    InBounds (strcpyStores dst n) ↔ n ≤ dst.size := by
  simp only [InBounds, strcpyStores, List.forall_mem_map, List.mem_range]
  constructor
  · intro h
    by_contra hlt
    exact Nat.lt_irrefl _ (h dst.size (Nat.lt_of_not_le hlt))
  · intro h i hi
    exact Nat.lt_of_lt_of_le hi h

/-- As long as `local_buffer_info` has room for the parameter, a call is in bounds
exactly when its token fits. -/
theorem Takes.inBounds_iff {info s : List Byte} {t : Token} (h : Takes info s t) (out : Local)
    (hinfo : info.length ≤ Local.info.size) :
    InBounds (t.stores out) ↔ (getMytoken s).1.length < out.size := by
  have hptr : InBounds (t.ptr.toList.map (Prod.mk Local.info)) := by
    simp only [InBounds, List.forall_mem_map, Option.mem_toList]
    intro ptr hptr
    exact Nat.lt_of_lt_of_le (h.ptr_lt ptr hptr) hinfo
  rw [Token.stores, inBounds_append, inBounds_strcpyStores, h.outp, List.length_append,
    List.length_singleton]
  exact and_iff_right hptr

/-! ## Fields of the parameter -/

/-- The `k`-th of the fields between the commas, empty when there is none. -/
def field (k : Nat) (bufferInfo : List Byte) : List Byte := (bufferInfo.splitOn comma).getD k []

theorem field_zero (s : List Byte) : field 0 s = (getMytoken s).1 := by
  by_cases hcomma : comma ∈ s
  · obtain ⟨token, rest, rfl, hfirst⟩ := List.eq_append_cons_of_mem hcomma
    rw [field, List.splitOn_append_cons_self_of_not_mem hfirst, getMytoken_append hfirst]
    rfl
  · rw [field, List.splitOn_eq_singleton hcomma, getMytoken_of_notMem hcomma]
    rfl

theorem field_succ (k : Nat) (s : List Byte) : field (k + 1) s = field k (getMytoken s).2 := by
  by_cases hcomma : comma ∈ s
  · obtain ⟨token, rest, rfl, hfirst⟩ := List.eq_append_cons_of_mem hcomma
    rw [field, List.splitOn_append_cons_self_of_not_mem hfirst, getMytoken_append hfirst]
    rfl
  · rw [field, field, List.splitOn_eq_singleton hcomma, getMytoken_of_notMem hcomma]
    cases k <;> rfl

/-! ## The whole parse -/

/-- The three calls, each with the text the list level has left for it. -/
theorem parseLocation_takes {bufferInfo : List Byte} (hnul : 0 ∉ bufferInfo) :
    ∃ first second third, parseLocation bufferInfo =
        ⟨first.outp, second.outp, third.outp,
          strcpyStores .info (bufferInfo.length + 1) ++ first.stores .name ++
            second.stores .length ++ third.stores .addr⟩ ∧
      Takes (bufferInfo ++ [0]) bufferInfo first ∧
      Takes first.info (getMytoken bufferInfo).2 second ∧
      Takes second.info (getMytoken (getMytoken bufferInfo).2).2 third := by
  have hfirst := getMytokenAt_takes (Cursor.start hnul)
  have hsecond := getMytokenAt_takes hfirst.cursor
  have hthird := getMytokenAt_takes hsecond.cursor
  refine ⟨_, _, _, ?_, hfirst, hsecond, hthird⟩
  simp only [parseLocation, List.length_append, List.length_singleton]

/-- The arrays hold the strings `logbufferShow` takes off the list. -/
theorem parseLocation_strings {bufferInfo : List Byte} (hnul : 0 ∉ bufferInfo) :
    strAt (parseLocation bufferInfo).name 0 = (getMytoken bufferInfo).1 ∧
    strAt (parseLocation bufferInfo).length 0 = (getMytoken (getMytoken bufferInfo).2).1 ∧
    strAt (parseLocation bufferInfo).addr 0 =
      (getMytoken (getMytoken (getMytoken bufferInfo).2).2).1 := by
  obtain ⟨first, second, third, hparse, hfirst, hsecond, hthird⟩ := parseLocation_takes hnul
  rw [hparse]
  exact ⟨hfirst.strAt_outp hnul, hsecond.strAt_outp hfirst.cursor.nulFree,
    hthird.strAt_outp hsecond.cursor.nulFree⟩

/-- There is room for the parameter and for each of its first three fields, with their NULs. -/
def FitsArrays (bufferInfo : List Byte) : Prop :=
  bufferInfo.length < 512 ∧ ∀ k < 3, (field k bufferInfo).length < 128

theorem parseLocation_inBounds_iff {bufferInfo : List Byte} (hnul : 0 ∉ bufferInfo) :
    InBounds (parseLocation bufferInfo).stores ↔ FitsArrays bufferInfo := by
  obtain ⟨first, second, third, hparse, hfirst, hsecond, hthird⟩ := parseLocation_takes hnul
  rw [hparse, inBounds_append, inBounds_append, inBounds_append, inBounds_strcpyStores, and_assoc,
    and_assoc]
  refine and_congr_right fun hcopy => ?_
  -- no call changes the length of the array, so the commas lie within it in each
  have hinfo : (bufferInfo ++ [0]).length ≤ Local.info.size := by
    rwa [List.length_append]
  have hinfo₁ : first.info.length ≤ Local.info.size := by rwa [hfirst.length_info]
  have hinfo₂ : second.info.length ≤ Local.info.size := by rwa [hsecond.length_info]
  rw [hfirst.inBounds_iff .name hinfo, hsecond.inBounds_iff .length hinfo₁,
    hthird.inBounds_iff .addr hinfo₂, ← field_zero, ← field_zero, ← field_zero, ← field_succ,
    ← field_succ, ← field_succ]
  constructor
  · rintro ⟨h0, h1, h2⟩ k hk
    obtain rfl | rfl | rfl : k = 0 ∨ k = 1 ∨ k = 2 := by omega
    · exact h0
    · exact h1
    · exact h2
  · intro h
    exact ⟨h 0 (by decide), h 1 (by decide), h 2 (by decide)⟩

/-- Every store is in bounds, and the arrays hold the first, the second and the third
field of the parameter. -/
structure LocationParsed (bufferInfo : List Byte) : Prop where
  inBounds : InBounds (parseLocation bufferInfo).stores
  name : strAt (parseLocation bufferInfo).name 0 = field 0 bufferInfo
  length : strAt (parseLocation bufferInfo).length 0 = field 1 bufferInfo
  addr : strAt (parseLocation bufferInfo).addr 0 = field 2 bufferInfo

/-- The location is parsed within the arrays and into the three fields exactly when the
parameter has at most 511 characters and its first three fields at most 127 each. -/
theorem log_location_parsed_iff {bufferInfo : List Byte} (hnul : 0 ∉ bufferInfo) :
    LocationParsed bufferInfo ↔ FitsArrays bufferInfo := by
  obtain ⟨hname, hlength, haddr⟩ := parseLocation_strings hnul
  constructor
  · intro h
    exact (parseLocation_inBounds_iff hnul).mp h.inBounds
  · intro h
    refine ⟨(parseLocation_inBounds_iff hnul).mpr h, ?_, ?_, ?_⟩
    · rw [hname, field_zero]
    · rw [hlength, field_succ, field_zero]
    · rw [haddr, field_succ, field_succ, field_zero]

/-- `log,,64` has a name, no length and an address. -/
theorem log_location_parsed_empty_length :
    LocationParsed [108, 111, 103, 44, 44, 54, 52] ∧
      field 1 [108, 111, 103, 44, 44, 54, 52] = [] :=
  ⟨(log_location_parsed_iff (by decide)).mpr (by unfold FitsArrays; decide), by decide⟩

/-- 128 letters without a comma: the NUL behind them is stored to `buffer_name[128]`. With
short fields, a parameter of 512 characters has its own NUL stored to
`local_buffer_info[512]`. -/
theorem log_location_overflows :
    ((Local.name, 128) ∈ (parseLocation (List.replicate 128 97)).stores ∧
      ¬ LocationParsed (List.replicate 128 97)) ∧
    ((Local.info, 512) ∈ (parseLocation ([44, 44, 44] ++ List.replicate 509 97)).stores ∧
      ¬ LocationParsed ([44, 44, 44] ++ List.replicate 509 97)) := by
  have hname : (Local.name, 128) ∈ (parseLocation (List.replicate 128 97)).stores := by
    decide +kernel
  have hinfo : (Local.info, 512) ∈
      (parseLocation ([44, 44, 44] ++ List.replicate 509 97)).stores := by
    decide +kernel
  refine ⟨⟨hname, fun h => ?_⟩, ⟨hinfo, fun h => ?_⟩⟩
  · exact absurd (h.inBounds _ hname) (by decide)
  · exact absurd (h.inBounds _ hinfo) (by decide)

end LinuxDeviceDriver.Logbuffer
