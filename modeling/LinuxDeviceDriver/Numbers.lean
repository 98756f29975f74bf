import LinuxDeviceDriver.Kernel

/-!
# Reading back a printed number

What `simple_strtol` makes of the texts `"0x%llx\n"` and `"%d\n"`. The digits come from the front,
so the parser has read a number `n` when it has read `n / base` and then the last digit
(`parseInteger_digits`). The conversion to `long` at the end is the only loss.

Bytes that are printed as pairs of digits are read back by `readBytes`, whatever stands between
the pairs.
-/

namespace LinuxDeviceDriver

/-! ## Digits -/

/-- The character of a digit. -/
def digitByte (d : Nat) : Byte := UInt8.ofNat (Nat.digitChar d).toNat

/-- The digits of a number, as `printf` writes them. -/
def digits (base n : Nat) : List Byte := (Nat.toDigits base n).map fun c => UInt8.ofNat c.toNat

theorem digitValue_digitByte {d : Nat} (h : d < 16) : digitValue (digitByte d) = some d := by
  have hall : ∀ d : Fin 16, digitValue (digitByte d) = some d.val := by decide
  exact hall ⟨d, h⟩

theorem digits_of_lt {base n : Nat} (h : n < base) : digits base n = [digitByte n] := by
  unfold digits
  rw [Nat.toDigits_of_lt_base h]
  rfl

theorem digits_of_le {base n : Nat} (hbase : 1 < base) (h : base ≤ n) :
    digits base n = digits base (n / base) ++ [digitByte (n % base)] := by
  unfold digits
  rw [Nat.toDigits_of_base_le hbase h, List.map_append]
  rfl

/-- One more digit. -/
theorem parseInteger_digit {base d : Nat} (hd : d < base) (hbase : base ≤ 16) (rest : List Byte)
    {res : Nat} (h : res * base + d < 2 ^ 64) :
    parseInteger base (digitByte d :: rest) res = parseInteger base rest (res * base + d) := by
  rw [parseInteger, digitValue_digitByte (by omega)]
  show (if d ≥ base then res else parseInteger base rest ((res * base + d) % 2 ^ 64)) = _
  rw [if_neg (by omega), Nat.mod_eq_of_lt h]

/-- The digits of a 64-bit number are read as the number. -/
theorem parseInteger_digits {base : Nat} (hlo : 1 < base) (hhi : base ≤ 16) (n : Nat)
    (h : n < 2 ^ 64) (rest : List Byte) :
    parseInteger base (digits base n ++ rest) 0 = parseInteger base rest n := by
  induction n using Nat.strongRecOn generalizing rest with
  | _ n ih =>
    by_cases hlt : n < base
    · rw [digits_of_lt hlt, List.singleton_append, parseInteger_digit hlt hhi rest (by omega),
        Nat.zero_mul, Nat.zero_add]
    · have hpos : 0 < n := by omega
      have hdiv : n / base < n := Nat.div_lt_self hpos hlo
      have hsplit : n / base * base + n % base = n := Nat.div_add_mod' n base
      rw [digits_of_le hlo (Nat.not_lt.mp hlt), List.append_assoc, List.singleton_append,
        ih _ hdiv (by omega), parseInteger_digit (Nat.mod_lt n (by omega)) hhi rest (by omega),
        hsplit]

/-- No digit is a sign. -/
theorem digitByte_ne_minus {d : Nat} (h : d < 16) : digitByte d ≠ 45 := by
  have hall : ∀ d : Fin 16, digitByte d ≠ 45 := by decide
  exact hall ⟨d, h⟩

/-- A number is made of digits. -/
theorem mem_digits {base n : Nat} (hlo : 1 < base) {c : Byte} (h : c ∈ digits base n) :
    ∃ d, d < base ∧ c = digitByte d := by
  induction n using Nat.strongRecOn with
  | _ n ih =>
    by_cases hlt : n < base
    · rw [digits_of_lt hlt] at h
      exact ⟨n, hlt, List.mem_singleton.mp h⟩
    · rw [digits_of_le hlo (Nat.not_lt.mp hlt)] at h
      rcases List.mem_append.mp h with h | h
      · exact ih (n / base) (Nat.div_lt_self (by omega) hlo) h
      · exact ⟨n % base, Nat.mod_lt n (by omega), List.mem_singleton.mp h⟩

/-- A number begins with a digit. -/
theorem digits_head {base : Nat} (hlo : 1 < base) (n : Nat) :
    ∃ d rest, d < base ∧ digits base n = digitByte d :: rest := by
  induction n using Nat.strongRecOn with
  | _ n ih =>
    by_cases hlt : n < base
    · exact ⟨n, [], hlt, digits_of_lt hlt⟩
    · obtain ⟨d, rest, hd, heq⟩ := ih (n / base) (Nat.div_lt_self (by omega) hlo)
      refine ⟨d, rest ++ [digitByte (n % base)], hd, ?_⟩
      rw [digits_of_le hlo (Nat.not_lt.mp hlt), heq]
      rfl

/-! ## `simple_strtol` -/

/-- The parser stops at the newline. -/
theorem parseInteger_newline (base res : Nat) : parseInteger base [10] res = res := rfl

/-- A hexadecimal address, converted to `long`. -/
theorem simpleStrtol_hexText (longBits : Nat) {n : Nat} (h : n < 2 ^ 64) :
    simpleStrtol longBits 16 (hexText n) = (n : Int).bmod (2 ^ longBits) := by
  have htext : hexText n = 48 :: 120 :: (digits 16 n ++ [10]) := rfl
  have hskip : ∀ buf : List Byte, skipRadix 16 (48 :: 120 :: buf) = buf := fun buf => by
    rw [skipRadix, if_pos (by decide)]
  rw [htext]
  show (simpleStrtoul longBits 16 (48 :: 120 :: (digits 16 n ++ [10])) : Int).bmod _ = _
  rw [simpleStrtoul, hskip, parseInteger_digits (by decide) (by decide) n h,
    parseInteger_newline]
  rw [Int.natCast_mod]
  exact Int.emod_bmod _ _

theorem skipRadix_ten (buf : List Byte) : skipRadix 10 buf = buf := by
  unfold skipRadix
  split
  · exact if_neg fun h => absurd h.1 (by decide)
  · rfl

theorem simpleStrtoul_digits (longBits : Nat) {n : Nat} (h : n < 2 ^ 64) :
    simpleStrtoul longBits 10 (digits 10 n ++ [10]) = n % 2 ^ longBits := by
  rw [simpleStrtoul, skipRadix_ten, parseInteger_digits (by decide) (by decide) n h,
    parseInteger_newline]

/-- An `int`, in decimal, is read as it was. -/
theorem simpleStrtol_decText {longBits : Nat} (hlong : 32 ≤ longBits) {v : Int}
    (hlo : -2 ^ 31 ≤ v) (hhi : v < 2 ^ 31) : simpleStrtol longBits 10 (decText v) = v := by
  have hpow : 2 ^ 32 ≤ 2 ^ longBits := Nat.pow_le_pow_right (by decide) hlong
  have hfit : v.bmod (2 ^ longBits) = v := by
    generalize 2 ^ longBits = m at hpow
    exact Int.bmod_eq_of_le (by omega) (by omega)
  by_cases hneg : v < 0
  · have htext : decText v = 45 :: (digits 10 v.natAbs ++ [10]) := by
      unfold decText
      rw [if_pos hneg]
      rfl
    rw [htext]
    show (-(simpleStrtoul longBits 10 (digits 10 v.natAbs ++ [10]) : Int)).bmod _ = v
    rw [simpleStrtoul_digits longBits (by omega), Nat.mod_eq_of_lt (by omega)]
    have habs : -(v.natAbs : Int) = v := by omega
    rw [habs, hfit]
  · have htext : decText v = digits 10 v.natAbs ++ [10] := by
      unfold decText
      rw [if_neg hneg]
      rfl
    obtain ⟨d, rest, hd, hhead⟩ := digits_head (by decide : 1 < 10) v.natAbs
    have hunsigned : simpleStrtol longBits 10 (digits 10 v.natAbs ++ [10]) =
        (simpleStrtoul longBits 10 (digits 10 v.natAbs ++ [10]) : Int).bmod (2 ^ longBits) := by
      rw [hhead, List.cons_append, simpleStrtol]
      intro buf heq
      exact digitByte_ne_minus (by omega) (List.cons.inj heq).1
    rw [htext, hunsigned, simpleStrtoul_digits longBits (by omega), Nat.mod_eq_of_lt (by omega)]
    have habs : (v.natAbs : Int) = v := by omega
    rw [habs, hfit]

/-- Different `int`s are printed differently. -/
theorem decText_inj {v v' : Int} (hlo : -2 ^ 31 ≤ v) (hhi : v < 2 ^ 31) (hlo' : -2 ^ 31 ≤ v')
    (hhi' : v' < 2 ^ 31) (h : decText v = decText v') : v = v' := by
  rw [← simpleStrtol_decText (Nat.le_refl 32) hlo hhi, h,
    simpleStrtol_decText (Nat.le_refl 32) hlo' hhi']

/-! ## Bytes -/

/-- The bytes of a text of hexadecimal pairs; what is not part of a pair is skipped. -/
def readBytes : List Byte → List Byte
  | hi :: lo :: rest =>
    match digitValue hi, digitValue lo with
    | some h, some l => UInt8.ofNat (16 * h + l) :: readBytes rest
    | _, _ => readBytes (lo :: rest)
  | _ => []

theorem readBytes_skip {c : Byte} (hc : digitValue c = none) (rest : List Byte) :
    readBytes (c :: rest) = readBytes rest := by
  cases rest with
  | nil => rfl
  | cons lo rest => rw [readBytes, hc]

theorem readBytes_skip_all {cs : List Byte} (hcs : ∀ c ∈ cs, digitValue c = none)
    (rest : List Byte) : readBytes (cs ++ rest) = readBytes rest := by
  induction cs with
  | nil => rfl
  | cons c cs ih =>
    rw [List.cons_append, readBytes_skip (hcs c List.mem_cons_self),
      ih fun d hd => hcs d (List.mem_cons_of_mem c hd)]

/-- A byte is read from the characters of its two digits. -/
theorem readBytes_pair {b hi lo : Byte} (hhi : digitValue hi = some (b.toNat / 16))
    (hlo : digitValue lo = some (b.toNat % 16)) (rest : List Byte) :
    readBytes (hi :: lo :: rest) = b :: readBytes rest := by
  rw [readBytes, hhi, hlo]
  dsimp only
  rw [Nat.div_add_mod, UInt8.ofNat_toNat]

end LinuxDeviceDriver
