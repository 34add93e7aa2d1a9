import Aesd.Driver.Seeking

/-!
# The argument of the seek command

`AESDCHAR_IOCSEEKTO` is declared to take the address of a `struct aesd_seekto`. The driver does not
copy that structure from the user: it reads the 64 bits of the address itself as one. So the result
is the structure's only where the address happens to say the same as what is stored at it
(`ioctl_dependsOnStructure_iff`).
-/

namespace Aesd

open Effect CInt Bytes

variable {buffer : CircularBuffer} {h : Heap} {ms : List (List Byte)} {dev : AesdDev}
  {s : CharDevice} {d d' : SeekTo} {arg arg' fPos : ℤ} {address : ℕ}

/-! ### Structures in memory -/

/-- The memory of a user; nothing can be read from an address that is not mapped. -/
abbrev UserMemory := ℕ → Option Byte

/-- The `uint32_t` at an address, on a little-endian machine. -/
def UserMemory.loadU32 (memory : UserMemory) (address : ℕ) : Option ℕ := do
  let b₀ ← memory address
  let b₁ ← memory (address + 1)
  let b₂ ← memory (address + 2)
  let b₃ ← memory (address + 3)
  return b₀.toNat + 2 ^ 8 * b₁.toNat + 2 ^ 16 * b₂.toNat + 2 ^ 24 * b₃.toNat

/-- The `struct aesd_seekto` at an address. -/
def SeekTo.load (memory : UserMemory) (address : ℕ) : Option SeekTo := do
  let writeCmd ← memory.loadU32 address
  let writeCmdOffset ← memory.loadU32 (address + 4)
  return ⟨writeCmd, writeCmdOffset⟩

/-- The fields are `uint32_t`. -/
structure SeekTo.InRange (d : SeekTo) : Prop where
  writeCmd_nonneg : 0 ≤ d.writeCmd
  writeCmd_lt : d.writeCmd < 2 ^ 32
  writeCmdOffset_nonneg : 0 ≤ d.writeCmdOffset
  writeCmdOffset_lt : d.writeCmdOffset < 2 ^ 32

lemma UserMemory.loadU32_lt {memory : UserMemory} {n : ℕ}
    (hload : memory.loadU32 address = some n) : n < 2 ^ 32 := by
  simp only [UserMemory.loadU32, Option.bind_eq_bind, Option.bind_eq_some_iff, Option.pure_def,
    Option.some.injEq] at hload
  obtain ⟨b₀, -, b₁, -, b₂, -, b₃, -, rfl⟩ := hload
  have h₀ := b₀.toNat_lt
  have h₁ := b₁.toNat_lt
  have h₂ := b₂.toNat_lt
  have h₃ := b₃.toNat_lt
  omega

lemma SeekTo.inRange_of_load {memory : UserMemory} (hload : SeekTo.load memory address = some d) :
    d.InRange := by
  simp only [SeekTo.load, Option.bind_eq_bind, Option.bind_eq_some_iff, Option.pure_def,
    Option.some.injEq] at hload
  obtain ⟨c, hc, o, ho, rfl⟩ := hload
  have hc' := UserMemory.loadU32_lt hc
  have ho' := UserMemory.loadU32_lt ho
  constructor
  · exact Int.natCast_nonneg c
  · show (c : ℤ) < 2 ^ 32
    omega
  · exact Int.natCast_nonneg o
  · show (o : ℤ) < 2 ^ 32
    omega

lemma SeekTo.inRange_ofArg (arg : ℤ) : (SeekTo.ofArg arg).InRange :=
  ⟨toU32_nonneg _, toU32_lt _, toU32_nonneg _, toU32_lt _⟩

/-- The argument that the driver reads as the structure `d`. -/
def SeekTo.toArg (d : SeekTo) : ℤ := d.writeCmd + 2 ^ 32 * d.writeCmdOffset

lemma SeekTo.InRange.ofArg_toArg (hd : d.InRange) : SeekTo.ofArg d.toArg = d := by
  obtain ⟨hc, hc', ho, ho'⟩ := hd
  have hlow : toU32 d.toArg = d.writeCmd := by
    rw [toU32, toArg]
    omega
  have hhigh : toU32 (d.toArg / 2 ^ 32) = d.writeCmdOffset := by
    rw [toU32, toArg]
    omega
  rw [ofArg, hlow, hhigh]

/-! ### Results of seeks -/

/-- The position that a structure stands for. -/
def SeekTo.position (ms : List (List Byte)) (d : SeekTo) : ℤ :=
  bytesBefore ms d.writeCmd.toNat + d.writeCmdOffset

/-- What the command does with an argument that it reads as `d`. -/
lemma aesdUnlockedioctl_eq (hms : HoldsMessages dev.circBuffer h ms) (hd : d.InRange)
    (harg : SeekTo.ofArg arg = d) :
    aesdUnlockedioctl dev AESDCHAR_IOCSEEKTO arg fPos =
      if d.writeCmd < maxWriteOperationsSupported then
        ⟨toI32 (d.position ms), toI32 (d.position ms)⟩
      else ⟨-EINVAL, fPos⟩ := by
  obtain ⟨c, hc⟩ := Int.eq_ofNat_of_zero_le hd.writeCmd_nonneg
  obtain ⟨o, ho⟩ := Int.eq_ofNat_of_zero_le hd.writeCmdOffset_nonneg
  obtain rfl : d = ⟨c, o⟩ := by
    cases d
    simp_all
  split_ifs with hlt
  · rw [aesdUnlockedioctl_of_lt hms harg (Int.ofNat_lt.mp hlt)]
    simp [SeekTo.position]
  · exact aesdUnlockedioctl_of_ge harg (by simpa using hlt)

/-- Two structures lead to the same result and position: their numbers are both rejected, or both
accepted and the positions agree in 32 bits, or only one is, its position is the error code, and the
file was there before. -/
def SameSeek (ms : List (List Byte)) (fPos : ℤ) (d d' : SeekTo) : Prop :=
  if d.writeCmd < maxWriteOperationsSupported then
    if d'.writeCmd < maxWriteOperationsSupported then
      toU32 (d.position ms) = toU32 (d'.position ms)
    else fPos = -EINVAL ∧ toU32 (d.position ms) = toU32 (-EINVAL)
  else if d'.writeCmd < maxWriteOperationsSupported then
    fPos = -EINVAL ∧ toU32 (d'.position ms) = toU32 (-EINVAL)
  else True

lemma toI32_eq_iff (x y : ℤ) : toI32 x = toI32 y ↔ toU32 x = toU32 y := by
  simp only [toI32, toU32]
  omega

/-- A position is returned that looks like an error. -/
lemma seekResult_eq_error_iff (x fPos : ℤ) :
    (⟨toI32 x, toI32 x⟩ : SeekResult) = ⟨-EINVAL, fPos⟩ ↔
      fPos = -EINVAL ∧ toU32 x = toU32 (-EINVAL) := by
  have herror : toI32 x = -EINVAL ↔ toU32 x = toU32 (-EINVAL) := toI32_eq_iff x (-EINVAL)
  rw [SeekResult.mk.injEq, ← herror]
  constructor
  · rintro ⟨hretval, hfPos⟩
    exact ⟨hfPos.symm.trans hretval, hretval⟩
  · rintro ⟨rfl, hretval⟩
    exact ⟨hretval, hretval⟩

lemma aesdUnlockedioctl_eq_iff (hms : HoldsMessages dev.circBuffer h ms) (hd : d.InRange)
    (hd' : d'.InRange) (harg : SeekTo.ofArg arg = d) (harg' : SeekTo.ofArg arg' = d') :
    aesdUnlockedioctl dev AESDCHAR_IOCSEEKTO arg fPos =
      aesdUnlockedioctl dev AESDCHAR_IOCSEEKTO arg' fPos ↔ SameSeek ms fPos d d' := by
  rw [aesdUnlockedioctl_eq hms hd harg, aesdUnlockedioctl_eq hms hd' harg', SameSeek]
  split_ifs with hlt hlt' hlt'
  · rw [SeekResult.mk.injEq, and_self, toI32_eq_iff]
  · exact seekResult_eq_error_iff _ _
  · rw [eq_comm]
    exact seekResult_eq_error_iff _ _
  · exact iff_of_true rfl trivial

/-! ### The structure and its address -/

/-- The command returns the same value and leaves the same position for both addresses, and those
are the ones the structure stands for. -/
def DependsOnStructure (dev : AesdDev) (fPos : ℤ) (d : SeekTo) (address₁ address₂ : ℕ) : Prop :=
  let result := fun arg => aesdUnlockedioctl dev AESDCHAR_IOCSEEKTO arg fPos
  result address₁ = result address₂ ∧ result address₁ = result d.toArg

/-- The address itself reads as the structure, or both have numbers that are rejected. -/
def ReadsAs (d : SeekTo) (address : ℕ) : Prop :=
  SeekTo.ofArg address = d ∨
    maxWriteOperationsSupported ≤ d.writeCmd ∧
      maxWriteOperationsSupported ≤ (SeekTo.ofArg address).writeCmd

lemma ReadsAs.sameSeek (hreads : ReadsAs d address) :
    SameSeek ms fPos (SeekTo.ofArg address) d := by
  rcases hreads with rfl | ⟨hd, haddress⟩
  · rw [SameSeek]
    split_ifs
    rfl
  · rw [SameSeek, if_neg (not_lt.mpr haddress), if_neg (not_lt.mpr hd)]
    trivial

/-- The first `i` of some empty lines have `i` bytes. -/
lemma bytesBefore_replicate {n i : ℕ} (hi : i ≤ n) :
    bytesBefore (List.replicate n [newline]) i = i := by
  simp [bytesBefore, List.take_replicate, hi]

/-- Without messages the offsets have to agree, and with ten lines the numbers too. -/
lemma readsAs_of_sameSeek (hd : d.InRange)
    (hsame : ∀ n ≤ maxWriteOperationsSupported,
      SameSeek (List.replicate n [newline]) 0 (SeekTo.ofArg address) d) : ReadsAs d address := by
  have hd' := SeekTo.inRange_ofArg address
  have hnone := hsame 0 (Nat.zero_le _)
  have hlines := hsame maxWriteOperationsSupported le_rfl
  generalize hdef : SeekTo.ofArg address = d' at hd' hnone hlines
  rw [SameSeek] at hnone hlines
  have hzero : (0 : ℤ) ≠ -EINVAL := by decide
  split_ifs at hnone hlines with hlt' hlt hlt
  · -- both numbers are accepted: an empty buffer shows the offset, one with lines the number
    have hten : d.writeCmd < 10 := hlt
    have hten' : d'.writeCmd < 10 := hlt'
    obtain ⟨hc, -, ho, ho'⟩ := hd
    obtain ⟨hc', -, hoffset, hoffset'⟩ := hd'
    rw [SeekTo.position, SeekTo.position, bytesBefore_replicate (by omega),
      bytesBefore_replicate (by omega), toU32, toU32] at hlines
    simp only [SeekTo.position, List.replicate_zero, bytesBefore, List.take_nil, List.flatten_nil,
      List.length_nil, Nat.cast_zero, zero_add] at hnone
    rw [toU32_of_range hoffset hoffset', toU32_of_range ho ho'] at hnone
    have hnumber : d'.writeCmd = d.writeCmd := by omega
    left
    rw [hdef]
    cases d
    cases d'
    exact congrArg₂ SeekTo.mk hnumber hnone
  · exact absurd hnone.1 hzero
  · exact absurd hnone.1 hzero
  · right
    rw [hdef]
    exact ⟨not_lt.mp hlt, not_lt.mp hlt'⟩

/-- In a given state the addresses lead where the structure does exactly if they lead to the same
position as it; in every state that can be reached they do exactly if they read as the
structure. -/
theorem ioctl_dependsOnStructure_iff {memory₁ memory₂ : UserMemory} {address₁ address₂ : ℕ}
    (hload₁ : SeekTo.load memory₁ address₁ = some d)
    (hload₂ : SeekTo.load memory₂ address₂ = some d) :
    (∀ s : CharDevice, s.Reachable → ∀ fPos,
      let ms := storedMessages s.driver.dev.circBuffer s.heap
      (DependsOnStructure s.driver.dev fPos d address₁ address₂ ↔
        SameSeek ms fPos (SeekTo.ofArg address₁) d ∧
        SameSeek ms fPos (SeekTo.ofArg address₂) d)) ∧
    ((∀ s : CharDevice, s.Reachable → ∀ fPos,
      DependsOnStructure s.driver.dev fPos d address₁ address₂) ↔
        ReadsAs d address₁ ∧ ReadsAs d address₂) := by
  have hd := SeekTo.inRange_of_load hload₁
  have hstate : ∀ s : CharDevice, s.Reachable → ∀ fPos,
      let ms := storedMessages s.driver.dev.circBuffer s.heap
      (DependsOnStructure s.driver.dev fPos d address₁ address₂ ↔
        SameSeek ms fPos (SeekTo.ofArg address₁) d ∧
        SameSeek ms fPos (SeekTo.ofArg address₂) d) := by
    intro s hs fPos ms
    have hms := hs.holds
    rw [← aesdUnlockedioctl_eq_iff hms (SeekTo.inRange_ofArg address₁) hd rfl hd.ofArg_toArg,
      ← aesdUnlockedioctl_eq_iff hms (SeekTo.inRange_ofArg address₂) hd rfl hd.ofArg_toArg,
      DependsOnStructure]
    constructor
    · rintro ⟨hequal, hfirst⟩
      exact ⟨hfirst, hequal.symm.trans hfirst⟩
    · rintro ⟨hfirst, hsecond⟩
      exact ⟨hfirst.trans hsecond.symm, hfirst⟩
  refine ⟨hstate, ?_⟩
  constructor
  · intro hall
    have hsame : ∀ n ≤ maxWriteOperationsSupported,
        SameSeek (List.replicate n [newline]) 0 (SeekTo.ofArg address₁) d ∧
          SameSeek (List.replicate n [newline]) 0 (SeekTo.ofArg address₂) d := by
      intro n hn
      obtain ⟨s, hs, hms⟩ := exists_reachable_newlines hn
      rw [← hms]
      exact (hstate s hs 0).mp (hall s hs 0)
    exact ⟨readsAs_of_sameSeek hd fun n hn => (hsame n hn).1,
      readsAs_of_sameSeek (SeekTo.inRange_of_load hload₂) fun n hn => (hsame n hn).2⟩
  · rintro ⟨hreads₁, hreads₂⟩ s hs fPos
    exact (hstate s hs fPos).mpr ⟨hreads₁.sameSeek, hreads₂.sameSeek⟩

/-! ### Structures at given addresses -/

/-- Only the structure `d` is mapped, its eight bytes from `address` on. -/
def SeekTo.storedAt (d : SeekTo) (address : ℕ) : UserMemory := fun a =>
  if address ≤ a ∧ a < address + 8 then
    some (UInt8.ofNat (d.toArg.toNat / 2 ^ (8 * (a - address))))
  else none

lemma SeekTo.storedAt_add (d : SeekTo) {i : ℕ} (hi : i < 8) :
    d.storedAt address (address + i) = some (UInt8.ofNat (d.toArg.toNat / 2 ^ (8 * i))) := by
  rw [storedAt, if_pos ⟨by omega, by omega⟩, Nat.add_sub_cancel_left]

/-- The four bytes of `n` from `2 ^ k` on. -/
lemma UserMemory.loadU32_eq {memory : UserMemory} {n k : ℕ}
    (hbytes : ∀ i < 4, memory (address + i) = some (UInt8.ofNat (n / 2 ^ (k + 8 * i)))) :
    memory.loadU32 address = some (n / 2 ^ k % 2 ^ 32) := by
  have h₀ := hbytes 0 (by decide)
  rw [Nat.add_zero] at h₀
  simp only [loadU32, h₀, hbytes 1 (by decide), hbytes 2 (by decide), hbytes 3 (by decide),
    Option.bind_eq_bind, Option.bind_some, Option.pure_def, UInt8.toNat_ofNat', pow_add,
    ← Nat.div_div_eq_div_mul]
  generalize n / 2 ^ k = m
  congr 1
  omega

lemma SeekTo.InRange.load_storedAt (hd : d.InRange) :
    SeekTo.load (d.storedAt address) address = some d := by
  have hlow : (d.storedAt address).loadU32 address = some (d.toArg.toNat / 2 ^ 0 % 2 ^ 32) := by
    apply UserMemory.loadU32_eq
    intro i hi
    rw [d.storedAt_add (by omega), Nat.zero_add]
  have hhigh : (d.storedAt address).loadU32 (address + 4) =
      some (d.toArg.toNat / 2 ^ 32 % 2 ^ 32) := by
    apply UserMemory.loadU32_eq
    intro i hi
    rw [Nat.add_assoc, d.storedAt_add (by omega), Nat.mul_add]
  obtain ⟨hc, hc', ho, ho'⟩ := hd
  obtain ⟨c, o⟩ := d
  simp only [load, hlow, hhigh, toArg, Option.bind_eq_bind, Option.bind_some, Option.pure_def,
    Option.some.injEq, SeekTo.mk.injEq] at hc hc' ho ho' ⊢
  omega

/-- Behind a first line of one byte, the byte `0x7f00` of the second line is the byte `0x7f01` of
all. The one address reads as the first, the other as the second: both lead where the structure
does, but the other not in every state. -/
theorem ioctl_dependsOnStructure_secondLine :
    SeekTo.load (SeekTo.storedAt ⟨1, 0x7f00⟩ 0x7f0000000001) 0x7f0000000001 = some ⟨1, 0x7f00⟩ ∧
    SeekTo.load (SeekTo.storedAt ⟨1, 0x7f00⟩ 0x7f0100000000) 0x7f0100000000 = some ⟨1, 0x7f00⟩ ∧
    (∃ s : CharDevice, s.Reachable ∧
      DependsOnStructure s.driver.dev 3 ⟨1, 0x7f00⟩ 0x7f0000000001 0x7f0100000000) ∧
    ¬ ∀ s : CharDevice, s.Reachable → ∀ fPos,
      DependsOnStructure s.driver.dev fPos ⟨1, 0x7f00⟩ 0x7f0000000001 0x7f0100000000 := by
  have hd : SeekTo.InRange ⟨1, 0x7f00⟩ := by constructor <;> decide
  have hload₁ : SeekTo.load (SeekTo.storedAt _ 0x7f0000000001) 0x7f0000000001 = some _ :=
    hd.load_storedAt
  have hload₂ : SeekTo.load (SeekTo.storedAt _ 0x7f0100000000) 0x7f0100000000 = some _ :=
    hd.load_storedAt
  refine ⟨hload₁, hload₂, ?_, ?_⟩
  · -- on this device and at this position both calls do what they should
    obtain ⟨s, hs, hms⟩ := exists_reachable_newlines (n := 2) (by decide)
    refine ⟨s, hs, ((ioctl_dependsOnStructure_iff hload₁ hload₂).1 s hs 3).mpr ?_⟩
    rw [hms]
    exact ⟨rfl, rfl⟩
  · -- the number in the second address is accepted, unlike the one in the structure
    intro hall
    obtain ⟨-, hreads⟩ := (ioctl_dependsOnStructure_iff hload₁ hload₂).2.mp hall
    rcases hreads with heq | ⟨hge, -⟩
    · cases heq
    · cases hge

/-! ### Two addresses of a zero structure -/

/-- Every byte is zero. -/
def zeroMemory : UserMemory := fun _ => some 0

/-- For two addresses in one memory, both of a structure of zeros, the command returns a position
and an error. -/
theorem ioctl_depends_on_address : ∃ s : CharDevice, s.Reachable ∧
    SeekTo.load zeroMemory 0x7f0000000000 = some ⟨0, 0⟩ ∧
    SeekTo.load zeroMemory 0x7f0000001000 = some ⟨0, 0⟩ ∧
    aesdUnlockedioctl s.driver.dev AESDCHAR_IOCSEEKTO 0x7f0000000000 0 = ⟨0x7f00, 0x7f00⟩ ∧
    aesdUnlockedioctl s.driver.dev AESDCHAR_IOCSEEKTO 0x7f0000001000 0 = ⟨-EINVAL, 0⟩ ∧
    ¬ DependsOnStructure s.driver.dev 0 ⟨0, 0⟩ 0x7f0000000000 0x7f0000001000 := by
  obtain ⟨block, hs⟩ := exists_reachable_fresh
  refine ⟨_, hs, rfl, rfl, rfl, rfl, ?_⟩
  rintro ⟨hequal, -⟩
  cases hequal

end Aesd
