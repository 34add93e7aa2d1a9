import Aesd.Driver.Reading

/-!
# Seeking

The seek command names a byte by the number of its message and its offset there. For a byte that
is stored the position it computes is the one `aesd_read` maps back to that message and offset
(`seek_then_read`). It does not look whether the byte is stored: only numbers that no slot can have
are rejected, and `seekRejects_iff` says which other pairs are treated as they should be.
-/

namespace Aesd

open Effect CInt Bytes

variable {buffer : CircularBuffer} {h : Heap} {ms : List (List Byte)} {dev : AesdDev}
  {c o : ℕ} {m : List Byte} {arg fPos : ℤ} {s : CharDevice}

/-! ### The position computed -/

/-- The walk to message number `c` adds up the bytes before it, in an `int`. -/
lemma HoldsMessages.seekLoop_eq (hms : HoldsMessages buffer h ms) {left i : ℕ}
    (hleft : left + i = maxWriteOperationsSupported) (hic : i ≤ c)
    (hc : c < maxWriteOperationsSupported) :
    buffer.seekLoop c left (buffer.place i) i (toI32 (bytesBefore ms i)) =
      toI32 (bytesBefore ms c) := by
  induction left generalizing i with
  | zero => omega
  | succ left ih =>
    have hi : toU32 i = i := by
      have hsupported : c < 10 := hc
      exact toU32_of_range (by omega) (by omega)
    rw [CircularBuffer.seekLoop, hi]
    split_ifs with hstop
    · obtain rfl : i = c := by exact_mod_cast hstop
      rfl
    · have hne : i ≠ c := by
        rintro rfl
        exact hstop rfl
      rw [toI32_add, ← hms.bytesBefore_succ (by omega), place_add_one]
      exact ih (i := i + 1) (by omega) (by omega)

/-- A number below ten is never rejected. -/
lemma aesdUnlockedioctl_of_lt (hms : HoldsMessages dev.circBuffer h ms)
    (harg : SeekTo.ofArg arg = ⟨c, o⟩) (hc : c < maxWriteOperationsSupported) :
    aesdUnlockedioctl dev AESDCHAR_IOCSEEKTO arg fPos =
      ⟨toI32 (bytesBefore ms c + o : ℕ), toI32 (bytesBefore ms c + o : ℕ)⟩ := by
  have hloop := hms.seekLoop_eq (i := 0) rfl (Nat.zero_le c) hc
  rw [bytesBefore_zero, place_zero] at hloop
  have hzero : toI32 ((0 : ℕ) : ℤ) = 0 := rfl
  rw [hzero, Nat.cast_zero] at hloop
  rw [aesdUnlockedioctl, if_pos rfl, harg]
  simp only [hloop, toI32_add]
  rw [if_neg (by simpa using hc), Nat.cast_add]

lemma aesdUnlockedioctl_of_ge (harg : SeekTo.ofArg arg = ⟨c, o⟩)
    (hc : maxWriteOperationsSupported ≤ c) :
    aesdUnlockedioctl dev AESDCHAR_IOCSEEKTO arg fPos = ⟨-EINVAL, fPos⟩ := by
  rw [aesdUnlockedioctl, if_pos rfl, harg]
  exact if_pos (Int.ofNat_le.mpr hc)

/-! ### Seeks to stored bytes -/

/-- A seek to byte `o` of message number `c` sets the position to the bytes before that message and
`o`, and returns it; that position leads back to the slot and the offset, and the next call of
`aesd_read` returns bytes of the message from there on. -/
theorem seek_then_read (hs : s.Reachable) (hsmall : (contents s).length < 2 ^ 31)
    (hm : (storedMessages s.driver.dev.circBuffer s.heap)[c]? = some m) (ho : o < m.length)
    (harg : SeekTo.ofArg arg = ⟨c, o⟩) :
    let pos := bytesBefore (storedMessages s.driver.dev.circBuffer s.heap) c + o
    aesdUnlockedioctl s.driver.dev AESDCHAR_IOCSEEKTO arg fPos = ⟨pos, pos⟩ ∧
      s.driver.dev.circBuffer.findEntryOffsetForFpos pos =
        some (Fin.ofNat _ (s.driver.dev.circBuffer.outOffs + c), (o : ℤ)) ∧
      ∀ count : ℕ, 1 ≤ count →
        (∃ res h', (aesdRead s.driver.dev count pos).Eval kernelExec s.heap res h' ∧
          res.retval ≠ -EFAULT) ∧
        ∀ res h', (aesdRead s.driver.dev count pos).Eval kernelExec s.heap res h' →
          res.retval ≠ -EFAULT →
          res.data = (m.drop o).take count ∧ res.data ≠ [] ∧ res.retval = res.data.length := by
  intro pos
  have hms := hs.holds
  have hc : c < maxWriteOperationsSupported := by
    obtain ⟨hlt, -⟩ := List.getElem?_eq_some_iff.mp hm
    exact hlt.trans_le hms.length_le
  have hpos : pos < 2 ^ 31 := by
    have hsucc := bytesBefore_succ_of_getElem? hm
    have htotal := bytesBefore_le (storedMessages s.driver.dev.circBuffer s.heap) (c + 1)
    rw [contents] at hsmall
    omega
  have hfind := hms.findEntryOffsetForFpos_eq_some hsmall hm ho
  have hfound : findCircEntry s.driver.dev (toU64 pos) =
      some (s.driver.dev.circBuffer.place c, (o : ℤ)) := by
    rw [findCircEntry, if_neg hs.hasRing, toU64_of_range (by omega) (by omega), hfind]
  refine ⟨?_, hfind, ?_⟩
  · -- the seek command goes to the first byte of message `c` plus `o`
    rw [aesdUnlockedioctl_of_lt hms harg hc, toI32_of_range (by omega) (by omega)]
  · intro count hcount
    -- a read from there begins with byte `o` of the message
    have heval {res : ReadResult} {h' : Heap} (hok : res.retval ≠ -EFAULT) :
        (aesdRead s.driver.dev count pos).Eval kernelExec s.heap res h' ↔ _ :=
      aesdRead_eval_stored hms hm hfound ho rfl (by omega) (by omega) hok
    constructor
    · have hok : ((min (m.length - o) count : ℕ) : ℤ) ≠ -EFAULT := by
        rw [EFAULT]
        omega
      exact ⟨_, _, (heval hok).mpr ⟨rfl, rfl⟩, hok⟩
    · intro res h' hres hok
      obtain ⟨rfl, -⟩ := (heval hok).mp hres
      have hlength : (m.drop o).length = m.length - o := List.length_drop
      have htake : (m.drop o).take (min (m.length - o) count) = (m.drop o).take count := by
        rw [← hlength, List.take_eq_take_iff]
        omega
      refine ⟨htake, ?_, ?_⟩
      · rw [← List.length_pos_iff, List.length_take]
        omega
      · rw [List.length_take, hlength]
        exact congrArg Nat.cast (by omega)

theorem seek_then_read_line : ∃ s : CharDevice, s.Reachable ∧
    aesdUnlockedioctl s.driver.dev AESDCHAR_IOCSEEKTO (2 ^ 32) (s.fPos 0) = ⟨1, 1⟩ ∧
    ∃ res h', (aesdRead s.driver.dev 8 1).Eval kernelExec s.heap res h' ∧ res.data = [10] := by
  obtain ⟨s, hs, hms, -⟩ := exists_reachable_line
  have hm : (storedMessages s.driver.dev.circBuffer s.heap)[0]? = some [97, 10] := by
    rw [hms]
    rfl
  have hsmall : (contents s).length < 2 ^ 31 := by
    rw [contents, hms]
    decide
  have harg : SeekTo.ofArg (2 ^ 32) = ⟨0, 1⟩ := rfl
  obtain ⟨hioctl, -, hread⟩ := seek_then_read hs hsmall hm (by decide) harg
  rw [bytesBefore_zero] at hioctl hread
  obtain ⟨res, h', heval, hok⟩ := (hread 8 (by decide)).1
  exact ⟨s, hs, hioctl, res, h', heval, ((hread 8 (by decide)).2 res h' heval hok).1⟩

/-! ### Seeks to bytes that are not stored -/

/-- Byte `o` of message number `c` is stored. -/
def IsStored (ms : List (List Byte)) (c o : ℕ) : Prop := ∃ m, ms[c]? = some m ∧ o < m.length

/-- A seek to a byte that is not stored is rejected and leaves the position; one that is not
rejected returns no error and leaves a position in the contents. -/
def SeekRejects (s : CharDevice) (c o : ℕ) (arg fPos : ℤ) : Prop :=
  let res := aesdUnlockedioctl s.driver.dev AESDCHAR_IOCSEEKTO arg fPos
  (¬ IsStored (storedMessages s.driver.dev.circBuffer s.heap) c o →
    res.retval = -EINVAL ∧ res.fPos = fPos) ∧
  (res.retval ≠ -EINVAL → 0 ≤ res.retval ∧ 0 ≤ res.fPos ∧ res.fPos < (contents s).length)

lemma IsStored.pos_lt (hstored : IsStored ms c o) : bytesBefore ms c + o < ms.flatten.length := by
  obtain ⟨m, hm, ho⟩ := hstored
  have hsucc := bytesBefore_succ_of_getElem? hm
  have htotal := bytesBefore_le ms (c + 1)
  omega

lemma toI32_natCast_nonneg {n : ℕ} : 0 ≤ toI32 n ↔ n % 2 ^ 32 < 2 ^ 31 := by
  rw [toI32]
  omega

lemma toI32_natCast_le (n : ℕ) : toI32 n ≤ n := by
  rw [toI32]
  omega

lemma toI32_natCast_eq_neg_EINVAL {n : ℕ} : toI32 n = -EINVAL ↔ n % 2 ^ 32 = 2 ^ 32 - 22 := by
  rw [toI32, EINVAL]
  omega

/-- Exactly when a pair is treated as it should be: its number is one that no slot can have, or it
is the pair of a stored byte whose position is one that an `int` can hold, or the position computed
is the error code by accident, for a stored byte or in a file that was there before. -/
theorem seekRejects_iff (hs : s.Reachable) (harg : SeekTo.ofArg arg = ⟨c, o⟩) :
    let ms := storedMessages s.driver.dev.circBuffer s.heap
    SeekRejects s c o arg fPos ↔
      maxWriteOperationsSupported ≤ c ∨
      (IsStored ms c o ∧ (bytesBefore ms c + o) % 2 ^ 32 < 2 ^ 31) ∨
      ((IsStored ms c o ∨ fPos = -EINVAL) ∧ (bytesBefore ms c + o) % 2 ^ 32 = 2 ^ 32 - 22) := by
  intro ms
  have hms := hs.holds
  rcases Nat.lt_or_ge c maxWriteOperationsSupported with hc | hc
  · rw [SeekRejects, aesdUnlockedioctl_of_lt hms harg hc]
    simp only [or_iff_right (not_le.mpr hc), ← toI32_natCast_nonneg, ← toI32_natCast_eq_neg_EINVAL]
    by_cases hstored : IsStored ms c o
    · have hlt : toI32 (bytesBefore ms c + o : ℕ) < (contents s).length :=
        (toI32_natCast_le _).trans_lt (Int.ofNat_lt.mpr hstored.pos_lt)
      constructor
      · rintro ⟨-, haccepted⟩
        by_cases herror : toI32 (bytesBefore ms c + o : ℕ) = -EINVAL
        · exact Or.inr ⟨Or.inl hstored, herror⟩
        · exact Or.inl ⟨hstored, (haccepted herror).1⟩
      · rintro (⟨-, hnonneg⟩ | ⟨-, herror⟩)
        · exact ⟨fun hnot => absurd hstored hnot, fun _ => ⟨hnonneg, hnonneg, hlt⟩⟩
        · exact ⟨fun hnot => absurd hstored hnot, fun hne => absurd herror hne⟩
    · constructor
      · rintro ⟨hrejected, -⟩
        obtain ⟨herror, hfPos⟩ := hrejected hstored
        exact Or.inr ⟨Or.inr (hfPos.symm.trans herror), herror⟩
      · rintro (⟨hyes, -⟩ | ⟨hyes | rfl, herror⟩)
        · exact absurd hyes hstored
        · exact absurd hyes hstored
        · exact ⟨fun _ => ⟨herror, herror⟩, fun hne => absurd herror hne⟩
  · -- the number is rejected, and it is missing
    rw [SeekRejects, aesdUnlockedioctl_of_ge harg hc]
    exact iff_of_true ⟨fun _ => ⟨rfl, rfl⟩, fun hne => absurd rfl hne⟩ (Or.inl hc)

theorem seekRejects_lastByte : ∃ s : CharDevice, s.Reachable ∧
    SeekRejects s 0 1 (2 ^ 32) (s.fPos 0) := by
  obtain ⟨s, hs, hms, -⟩ := exists_reachable_line
  refine ⟨s, hs, (seekRejects_iff (o := 1) hs rfl).mpr (Or.inr (Or.inl ⟨?_, ?_⟩))⟩
  · exact ⟨[97, 10], by rw [hms]; rfl, by decide⟩
  · rw [bytesBefore_zero]
    decide

/-- With one message stored, a seek to the beginning of a second one moves the position to the end
of the contents and returns it. -/
theorem seek_accepts_missing : ∃ s : CharDevice, s.Reachable ∧ (contents s).length = 2 ∧
    SeekTo.ofArg 1 = ⟨(1 : ℕ), (0 : ℕ)⟩ ∧
    ¬ IsStored (storedMessages s.driver.dev.circBuffer s.heap) 1 0 ∧
    aesdUnlockedioctl s.driver.dev AESDCHAR_IOCSEEKTO 1 0 = ⟨2, 2⟩ ∧
    ¬ SeekRejects s 1 0 1 0 := by
  obtain ⟨s, hs, hms, -⟩ := exists_reachable_line
  have hmissing : ¬ IsStored (storedMessages s.driver.dev.circBuffer s.heap) 1 0 := by
    rw [hms]
    rintro ⟨m, hm, -⟩
    cases hm
  have hseek : aesdUnlockedioctl s.driver.dev AESDCHAR_IOCSEEKTO 1 0 = ⟨2, 2⟩ := by
    rw [aesdUnlockedioctl_of_lt (c := 1) (o := 0) hs.holds rfl (by decide), hms]
    rfl
  refine ⟨s, hs, by rw [contents, hms]; rfl, rfl, hmissing, hseek, ?_⟩
  rintro ⟨hrejected, -⟩
  have herror := (hrejected hmissing).1
  rw [hseek] at herror
  cases herror

end Aesd
