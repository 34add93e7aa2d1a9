import Aesd.Driver.Reading

/-!
# Seeking with `aesd_llseek`

The test in front of the `switch` asks whether `whence` differs from `SEEK_SET`, or from `SEEK_CUR`,
or from `SEEK_END`. Every number does, so no seek gets past it (`aesdLlseek_eq`). What stands behind
it would be right: the sizes are added up slot by slot, and not in the order in which `aesd_read`
goes through them, but the sum is the same wherever the oldest entry is (`proposedOffset_eq`).
-/

namespace Aesd

open Effect CInt Bytes

variable {buffer : CircularBuffer} {h : Heap} {ms : List (List Byte)} {s : CharDevice}
  {offset whence fPos : ℤ} {target : ℕ}

/-! ### The number of stored bytes -/

/-- A slot without a buffer has size zero. -/
lemma HoldsMessages.size_of_null (hms : HoldsMessages buffer h ms)
    {slot : Fin maxWriteOperationsSupported} (hnull : (buffer.entry slot).buffptr = none) :
    (buffer.entry slot).size = 0 := by
  obtain ⟨i, hi, rfl⟩ := exists_place buffer slot
  cases hm : ms[i]? with
  | none =>
    rw [hms.unused i (List.getElem?_eq_none_iff.mp hm) hi]
    rfl
  | some m =>
    obtain ⟨p, -, hentry⟩ := hms.stored i m hm
    rw [hentry] at hnull
    cases hnull

/-- The loop adds up the sizes of the slots it visits. -/
lemma HoldsMessages.numBytesLoop_eq (hms : HoldsMessages buffer h ms)
    (slots : List (Fin maxWriteOperationsSupported)) (n : ℤ) :
    buffer.numBytesLoop slots (toI32 n) =
      toI32 (n + (slots.map fun i => (buffer.entry i).size).sum) := by
  induction slots generalizing n with
  | nil => simp [CircularBuffer.numBytesLoop]
  | cons i rest ih =>
    rw [CircularBuffer.numBytesLoop, List.map_cons, List.sum_cons, ← add_assoc]
    split_ifs with hused
    · rw [toI32_add]
      exact ih _
    · rw [hms.size_of_null (not_not.mp hused), add_zero]
      exact ih n

/-- The sizes of the first places add up to the bytes of the first messages. -/
lemma HoldsMessages.sum_places (hms : HoldsMessages buffer h ms) {n : ℕ}
    (hn : n ≤ maxWriteOperationsSupported) :
    ∑ i ∈ Finset.range n, (buffer.entry (buffer.place i)).size = bytesBefore ms n := by
  induction n with
  | zero => simp [bytesBefore_zero]
  | succ n ih => rw [Finset.sum_range_succ, ih (by omega), hms.bytesBefore_succ (by omega)]

/-- In slot order the sum is that of the places: these are the slots, turned by `out_offs`. -/
lemma HoldsMessages.sum_slots (hms : HoldsMessages buffer h ms) :
    ((List.finRange maxWriteOperationsSupported).map fun i => (buffer.entry i).size).sum =
      ms.flatten.length := by
  have hplace : ∀ i : Fin maxWriteOperationsSupported, buffer.place i = buffer.outOffs + i := by
    intro i
    apply Fin.ext
    simp [CircularBuffer.place, Fin.val_add]
  rw [← Fin.sum_univ_def, ← Equiv.sum_comp (Equiv.addLeft buffer.outOffs)]
  simp only [Equiv.coe_addLeft, ← hplace]
  rw [Fin.sum_univ_eq_sum_range fun i => (buffer.entry (buffer.place i)).size,
    hms.sum_places le_rfl, hms.bytesBefore_max]

/-- `numBytes` is the number of stored bytes, as an `int`. -/
lemma HoldsMessages.numBytes_eq (hms : HoldsMessages buffer h ms) :
    buffer.numBytesLoop (List.finRange maxWriteOperationsSupported) 0 =
      toI32 ms.flatten.length := by
  have hloop := hms.numBytesLoop_eq (List.finRange maxWriteOperationsSupported) 0
  rw [hms.sum_slots, zero_add] at hloop
  exact hloop

/-! ### Targets -/

/-- The position a seek is meant to go to; there is one for three values of `whence`. -/
def seekTarget (s : CharDevice) (offset whence fPos : ℤ) : Option ℤ :=
  if whence = SEEK_SET then some offset
  else if whence = SEEK_CUR then some (fPos + offset)
  else if whence = SEEK_END then some ((contents s).length + offset)
  else none

/-- The target is a position in the contents, or their end. -/
def InContents (s : CharDevice) (offset whence fPos : ℤ) (target : ℕ) : Prop :=
  seekTarget s offset whence fPos = some (target : ℤ) ∧ target ≤ (contents s).length

/-- The next call of `aesd_read`, with a position `fPos` that should be `p`, returns stored bytes
from `p` on, and at least one unless that is the end. -/
def ReadsOn (s : CharDevice) (p : ℕ) (fPos : ℤ) : Prop :=
  ∀ count : ℕ, 1 ≤ count →
    (∃ res h', (aesdRead s.driver.dev count fPos).Eval kernelExec s.heap res h' ∧
      res.retval ≠ -EFAULT) ∧
    ∀ res h', (aesdRead s.driver.dev count fPos).Eval kernelExec s.heap res h' →
      res.retval ≠ -EFAULT →
      res.data = ((contents s).drop p).take res.data.length ∧ res.data.length ≤ count ∧
        res.retval = res.data.length ∧ (res.data = [] ↔ p = (contents s).length)

lemma readsOn_self (hs : s.Reachable) (hsmall : (contents s).length < 2 ^ 31)
    (hle : target ≤ (contents s).length) : ReadsOn s target target := by
  intro count hcount
  obtain ⟨n, hlength, hn, hzero, hread⟩ :=
    aesdRead_eval_piece hs.holds hs.hasRing hsmall hle hcount
  rw [← contents] at hlength hread
  constructor
  · have hok : (n : ℤ) ≠ -EFAULT := by
      rw [EFAULT]
      omega
    exact ⟨_, _, (hread _ _ hok).mpr ⟨rfl, rfl⟩, hok⟩
  · intro res h' heval hok
    obtain ⟨rfl, -⟩ := (hread res h' hok).mp heval
    refine ⟨by rw [hlength], hlength.le.trans hn, by rw [hlength], ?_⟩
    rw [← List.length_eq_zero_iff, hlength]
    constructor
    · exact hzero
    · rintro rfl
      simpa using hlength.symm

/-- Behind the test the `switch` proposes the target, and reads go on from there, as long as fewer
than `2 ^ 31` bytes are stored. -/
theorem proposedOffset_eq (hs : s.Reachable) (hsmall : (contents s).length < 2 ^ 31)
    (htarget : InContents s offset whence fPos target) :
    proposedOffset s.driver.dev offset whence fPos = some (target : ℤ) ∧
      ReadsOn s target target := by
  obtain ⟨heq, hle⟩ := htarget
  refine ⟨?_, readsOn_self hs hsmall hle⟩
  have hnumBytes := hs.holds.numBytes_eq
  rw [← contents, toI32_of_range (by omega) (by omega)] at hnumBytes
  rw [seekTarget] at heq
  rw [proposedOffset]
  split_ifs at heq ⊢ with hset hcur hend
  · exact heq
  · rw [add_comm, Option.some.inj heq, toI64_of_range (by omega) (by omega)]
  · simp only [hnumBytes]
    rw [add_comm, Option.some.inj heq, toI64_of_range (by omega) (by omega)]

/-! ### Seeks -/

/-- The seek goes to its target if that is in the contents, and what is read next is what is stored
there. Another `whence` is rejected and leaves the position. -/
def SeeksToTarget (s : CharDevice) (offset whence fPos : ℤ) : Prop :=
  let res := aesdLlseek s.driver.dev offset whence fPos
  (∀ target : ℕ, InContents s offset whence fPos target →
    res = ⟨target, target⟩ ∧ ReadsOn s target res.fPos) ∧
  (whence ≠ SEEK_SET → whence ≠ SEEK_CUR → whence ≠ SEEK_END → res = ⟨-EINVAL, fPos⟩)

/-- Every seek is rejected. -/
lemma aesdLlseek_eq (dev : AesdDev) (offset whence fPos : ℤ) :
    aesdLlseek dev offset whence fPos = ⟨-EINVAL, fPos⟩ := by
  have htest : whence ≠ SEEK_SET ∨ whence ≠ SEEK_CUR ∨ whence ≠ SEEK_END := by
    by_cases hset : whence = SEEK_SET
    · refine Or.inr (Or.inl ?_)
      rw [hset]
      decide
    · exact Or.inl hset
  rw [aesdLlseek, if_pos htest]

/-- Exactly the seeks without a target in the contents end as they should. -/
theorem seeksToTarget_iff (s : CharDevice) (offset whence fPos : ℤ) :
    SeeksToTarget s offset whence fPos ↔
      ∀ target : ℕ, ¬ InContents s offset whence fPos target := by
  rw [SeeksToTarget]
  simp only [aesdLlseek_eq]
  constructor
  · rintro ⟨hseek, -⟩ target htarget
    obtain ⟨heq, -⟩ := hseek target htarget
    have hretval : -EINVAL = (target : ℤ) := congrArg SeekResult.retval heq
    rw [EINVAL] at hretval
    omega
  · intro hnone
    simp [hnone]

/-- With one line of two bytes stored, a seek to the end is rejected. -/
theorem llseek_rejects_end : ∃ s : CharDevice, s.Reachable ∧ (contents s).length = 2 ∧
    InContents s 0 SEEK_END 0 2 ∧
    aesdLlseek s.driver.dev 0 SEEK_END 0 = ⟨-EINVAL, 0⟩ ∧
    ¬ SeeksToTarget s 0 SEEK_END 0 := by
  obtain ⟨s, hs, hms, -⟩ := exists_reachable_line
  have hlength : (contents s).length = 2 := by
    rw [contents, hms]
    rfl
  have htarget : InContents s 0 SEEK_END 0 2 := by
    refine ⟨?_, hlength.ge⟩
    rw [seekTarget, hlength]
    rfl
  refine ⟨s, hs, hlength, htarget, aesdLlseek_eq _ _ _ _, ?_⟩
  rw [seeksToTarget_iff]
  exact fun hnone => hnone 2 htarget

end Aesd
