import Aesd.Driver.Contents

/-!
# The temporary buffer

`aesd_write` doubles the size of the temporary buffer until the new bytes fit; the size is kept in
an `int`, and the loop counts in `size_t`. On a device in use, whatever has failed before, the loop
ends, and the user's bytes are copied into a block that has room for them (`tempBuffer_grows`).
-/

namespace Aesd

open Effect CInt Bytes

/-! ### The loop -/

lemma doubleUntil_zero {tests : ℕ} {needed : ℤ} (hpos : 0 < needed) :
    doubleUntil tests 0 needed = none := by
  induction tests with
  | zero => rfl
  | succ tests ih =>
    rw [doubleUntil, if_pos hpos]
    exact ih

/-- Doubling stays among the sizes of the buffer until it leaves the 64 bits. -/
lemma toU64_double (j : ℕ) : toU64 (tempBufferStartingSize * 2 ^ j * 2) =
      tempBufferStartingSize * 2 ^ (j + 1) ∨
    toU64 (tempBufferStartingSize * 2 ^ j * 2) = 0 := by
  have hdouble : tempBufferStartingSize * 2 ^ j * 2 = (2 : ℤ) ^ (j + 6) := by
    rw [tempBufferStartingSize]
    ring
  rcases Nat.lt_or_ge (j + 6) 64 with hlt | hge
  · left
    have hrange : (2 : ℤ) ^ (j + 6) < 2 ^ 64 := pow_lt_pow_right₀ (by decide) hlt
    rw [hdouble, toU64_of_range (by positivity) hrange, ← hdouble, pow_succ, mul_assoc]
  · right
    rw [hdouble, toU64]
    exact Int.emod_eq_zero_of_dvd (pow_dvd_pow 2 hge)

/-- What the loop finds is again the first size doubled some times. -/
lemma doubleUntil_shape {tests j : ℕ} {needed newSize : ℤ}
    (h : doubleUntil tests (tempBufferStartingSize * 2 ^ j) needed = some newSize) :
    ∃ k : ℕ, newSize = tempBufferStartingSize * 2 ^ k := by
  induction tests generalizing j with
  | zero => cases h
  | succ tests ih =>
    rw [doubleUntil] at h
    split_ifs at h with hlt
    · rcases toU64_double j with hdouble | hdouble
      · rw [hdouble] at h
        exact ih h
      · have hpos : 0 < needed := lt_of_le_of_lt (by unfold tempBufferStartingSize; positivity) hlt
        rw [hdouble, doubleUntil_zero hpos] at h
        cases h
    · cases h
      exact ⟨j, rfl⟩

/-- The loop ends if it starts from a positive size and what is needed is in reach. -/
lemma exists_doubleUntil (tests : ℕ) {size needed : ℤ} (hpos : 0 < size)
    (hneeded : needed ≤ 2 ^ 62) (hreach : needed ≤ size * 2 ^ tests) :
    ∃ newSize, doubleUntil (tests + 1) size needed = some newSize := by
  induction tests generalizing size with
  | zero => exact ⟨size, if_neg (by omega)⟩
  | succ tests ih =>
    rw [doubleUntil]
    split_ifs with hlt
    · rw [toU64_of_range (by omega) (by omega)]
      refine ih (by omega) ?_
      rw [mul_assoc, ← pow_succ']
      exact hreach
    · exact ⟨size, rfl⟩

/-! ### The parts of aesd_write -/

/-- The size of the temporary buffer of an unfinished message is the first size doubled some
times. -/
def Doubled (dev : AesdDev) : Prop :=
  dev.onGoingWrite = true → ∃ j : ℕ, dev.tempBufferSize = tempBufferStartingSize * 2 ^ j

/-- There is room for `count` more bytes in the block of the temporary buffer, and no `int` is too
small for their number. -/
structure HasRoom (dev : AesdDev) (h : Heap) (count : ℤ) : Prop where
  size : ∃ j : ℕ, dev.tempBufferSize = tempBufferStartingSize * 2 ^ j
  nonneg : 0 ≤ dev.tempBufferIndex
  room : dev.tempBufferIndex + count ≤ dev.tempBufferSize
  capacity : ∃ q bytes, dev.tempBuffer = some q ∧ h q = some bytes ∧
    dev.tempBufferSize = bytes.length
  stored : toI32 (dev.tempBufferIndex + count) = dev.tempBufferIndex + count

variable {dev : AesdDev} {h h' : Heap} {hist : History} {r buf : List Byte} {q : ℕ}
  {bytes : List Byte} {res : Bool × AesdDev} {driver : Driver} {count fPos : ℤ}

lemma startWrite_doubled (hd : Doubled dev) (heval : (startWrite dev).Eval kernelExec h res h') :
    Doubled res.2 := by
  rw [startWrite] at heval
  split_ifs at heval with hon
  · obtain ⟨rfl, -⟩ := heval
    exact hd
  · simp only [Prog.perform_bind, Prog.eval_call] at heval
    obtain ⟨tempBuffer, h₁, -, heval⟩ := heval
    split_ifs at heval with hnull
    · obtain ⟨rfl, -⟩ := heval
      exact fun h => absurd h hon
    · obtain ⟨rfl, -⟩ := heval
      exact fun _ => ⟨0, by rw [pow_zero, mul_one]⟩

/-- A size that is granted is stored as it is. -/
lemma toI32_of_krealloc {p : Pointer} {size : ℤ} {q : ℕ}
    (hexec : kernelExec (.krealloc p size) h (some q) h') : toI32 size = size := by
  cases p with
  | none =>
    obtain ⟨hsmall, -, bytes, hlength, -⟩ := hexec
    exact toI32_of_range (by omega) (by omega)
  | some p =>
    obtain ⟨hsmall, -, old, bytes, -, hlength, -⟩ := hexec
    exact toI32_of_range (by omega) (by omega)

lemma resizeTempBuffer_doubled (hp : Pending dev h hist r q bytes) (hd : Doubled dev)
    (heval : (resizeTempBuffer dev count).Eval kernelExec h res h') :
    Doubled res.2 ∧
      (res.1 = true → toU64 (dev.tempBufferIndex + count) ≤ res.2.tempBufferSize) := by
  obtain ⟨j, hj⟩ := hd hp.onGoing
  have hsize : toU64 dev.tempBufferSize = dev.tempBufferSize := by
    have hsize := hp.size
    have hsmall := hp.small
    exact toU64_of_range (by omega) (by omega)
  simp only [resizeTempBuffer, hsize] at heval
  split at heval
  · obtain ⟨never, -⟩ := heval
    exact never.elim
  · rename_i newBufferSize hloop
    split_ifs at heval with hgrow
    · simp only [Prog.perform_bind, Prog.eval_call] at heval
      obtain ⟨expandedTempBuffer, h₁, hrealloc, heval⟩ := heval
      cases expandedTempBuffer with
      | none =>
        obtain ⟨_, h₂, -, rfl, -⟩ := heval
        exact ⟨by simp [Doubled], by simp⟩
      | some q' =>
        obtain ⟨rfl, -⟩ := heval
        have hstored := toI32_of_krealloc hrealloc
        rw [hj] at hloop
        obtain ⟨k, hk⟩ := doubleUntil_shape hloop
        exact ⟨fun _ => ⟨k, hstored.trans hk⟩, fun _ => (doubleUntil_ge hloop).trans hstored.ge⟩
    · obtain ⟨rfl, -⟩ := heval
      exact ⟨hd, fun _ => not_lt.mp hgrow⟩

lemma copyToTempBuffer_doubled (hd : Doubled dev)
    (heval : (copyToTempBuffer dev buf).Eval kernelExec h res h') : Doubled res.2 := by
  simp only [copyToTempBuffer, Prog.perform_bind, Prog.eval_call] at heval
  obtain ⟨rc, h₁, -, heval⟩ := heval
  split_ifs at heval with hfailed
  · obtain ⟨_, h₂, -, rfl, -⟩ := heval
    simp [Doubled]
  · obtain ⟨rfl, -⟩ := heval
    exact hd

lemma addMessage_idle {driver' : Driver} {newCircEntry : BufferEntry} {old : Pointer}
    (heval : (addMessage driver newCircEntry).Eval kernelExec h (driver', old) h') :
    driver'.dev.onGoingWrite = false := by
  simp only [addMessage] at heval
  split at heval
  · obtain ⟨_, h₁, -, _, h₂, -, heq, -⟩ := heval
    cases heq
    rfl
  · obtain ⟨_, h₁, -, heq, -⟩ := heval
    cases heq
    rfl

lemma storeMessage_idle {driver' : Driver} {old : Option Pointer}
    (heval : (storeMessage driver).Eval kernelExec h (driver', old) h') :
    driver'.dev.onGoingWrite = false := by
  simp only [storeMessage, Prog.perform_bind, Prog.eval_call] at heval
  obtain ⟨buffptr, h₁, -, heval⟩ := heval
  split_ifs at heval with hnull
  · obtain ⟨_, h₂, -, heq, -⟩ := heval
    cases heq
    rfl
  · obtain ⟨_, h₂, -, _, h₃, -, heval⟩ := heval
    obtain ⟨⟨driver₁, old₁⟩, h₄, hadd, heq, -⟩ := Prog.eval_bind.mp heval
    cases heq
    exact addMessage_idle hadd

/-! ### One call -/

/-- `aesd_write` up to the copy. The flag is `false` if it does not get there. -/
def prepareWrite (dev : AesdDev) (count : ℤ) : Kernel (Bool × AesdDev) := do
  let (started, dev) ← startWrite dev
  if !started then
    return (false, dev)
  resizeTempBuffer dev count

/-- What `aesd_write` has got to before the copy. -/
lemma prepareWrite_doubled (hd : Refines driver h hist r) (hdoubled : Doubled driver.dev)
    (heval : (prepareWrite driver.dev count).Eval kernelExec h res h') :
    Doubled res.2 ∧ (res.1 = true → ∃ q bytes, Pending res.2 h' hist r q bytes ∧
      toU64 (r.length + count) ≤ res.2.tempBufferSize) := by
  rw [prepareWrite] at heval
  obtain ⟨⟨started, dev⟩, h₁, hstart, heval⟩ := Prog.eval_bind.mp heval
  have hstarted := startWrite_outcome hd.stores hd.pending hd.idle hstart
  have hdoubled' : Doubled dev := startWrite_doubled hdoubled hstart
  cases started with
  | false =>
    obtain ⟨rfl, -⟩ := heval
    exact ⟨hdoubled', by simp⟩
  | true =>
    obtain ⟨q, bytes, hp⟩ := hstarted.pending rfl
    have hresized := resizeTempBuffer_outcome hstarted.stores hp heval
    obtain ⟨hdoubled'', hroom⟩ := resizeTempBuffer_doubled hp hdoubled' heval
    refine ⟨hdoubled'', fun hok => ?_⟩
    obtain ⟨q', bytes', hp'⟩ := hresized.pending hok
    have hindex : dev.tempBufferIndex = r.length := hp.index
    exact ⟨q', bytes', hp', hindex ▸ hroom hok⟩

/-- `aesd_write` after the copy. -/
def finishWrite (driver : Driver) (buf : List Byte) (fPos : ℤ) (copied : Bool × AesdDev) :
    Kernel WriteResult := do
  let (copied, dev) := copied
  if !copied then
    return ⟨-EFAULT, fPos, { driver with dev := dev }, none⟩
  let retval := toI64 buf.length
  let complete ← messageComplete dev
  if complete then
    let (driver, oldEntryBufPtr) ← storeMessage { driver with dev := dev }
    if oldEntryBufPtr = none then
      return ⟨-ENOMEM, fPos, driver, none⟩
    return ⟨retval, toI64 (fPos + retval), driver, oldEntryBufPtr⟩
  return ⟨retval, toI64 (fPos + retval), { driver with dev := dev }, none⟩

lemma aesdWrite_eq (driver : Driver) (buf : List Byte) (fPos : ℤ) :
    aesdWrite driver buf fPos = (do
      let (ready, dev) ← prepareWrite driver.dev buf.length
      if !ready then
        return ⟨-ENOMEM, fPos, { driver with dev := dev }, none⟩
      let copied ← copyToTempBuffer dev buf
      finishWrite driver buf fPos copied) := by
  rw [aesdWrite, prepareWrite, Prog.bind_assoc]
  congr 1
  funext started
  obtain ⟨started, dev⟩ := started
  cases started with
  | false => rfl
  | true => rfl

lemma aesdWrite_doubled {res : WriteResult} (hd : Refines driver h hist r)
    (hdoubled : Doubled driver.dev)
    (heval : (aesdWrite driver buf fPos).Eval kernelExec h res h') : Doubled res.driver.dev := by
  rw [aesdWrite_eq] at heval
  obtain ⟨⟨ready, dev⟩, h₁, hprepare, heval⟩ := Prog.eval_bind.mp heval
  have hprepared : Doubled dev := (prepareWrite_doubled hd hdoubled hprepare).1
  cases ready with
  | false =>
    obtain ⟨rfl, -⟩ := heval
    exact hprepared
  | true =>
  obtain ⟨⟨copied, dev₁⟩, h₂, hcopy, heval⟩ := Prog.eval_bind.mp heval
  have hcopied : Doubled dev₁ := copyToTempBuffer_doubled hprepared hcopy
  cases copied with
  | false =>
    obtain ⟨rfl, -⟩ := heval
    exact hcopied
  | true =>
  obtain ⟨complete, h₃, -, heval⟩ := Prog.eval_bind.mp heval
  cases complete with
  | false =>
    obtain ⟨rfl, -⟩ := heval
    exact hcopied
  | true =>
  obtain ⟨⟨driver', old⟩, h₄, hstore, heval⟩ := Prog.eval_bind.mp heval
  have hidle := storeMessage_idle hstore
  have hres : res.driver = driver' := by
    simp only at heval
    split_ifs at heval
    · obtain ⟨rfl, -⟩ := heval
      rfl
    · obtain ⟨rfl, -⟩ := heval
      rfl
  intro hon
  rw [hres, hidle] at hon
  cases hon

/-! ### Devices in use -/

lemma aesdInitModule_idle {result : ℤ}
    (heval : (aesdInitModule {}).Eval kernelExec h (result, driver) h') :
    driver.dev.onGoingWrite = false := by
  simp only [aesdInitModule, Prog.perform_bind, Prog.eval_call] at heval
  obtain ⟨region, h₁, -, heval⟩ := heval
  split_ifs at heval with hregion
  · obtain ⟨heq, -⟩ := heval
    cases heq
    rfl
  · obtain ⟨circBufferPtr, h₂, -, _, h₃, -, added, h₄, -, heval⟩ := heval
    dsimp only at heval
    split_ifs at heval with hadded
    · obtain ⟨_, h₅, -, _, h₆, -, heq, -⟩ := heval
      cases heq
      rfl
    · obtain ⟨heq, -⟩ := heval
      cases heq
      rfl

/-- The run lemma: whatever was called, the sizes are doubled first ones. -/
lemma CharDevice.Reachable.doubled {s : CharDevice} (hs : s.Reachable) :
    Doubled s.driver.dev := by
  obtain ⟨h₀, driver, h₁, fPos, hinit, run⟩ := hs
  induction run with
  | refl =>
    intro hon
    rw [aesdInitModule_idle hinit] at hon
    cases hon
  | tail run step ih =>
    obtain ⟨hist, r, hd⟩ := CharDevice.Reachable.refines ⟨h₀, driver, h₁, fPos, hinit, run⟩
    cases step with
    | openFile file => exact ih
    | write file buf heval => exact aesdWrite_doubled hd ih heval
    | read file count heval => exact ih
    | ioctl file cmd arg => exact ih

/-! ### The calls it makes -/

/-- All calls but the copy from the user and the loop that does not end. -/
def KernelOp.Routine : KernelOp → Prop
  | .copyFromUser _ _ _ | .hang => False
  | _                           => True

lemma startWrite_routine (dev : AesdDev) : (startWrite dev).Only KernelOp.Routine := by
  rw [startWrite]
  split_ifs
  · trivial
  · refine ⟨trivial, fun tempBuffer => ?_⟩
    cases tempBuffer <;> trivial

/-- The loop of a call that may be made ends. -/
lemma resizeTempBuffer_routine (hp : Pending dev h hist r q bytes) (hd : Doubled dev)
    (hnonneg : 0 ≤ count) (hlt : count < 2 ^ 31) :
    (resizeTempBuffer dev count).Only KernelOp.Routine := by
  obtain ⟨j, hj⟩ := hd hp.onGoing
  have hsize := hp.size
  have hsmall := hp.small
  have hindex := hp.index
  have hle := hp.collected.length_le
  have hpos : 0 < dev.tempBufferSize := by
    rw [hj, tempBufferStartingSize]
    positivity
  obtain ⟨newBufferSize, hloop⟩ := exists_doubleUntil 64 hpos
    (show dev.tempBufferIndex + count ≤ 2 ^ 62 by omega) (by omega)
  rw [resizeTempBuffer, toU64_of_range (by omega) (by omega), toU64_of_range (by omega) (by omega)]
  simp only [hloop]
  split_ifs
  · refine ⟨trivial, fun expandedTempBuffer => ?_⟩
    cases expandedTempBuffer with
    | none => exact ⟨trivial, fun _ => trivial⟩
    | some q' => trivial
  · trivial

lemma addMessage_routine (driver : Driver) (newCircEntry : BufferEntry) :
    (addMessage driver newCircEntry).Only KernelOp.Routine := by
  simp only [addMessage]
  split
  · exact ⟨trivial, fun _ => ⟨trivial, fun _ => trivial⟩⟩
  · exact ⟨trivial, fun _ => trivial⟩

lemma storeMessage_routine (driver : Driver) :
    (storeMessage driver).Only KernelOp.Routine := by
  refine ⟨trivial, fun buffptr => ?_⟩
  cases buffptr with
  | none => exact ⟨trivial, fun _ => trivial⟩
  | some p =>
    exact ⟨trivial, fun _ => ⟨trivial, fun _ => (addMessage_routine _ _).bind fun _ => trivial⟩⟩

lemma finishWrite_routine (driver : Driver) (buf : List Byte) (fPos : ℤ)
    (copied : Bool × AesdDev) : (finishWrite driver buf fPos copied).Only KernelOp.Routine := by
  have hcomplete : ∀ dev, (messageComplete dev).Only KernelOp.Routine := by
    intro dev
    rw [messageComplete]
    split_ifs
    · exact ⟨trivial, fun _ => trivial⟩
    · trivial
  obtain ⟨copied, dev⟩ := copied
  cases copied with
  | false => trivial
  | true =>
    refine (hcomplete dev).bind fun complete => ?_
    cases complete with
    | false => trivial
    | true =>
      refine (storeMessage_routine _).bind fun stored => ?_
      dsimp only
      split_ifs
      · trivial
      · trivial

lemma copyToTempBuffer_calls {op : KernelOp} (hop : ¬ op.Routine)
    (hcalls : (copyToTempBuffer dev buf).Calls kernelExec h op h') :
    op = .copyFromUser dev.tempBuffer dev.tempBufferIndex buf ∧ h' = h := by
  simp only [copyToTempBuffer, Prog.perform_bind, Prog.calls_call] at hcalls
  rcases hcalls with hcopy | ⟨rc, h₁, -, hcalls⟩
  · exact hcopy
  · split_ifs at hcalls
    · rcases hcalls with ⟨rfl, -⟩ | ⟨_, h₂, -, hcalls⟩
      · exact absurd trivial hop
      · exact hcalls.elim
    · exact hcalls.elim

/-- Anything else that is called is the copy, after all preparations. -/
lemma aesdWrite_calls {op : KernelOp} (hd : Refines driver h hist r) (hdoubled : Doubled driver.dev)
    (hlt : buf.length < 2 ^ 31) (hop : ¬ op.Routine)
    (hcalls : (aesdWrite driver buf fPos).Calls kernelExec h op h') :
    ∃ dev, (prepareWrite driver.dev buf.length).Eval kernelExec h (true, dev) h' ∧
      op = .copyFromUser dev.tempBuffer dev.tempBufferIndex buf := by
  rw [aesdWrite_eq] at hcalls
  rcases Prog.calls_bind.mp hcalls with hprepare | ⟨⟨ready, dev⟩, h₁, hprepare, hcalls⟩
  · rw [prepareWrite] at hprepare
    rcases Prog.calls_bind.mp hprepare with hstart | ⟨⟨started, dev⟩, h₁, hstart, hresize⟩
    · exact absurd hstart ((startWrite_routine _).not_calls hop)
    · cases started with
      | false => exact hresize.elim
      | true =>
        have hstarted := startWrite_outcome hd.stores hd.pending hd.idle hstart
        obtain ⟨q, bytes, hp⟩ := hstarted.pending rfl
        exact absurd hresize ((resizeTempBuffer_routine hp (startWrite_doubled hdoubled hstart)
          (by omega) (by omega)).not_calls hop)
  · cases ready with
    | false => exact hcalls.elim
    | true =>
      rcases Prog.calls_bind.mp hcalls with hcopy | ⟨copied, h₂, -, hfinish⟩
      · obtain ⟨rfl, rfl⟩ := copyToTempBuffer_calls hop hcopy
        exact ⟨dev, hprepare, rfl⟩
      · exact absurd hfinish ((finishWrite_routine ..).not_calls hop)

/-- What is promised of the temporary buffer of a device. The state in which the user's bytes are
copied is the one that `prepareWrite` leaves. -/
structure TempBufferOk (s : CharDevice) : Prop where
  size : s.driver.dev.onGoingWrite = true →
    (∃ j : ℕ, s.driver.dev.tempBufferSize = tempBufferStartingSize * 2 ^ j) ∧
      0 ≤ s.driver.dev.tempBufferIndex ∧
      s.driver.dev.tempBufferIndex ≤ s.driver.dev.tempBufferSize
  terminates : ∀ (buf : List Byte) fPos h', buf.length < 2 ^ 31 →
    ¬ (aesdWrite s.driver buf fPos).Calls kernelExec s.heap .hang h'
  stored : ∀ (buf : List Byte) fPos p newBufferSize h' q h'', buf.length < 2 ^ 31 →
    (aesdWrite s.driver buf fPos).Calls kernelExec s.heap (.krealloc p newBufferSize) h' →
    kernelExec (.krealloc p newBufferSize) h' (some q) h'' → toI32 newBufferSize = newBufferSize
  room : ∀ (buf : List Byte) fPos dst offset data h', buf.length < 2 ^ 31 →
    (aesdWrite s.driver buf fPos).Calls kernelExec s.heap (.copyFromUser dst offset data) h' →
    ∃ dev, (prepareWrite s.driver.dev buf.length).Eval kernelExec s.heap (true, dev) h' ∧
      dst = dev.tempBuffer ∧ offset = dev.tempBufferIndex ∧ data = buf ∧
      HasRoom dev h' buf.length

/-- The sizes of the temporary buffer are right, whatever calls have been made and have failed. -/
theorem tempBuffer_ok {s : CharDevice} (hs : s.Reachable) : TempBufferOk s := by
  obtain ⟨hist, r, hd⟩ := hs.refines
  refine ⟨?_, ?_, ?_, ?_⟩
  · intro hon
    obtain ⟨q, bytes, hp⟩ := hd.pending hon
    have hle := hp.collected.length_le
    rw [hp.size, hp.index]
    refine ⟨?_, by omega, by omega⟩
    rw [← hp.size]
    exact hs.doubled hon
  · -- the loop that doubles the size ends
    intro buf fPos h' hlt hcalls
    obtain ⟨dev, -, heq⟩ := aesdWrite_calls hd hs.doubled hlt id hcalls
    cases heq
  · -- the size that `krealloc` was given is an `int`
    intro buf fPos p newBufferSize h' q h'' _ _ hexec
    exact toI32_of_krealloc hexec
  · -- what is copied fits into the buffer
    intro buf fPos dst offset data h' hlt hcalls
    obtain ⟨dev, hprepare, heq⟩ := aesdWrite_calls hd hs.doubled hlt id hcalls
    cases heq
    obtain ⟨hdoubled, hready⟩ := prepareWrite_doubled hd hs.doubled hprepare
    obtain ⟨q, bytes, hp, hroom⟩ : ∃ q bytes, Pending dev h' hist r q bytes ∧
      toU64 (r.length + buf.length) ≤ dev.tempBufferSize := hready rfl
    have hle := hp.collected.length_le
    have hsmall := hp.small
    have hsize := hp.size
    have hindex := hp.index
    rw [toU64_of_range (by omega) (by omega)] at hroom
    refine ⟨dev, hprepare, rfl, rfl, rfl, hdoubled hp.onGoing, by omega, by omega,
      ⟨q, bytes, hp.buffer, hp.block, hp.size⟩, toI32_of_range (by omega) (by omega)⟩

/-- Forty bytes without a newline: the buffer has been doubled once. -/
theorem tempBuffer_ok_doubled : ∃ s : CharDevice, s.driver.dev.onGoingWrite = true ∧
    s.driver.dev.tempBufferSize = 2 * tempBufferStartingSize ∧
    s.driver.dev.tempBufferIndex = 40 ∧ TempBufferOk s := by
  obtain ⟨block, h₀, driver, h₁, fPos, hinit, run⟩ := exists_reachable_fresh
  have hwrite := Prog.eval_of_run
    (p := aesdWrite (freshDevice block).driver (List.replicate 40 97) 0)
    (s := (freshDevice block).heap) kernelExec_of_respond [some 1, some 2, some 0, some 0] rfl
  exact ⟨_, rfl, rfl, rfl, tempBuffer_ok ⟨h₀, driver, h₁, fPos, hinit,
    run.tail (.write 0 (List.replicate 40 97) hwrite)⟩⟩

end Aesd
