import Aesd.Driver.WriteRefinement

/-!
# The stored contents and positions in them

Any number of open files, each with its position, work on one device. Whatever was called before,
the circular buffer holds a list of messages, oldest first; its contents are their concatenation,
which `aesd_read` and the seek command number from zero. Both walk the ring and count in an `int`,
so that sums of `2 ^ 31` and more come out negative. `findEntryOffsetForFpos_cases` says where
every position leads, with that taken into account.
-/

namespace Aesd

open Effect CInt Bytes

/-! ### Devices in use -/

/-- The driver, the memory and the position of every open file. -/
structure CharDevice where
  driver : Driver
  heap : Heap
  fPos : ℕ → ℤ

/-- One call. An open file starts at position zero. -/
inductive CharDeviceStep (s : CharDevice) : CharDevice → Prop where
  | openFile (file : ℕ) : CharDeviceStep s { s with fPos := Function.update s.fPos file 0 }
  | write (file : ℕ) (buf : List Byte) {res : WriteResult} {h' : Heap}
      (heval : (aesdWrite s.driver buf (s.fPos file)).Eval kernelExec s.heap res h') :
      CharDeviceStep s ⟨res.driver, h', Function.update s.fPos file res.fPos⟩
  | read (file : ℕ) (count : ℤ) {res : ReadResult} {h' : Heap}
      (heval : (aesdRead s.driver.dev count (s.fPos file)).Eval kernelExec s.heap res h') :
      CharDeviceStep s ⟨s.driver, h', Function.update s.fPos file res.fPos⟩
  | ioctl (file : ℕ) (cmd arg : ℤ) :
      CharDeviceStep s { s with
        fPos := Function.update s.fPos file
          (aesdUnlockedioctl s.driver.dev cmd arg (s.fPos file)).fPos }

/-- The device after the module has been loaded and any calls have been made. -/
def CharDevice.Reachable (s : CharDevice) : Prop :=
  ∃ h₀ driver h₁ fPos, (aesdInitModule {}).Eval kernelExec h₀ (0, driver) h₁ ∧
    Relation.ReflTransGen CharDeviceStep ⟨driver, h₁, fPos⟩ s

lemma aesdRead_heap {dev : AesdDev} {count fPos : ℤ} {h h' : Heap} {res : ReadResult}
    (heval : (aesdRead dev count fPos).Eval kernelExec h res h') : h' = h := by
  rw [aesdRead] at heval
  split at heval
  · exact heval.2
  · simp only [Prog.perform_bind, Prog.eval_call, kernelExec] at heval
    obtain ⟨⟨rc, data⟩, h₁, ⟨rfl, -⟩, heval⟩ := heval
    by_cases hrc : rc ≠ 0
    · rw [if_pos hrc] at heval
      exact heval.2
    · rw [if_neg hrc] at heval
      exact heval.2

/-- One step keeps the device in order, whatever it is. -/
lemma CharDeviceStep.refines {s s' : CharDevice} (step : CharDeviceStep s s')
    (hd : ∃ hist r, Refines s.driver s.heap hist r) :
    ∃ hist r, Refines s'.driver s'.heap hist r := by
  obtain ⟨hist, r, hd⟩ := hd
  cases step with
  | openFile file => exact ⟨hist, r, hd⟩
  | write file buf heval =>
    cases aesdWrite_written hd heval with
    | failed _ _ _ hd' => exact ⟨_, _, hd'⟩
    | added _ _ _ hd' => exact ⟨_, _, hd'⟩
    | completed _ _ hcommits =>
      obtain ⟨p, hd'⟩ := hcommits.refines
      exact ⟨_, _, hd'⟩
  | read file count heval =>
    obtain rfl := aesdRead_heap heval
    exact ⟨hist, r, hd⟩
  | ioctl file cmd arg => exact ⟨hist, r, hd⟩

lemma CharDevice.Reachable.refines {s : CharDevice} (hs : s.Reachable) :
    ∃ hist r, Refines s.driver s.heap hist r := by
  obtain ⟨h₀, driver, h₁, fPos, hinit, run⟩ := hs
  induction run with
  | refl => exact ⟨_, _, aesdInitModule_refines rfl hinit⟩
  | tail _ step ih => exact step.refines ih

/-! ### The stored messages -/

/-- The slot that is read in place `i`. -/
def CircularBuffer.place (buffer : CircularBuffer) (i : ℕ) : Fin maxWriteOperationsSupported :=
  Fin.ofNat _ (buffer.outOffs + i)

/-- The messages in the circular buffer, oldest first. -/
def storedMessages (buffer : CircularBuffer) (h : Heap) : List (List Byte) :=
  (List.range maxWriteOperationsSupported).filterMap fun i =>
    (buffer.entry (buffer.place i)).buffptr.bind h

/-- The contents of the device: the stored messages one after the other. -/
def contents (s : CharDevice) : List Byte :=
  (storedMessages s.driver.dev.circBuffer s.heap).flatten

/-- The bytes of the first `i` messages. -/
def bytesBefore (ms : List (List Byte)) (i : ℕ) : ℕ := (ms.take i).flatten.length

/-- The messages `ms` are in the slots from `out_offs` on, and the other slots are empty. -/
structure HoldsMessages (buffer : CircularBuffer) (h : Heap) (ms : List (List Byte)) : Prop where
  length_le : ms.length ≤ maxWriteOperationsSupported
  small : ∀ m ∈ ms, m.length ≤ 2 ^ 30
  stored : ∀ i m, ms[i]? = some m → ∃ p, h p = some m ∧
    buffer.entry (buffer.place i) = ⟨some p, m.length⟩
  unused : ∀ i, ms.length ≤ i → i < maxWriteOperationsSupported →
    buffer.entry (buffer.place i) = .zero

variable {buffer : CircularBuffer} {h : Heap} {ms : List (List Byte)}

lemma place_add_one (i : ℕ) : buffer.place i + 1 = buffer.place (i + 1) :=
  RingBuffer.ofNat_succ _

lemma place_max : buffer.place maxWriteOperationsSupported = buffer.place 0 :=
  RingBuffer.ofNat_add_self _

lemma place_zero : buffer.place 0 = buffer.outOffs :=
  Fin.ext (Nat.mod_eq_of_lt buffer.outOffs.isLt)

/-- Every slot is read in some place. -/
lemma exists_place (buffer : CircularBuffer) (slot : Fin maxWriteOperationsSupported) :
    ∃ i < maxWriteOperationsSupported, slot = buffer.place i := by
  refine ⟨(slot - buffer.outOffs).val, Fin.is_lt _, ?_⟩
  apply Fin.ext
  have hslot : slot.val < 10 := slot.isLt
  have hout : buffer.outOffs.val < 10 := buffer.outOffs.isLt
  simp only [CircularBuffer.place, maxWriteOperationsSupported, Fin.val_ofNat, Fin.val_sub]
  omega

/-- The slots determine the messages. -/
lemma HoldsMessages.storedMessages_eq (hms : HoldsMessages buffer h ms) :
    storedMessages buffer h = ms := by
  have hslots : ∀ i ∈ List.range maxWriteOperationsSupported,
      (buffer.entry (buffer.place i)).buffptr.bind h = ms[i]? := by
    intro i hi
    cases hm : ms[i]? with
    | none =>
      rw [hms.unused i (List.getElem?_eq_none_iff.mp hm) (List.mem_range.mp hi)]
      rfl
    | some m =>
      obtain ⟨p, hp, hentry⟩ := hms.stored i m hm
      rw [hentry]
      exact hp
  rw [storedMessages, List.filterMap_congr hslots, filterMap_range_getElem?]
  exact List.take_of_length_le hms.length_le

/-- A device in order holds the newest messages of its history. -/
lemma Refines.holds {driver : Driver} {hist : History} {r : List Byte}
    (hd : Refines driver h hist r) :
    HoldsMessages driver.dev.circBuffer h
      ((hist.map Prod.snd).drop (hist.length - maxWriteOperationsSupported)) := by
  have hnewest := hd.holdsNewest
  have hlength : (hist.map Prod.snd).length = hist.length := List.length_map ..
  refine ⟨?_, ?_, ?_, ?_⟩
  · -- there are no more messages than slots
    rw [List.length_drop, hlength]
    omega
  · intro m hm
    obtain ⟨x, hx, rfl⟩ := List.mem_map.mp (List.mem_of_mem_drop hm)
    exact hd.stores.small x hx
  · intro i m hm
    rw [List.getElem?_drop] at hm
    obtain ⟨hi, -⟩ := List.getElem?_eq_some_iff.mp hm
    have hmin : hist.length - min hist.length maxWriteOperationsSupported =
        hist.length - maxWriteOperationsSupported := by omega
    obtain ⟨p, m', hm', hp, hentry⟩ := hnewest.window i (by omega)
    rw [hlength, hmin, hm, Option.some.injEq] at hm'
    subst hm'
    exact ⟨p, hp, hentry⟩
  · intro i hle hi
    rw [List.length_drop, hlength] at hle
    apply hnewest.others
    intro j hj
    rw [hlength] at hj
    exact (RingBuffer.ofNat_ne_of_lt (by omega) (by omega)).symm

/-- Every reachable device holds its stored messages. -/
lemma CharDevice.Reachable.holds {s : CharDevice} (hs : s.Reachable) :
    HoldsMessages s.driver.dev.circBuffer s.heap
      (storedMessages s.driver.dev.circBuffer s.heap) := by
  obtain ⟨hist, r, hd⟩ := hs.refines
  rw [hd.holds.storedMessages_eq]
  exact hd.holds

lemma CharDevice.Reachable.hasRing {s : CharDevice} (hs : s.Reachable) :
    s.driver.dev.circBufferPtr ≠ none := by
  obtain ⟨hist, r, hd⟩ := hs.refines
  exact hd.hasRing

/-! ### Positions -/

/-- The bytes before a place and the size of its slot give the bytes before the next one. -/
lemma HoldsMessages.bytesBefore_succ (hms : HoldsMessages buffer h ms) {i : ℕ}
    (hi : i < maxWriteOperationsSupported) :
    (bytesBefore ms (i + 1) : ℤ) =
      bytesBefore ms i + (buffer.entry (buffer.place i)).size := by
  rw [bytesBefore, List.take_add_one, List.flatten_append, List.length_append, Nat.cast_add]
  congr 1
  cases hm : ms[i]? with
  | none =>
    rw [hms.unused i (List.getElem?_eq_none_iff.mp hm) hi]
    rfl
  | some m =>
    obtain ⟨p, -, hentry⟩ := hms.stored i m hm
    rw [hentry]
    simp

lemma HoldsMessages.size_range (hms : HoldsMessages buffer h ms) {i : ℕ}
    (hi : i < maxWriteOperationsSupported) :
    0 ≤ (buffer.entry (buffer.place i)).size ∧
      (buffer.entry (buffer.place i)).size ≤ 2 ^ 30 := by
  cases hm : ms[i]? with
  | none =>
    rw [hms.unused i (List.getElem?_eq_none_iff.mp hm) hi]
    decide
  | some m =>
    obtain ⟨p, -, hentry⟩ := hms.stored i m hm
    have hsmall := hms.small m (List.mem_of_getElem? hm)
    rw [hentry]
    show 0 ≤ (m.length : ℤ) ∧ (m.length : ℤ) ≤ 2 ^ 30
    omega

/-- An entry's pointer determines its size. -/
lemma HoldsMessages.size_eq (hms : HoldsMessages buffer h ms)
    {slot slot' : Fin maxWriteOperationsSupported}
    (hptr : (buffer.entry slot).buffptr = (buffer.entry slot').buffptr) :
    (buffer.entry slot).size = (buffer.entry slot').size := by
  obtain ⟨i, hi, rfl⟩ := exists_place buffer slot
  obtain ⟨i', hi', rfl⟩ := exists_place buffer slot'
  cases hm : ms[i]? with
  | none =>
    rw [hms.unused i (List.getElem?_eq_none_iff.mp hm) hi] at hptr ⊢
    cases hm' : ms[i']? with
    | none => rw [hms.unused i' (List.getElem?_eq_none_iff.mp hm') hi']
    | some m' =>
      obtain ⟨p', -, hentry'⟩ := hms.stored i' m' hm'
      rw [hentry'] at hptr
      cases hptr
  | some m =>
    obtain ⟨p, hp, hentry⟩ := hms.stored i m hm
    rw [hentry] at hptr ⊢
    cases hm' : ms[i']? with
    | none =>
      rw [hms.unused i' (List.getElem?_eq_none_iff.mp hm') hi'] at hptr
      cases hptr
    | some m' =>
      obtain ⟨p', hp', hentry'⟩ := hms.stored i' m' hm'
      rw [hentry'] at hptr ⊢
      cases hptr
      rw [hp, Option.some.injEq] at hp'
      rw [hp']

lemma bytesBefore_zero : bytesBefore ms 0 = 0 := by
  simp [bytesBefore]

lemma bytesBefore_mono (ms : List (List Byte)) {i j : ℕ} (hij : i ≤ j) :
    bytesBefore ms i ≤ bytesBefore ms j := by
  obtain ⟨k, rfl⟩ := Nat.exists_eq_add_of_le hij
  rw [bytesBefore, bytesBefore, List.take_add, List.flatten_append, List.length_append]
  exact Nat.le_add_right _ _

lemma bytesBefore_le (ms : List (List Byte)) (i : ℕ) : bytesBefore ms i ≤ ms.flatten.length := by
  rw [bytesBefore, ← List.take_append_drop i ms, List.flatten_append, List.length_append,
    List.take_append_drop]
  exact Nat.le_add_right _ _

/-- With nothing stored the oldest slot is empty. -/
lemma HoldsMessages.size_outOffs (hms : HoldsMessages buffer h ms)
    (hzero : ms.flatten.length = 0) : (buffer.entry buffer.outOffs).size = 0 := by
  have hsucc := hms.bytesBefore_succ (i := 0) (by decide)
  have hle := bytesBefore_le ms 1
  rw [hzero, Nat.le_zero] at hle
  rw [hle, bytesBefore_zero, place_zero] at hsucc
  simpa using hsucc.symm

lemma HoldsMessages.bytesBefore_max (hms : HoldsMessages buffer h ms) :
    bytesBefore ms maxWriteOperationsSupported = ms.flatten.length := by
  rw [bytesBefore, List.take_of_length_le hms.length_le]

/-- The loop stops at the first place behind which the sum, kept in an `int`, exceeds the position
as a `size_t`. -/
lemma findLoop_cases (hsizes : ∀ i < maxWriteOperationsSupported, (bytesBefore ms (i + 1) : ℤ) =
      bytesBefore ms i + (buffer.entry (buffer.place i)).size) (f : ℤ) {left i : ℕ}
    (hleft : left + i = maxWriteOperationsSupported) :
    let sum (k : ℕ) : ℤ := toI32 (bytesBefore ms k)
    (∃ j, i ≤ j ∧ j < maxWriteOperationsSupported ∧
        (∀ k, i ≤ k → k < j → toU64 (sum (k + 1)) ≤ f) ∧ f < toU64 (sum (j + 1)) ∧
        buffer.findLoop f left (buffer.place i) (sum (i - 1)) (sum i) =
          (buffer.place j, sum j, sum (j + 1))) ∨
      (∀ k, i ≤ k → k < maxWriteOperationsSupported → toU64 (sum (k + 1)) ≤ f) ∧
        buffer.findLoop f left (buffer.place i) (sum (i - 1)) (sum i) =
          (buffer.place maxWriteOperationsSupported, sum (maxWriteOperationsSupported - 1),
            sum maxWriteOperationsSupported) := by
  intro sum
  induction left generalizing i with
  | zero =>
    obtain rfl : i = maxWriteOperationsSupported := by omega
    right
    exact ⟨fun k hk hk' => absurd hk' (by omega), rfl⟩
  | succ left ih =>
    have hi : i < maxWriteOperationsSupported := by omega
    have hsum : toI32 (sum i + (buffer.entry (buffer.place i)).size) = sum (i + 1) := by
      rw [toI32_add, ← hsizes i hi]
    rw [CircularBuffer.findLoop]
    simp only [hsum, nextOffs_eq, place_add_one]
    split_ifs with hstop
    · left
      exact ⟨i, le_rfl, hi, fun k hk hk' => absurd hk' (by omega), hstop, rfl⟩
    · -- it goes on with the next place
      have hbefore : ∀ k, i ≤ k → k < i + 1 → toU64 (sum (k + 1)) ≤ f := by
        intro k hk hk'
        obtain rfl : k = i := by omega
        exact not_lt.mp hstop
      rcases ih (i := i + 1) (by omega) with ⟨j, hij, hj, hno, hyes, heq⟩ | ⟨hno, heq⟩
      · left
        refine ⟨j, by omega, hj, ?_, hyes, heq⟩
        intro k hk hk'
        rcases Nat.lt_or_ge k (i + 1) with hlt | hge
        · exact hbefore k hk hlt
        · exact hno k hge hk'
      · right
        refine ⟨?_, heq⟩
        intro k hk hk'
        rcases Nat.lt_or_ge k (i + 1) with hlt | hge
        · exact hbefore k hk hlt
        · exact hno k hge hk'

/-- As long as the loop does not stop, the sums are what they should be. -/
lemma HoldsMessages.bytesBefore_le_of_walked (hms : HoldsMessages buffer h ms) {f : ℤ} (hf : 0 ≤ f)
    (hf' : f < 2 ^ 63) {j : ℕ} (hj : j ≤ maxWriteOperationsSupported)
    (hno : ∀ k < j, toU64 (toI32 (bytesBefore ms (k + 1))) ≤ f) :
    bytesBefore ms j < 2 ^ 31 ∧ (bytesBefore ms j : ℤ) ≤ f := by
  induction j with
  | zero =>
    rw [bytesBefore_zero]
    exact ⟨by decide, by simpa using hf⟩
  | succ j ih =>
    obtain ⟨hlt, -⟩ := ih (by omega) fun k hk => hno k (by omega)
    have hsucc := hms.bytesBefore_succ (i := j) (by omega)
    have hsize := hms.size_range (i := j) (by omega)
    have hle := hno j (by omega)
    have hrange : bytesBefore ms (j + 1) < 2 ^ 31 := by
      -- a sum that is too large is negative, and as a `size_t` larger than every position
      by_contra hge
      have hnegative : toI32 (bytesBefore ms (j + 1)) = bytesBefore ms (j + 1) - 2 ^ 32 := by
        rw [toI32]
        omega
      rw [hnegative, toU64] at hle
      omega
    refine ⟨hrange, ?_⟩
    rwa [toI32_of_range (by omega) (by omega), toU64_of_range (by omega) (by omega)] at hle

/-- The test behind the loop: one less than the sum, as a `size_t`. -/
lemma endTest_of_pos {n : ℤ} (hpos : 0 < n) (hn : n < 2 ^ 31) :
    toU64 (toI32 (toI32 n - 1)) = n - 1 := by
  rw [toI32_of_range (by omega) hn, toI32_of_range (by omega) (by omega),
    toU64_of_range (by omega) (by omega)]

/-- With a sum of zero or above `2 ^ 31` the test does not see that a position is too large. -/
lemma endTest_of_negative {n : ℤ} (hn : n = 0 ∨ 2 ^ 31 < n) (hn' : n < 2 ^ 32) :
    2 ^ 63 ≤ toU64 (toI32 (toI32 n - 1)) := by
  simp only [toI32, toU64]
  omega

lemma findEntryOffsetForFpos_of_loop {f prev num : ℤ} {slot : Fin maxWriteOperationsSupported}
    (hloop : buffer.findLoop f maxWriteOperationsSupported buffer.outOffs 0 0 = (slot, prev, num)) :
    buffer.findEntryOffsetForFpos f =
      if toU64 (toI32 (num - 1)) < f then none else some (slot, toU64 (f - prev)) := by
  rw [CircularBuffer.findEntryOffsetForFpos, hloop]

/-- Below `2 ^ 31` bytes in all, each position is found in the slot that has it. -/
lemma findEntryOffsetForFpos_of_sizes
    (hsizes : ∀ i < maxWriteOperationsSupported, (bytesBefore ms (i + 1) : ℤ) =
      bytesBefore ms i + (buffer.entry (buffer.place i)).size)
    (hlen : ms.length ≤ maxWriteOperationsSupported) (hsmall : ms.flatten.length < 2 ^ 31) {f : ℕ}
    (hf : f < ms.flatten.length) :
    ∃ j < maxWriteOperationsSupported, bytesBefore ms j ≤ f ∧ f < bytesBefore ms (j + 1) ∧
      buffer.findEntryOffsetForFpos f = some (buffer.place j, (f : ℤ) - bytesBefore ms j) := by
  have hsum : ∀ k, toU64 (toI32 (bytesBefore ms k)) = bytesBefore ms k := by
    intro k
    have hle := bytesBefore_le ms k
    rw [toI32_of_range (by omega) (by omega), toU64_of_range (by omega) (by omega)]
  have hloop := findLoop_cases hsizes f (Nat.add_zero maxWriteOperationsSupported)
  simp only [Nat.zero_sub, bytesBefore_zero, Nat.zero_le, true_implies, place_zero, hsum,
    show toI32 ((0 : ℕ) : ℤ) = 0 from rfl] at hloop
  rcases hloop with ⟨j, -, hj, hno, hyes, heq⟩ | ⟨hno, -⟩
  · have hbefore : bytesBefore ms j ≤ f := by
      cases j with
      | zero => simp [bytesBefore_zero]
      | succ j => exact_mod_cast hno j (by omega)
    have hle := bytesBefore_le ms (j + 1)
    refine ⟨j, hj, hbefore, by exact_mod_cast hyes, ?_⟩
    rw [findEntryOffsetForFpos_of_loop heq, endTest_of_pos (by omega) (by omega),
      if_neg (by omega), toI32_of_range (x := bytesBefore ms j) (by omega) (by omega),
      toU64_of_range (by omega) (by omega)]
  · -- it cannot have walked over all places: their sizes add up to more than `f`
    have hlast := hno (maxWriteOperationsSupported - 1) (by decide)
    rw [Nat.sub_add_cancel (by decide), bytesBefore, List.take_of_length_le hlen] at hlast
    omega

/-- Where a position leads. With nothing stored every position is found, in the oldest slot.
Otherwise it is found in the message that has it and nowhere if no message does, unless the sum of
the sizes reaches `2 ^ 31` first: then the loop stops there whatever the position is. -/
theorem HoldsMessages.findEntryOffsetForFpos_cases (hms : HoldsMessages buffer h ms) {f : ℤ}
    (hf : 0 ≤ f) (hf' : f < 2 ^ 63) :
    (ms.flatten.length = 0 ∧ buffer.findEntryOffsetForFpos f = some (buffer.outOffs, f)) ∨
      (∃ j < maxWriteOperationsSupported, bytesBefore ms j < 2 ^ 31 ∧ bytesBefore ms j ≤ f ∧
        f < bytesBefore ms (j + 1) ∧
        buffer.findEntryOffsetForFpos f = some (buffer.place j, f - bytesBefore ms j)) ∨
      (0 < ms.flatten.length ∧ ms.flatten.length < 2 ^ 31 ∧ ms.flatten.length ≤ f ∧
        buffer.findEntryOffsetForFpos f = none) ∨
      ∃ j < maxWriteOperationsSupported, bytesBefore ms j < 2 ^ 31 ∧
        2 ^ 31 ≤ bytesBefore ms (j + 1) ∧ bytesBefore ms (j + 1) ≤ f ∧
        buffer.findEntryOffsetForFpos f =
          if bytesBefore ms (j + 1) = 2 ^ 31 then none
          else some (buffer.place j, f - bytesBefore ms j) := by
  have hloop := findLoop_cases (fun i => hms.bytesBefore_succ) f
    (Nat.add_zero maxWriteOperationsSupported)
  simp only [Nat.zero_sub, bytesBefore_zero, Nat.zero_le, true_implies, place_zero,
    show toI32 ((0 : ℕ) : ℤ) = 0 from rfl] at hloop
  rcases hloop with ⟨j, -, hj, hno, hyes, heq⟩ | ⟨hno, heq⟩
  · obtain ⟨hlt, hle⟩ := hms.bytesBefore_le_of_walked hf hf' (by omega) hno
    have hsucc := hms.bytesBefore_succ hj
    have hsize := hms.size_range hj
    rw [findEntryOffsetForFpos_of_loop heq,
      toI32_of_range (x := bytesBefore ms j) (by omega) (by omega),
      toU64_of_range (x := f - bytesBefore ms j) (by omega) (by omega)]
    rcases Nat.lt_trichotomy (bytesBefore ms (j + 1)) (2 ^ 31) with hsum | hsum | hsum
    · rw [toI32_of_range (by omega) (by omega), toU64_of_range (by omega) (by omega)] at hyes
      right; left
      refine ⟨j, hj, hlt, hle, hyes, ?_⟩
      rw [endTest_of_pos (by omega) (by omega), if_neg (by omega)]
    · -- here the subtraction of one overflows
      have hmax : toU64 (toI32 (toI32 ((2 ^ 31 : ℕ) : ℤ) - 1)) = 2 ^ 31 - 1 := by decide
      rw [hsum, hmax]
      by_cases hfound : f < 2 ^ 31
      · right; left
        exact ⟨j, hj, hlt, hle, by rw [hsum]; exact hfound, if_neg (by omega)⟩
      · right; right; right
        refine ⟨j, hj, hlt, hsum.ge, by rw [hsum]; omega, ?_⟩
        rw [if_pos (by omega), if_pos hsum]
    · -- the sum is above it: negative as an `int`, and larger than any position as a `size_t`
      have htest := endTest_of_negative (n := bytesBefore ms (j + 1)) (by omega) (by omega)
      rw [if_neg (by omega)]
      by_cases hfound : f < bytesBefore ms (j + 1)
      · right; left
        exact ⟨j, hj, hlt, hle, hfound, rfl⟩
      · right; right; right
        exact ⟨j, hj, hlt, hsum.le, not_lt.mp hfound, (if_neg hsum.ne').symm⟩
  · -- no sum is larger than the position
    obtain ⟨hlt, hle⟩ := hms.bytesBefore_le_of_walked hf hf' le_rfl hno
    have hprev := bytesBefore_mono ms
      (show maxWriteOperationsSupported - 1 ≤ maxWriteOperationsSupported by decide)
    rw [hms.bytesBefore_max] at hlt hle hprev
    rw [findEntryOffsetForFpos_of_loop heq, place_max, place_zero, hms.bytesBefore_max]
    rcases Nat.eq_zero_or_pos ms.flatten.length with hzero | hpos
    · -- there are no bytes, and the test at the end lets the position through
      left
      rw [hzero, Nat.le_zero] at hprev
      have htest := endTest_of_negative (n := ms.flatten.length) (by omega) (by omega)
      refine ⟨hzero, ?_⟩
      rw [if_neg (by omega), hprev, Nat.cast_zero, toI32_of_range (by decide) (by decide),
        sub_zero, toU64_of_range hf (by omega)]
    · -- the position is behind the last byte
      right; right; left
      refine ⟨hpos, hlt, hle, ?_⟩
      rw [endTest_of_pos (by omega) (by omega), if_pos (by omega)]

/-- A position is in one message only. -/
lemma place_unique {f : ℤ} {i j : ℕ} (hi : bytesBefore ms i ≤ f) (hi' : f < bytesBefore ms (i + 1))
    (hj : bytesBefore ms j ≤ f) (hj' : f < bytesBefore ms (j + 1)) : i = j := by
  rcases Nat.lt_trichotomy i j with hlt | heq | hgt
  · have hmono := bytesBefore_mono ms (show i + 1 ≤ j by omega)
    omega
  · exact heq
  · have hmono := bytesBefore_mono ms (show j + 1 ≤ i by omega)
    omega

lemma bytesBefore_succ_of_getElem? {j : ℕ} {m : List Byte} (hm : ms[j]? = some m) :
    bytesBefore ms (j + 1) = bytesBefore ms j + m.length := by
  rw [bytesBefore, List.take_add_one, hm, List.flatten_append, List.length_append]
  simp [bytesBefore]

/-- The bytes from byte `o` of a message on. -/
lemma drop_bytesBefore {j o : ℕ} {m : List Byte} (hm : ms[j]? = some m) (ho : o ≤ m.length) :
    ms.flatten.drop (bytesBefore ms j + o) = m.drop o ++ (ms.drop (j + 1)).flatten := by
  have hsplit : ms.flatten = (ms.take j).flatten ++ (m ++ (ms.drop (j + 1)).flatten) := by
    obtain ⟨hj, rfl⟩ := List.getElem?_eq_some_iff.mp hm
    rw [← List.flatten_cons, ← List.drop_eq_getElem_cons hj, ← List.flatten_append,
      List.take_append_drop]
  rw [hsplit, bytesBefore, List.drop_length_add_append, List.drop_append_of_le_length ho]

/-- Below `2 ^ 31` stored bytes each position in the contents is found in its message. -/
lemma HoldsMessages.findEntryOffsetForFpos_eq_some (hms : HoldsMessages buffer h ms)
    (hsmall : ms.flatten.length < 2 ^ 31) {j o : ℕ} {m : List Byte} (hm : ms[j]? = some m)
    (ho : o < m.length) :
    buffer.findEntryOffsetForFpos (bytesBefore ms j + o : ℕ) = some (buffer.place j, (o : ℤ)) := by
  have hsucc := bytesBefore_succ_of_getElem? hm
  have htotal := bytesBefore_le ms (j + 1)
  rcases hms.findEntryOffsetForFpos_cases (f := (bytesBefore ms j + o : ℕ)) (by omega) (by omega)
    with ⟨hzero, -⟩ | ⟨i, hi, -, hle, hlt, heq⟩ | ⟨-, -, hle, -⟩ | ⟨i, -, -, hlarge, -, -⟩
  · omega
  · obtain rfl := place_unique hle hlt (j := j) (by omega) (by omega)
    rw [heq]
    congr 2
    omega
  · omega
  · have htotal' := bytesBefore_le ms (i + 1)
    omega

/-! ### A device with one line -/

/-- A device on which nothing has been written. -/
def freshDevice (block : List Byte) : CharDevice :=
  ⟨{ dev := { circBufferPtr := some 0 } }, Function.update (fun _ => none) 0 (some block),
    fun _ => 0⟩

lemma exists_reachable_fresh : ∃ block, (freshDevice block).Reachable := by
  obtain ⟨block, hinit⟩ := exists_aesdInitModule (h := fun _ => none) (p := 0) rfl
  exact ⟨block, _, _, _, _, hinit, .refl⟩

/-- A write of a line to it. -/
lemma exists_reachable_line : ∃ s : CharDevice, s.Reachable ∧
    storedMessages s.driver.dev.circBuffer s.heap = [[97, 10]] ∧ s.fPos 0 = 2 := by
  obtain ⟨block, h₀, driver, h₁, fPos, hinit, run⟩ := exists_reachable_fresh
  have hwrite := Prog.eval_of_run (p := aesdWrite (freshDevice block).driver [97, 10] 0)
    (s := (freshDevice block).heap) kernelExec_of_respond
    [some 1, some 0, some 0, some 2, some 0, some 0, some 0] rfl
  exact ⟨_, ⟨h₀, driver, h₁, fPos, hinit, run.tail (.write 0 [97, 10] hwrite)⟩, rfl, rfl⟩

/-! ### Devices with empty lines -/

/-- A write of a newline to a device whose next slot is empty, with block 1 as temporary buffer. -/
lemma exists_write_newline {driver : Driver} {h : Heap} {p : ℕ} (fPos : ℤ)
    (hring : driver.dev.circBufferPtr ≠ none) (hidle : driver.dev.onGoingWrite = false)
    (hempty : (driver.dev.circBuffer.entry driver.dev.circBuffer.inOffs).buffptr = none)
    (hfresh : h 1 = none) (hp : h p = none) (hne : p ≠ 1) :
    ∃ res h', (aesdWrite driver [newline] fPos).Eval kernelExec h res h' ∧
      res.driver.dev.onGoingWrite = false ∧ 0 ≤ res.retval ∧ ∀ q, q ≠ p → h' q = h q := by
  have hrun : ∃ res h', (aesdWrite driver [newline] fPos).run kernelRespond h
      [some 1, some 0, some 0, some p, some 0, some 0, some 0] = some (res, h') ∧
      res.driver.dev.onGoingWrite = false ∧ 0 ≤ res.retval ∧ ∀ q, q ≠ p → h' q = h q := by
    have hdouble : doubleUntil 65 32 1 = some 32 := rfl
    have h32 : toU64 32 = 32 := rfl
    have h1 : toU64 1 = 1 := rfl
    have h0 : toI32 0 = 0 := rfl
    have h1' : toI32 1 = 1 := rfl
    have h1'' : toI64 1 = 1 := rfl
    simp only [aesdWrite, startWrite, resizeTempBuffer, copyToTempBuffer, messageComplete,
      storeMessage, addMessage, addCircEntry, CircularBuffer.addEntry, tempBufferStartingSize]
    simp [hidle, hring, hempty, hdouble, h32, h1, h0, h1', h1'', Prog.run, kernelRespond, allocate,
      hfresh, hp, hne, hne.symm, overwrite]
    intro q hq
    by_cases h1q : q = 1
    · rw [h1q, Function.update_self, hfresh]
    · rw [Function.update_of_ne h1q, Function.update_of_ne hq, Function.update_of_ne h1q]
  obtain ⟨res, h', hrun, hres⟩ := hrun
  exact ⟨res, h', Prog.eval_of_run kernelExec_of_respond _ hrun, hres⟩

/-- Up to ten newlines may be stored. -/
lemma exists_reachable_newlines {n : ℕ} (hn : n ≤ maxWriteOperationsSupported) :
    ∃ s : CharDevice, s.Reachable ∧
      storedMessages s.driver.dev.circBuffer s.heap = List.replicate n [newline] := by
  have hinduct : ∃ (s : CharDevice) (hist : History), s.Reachable ∧
      Refines s.driver s.heap hist [] ∧ hist.map Prod.snd = List.replicate n [newline] ∧
      s.driver.dev.onGoingWrite = false ∧ s.heap 1 = none ∧ ∀ q, n + 2 ≤ q → s.heap q = none := by
    induction n with
    | zero =>
      obtain ⟨block, hinit⟩ := exists_aesdInitModule (h := fun _ => none) (p := 0) rfl
      refine ⟨freshDevice block, [], ⟨_, _, _, _, hinit, .refl⟩, aesdInitModule_refines rfl hinit,
        rfl, rfl, rfl, ?_⟩
      intro q hq
      have hne : q ≠ 0 := by omega
      simp [freshDevice, hne]
    | succ n ih =>
      obtain ⟨s, hist, hs, hd, hmap, hidle, hfresh, hfree⟩ := ih (by omega)
      have hlength : hist.length = n := by
        rw [← List.length_map (f := Prod.snd), hmap, List.length_replicate]
      have hempty :
          (s.driver.dev.circBuffer.entry s.driver.dev.circBuffer.inOffs).buffptr = none := by
        have hslot := (addCircEntry_records (x := (0, [])) hd.hasRing hd.ring).1
        rw [addCircEntry, if_neg hd.hasRing, leaving, if_pos (by omega)] at hslot
        exact hslot
      obtain ⟨res, h', heval, hidle', hok, hframe⟩ := exists_write_newline (p := n + 2) (s.fPos 0)
        hd.hasRing hidle hempty hfresh (hfree _ le_rfl) (by omega)
      obtain ⟨h₀, driver, h₁, fPos, hinit, run⟩ := hs
      cases aesdWrite_written hd heval with
      | failed hretval => omega
      | added _ hincomplete => exact absurd rfl hincomplete
      | completed _ _ hcommits =>
        obtain ⟨p, hd'⟩ := hcommits.refines
        refine ⟨_, _, ⟨h₀, driver, h₁, fPos, hinit, run.tail (.write 0 _ heval)⟩, hd', ?_, hidle',
          ?_, ?_⟩
        · rw [List.map_append, hmap, List.replicate_succ']
          rfl
        · exact (hframe 1 (by omega)).trans hfresh
        · intro q hq
          exact (hframe q (by omega)).trans (hfree q (by omega))
  obtain ⟨s, hist, hs, hd, hmap, -⟩ := hinduct
  refine ⟨s, hs, ?_⟩
  rw [hd.holds.storedMessages_eq, ← List.length_map (f := Prod.snd), hmap, List.length_replicate,
    Nat.sub_eq_zero_of_le hn, List.drop_zero]
end Aesd
