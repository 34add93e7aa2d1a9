import Aesd.Driver.Main

/-!
# What the device holds

A message is what successive writes have collected up to a newline at the end of a write. The
history of a device lists its messages with the blocks they were stored in, oldest first; the
newest ten are in the circular buffer and their blocks are live. One call of `aesd_write`, whatever
fails in it, either adds to the unfinished message, moves it to the history, or loses it.
-/

namespace Aesd

open Effect CInt Bytes

/-! ### Blocks of the stored messages -/

/-- All messages stored since the module was loaded, each with the block it was copied to. -/
abbrev History := List (ℕ × List Byte)

/-- The entry of a message. -/
def entryOf (x : ℕ × List Byte) : BufferEntry := ⟨some x.1, x.2.length⟩

/-- The messages in the circular buffer have each a block of their own, and no message is larger
than a block can be. -/
structure Stores (h : Heap) (hist : History) : Prop where
  holds : ∀ j p m, hist[j]? = some (p, m) → hist.length ≤ j + maxWriteOperationsSupported →
    h p = some m
  distinct : ∀ j k p m m', hist[j]? = some (p, m) → hist[k]? = some (p, m') →
    hist.length ≤ j + maxWriteOperationsSupported →
    hist.length ≤ k + maxWriteOperationsSupported → j = k
  small : ∀ x ∈ hist, x.2.length ≤ 2 ^ 30

/-- No message in the circular buffer is in block `q`. -/
def Avoids (hist : History) (q : ℕ) : Prop :=
  ∀ j p m, hist[j]? = some (p, m) → hist.length ≤ j + maxWriteOperationsSupported → p ≠ q

variable {h h' : Heap} {hist : History} {q : ℕ}

lemma Stores.avoids (hs : Stores h hist) (hq : h q = none) : Avoids hist q := by
  rintro j p m hj hrecent rfl
  rw [hs.holds j p m hj hrecent] at hq
  cases hq

/-- Other blocks may change. -/
lemma Stores.update (hs : Stores h hist) (hq : Avoids hist q) (block : Option (List Byte)) :
    Stores (Function.update h q block) hist := by
  refine ⟨?_, hs.distinct, hs.small⟩
  intro j p m hj hrecent
  rw [Function.update_of_ne (hq j p m hj hrecent)]
  exact hs.holds j p m hj hrecent

/-- An index of a longer history is one of the old history, or the new last one. -/
lemma history_concat_cases {x y : ℕ × List Byte} {j : ℕ} (hj : (hist ++ [y])[j]? = some x) :
    (hist[j]? = some x ∧ j < hist.length) ∨ (j = hist.length ∧ x = y) := by
  rcases Nat.lt_trichotomy j hist.length with hlt | rfl | hgt
  · rw [List.getElem?_append_left hlt] at hj
    exact Or.inl ⟨hj, hlt⟩
  · rw [List.getElem?_concat_length, Option.some.injEq] at hj
    exact Or.inr ⟨rfl, hj.symm⟩
  · rw [List.getElem?_eq_none (by simp; omega)] at hj
    cases hj

lemma Avoids.push (hq : Avoids hist q) {p : ℕ} (m : List Byte) (hne : p ≠ q) :
    Avoids (hist ++ [(p, m)]) q := by
  intro j p' m' hj hrecent
  rw [List.length_append, List.length_singleton] at hrecent
  rcases history_concat_cases hj with ⟨hj', -⟩ | ⟨-, heq⟩
  · exact hq j p' m' hj' (by omega)
  · cases heq
    exact hne

/-- One more message, in a block that none of the others has. -/
lemma Stores.push (hs : Stores h hist) {p : ℕ} {m : List Byte} (hp : h p = some m)
    (havoid : Avoids hist p) (hsmall : m.length ≤ 2 ^ 30) : Stores h (hist ++ [(p, m)]) := by
  have hlength : (hist ++ [(p, m)]).length = hist.length + 1 := by simp
  refine ⟨?_, ?_, ?_⟩
  · intro j p' m' hj hrecent
    rw [hlength] at hrecent
    rcases history_concat_cases hj with ⟨hj', -⟩ | ⟨-, heq⟩
    · exact hs.holds j p' m' hj' (by omega)
    · cases heq
      exact hp
  · -- the new block is none of the old ones
    intro j k p' m₁ m₂ hj hk hrecent hrecent'
    rw [hlength] at hrecent hrecent'
    rcases history_concat_cases hj with ⟨hj', -⟩ | ⟨rfl, heq⟩
    · rcases history_concat_cases hk with ⟨hk', -⟩ | ⟨-, heq⟩
      · exact hs.distinct j k p' m₁ m₂ hj' hk' (by omega) (by omega)
      · cases heq
        exact absurd rfl (havoid j p m₁ hj' (by omega))
    · cases heq
      rcases history_concat_cases hk with ⟨hk', -⟩ | ⟨rfl, -⟩
      · exact absurd rfl (havoid k p m₂ hk' (by omega))
      · rfl
  · intro x hx
    rcases List.mem_append.mp hx with hx | hx
    · exact hs.small x hx
    · rw [List.mem_singleton.mp hx]
      exact hsmall

/-- The message that leaves the buffer when one more is stored, if there is one. -/
def leaving (hist : History) : Option (ℕ × List Byte) :=
  if hist.length < maxWriteOperationsSupported then none
  else hist[hist.length - maxWriteOperationsSupported]?

lemma leaving_eq_some {x : ℕ × List Byte} (hx : leaving hist = some x) :
    maxWriteOperationsSupported ≤ hist.length ∧
      hist[hist.length - maxWriteOperationsSupported]? = some x := by
  rw [leaving] at hx
  split_ifs at hx with hlen
  exact ⟨by omega, hx⟩

lemma Stores.leaving_holds (hs : Stores h hist) {p : ℕ} {m : List Byte}
    (hx : leaving hist = some (p, m)) : h p = some m := by
  obtain ⟨hlen, hj⟩ := leaving_eq_some hx
  exact hs.holds _ p m hj (by omega)

/-- After one more message its block is not used any more. -/
lemma Stores.avoids_leaving (hs : Stores h hist) {p q : ℕ} {m m' : List Byte}
    (hx : leaving hist = some (q, m')) (hp : h p = none) : Avoids (hist ++ [(p, m)]) q := by
  obtain ⟨hlen, hleaving⟩ := leaving_eq_some hx
  intro j p' m₁ hj hrecent
  rw [List.length_append, List.length_singleton] at hrecent
  rcases history_concat_cases hj with ⟨hj', -⟩ | ⟨-, heq⟩
  · rintro rfl
    have := hs.distinct j _ p' m₁ m' hj' hleaving (by omega) (by omega)
    omega
  · cases heq
    rintro rfl
    rw [hs.leaving_holds hx] at hp
    cases hp

/-! ### The unfinished message -/

/-- Block `q` with contents `bytes` is the temporary buffer, and `r` has been collected in it. -/
structure Pending (dev : AesdDev) (h : Heap) (hist : History) (r : List Byte) (q : ℕ)
    (bytes : List Byte) : Prop where
  onGoing : dev.onGoingWrite = true
  buffer : dev.tempBuffer = some q
  block : h q = some bytes
  index : dev.tempBufferIndex = r.length
  collected : r <+: bytes
  size : dev.tempBufferSize = bytes.length
  small : bytes.length ≤ 2 ^ 30
  avoids : Avoids hist q

/-- What each of the first three parts of `aesd_write` leaves: `r` in the temporary buffer if it
succeeds, nothing otherwise, and the circular buffer as it was. -/
structure BufferOutcome (dev : AesdDev) (hist : History) (r : List Byte) (res : Bool × AesdDev)
    (h' : Heap) : Prop where
  circBuffer : res.2.circBuffer = dev.circBuffer
  circBufferPtr : res.2.circBufferPtr = dev.circBufferPtr
  stores : Stores h' hist
  pending : res.1 = true → ∃ q bytes, Pending res.2 h' hist r q bytes
  idle : res.1 = false → res.2.onGoingWrite = false

variable {dev : AesdDev} {r : List Byte} {res : Bool × AesdDev} {bytes : List Byte}

lemma startWrite_outcome (hs : Stores h hist)
    (hpending : dev.onGoingWrite = true → ∃ q bytes, Pending dev h hist r q bytes)
    (hidle : dev.onGoingWrite = false → r = [])
    (heval : (startWrite dev).Eval kernelExec h res h') : BufferOutcome dev hist r res h' := by
  cases hon : dev.onGoingWrite with
  | true =>
    simp only [startWrite, hon, if_true, Prog.pure_eq_ret, Prog.eval_ret] at heval
    obtain ⟨rfl, rfl⟩ := heval
    exact ⟨rfl, rfl, hs, fun _ => hpending hon, by simp⟩
  | false =>
    obtain rfl := hidle hon
    simp only [startWrite, hon, Bool.false_eq_true, if_false, Prog.perform_bind,
      Prog.eval_call, kernelExec] at heval
    obtain ⟨p, h₁, halloc, heval⟩ := heval
    cases p with
    | none =>
      obtain rfl := halloc
      obtain ⟨rfl, rfl⟩ := heval
      exact ⟨rfl, rfl, hs, by simp, fun _ => rfl⟩
    | some q =>
      obtain ⟨-, hq, bytes, hlength, rfl⟩ := halloc
      obtain ⟨rfl, rfl⟩ := heval
      have havoid := hs.avoids hq
      refine ⟨rfl, rfl, hs.update havoid _, fun _ => ⟨q, bytes, ?_⟩, by simp⟩
      exact ⟨rfl, rfl, Function.update_self .., rfl, List.nil_prefix, hlength.symm,
        by unfold tempBufferStartingSize at hlength; omega, havoid⟩

lemma doubleUntil_ge {tests : ℕ} {size needed newSize : ℤ}
    (hsize : doubleUntil tests size needed = some newSize) : needed ≤ newSize := by
  induction tests generalizing size with
  | zero => cases hsize
  | succ tests ih =>
    rw [doubleUntil] at hsize
    split_ifs at hsize with hlt
    · exact ih hsize
    · cases hsize
      omega

lemma resizeTempBuffer_outcome {count : ℤ} (hs : Stores h hist)
    (hp : Pending dev h hist r q bytes)
    (heval : (resizeTempBuffer dev count).Eval kernelExec h res h') :
    BufferOutcome dev hist r res h' := by
  obtain ⟨tempBuffer, tempBufferIndex, tempBufferSize, circBufferPtr, circBuffer, onGoing⟩ := dev
  obtain rfl : tempBuffer = some q := hp.buffer
  simp only [resizeTempBuffer] at heval
  split at heval
  · -- the loop does not end, and there is no result
    obtain ⟨never, -⟩ := heval
    exact never.elim
  · rename_i newBufferSize hsize
    split_ifs at heval with hgrow
    · -- the buffer is reallocated
      simp only [Prog.perform_bind, Prog.eval_call, kernelExec] at heval
      obtain ⟨p, h₁, hrealloc, heval⟩ := heval
      cases p with
      | none =>
        obtain rfl := hrealloc
        obtain ⟨_, h₂, ⟨-, rfl⟩, rfl, rfl⟩ := heval
        exact ⟨rfl, rfl, hs.update hp.avoids none, by simp, fun _ => rfl⟩
      | some q' =>
        obtain ⟨hsmall, hq', old, bytes', hold, hlength, hcopy, rfl⟩ := hrealloc
        obtain ⟨rfl, rfl⟩ := heval
        rw [hp.block, Option.some.injEq] at hold
        subst hold
        have havoid : Avoids hist q' := by
          rcases hq' with rfl | hq'
          · exact hp.avoids
          · exact hs.avoids hq'
        have hgrown : (bytes.length : ℤ) ≤ newBufferSize := by
          have hsize' : toU64 tempBufferSize = bytes.length := by
            rw [show tempBufferSize = bytes.length from hp.size]
            exact toU64_of_range (by omega) (by have := hp.small; omega)
          have := doubleUntil_ge hsize
          omega
        refine ⟨rfl, rfl, (hs.update hp.avoids none).update havoid _,
          fun _ => ⟨q', bytes', ?_⟩, by simp⟩
        refine ⟨hp.onGoing, rfl, Function.update_self .., hp.index, ?_, ?_, by omega, havoid⟩
        · rw [List.take_of_length_le (by omega)] at hcopy
          exact hp.collected.trans hcopy
        · exact (toI32_of_range (by omega) (by omega)).trans hlength.symm
    · -- the buffer is large enough
      obtain ⟨rfl, rfl⟩ := heval
      exact ⟨rfl, rfl, hs, fun _ => ⟨q, bytes, hp⟩, by simp⟩

lemma copyToTempBuffer_outcome {buf : List Byte} (hs : Stores h hist)
    (hp : Pending dev h hist r q bytes)
    (heval : (copyToTempBuffer dev buf).Eval kernelExec h res h') :
    BufferOutcome dev hist (r ++ buf) res h' := by
  obtain ⟨tempBuffer, tempBufferIndex, tempBufferSize, circBufferPtr, circBuffer, onGoing⟩ := dev
  obtain rfl : tempBuffer = some q := hp.buffer
  obtain rfl : tempBufferIndex = r.length := hp.index
  simp only [copyToTempBuffer, Prog.perform_bind, Prog.eval_call,
    kernelExec] at heval
  obtain ⟨rc, h₁, ⟨old, hold, -, hfits, hcopied⟩, heval⟩ := heval
  rw [hp.block, Option.some.injEq] at hold
  subst hold
  have hsmall := hp.small
  rcases hcopied with ⟨rfl, rfl⟩ | ⟨hpos, hle, bytes', -, -, rfl⟩
  · obtain ⟨rfl, rfl⟩ := heval
    refine ⟨rfl, rfl, hs.update hp.avoids _,
      fun _ => ⟨q, overwrite bytes r.length buf, ?_⟩, by simp⟩
    have hlength : (overwrite bytes r.length buf).length = bytes.length :=
      length_overwrite (by omega)
    refine ⟨hp.onGoing, rfl, Function.update_self .., ?_, prefix_overwrite hp.collected, ?_,
      by omega, hp.avoids⟩
    · show toI32 _ = _
      rw [toI32_of_range (by omega) (by omega), List.length_append, Nat.cast_add]
    · rw [hlength]
      exact hp.size
  · -- some have not: the buffer is freed
    rw [toI32_of_range (by omega) (by omega), if_pos (by omega)] at heval
    obtain ⟨_, h₂, ⟨-, rfl⟩, rfl, rfl⟩ := heval
    exact ⟨rfl, rfl, (hs.update hp.avoids _).update hp.avoids none, by simp, fun _ => rfl⟩

/-- The test sees whether the bytes collected end in a newline. -/
lemma messageComplete_eval {b : Bool} (hp : Pending dev h hist r q bytes)
    (heval : (messageComplete dev).Eval kernelExec h b h') :
    h' = h ∧ (b = true ↔ r.getLast? = some newline) := by
  obtain ⟨tempBuffer, tempBufferIndex, tempBufferSize, circBufferPtr, circBuffer, onGoing⟩ := dev
  obtain rfl : tempBuffer = some q := hp.buffer
  obtain rfl : tempBufferIndex = r.length := hp.index
  simp only [messageComplete] at heval
  split_ifs at heval with hlength
  · simp only [Prog.perform_bind, Prog.eval_call, kernelExec] at heval
    obtain ⟨last, h₁, ⟨rfl, -, bytes', hblock, hlast⟩, rfl, rfl⟩ := heval
    rw [hp.block, Option.some.injEq] at hblock
    subst hblock
    have hindex : ((r.length : ℤ) - 1).toNat = r.length - 1 := by omega
    rw [hindex, List.prefix_iff_getElem?.mp hp.collected (r.length - 1) (by omega)] at hlast
    rw [List.getLast?_eq_getElem?, List.getElem?_eq_getElem (by omega)]
    simp [hlast]
  · -- a message with no bytes is not complete
    obtain ⟨rfl, rfl⟩ := heval
    have hnil : r = [] := List.length_eq_zero_iff.mp (by omega)
    simp [hnil]

/-! ### One call -/

/-- The device after the messages of `hist` have been stored and `r` has been collected of the
next one. -/
structure Refines (driver : Driver) (h : Heap) (hist : History) (r : List Byte) : Prop where
  hasRing : driver.dev.circBufferPtr ≠ none
  ring : (driver.dev.circBuffer.ring driver.hasBufferBeenFilled).Records .zero (hist.map entryOf)
  stores : Stores h hist
  pending : driver.dev.onGoingWrite = true → ∃ q bytes, Pending driver.dev h hist r q bytes
  idle : driver.dev.onGoingWrite = false → r = []

variable {driver driver' : Driver}

namespace BufferOutcome

lemma trans {dev' : AesdDev} {r₁ r₂ : List Byte} {ok : Bool} {h₁ : Heap}
    (hsecond : BufferOutcome dev' hist r₂ res h')
    (hfirst : BufferOutcome dev hist r₁ (ok, dev') h₁) :
    BufferOutcome dev hist r₂ res h' :=
  ⟨hsecond.circBuffer.trans hfirst.circBuffer, hsecond.circBufferPtr.trans hfirst.circBufferPtr,
    hsecond.stores, hsecond.pending, hsecond.idle⟩

/-- The messages in the circular buffer are not touched. -/
lemma refines_of {r₁ r₂ : List Byte} (ho : BufferOutcome driver.dev hist r₂ res h')
    (hd : Refines driver h hist r₁)
    (hpending : res.2.onGoingWrite = true → ∃ q bytes, Pending res.2 h' hist r q bytes)
    (hidle : res.2.onGoingWrite = false → r = []) :
    Refines { driver with dev := res.2 } h' hist r := by
  refine ⟨?_, ?_, ho.stores, hpending, hidle⟩
  · rw [ho.circBufferPtr]
    exact hd.hasRing
  · rw [ho.circBuffer]
    exact hd.ring

lemma refines {r₁ r₂ : List Byte} (ho : BufferOutcome driver.dev hist r₂ res h')
    (hd : Refines driver h hist r₁) (hok : res.1 = true) :
    Refines { driver with dev := res.2 } h' hist r₂ := by
  obtain ⟨q, bytes, hp⟩ := ho.pending hok
  refine ho.refines_of hd (fun _ => ⟨q, bytes, hp⟩) ?_
  rw [hp.onGoing]
  simp

lemma refines_failed {r₁ r₂ : List Byte} (ho : BufferOutcome driver.dev hist r₂ res h')
    (hd : Refines driver h hist r₁) (hok : res.1 = false) :
    Refines { driver with dev := res.2 } h' hist [] := by
  refine ho.refines_of hd ?_ fun _ => rfl
  rw [ho.idle hok]
  simp

end BufferOutcome

/-- `aesd_circular_buffer_add_entry` records the message and returns the block of the one that
leaves. -/
lemma addCircEntry_records {x : ℕ × List Byte} (hring : driver.dev.circBufferPtr ≠ none)
    (hrecords : (driver.dev.circBuffer.ring driver.hasBufferBeenFilled).Records .zero
      (hist.map entryOf)) :
    (addCircEntry driver (entryOf x)).1 = (leaving hist).map Prod.fst ∧
      ((addCircEntry driver (entryOf x)).2.2.ring (addCircEntry driver (entryOf x)).2.1).Records
        .zero ((hist ++ [x]).map entryOf) := by
  rw [addCircEntry, if_neg hring, (CircularBuffer.addEntry_eq_push _ _ _).1,
    (CircularBuffer.addEntry_eq_push _ _ _).2, List.map_append]
  refine ⟨?_, hrecords.push_snd _⟩
  rw [hrecords.push_fst, List.length_map, leaving]
  split_ifs with hlen
  · rfl
  · rw [List.getD_eq_getElem?_getD, List.getElem?_map]
    cases hist[hist.length - maxWriteOperationsSupported]? with
    | none => rfl
    | some x => rfl

/-- A stored message goes to the end of the history, and the block of the one that leaves is
freed. -/
structure Commits (hist : History) (r : List Byte) (driver' : Driver) (h' : Heap)
    (oldEntryBufPtr : Option Pointer) : Prop where
  refines : ∃ p, Refines driver' h' (hist ++ [(p, r)]) []
  returned : oldEntryBufPtr = some ((leaving hist).map Prod.fst)
  freed : ∀ x, leaving hist = some x → h' x.1 = none

lemma addMessage_commits {p : ℕ} {old : Pointer} (hring : driver.dev.circBufferPtr ≠ none)
    (hrecords : (driver.dev.circBuffer.ring driver.hasBufferBeenFilled).Records .zero
      (hist.map entryOf))
    (hs : Stores h hist) (hbuffer : driver.dev.tempBuffer = some q) (havoid : Avoids hist q)
    (hfresh : h p = none) (hne : p ≠ q) (hsmall : r.length ≤ 2 ^ 30)
    (heval : (addMessage driver (entryOf (p, r))).Eval kernelExec
      (Function.update h p (some r)) (driver', old) h') :
    Commits hist r driver' h' (some old) := by
  have hadded := addCircEntry_records (x := (p, r)) hring hrecords
  have hs' := (hs.update (hs.avoids hfresh) (some r)).push (Function.update_self ..)
    (hs.avoids hfresh) hsmall
  have havoid' := havoid.push r hne
  simp only [addMessage] at heval
  generalize addCircEntry driver (entryOf (p, r)) = added at hadded heval
  obtain ⟨oldEntryBufPtr, filled, circBuffer⟩ := added
  obtain ⟨⟨tempBuffer, tempBufferIndex, tempBufferSize, circBufferPtr, circBuffer₀, onGoing⟩,
    filled₀⟩ := driver
  obtain rfl : tempBuffer = some q := hbuffer
  obtain ⟨hold : oldEntryBufPtr = _, hrecords'⟩ := hadded
  cases hleaving : leaving hist with
  | none =>
    rw [hleaving] at hold
    subst hold
    obtain ⟨_, h₁, ⟨-, rfl⟩, heq, rfl⟩ := heval
    cases heq
    refine ⟨⟨p, hring, hrecords', hs'.update havoid' none, by simp, fun _ => rfl⟩, ?_, ?_⟩
    · rw [hleaving]
    · rw [hleaving]
      simp
  | some x =>
    -- the oldest message leaves the buffer, and its block is freed
    obtain ⟨b, m⟩ := x
    rw [hleaving] at hold
    subst hold
    obtain ⟨_, h₁, ⟨-, rfl⟩, _, h₂, ⟨-, rfl⟩, heq, rfl⟩ := heval
    cases heq
    have hs'' := (hs'.update (hs.avoids_leaving hleaving hfresh) none).update havoid' none
    refine ⟨⟨p, hring, hrecords', hs'', by simp, fun _ => rfl⟩, ?_, ?_⟩
    · rw [hleaving]
    · rw [hleaving]
      rintro _ ⟨⟩
      by_cases hb : b = q
      · rw [hb, Function.update_self]
      · rw [Function.update_of_ne hb, Function.update_self]

lemma storeMessage_cases {old : Option Pointer}
    (hring : driver.dev.circBufferPtr ≠ none)
    (hrecords : (driver.dev.circBuffer.ring driver.hasBufferBeenFilled).Records .zero
      (hist.map entryOf))
    (hs : Stores h hist) (hp : Pending driver.dev h hist r q bytes)
    (heval : (storeMessage driver).Eval kernelExec h (driver', old) h') :
    (old = none ∧ Refines driver' h' hist []) ∨ (old ≠ none ∧ Commits hist r driver' h' old) := by
  obtain ⟨⟨tempBuffer, tempBufferIndex, tempBufferSize, circBufferPtr, circBuffer, onGoing⟩,
    filled⟩ := driver
  obtain rfl : tempBuffer = some q := hp.buffer
  obtain rfl : tempBufferIndex = r.length := hp.index
  have hsmall := hp.small
  have hlength := hp.collected.length_le
  have hsize : toU64 r.length = r.length := toU64_of_range (by omega) (by omega)
  simp only [storeMessage, Prog.perform_bind, Prog.eval_call, kernelExec] at heval
  obtain ⟨buffptr, h₁, halloc, heval⟩ := heval
  cases buffptr with
  | none =>
    obtain rfl := halloc
    obtain ⟨_, h₂, ⟨-, rfl⟩, heq, rfl⟩ := heval
    cases heq
    exact Or.inl ⟨rfl, hring, hrecords, hs.update hp.avoids none, by simp, fun _ => rfl⟩
  | some p =>
    right
    obtain ⟨-, hfresh, block, hlength, rfl⟩ := halloc
    have hne : q ≠ p := by
      rintro rfl
      rw [hp.block] at hfresh
      cases hfresh
    simp only [reduceCtorEq, if_false, Prog.eval_call, kernelExec, hsize] at heval
    obtain ⟨_, h₂, ⟨block₁, hblock₁, -, -, rfl⟩, _, h₃, ⟨block₂, src, hblock₂, hsrc, -, -, -, rfl⟩,
      heval⟩ := heval
    rw [Function.update_self, Option.some.injEq] at hblock₁ hblock₂
    rw [Function.update_of_ne hne, Function.update_of_ne hne, hp.block, Option.some.injEq] at hsrc
    subst hblock₁ hblock₂ hsrc
    have hblock : (overwrite block 0 (List.replicate r.length 0)).length = r.length := by
      rw [length_overwrite (by simp; omega)]
      omega
    have hr : bytes.take r.length = r := (List.prefix_iff_eq_take.mp hp.collected).symm
    rw [Int.toNat_natCast, hr, overwrite_all hblock.symm, Function.update_idem,
      Function.update_idem, Prog.eval_bind] at heval
    obtain ⟨x, h₁, hadd, heq, rfl⟩ := heval
    cases heq
    exact ⟨by simp, addMessage_commits hring hrecords hs rfl hp.avoids hfresh hne.symm
      (by omega) hadd⟩

/-- What one call may do: fail and lose the unfinished message, add to it, or complete it. -/
inductive Written (hist : History) (r buf : List Byte) (fPos : ℤ) (res : WriteResult)
    (h' : Heap) : Prop where
  | failed (hretval : res.retval < 0) (hfPos : res.fPos = fPos)
      (hnone : res.oldEntryBufPtr = none) (hrefines : Refines res.driver h' hist [])
  | added (hretval : res.retval = buf.length)
      (hincomplete : (r ++ buf).getLast? ≠ some newline)
      (hnone : res.oldEntryBufPtr = none) (hrefines : Refines res.driver h' hist (r ++ buf))
  | completed (hretval : res.retval = buf.length)
      (hcomplete : (r ++ buf).getLast? = some newline)
      (hcommits : Commits hist (r ++ buf) res.driver h' res.oldEntryBufPtr)

lemma neg_ENOMEM : -ENOMEM < 0 := by decide

lemma neg_EFAULT : -EFAULT < 0 := by decide

theorem aesdWrite_written {buf : List Byte} {fPos : ℤ} {res : WriteResult}
    (hd : Refines driver h hist r)
    (heval : (aesdWrite driver buf fPos).Eval kernelExec h res h') :
    Written hist r buf fPos res h' := by
  simp only [aesdWrite, Prog.eval_bind] at heval
  -- `kmalloc` of the first buffer
  obtain ⟨⟨started, dev₁⟩, h₁, hstart, heval⟩ := heval
  have hstarted := startWrite_outcome hd.stores hd.pending hd.idle hstart
  cases started with
  | false =>
    obtain ⟨rfl, rfl⟩ := heval
    exact .failed neg_ENOMEM rfl rfl (hstarted.refines_failed hd rfl)
  | true =>
  obtain ⟨q₁, bytes₁, hp₁⟩ := hstarted.pending rfl
  simp only [Bool.not_true, Bool.false_eq_true, if_false, Prog.eval_bind] at heval
  -- `krealloc`
  obtain ⟨⟨resized, dev₂⟩, h₂, hresize, heval⟩ := heval
  have hresized := (resizeTempBuffer_outcome hstarted.stores hp₁ hresize).trans hstarted
  cases resized with
  | false =>
    obtain ⟨rfl, rfl⟩ := heval
    exact .failed neg_ENOMEM rfl rfl (hresized.refines_failed hd rfl)
  | true =>
  obtain ⟨q₂, bytes₂, hp₂⟩ := hresized.pending rfl
  simp only [Bool.not_true, Bool.false_eq_true, if_false, Prog.eval_bind] at heval
  -- `copy_from_user`
  obtain ⟨⟨copied, dev₃⟩, h₃, hcopy, heval⟩ := heval
  have hcopied := (copyToTempBuffer_outcome hresized.stores hp₂ hcopy).trans hresized
  cases copied with
  | false =>
    obtain ⟨rfl, rfl⟩ := heval
    exact .failed neg_EFAULT rfl rfl (hcopied.refines_failed hd rfl)
  | true =>
  obtain ⟨q₃, bytes₃, hp₃⟩ := hcopied.pending rfl
  have hretval : toI64 buf.length = buf.length := by
    have hsmall := hp₃.small
    have hle := hp₃.collected.length_le
    rw [List.length_append] at hle
    exact toI64_of_range (by omega) (by omega)
  simp only [Bool.not_true, Bool.false_eq_true, if_false, Prog.eval_bind] at heval
  -- is the message complete?
  obtain ⟨complete, h₄, htest, heval⟩ := heval
  obtain ⟨rfl, hcomplete⟩ := messageComplete_eval hp₃ htest
  cases complete with
  | false =>
    obtain ⟨rfl, rfl⟩ := heval
    refine .added hretval (by simpa using hcomplete) rfl ?_
    exact hcopied.refines hd rfl
  | true =>
  simp only [if_true, Prog.eval_bind] at heval
  -- it is stored, or lost for want of memory
  obtain ⟨⟨driver', old⟩, h₅, hstore, heval⟩ := heval
  have hd' := hcopied.refines hd rfl
  rcases storeMessage_cases hd'.hasRing hd'.ring hd'.stores hp₃ hstore with
    ⟨rfl, hlost⟩ | ⟨hold, hcommits⟩
  · obtain ⟨rfl, rfl⟩ := heval
    exact .failed neg_ENOMEM rfl rfl hlost
  · simp only [hold, if_false] at heval
    obtain ⟨rfl, rfl⟩ := heval
    exact .completed hretval (hcomplete.mp rfl) hcommits

/-! ### All calls since the module was loaded -/

/-- Successful calls of `aesd_write` with the given bytes, each at any file position, lead from one
state of the driver to another. -/
inductive DeviceWrites (driver₀ : Driver) (h₀ : Heap) :
    List (List Byte) → Driver → Heap → Prop where
  | nil : DeviceWrites driver₀ h₀ [] driver₀ h₀
  | write {chunks : List (List Byte)} {driver : Driver} {h h' : Heap} {buf : List Byte} {fPos : ℤ}
      {res : WriteResult} (run : DeviceWrites driver₀ h₀ chunks driver h)
      (heval : (aesdWrite driver buf fPos).Eval kernelExec h res h') (hok : 0 ≤ res.retval) :
      DeviceWrites driver₀ h₀ (chunks ++ [buf]) res.driver h'

/-- Exactly `r` has been collected of the unfinished message. -/
def PendingBytes (dev : AesdDev) (h : Heap) (r : List Byte) : Prop :=
  if dev.onGoingWrite then
    ∃ q bytes, dev.tempBuffer = some q ∧ h q = some bytes ∧ dev.tempBufferIndex = r.length ∧
      r = bytes.take r.length
  else r = []

/-- The circular buffer has the newest of the messages `ms`, oldest first from `out_offs` on, and
nothing else. -/
structure HoldsNewest (buffer : CircularBuffer) (h : Heap) (ms : List (List Byte)) : Prop where
  inOffs : buffer.inOffs.val = ms.length % maxWriteOperationsSupported
  window : ∀ i < min ms.length maxWriteOperationsSupported, ∃ p m,
    ms[ms.length - min ms.length maxWriteOperationsSupported + i]? = some m ∧ h p = some m ∧
      buffer.entry (Fin.ofNat _ (buffer.outOffs + i)) = ⟨some p, m.length⟩
  others : ∀ slot, (∀ i < min ms.length maxWriteOperationsSupported,
    slot ≠ Fin.ofNat _ (buffer.outOffs + i)) → buffer.entry slot = .zero

/-- What `aesd_circular_buffer_add_entry` returns when message number `n` is added. -/
def CircularBuffer.oldest (buffer : CircularBuffer) (n : ℕ) : Pointer :=
  if n < maxWriteOperationsSupported then none else (buffer.entry buffer.outOffs).buffptr

lemma aesdInitModule_refines {driver₀ driver : Driver}
    (hfilled : driver₀.hasBufferBeenFilled = false)
    (heval : (aesdInitModule driver₀).Eval kernelExec h (0, driver) h') :
    Refines driver h' [] [] := by
  simp only [aesdInitModule, Prog.perform_bind, Prog.eval_call, kernelExec] at heval
  obtain ⟨result, h₁, rfl, heval⟩ := heval
  split_ifs at heval with hresult
  · obtain ⟨heq, -⟩ := heval
    cases heq
    exact absurd hresult (lt_irrefl (0 : ℤ))
  · simp only [Prog.eval_call, kernelExec] at heval
    obtain ⟨circBufferPtr, h₂, -, heval⟩ := heval
    cases circBufferPtr with
    | none =>
      -- `memset` faults
      obtain ⟨_, _, hfault, -⟩ := heval
      exact hfault.elim
    | some p =>
      obtain ⟨_, h₃, -, result, h₄, rfl, heval⟩ := heval
      split_ifs at heval with hresult'
      · obtain ⟨_, _, -, _, _, -, heq, -⟩ := heval
        cases heq
        exact absurd rfl hresult'
      · obtain ⟨heq, rfl⟩ := heval
        cases heq
        refine ⟨by simp, ?_, ⟨by simp, by simp, by simp⟩, by simp, fun _ => rfl⟩
        rw [hfilled]
        exact RingBuffer.records_nil

/-- The run lemma: the device holds the messages of the chunks written. -/
lemma DeviceWrites.refines {driver₀ : Driver} {h₀ : Heap} {chunks : List (List Byte)}
    (hinit : Refines driver₀ h₀ [] []) (run : DeviceWrites driver₀ h₀ chunks driver h) :
    ∃ hist, hist.map Prod.snd = (messages newline chunks).1 ∧
      Refines driver h hist (messages newline chunks).2 := by
  induction run with
  | nil => exact ⟨[], rfl, hinit⟩
  | write run heval hok ih =>
    obtain ⟨hist, hmap, hrefines⟩ := ih
    rw [messages_concat, addChunk]
    cases aesdWrite_written hrefines heval with
    | failed hretval => omega
    | added _ hincomplete _ hrefines' =>
      rw [if_neg hincomplete]
      exact ⟨hist, hmap, hrefines'⟩
    | completed _ hcomplete hcommits =>
      rw [if_pos hcomplete]
      obtain ⟨p, hrefines'⟩ := hcommits.refines
      refine ⟨_, ?_, hrefines'⟩
      rw [List.map_append, hmap]
      rfl

lemma Refines.pendingBytes (hd : Refines driver h hist r) : PendingBytes driver.dev h r := by
  rw [PendingBytes]
  split_ifs with hon
  · obtain ⟨q, bytes, hp⟩ := hd.pending hon
    exact ⟨q, bytes, hp.buffer, hp.block, hp.index, List.prefix_iff_eq_take.mp hp.collected⟩
  · exact hd.idle (by simpa using hon)

lemma Refines.holdsNewest (hd : Refines driver h hist r) :
    HoldsNewest driver.dev.circBuffer h (hist.map Prod.snd) := by
  have hring := hd.ring
  have hlength : (hist.map entryOf).length = hist.length := List.length_map ..
  constructor
  · rw [List.length_map, ← hlength]
    exact congrArg Fin.val hring.inOffs
  · intro i hi
    rw [List.length_map] at hi ⊢
    have hwindow := hring.window (i := i) (by rw [hlength]; exact hi)
    rw [hlength, List.getElem?_map, Option.map_eq_some_iff] at hwindow
    obtain ⟨⟨p, m⟩, hj, hentry⟩ := hwindow
    refine ⟨p, m, ?_, hd.stores.holds _ p m hj (by omega), hentry.symm⟩
    rw [List.getElem?_map, hj]
    rfl
  · intro slot hslot
    rw [List.length_map, ← hlength] at hslot
    exact hring.outside hslot

lemma Refines.leaving_eq (hd : Refines driver h hist r) :
    (leaving hist).map Prod.fst = driver.dev.circBuffer.oldest hist.length := by
  rw [leaving, CircularBuffer.oldest]
  split_ifs with hlen
  · -- no message leaves as long as there is room
    rfl
  · -- the message that leaves is the one in the slot to read from
    have hlength : (hist.map entryOf).length = hist.length := List.length_map ..
    have hpos : 0 < min (hist.map entryOf).length maxWriteOperationsSupported := by
      rw [hlength, Nat.min_eq_right (Nat.le_of_not_lt hlen)]
      decide
    have hwindow := hd.ring.window hpos
    rw [hlength, Nat.min_eq_right (Nat.le_of_not_lt hlen), List.getElem?_map,
      Option.map_eq_some_iff] at hwindow
    obtain ⟨x, hx, hentry⟩ := hwindow
    rw [Nat.add_zero] at hx hentry
    rw [hx, Option.map_some]
    have hfirst : Fin.ofNat maxWriteOperationsSupported driver.dev.circBuffer.outOffs =
        driver.dev.circBuffer.outOffs := Fin.ext (Nat.mod_eq_of_lt (Fin.is_lt _))
    have hbuffptr := congrArg BufferEntry.buffptr hentry
    exact hbuffptr.trans (congrArg (fun s => (driver.dev.circBuffer.entry s).buffptr) hfirst)

/-- After the module has been loaded and any successful writes, the temporary buffer holds the
unfinished message and the circular buffer the newest ten complete ones. A further successful write
that completes a message gets from the circular buffer, and frees, the block of the message that
leaves it; any other one does not call `aesd_circular_buffer_add_entry`. -/
theorem aesdWrite_refines {h₀ h₁ : Heap} {driver₀ : Driver} {chunks : List (List Byte)}
    (hinit : (aesdInitModule {}).Eval kernelExec h₀ (0, driver₀) h₁)
    (run : DeviceWrites driver₀ h₁ chunks driver h) :
    PendingBytes driver.dev h (messages newline chunks).2 ∧
      HoldsNewest driver.dev.circBuffer h (messages newline chunks).1 ∧
      ∀ buf fPos res h', (aesdWrite driver buf fPos).Eval kernelExec h res h' → 0 ≤ res.retval →
        if ((messages newline chunks).2 ++ buf).getLast? = some newline then
          res.oldEntryBufPtr =
              some (driver.dev.circBuffer.oldest (messages newline chunks).1.length) ∧
            ∀ b, driver.dev.circBuffer.oldest (messages newline chunks).1.length = some b →
              h' b = none
        else res.oldEntryBufPtr = none := by
  obtain ⟨hist, hmap, hrefines⟩ := run.refines (aesdInitModule_refines rfl hinit)
  rw [← hmap, List.length_map]
  refine ⟨hrefines.pendingBytes, hrefines.holdsNewest, ?_⟩
  intro buf fPos res h' heval hok
  cases aesdWrite_written hrefines heval with
  | failed hretval => omega
  | added _ hincomplete hnone _ =>
    rw [if_neg hincomplete]
    exact hnone
  | completed _ hcomplete hcommits =>
    rw [if_pos hcomplete, ← hrefines.leaving_eq]
    refine ⟨hcommits.returned, ?_⟩
    intro b hb
    obtain ⟨x, hx, rfl⟩ := Option.map_eq_some_iff.mp hb
    exact hcommits.freed x hx

/-- A load that succeeds. -/
lemma exists_aesdInitModule {p : ℕ} (hp : h p = none) : ∃ block,
    (aesdInitModule {}).Eval kernelExec h (0, { dev := { circBufferPtr := some p } })
      (Function.update h p (some block)) := by
  have hlength : ((List.replicate 168 (0 : Byte)).length : ℤ) = sizeofCircularBuffer := rfl
  refine ⟨_, (0 : ℤ), h, rfl, some p, _, ⟨by decide, hp, _, hlength, rfl⟩, (), _,
    ⟨_, Function.update_self .., by decide, hlength.ge, rfl⟩, (0 : ℤ), _, rfl, rfl,
    (Function.update_idem ..).symm⟩

theorem aesdWrite_refines_twoChunks : ∃ driver₀ h₁ driver h,
    (aesdInitModule {}).Eval kernelExec (fun _ => none) (0, driver₀) h₁ ∧
      DeviceWrites driver₀ h₁ [[97], [10]] driver h ∧
      HoldsNewest driver.dev.circBuffer h [[97, 10]] := by
  obtain ⟨block, hinit⟩ := exists_aesdInitModule (h := fun _ => none) (p := 0) rfl
  have hwrite₁ := Prog.eval_of_run (s := Function.update (fun _ => none) 0 (some block))
    (p := aesdWrite ⟨{ circBufferPtr := some 0 }, false⟩ [97] 0) kernelExec_of_respond
    [some 1, some 0, some 0] rfl
  have run₁ := DeviceWrites.write .nil hwrite₁ (by decide)
  have run₂ := DeviceWrites.write run₁ (Prog.eval_of_run (p := aesdWrite _ [10] 0)
    kernelExec_of_respond [some 0, some 0, some 2, some 0, some 0, some 0] rfl) (by decide)
  exact ⟨_, _, _, _, hinit, run₂, (aesdWrite_refines hinit run₂).2.1⟩

end Aesd
