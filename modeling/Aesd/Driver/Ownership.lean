import Aesd.Driver.FailedWrite
import Aesd.Lib.Ownership

/-!
# Who owns the driver's memory

Every live block is owned by exactly one place: the pointer to the ring, a slot of the ring, the
temporary buffer while a message is under way, or, inside `aesd_write`, a local pointer. Every exit
of `aesd_write` keeps this, whatever fails. `aesd_cleanup_module` gives back the blocks of the slots
and the ring, but not the temporary buffer (`unload_frees_all_iff`).
-/

namespace Aesd

open Effect CInt

/-! ### The live blocks as ghost state -/

/-- The blocks that are live. -/
def liveBlocks (h : Heap) : Set ℕ := {p | h p ≠ none}

lemma liveBlocks_alloc (h : Heap) (p : ℕ) (block : List Byte) :
    liveBlocks (Function.update h p (some block)) = insert p (liveBlocks h) := by
  ext q
  by_cases hq : q = p
  · simp [liveBlocks, hq]
  · simp [liveBlocks, hq]

lemma liveBlocks_free (h : Heap) (p : ℕ) :
    liveBlocks (Function.update h p none) = liveBlocks h \ {p} := by
  ext q
  by_cases hq : q = p
  · simp [liveBlocks, hq]
  · simp [liveBlocks, hq]

/-- A change of the bytes of a block. -/
lemma liveBlocks_store {h : Heap} {p : ℕ} {old block : List Byte} (hp : h p = some old) :
    liveBlocks (Function.update h p (some block)) = liveBlocks h := by
  rw [liveBlocks_alloc]
  exact Set.insert_eq_of_mem (by simp [liveBlocks, hp])

lemma liveBlocks_of_allocates {size : ℤ} {h h' : Heap} {r : Pointer}
    (hr : Allocates size h r h') :
    (∀ q, r = some q → q ∉ liveBlocks h) ∧
      (r.elim (liveBlocks h) fun q => insert q (liveBlocks h)) = liveBlocks h' := by
  cases r with
  | none =>
    obtain rfl := hr
    exact ⟨by simp, rfl⟩
  | some q =>
    obtain ⟨-, hq, bytes, -, rfl⟩ := hr
    refine ⟨?_, (liveBlocks_alloc ..).symm⟩
    rintro _ ⟨⟩
    simp [liveBlocks, hq]

/-- The old block may be enlarged where it is. -/
lemma liveBlocks_of_reallocates {p : ℕ} {size : ℤ} {h h' : Heap} {r : Pointer}
    (hr : Reallocates p size h r h') :
    (∀ q, r = some q → q = p ∨ q ∉ liveBlocks h) ∧
      (r.elim (liveBlocks h) fun q => insert q (liveBlocks h \ {p})) = liveBlocks h' := by
  cases r with
  | none =>
    obtain rfl := hr
    exact ⟨by nofun, rfl⟩
  | some q =>
    obtain ⟨-, hq, old, bytes, -, -, -, rfl⟩ := hr
    refine ⟨?_, ?_⟩
    · rintro _ ⟨⟩
      exact hq.imp_right fun hq => by simp [liveBlocks, hq]
    · rw [liveBlocks_alloc, liveBlocks_free]
      rfl

/-- What is freed or reallocated has to be live, what is allocated is not live before, and nothing
is set through `NULL`. -/
def blockProtocol : Protocol KernelOp KernelAnswer (Set ℕ) where
  pre
    | live, .krealloc (some p) _ => p ∈ live
    | live, .kfree (some p)      => p ∈ live
    | _, _                       => True
  post
    | live, .kmalloc _, r           => ∀ p, r = some p → p ∉ live
    | live, .krealloc none _, r     => ∀ p, r = some p → p ∉ live
    | live, .krealloc (some p) _, r => ∀ q, r = some q → q = p ∨ q ∉ live
    | _, .memset p _ _, _           => p ≠ none
    | _, _, _                       => True
  next
    | live, .kmalloc _, some p           => insert p live
    | live, .krealloc none _, some p     => insert p live
    | live, .krealloc (some p) _, some q => insert q (live \ {p})
    | live, .kfree (some p), _           => live \ {p}
    | live, _, _                         => live

/-- The protocol follows the heap. -/
lemma blockProtocol_step (h : Heap) (live : Set ℕ) (op : KernelOp) (r : KernelAnswer op)
    (h' : Heap) (hlive : live = liveBlocks h) (hpre : blockProtocol.pre live op)
    (hexec : kernelExec op h r h') :
    blockProtocol.post live op r ∧ blockProtocol.next live op r = liveBlocks h' := by
  subst hlive
  cases op with
  | kmalloc size =>
    obtain ⟨hfresh, hlive⟩ := liveBlocks_of_allocates hexec
    cases r with
    | none => exact ⟨hfresh, hlive⟩
    | some q => exact ⟨hfresh, hlive⟩
  | krealloc p size =>
    cases p with
    | none =>
      obtain ⟨hfresh, hlive⟩ := liveBlocks_of_allocates hexec
      cases r with
      | none => exact ⟨hfresh, hlive⟩
      | some q => exact ⟨hfresh, hlive⟩
    | some p =>
      obtain ⟨hfresh, hlive⟩ := liveBlocks_of_reallocates hexec
      cases r with
      | none => exact ⟨hfresh, hlive⟩
      | some q => exact ⟨hfresh, hlive⟩
  | kfree p =>
    cases p with
    | none =>
      obtain rfl := hexec
      exact ⟨trivial, rfl⟩
    | some p =>
      obtain ⟨-, rfl⟩ := hexec
      exact ⟨trivial, (liveBlocks_free ..).symm⟩
  | copyFromUser p offset data =>
    cases p with
    | none => exact hexec.elim
    | some p =>
      obtain ⟨old, hold, -, -, ⟨-, rfl⟩ | ⟨-, -, bytes, -, -, rfl⟩⟩ := hexec
      · exact ⟨trivial, (liveBlocks_store hold).symm⟩
      · exact ⟨trivial, (liveBlocks_store hold).symm⟩
  | copyToUser p offset n =>
    obtain ⟨rfl, -⟩ := hexec
    exact ⟨trivial, rfl⟩
  | load p offset =>
    cases p with
    | none => exact hexec.elim
    | some p =>
      obtain ⟨rfl, -⟩ := hexec
      exact ⟨trivial, rfl⟩
  | memset p byte size =>
    cases p with
    | none => exact hexec.elim
    | some p =>
      obtain ⟨old, hold, -, -, rfl⟩ := hexec
      exact ⟨Option.some_ne_none p, (liveBlocks_store hold).symm⟩
  | memcpy dst src size =>
    rcases dst with _ | dst
    · exact hexec.elim
    rcases src with _ | src
    · exact hexec.elim
    obtain ⟨old, bytes, hold, -, -, -, -, rfl⟩ := hexec
    exact ⟨trivial, (liveBlocks_store hold).symm⟩
  | hang => exact hexec.elim
  | _ =>
    obtain rfl := hexec
    exact ⟨trivial, rfl⟩

/-! ### Owners -/

/-- The places that may own a block; `inHand` is a local pointer of `aesd_write`. -/
inductive Owner where
  | ring
  | slot (i : Fin maxWriteOperationsSupported)
  | temp
  | inHand
  deriving DecidableEq

/-- The block that each place owns, with `p` in hand. -/
def AesdDev.owned (dev : AesdDev) (p : Pointer) : Owner → Pointer
  | .ring   => dev.circBufferPtr
  | .slot i => (dev.circBuffer.entry i).buffptr
  | .temp   => if dev.onGoingWrite then dev.tempBuffer else none
  | .inHand => p

/-- The live blocks are those of the device, which has a ring, and the one in hand. -/
structure Owns (dev : AesdDev) (p : Pointer) (live : Set ℕ) : Prop where
  owned : Ownership (dev.owned p) live
  ring : dev.circBufferPtr ≠ none
  temp : dev.onGoingWrite = true → dev.tempBuffer ≠ none

variable {dev : AesdDev} {live : Set ℕ} {p : Pointer}

/-- The temporary buffer of a message under way. -/
lemma Owns.exists_temp (hd : Owns dev p live) (hon : dev.onGoingWrite = true) :
    ∃ q, dev.tempBuffer = some q ∧ dev.owned p .temp = some q := by
  obtain ⟨q, hq⟩ := Option.ne_none_iff_exists'.mp (hd.temp hon)
  exact ⟨q, hq, by simp [AesdDev.owned, hon, hq]⟩

/-- Freeing the temporary buffer ends the message. -/
lemma Owns.free_temp (hd : Owns dev p live) (hon : dev.onGoingWrite = true) :
    blockProtocol.pre live (.kfree dev.tempBuffer) ∧
      ∀ dev' : AesdDev, dev'.onGoingWrite = false → dev'.circBuffer = dev.circBuffer →
        dev'.circBufferPtr = dev.circBufferPtr →
        Owns dev' p (blockProtocol.next live (.kfree dev.tempBuffer) ()) := by
  obtain ⟨q, hq, hown⟩ := hd.exists_temp hon
  rw [hq]
  refine ⟨hd.owned.mem hown, ?_⟩
  intro dev' hoff hbuffer hring
  refine ⟨(hd.owned.release hown).of_eq fun a => ?_, ?_, by simp [hoff]⟩
  · cases a <;> simp [AesdDev.owned, Function.update, hoff, hbuffer, hring]
  · rw [hring]
    exact hd.ring

/-! ### aesd_write -/

/-- What the parts of `aesd_write` before the test for a newline leave. -/
def OwnsBuffer (live : Set ℕ) (res : Bool × AesdDev) : Prop :=
  Owns res.2 none live ∧ (res.1 = true → res.2.onGoingWrite = true)

lemma startWrite_obeys_block (hd : Owns dev none live) :
    (startWrite dev).Obeys blockProtocol live OwnsBuffer := by
  rw [startWrite]
  split_ifs with hon
  · exact ⟨hd, fun _ => hon⟩
  · refine ⟨trivial, fun tempBuffer hfresh => ?_⟩
    rw [Bool.not_eq_true] at hon
    cases tempBuffer with
    | none =>
      refine ⟨⟨?_, hd.ring, ?_⟩, by simp⟩
      · exact hd.owned.of_eq fun a => by cases a <;> simp [AesdDev.owned, hon]
      · simp [hon]
    | some q =>
      refine ⟨⟨?_, hd.ring, by simp⟩, by simp⟩
      have hacquire := hd.owned.acquire (a := .temp) (by simp [AesdDev.owned, hon]) (hfresh q rfl)
      exact hacquire.of_eq fun a => by cases a <;> simp [AesdDev.owned, Function.update]

lemma resizeTempBuffer_obeys_block (hd : Owns dev none live) (hon : dev.onGoingWrite = true)
    (count : ℤ) : (resizeTempBuffer dev count).Obeys blockProtocol live OwnsBuffer := by
  rw [resizeTempBuffer]
  split
  · exact ⟨trivial, fun never _ => never.elim⟩
  · -- the buffer grows, or is large enough
    split_ifs with hgrow
    · obtain ⟨q, hq, hown⟩ := hd.exists_temp hon
      simp only [Prog.perform_bind, Prog.obeys_call]
      refine ⟨?_, fun expandedTempBuffer hfresh => ?_⟩
      · rw [hq]
        exact hd.owned.mem hown
      · rw [hq] at hfresh ⊢
        cases expandedTempBuffer with
        | none =>
          have hfree := hd.free_temp hon
          rw [hq] at hfree
          exact ⟨hfree.1, fun _ _ => ⟨hfree.2 _ rfl rfl rfl, by simp⟩⟩
        | some q' =>
          refine ⟨⟨?_, hd.ring, by simp⟩, fun _ => hon⟩
          refine (hd.owned.replace hown (hfresh q' rfl)).of_eq fun a => ?_
          cases a <;> simp [AesdDev.owned, Function.update, hon]
    · exact ⟨hd, fun _ => hon⟩

lemma copyToTempBuffer_obeys_block (hd : Owns dev none live) (hon : dev.onGoingWrite = true)
    (buf : List Byte) : (copyToTempBuffer dev buf).Obeys blockProtocol live OwnsBuffer := by
  simp only [copyToTempBuffer, Prog.perform_bind, Prog.obeys_call]
  refine ⟨trivial, fun rc _ => ?_⟩
  split_ifs with hrc
  · have hfree := hd.free_temp hon
    exact ⟨hfree.1, fun _ _ => ⟨hfree.2 _ rfl rfl rfl, by simp⟩⟩
  · exact ⟨⟨hd.owned.of_eq fun a => by cases a <;> rfl, hd.ring, hd.temp⟩, fun _ => hon⟩

lemma messageComplete_obeys_block (dev : AesdDev) (live : Set ℕ) :
    (messageComplete dev).Obeys blockProtocol live fun live' _ => live' = live := by
  rw [messageComplete]
  split_ifs with hpos
  · exact ⟨trivial, fun _ _ => rfl⟩
  · rfl

variable {driver driver' driver₀ : Driver} {h h' h₁ : Heap} {attempts : List Attempt}

/-- The new entry goes to its slot, and what the slot owned is in hand. -/
lemma Owns.addCircEntry {q : ℕ} (hd : Owns driver.dev (some q) live) (size : ℤ) :
    Owns { driver.dev with circBuffer := (addCircEntry driver ⟨some q, size⟩).2.2 }
      (addCircEntry driver ⟨some q, size⟩).1 live := by
  rw [Aesd.addCircEntry, if_neg hd.ring]
  refine ⟨?_, hd.ring, hd.temp⟩
  -- the new entry and the one it replaces change places
  have hswap := hd.owned.comp (Equiv.swap (.slot driver.dev.circBuffer.inOffs) .inHand)
  refine hswap.of_eq fun a => ?_
  cases a with
  | slot i =>
    by_cases hi : i = driver.dev.circBuffer.inOffs
    · subst hi
      simp [AesdDev.owned, CircularBuffer.addEntry]
    · rw [Function.comp_apply, Equiv.swap_apply_of_ne_of_ne (by simp [hi]) (by simp)]
      simp [AesdDev.owned, CircularBuffer.addEntry, hi]
  | inHand => simp [AesdDev.owned, CircularBuffer.addEntry]
  | ring =>
    rw [Function.comp_apply, Equiv.swap_apply_of_ne_of_ne (by simp) (by simp)]
    rfl
  | temp =>
    rw [Function.comp_apply, Equiv.swap_apply_of_ne_of_ne (by simp) (by simp)]
    rfl

/-- The block in hand is freed. -/
lemma Owns.free_inHand {q : ℕ} (hd : Owns dev (some q) live) :
    q ∈ live ∧ Owns dev none (live \ {q}) := by
  have hown : dev.owned (some q) .inHand = some q := rfl
  refine ⟨hd.owned.mem hown, (hd.owned.release hown).of_eq fun a => ?_, hd.ring, hd.temp⟩
  cases a <;> simp [AesdDev.owned, Function.update]

lemma addMessage_obeys_block {q : ℕ} (hd : Owns driver.dev (some q) live)
    (hon : driver.dev.onGoingWrite = true) (size : ℤ) :
    (addMessage driver ⟨some q, size⟩).Obeys blockProtocol live fun live' res =>
      Owns res.1.dev none live' := by
  have hadd := hd.addCircEntry size
  simp only [addMessage]
  generalize Aesd.addCircEntry driver ⟨some q, size⟩ = added at hadd ⊢
  obtain ⟨old, filled, circBuffer⟩ := added
  dsimp only at hadd ⊢
  cases old with
  | none =>
    have hfree := hadd.free_temp hon
    exact ⟨hfree.1, fun _ _ => hfree.2 _ rfl rfl rfl⟩
  -- the message that leaves is freed first, then `tempBuffer`
  | some old =>
    obtain ⟨hmem, hfreed⟩ := hadd.free_inHand
    have hfree := hfreed.free_temp hon
    exact ⟨hmem, fun _ _ => ⟨hfree.1, fun _ _ => hfree.2 _ rfl rfl rfl⟩⟩

lemma storeMessage_obeys_block (driver : Driver) (hd : Owns driver.dev none live)
    (hon : driver.dev.onGoingWrite = true) :
    (storeMessage driver).Obeys blockProtocol live fun live' res =>
      Owns res.1.dev none live' := by
  simp only [storeMessage, Prog.perform_bind, Prog.obeys_call]
  refine ⟨trivial, fun buffptr hfresh => ?_⟩
  cases buffptr with
  | none =>
    have hfree := hd.free_temp hon
    exact ⟨hfree.1, fun _ _ => hfree.2 _ rfl rfl rfl⟩
  | some q =>
    simp only [reduceCtorEq, if_false, Prog.obeys_call, Prog.obeys_bind]
    refine ⟨trivial, fun _ _ => ⟨trivial, fun _ _ => ?_⟩⟩
    have hnew : Owns driver.dev (some q) (insert q live) := by
      have hacquire := hd.owned.acquire (a := .inHand) rfl (hfresh q rfl)
      refine ⟨hacquire.of_eq fun a => ?_, hd.ring, hd.temp⟩
      cases a <;> simp [AesdDev.owned, Function.update]
    exact (addMessage_obeys_block hnew hon _).mono fun _ _ hres => hres

/-- Every call keeps the ownership, whatever fails in it. -/
lemma aesdWrite_obeys_block (hd : Owns driver.dev none live) (buf : List Byte) (fPos : ℤ) :
    (aesdWrite driver buf fPos).Obeys blockProtocol live fun live' res =>
      Owns res.driver.dev none live' := by
  refine Prog.obeys_bind.mpr ((startWrite_obeys_block hd).mono ?_)
  rintro live₁ ⟨started, dev₁⟩ ⟨hd₁, hon₁⟩
  cases started with
  | false => exact hd₁
  | true =>
  refine Prog.obeys_bind.mpr ((resizeTempBuffer_obeys_block hd₁ (hon₁ rfl) buf.length).mono ?_)
  rintro live₂ ⟨resized, dev₂⟩ ⟨hd₂, hon₂⟩
  cases resized with
  | false => exact hd₂
  | true =>
  refine Prog.obeys_bind.mpr ((copyToTempBuffer_obeys_block hd₂ (hon₂ rfl) buf).mono ?_)
  rintro live₃ ⟨copied, dev₃⟩ ⟨hd₃, hon₃⟩
  cases copied with
  | false => exact hd₃
  | true =>
  refine Prog.obeys_bind.mpr ((messageComplete_obeys_block dev₃ live₃).mono ?_)
  rintro _ complete rfl
  cases complete with
  | false => exact hd₃
  | true =>
  refine Prog.obeys_bind.mpr ((storeMessage_obeys_block ⟨dev₃, _⟩ hd₃ (hon₃ rfl)).mono ?_)
  rintro live₄ ⟨driver', old⟩ hd₄
  dsimp only
  split_ifs with hold
  · exact hd₄
  · exact hd₄

/-! ### Loading and unloading the module -/

lemma aesdInitModule_obeys_block (driver : Driver) :
    (aesdInitModule driver).Obeys blockProtocol ∅ fun live res =>
      res.1 = 0 → Owns res.2.dev none live := by
  simp only [aesdInitModule, Prog.perform_bind, Prog.obeys_call]
  refine ⟨trivial, fun (result : ℤ) _ => ?_⟩
  split_ifs with hresult
  · intro hzero
    exact absurd hzero hresult.ne
  refine ⟨trivial, fun circBufferPtr hfresh => ⟨trivial, fun _ hset => ⟨trivial, ?_⟩⟩⟩
  intro (result : ℤ) _
  obtain ⟨q, rfl⟩ := Option.ne_none_iff_exists'.mp hset
  dsimp only
  split_ifs with hfailed
  · -- `cdev_add` has failed, and nothing is claimed
    refine ⟨trivial, fun _ _ => ⟨Set.mem_insert q ∅, fun _ _ hzero => ?_⟩⟩
    exact absurd hzero hfailed
  · intro _
    have hacquire := Ownership.empty.acquire (a := Owner.ring) rfl (hfresh q rfl)
    refine ⟨hacquire.of_eq fun a => ?_, Option.some_ne_none q, by simp⟩
    cases a <;> simp [AesdDev.owned, Function.update, CircularBuffer.init, BufferEntry.zero]

/-- The loop gives back the blocks of the slots it goes over. -/
lemma freeEntries_obeys_block (dev : AesdDev) (slots : List (Fin maxWriteOperationsSupported))
    (buffer : CircularBuffer)
    (hd : Ownership ({ dev with circBuffer := buffer }.owned none) live) :
    (freeEntries slots buffer).Obeys blockProtocol live fun live' buffer' =>
      Ownership ({ dev with circBuffer := buffer' }.owned none) live' ∧
        ∀ i, i ∈ slots ∨ (buffer.entry i).buffptr = none → (buffer'.entry i).buffptr = none := by
  induction slots generalizing buffer live with
  | nil => exact ⟨hd, by simp⟩
  | cons i rest ih =>
    rw [freeEntries]
    -- a slot in use is freed and emptied
    split_ifs with hused
    · obtain ⟨q, hq⟩ := Option.ne_none_iff_exists'.mp hused
      rw [hq]
      have hown : { dev with circBuffer := buffer }.owned none (.slot i) = some q := hq
      refine ⟨hd.mem hown, fun _ _ => ?_⟩
      refine (ih _ ((hd.release hown).of_eq fun a => ?_)).mono ?_
      · cases a with
        | slot j =>
          by_cases hj : j = i
          · subst hj
            simp [AesdDev.owned]
          · simp [AesdDev.owned, hj]
        | _ => simp [AesdDev.owned]
      · rintro live' buffer' ⟨hd', hfreed⟩
        refine ⟨hd', fun j hj => hfreed j ?_⟩
        by_cases hji : j = i
        · subst hji
          simp
        · simpa [hji] using hj
    · -- an unused slot is passed
      refine (ih buffer hd).mono ?_
      rintro live' buffer' ⟨hd', hfreed⟩
      refine ⟨hd', fun j hj => hfreed j ?_⟩
      rw [not_not] at hused
      rcases hj with hj | hj
      · rcases List.mem_cons.mp hj with rfl | hj
        · exact Or.inr hused
        · exact Or.inl hj
      · exact Or.inr hj

/-- Only the temporary buffer of a message under way is left. -/
lemma aesdCleanupModule_obeys_block (hd : Owns driver.dev none live) :
    (aesdCleanupModule driver).Obeys blockProtocol live fun live' _ =>
      ∀ p, p ∈ live' ↔ driver.dev.onGoingWrite = true ∧ driver.dev.tempBuffer = some p := by
  simp only [aesdCleanupModule, Prog.perform_bind, Prog.obeys_call]
  refine ⟨trivial, fun _ _ => ?_⟩
  refine Prog.obeys_bind.mpr ((freeEntries_obeys_block driver.dev _ _ hd.owned).mono ?_)
  rintro live₁ buffer ⟨hd₁, hfreed⟩
  obtain ⟨q, hq⟩ := Option.ne_none_iff_exists'.mp hd.ring
  rw [hq]
  have hown : { driver.dev with circBuffer := buffer }.owned none .ring = some q := hq
  refine ⟨hd₁.mem hown, fun _ _ => ⟨trivial, fun _ _ p => ?_⟩⟩
  refine ((hd₁.release hown).mem_iff p).trans ?_
  constructor
  · rintro ⟨a, ha⟩
    cases a with
    | temp => simpa [AesdDev.owned] using ha
    | slot i => simp [AesdDev.owned, hfreed i (Or.inl (List.mem_finRange i))] at ha
    | ring => simp at ha
    | inHand => simp [AesdDev.owned] at ha
  · rintro ⟨hon, htemp⟩
    exact ⟨.temp, by simp [AesdDev.owned, hon, htemp]⟩

/-- Unloading calls nothing else. -/
def Unloads : KernelOp → Prop
  | .kfree _                => True
  | .cdevDel                => True
  | .unregisterChrdevRegion => True
  | _                       => False

lemma only_freeEntries (slots : List (Fin maxWriteOperationsSupported)) (buffer : CircularBuffer) :
    (freeEntries slots buffer).Only Unloads := by
  induction slots generalizing buffer with
  | nil => trivial
  | cons i rest ih =>
    rw [freeEntries]
    split_ifs with hused
    · exact ⟨trivial, fun _ => ih _⟩
    · exact ih buffer

lemma only_aesdCleanupModule (driver : Driver) : (aesdCleanupModule driver).Only Unloads :=
  ⟨trivial, fun _ => (only_freeEntries _ _).bind fun _ => ⟨trivial, fun _ => ⟨trivial, fun _ =>
    trivial⟩⟩⟩

/-- These calls are answered if what is freed is live. -/
lemma exists_unload_answer (h : Heap) (live : Set ℕ) (op : KernelOp) (hop : Unloads op)
    (hlive : live = liveBlocks h) (hpre : blockProtocol.pre live op) :
    ∃ r h', kernelExec op h r h' := by
  cases op with
  | kfree p =>
    cases p with
    | none => exact ⟨(), h, rfl⟩
    | some p =>
      subst hlive
      exact ⟨(), _, hpre, rfl⟩
  | cdevDel => exact ⟨(), h, rfl⟩
  | unregisterChrdevRegion => exact ⟨(), h, rfl⟩
  | _ => exact hop.elim

/-! ### The life of the module -/

/-- The live blocks are the ring, the buffers of its slots, and the temporary buffer while a
message is under way. -/
def LiveExactly (driver : Driver) (h : Heap) : Prop :=
  ∀ p, h p ≠ none ↔ driver.dev.circBufferPtr = some p ∨
    (∃ i, (driver.dev.circBuffer.entry i).buffptr = some p) ∨
    (driver.dev.onGoingWrite = true ∧ driver.dev.tempBuffer = some p)

/-- No run of the program frees a block that is not live. -/
def FreesLive {α : Type} (prog : Kernel α) (h : Heap) : Prop :=
  ∀ p h', prog.Calls kernelExec h (.kfree (some p)) h' → h' p ≠ none

lemma Owns.liveExactly (hd : Owns driver.dev none (liveBlocks h)) : LiveExactly driver h := by
  intro p
  refine (hd.owned.mem_iff p).trans ?_
  constructor
  · rintro ⟨a, ha⟩
    cases a with
    | ring => exact Or.inl ha
    | slot i => exact Or.inr (Or.inl ⟨i, ha⟩)
    | temp =>
      right
      right
      simpa [AesdDev.owned] using ha
    | inHand => cases ha
  · rintro (hring | ⟨i, hslot⟩ | ⟨hon, htemp⟩)
    · exact ⟨.ring, hring⟩
    · exact ⟨.slot i, hslot⟩
    · exact ⟨.temp, by simp [AesdDev.owned, hon, htemp]⟩

lemma freesLive_of_obeys {α : Type} {prog : Kernel α} {Q : Set ℕ → α → Prop}
    (hprog : prog.Obeys blockProtocol (liveBlocks h) Q) : FreesLive prog h := by
  intro p h' hcalls
  obtain ⟨live, rfl, hpre⟩ := hprog.calls blockProtocol_step rfl hcalls
  exact hpre

lemma liveBlocks_empty : liveBlocks (fun _ => none) = ∅ := by
  simp [liveBlocks]

/-- A module that has just been loaded owns its ring. -/
lemma owns_of_init (hinit : (aesdInitModule {}).Eval kernelExec (fun _ => none) (0, driver) h) :
    Owns driver.dev none (liveBlocks h) := by
  obtain ⟨live, rfl, hd⟩ :=
    (aesdInitModule_obeys_block {}).eval blockProtocol_step liveBlocks_empty.symm hinit
  exact hd rfl

/-- The run lemma: between calls each live block has its owner. -/
lemma WriteAttempts.owns (run : WriteAttempts driver₀ h₁ attempts driver h)
    (hd : Owns driver₀.dev none (liveBlocks h₁)) : Owns driver.dev none (liveBlocks h) := by
  induction run with
  | nil => exact hd
  | write run heval ih =>
    obtain ⟨live, rfl, hd'⟩ := (aesdWrite_obeys_block ih _ _).eval blockProtocol_step rfl heval
    exact hd'

/-- What unloading leaves. -/
lemma aesdCleanupModule_eval (hd : Owns driver.dev none (liveBlocks h))
    (heval : (aesdCleanupModule driver).Eval kernelExec h driver' h') (p : ℕ) :
    h' p ≠ none ↔ driver.dev.onGoingWrite = true ∧ driver.dev.tempBuffer = some p := by
  obtain ⟨live, rfl, hleft⟩ :=
    (aesdCleanupModule_obeys_block hd).eval blockProtocol_step rfl heval
  exact hleft p

/-- No block is freed twice, the live blocks are exactly those the driver has, and unloading leaves
none, if and only if no message is under way when the module is unloaded. -/
theorem unload_frees_all_iff
    (hinit : (aesdInitModule {}).Eval kernelExec (fun _ => none) (0, driver₀) h₁)
    (run : WriteAttempts driver₀ h₁ attempts driver h) :
    (FreesLive (aesdInitModule {}) (fun _ => none) ∧
      (∀ before after driver' h', WriteAttempts driver₀ h₁ before driver' h' →
        WriteAttempts driver' h' after driver h →
        LiveExactly driver' h' ∧ ∀ buf fPos, FreesLive (aesdWrite driver' buf fPos) h') ∧
      FreesLive (aesdCleanupModule driver) h ∧
      (∃ driver' h', (aesdCleanupModule driver).Eval kernelExec h driver' h') ∧
      ∀ driver' h', (aesdCleanupModule driver).Eval kernelExec h driver' h' → ∀ p, h' p = none) ↔
    driver.dev.onGoingWrite = false := by
  have hinit' := owns_of_init hinit
  have hd := run.owns hinit'
  have hcleanup := aesdCleanupModule_obeys_block hd
  have hreturns := hcleanup.exists_eval blockProtocol_step
    (fun h live op => exists_unload_answer h live op) (only_aesdCleanupModule driver) rfl
  constructor
  · -- if a message is pending its buffer stays
    rintro ⟨-, -, -, -, hnone⟩
    by_contra hon
    rw [Bool.not_eq_false] at hon
    obtain ⟨q, hq, -⟩ := hd.exists_temp hon
    obtain ⟨driver', h', heval⟩ := hreturns
    exact (aesdCleanupModule_eval hd heval q).mpr ⟨hon, hq⟩ (hnone driver' h' heval q)
  · -- nothing is pending, so nothing stays
    intro hoff
    refine ⟨?_, ?_, freesLive_of_obeys hcleanup, hreturns, ?_⟩
    · have hprog := aesdInitModule_obeys_block {}
      rw [← liveBlocks_empty] at hprog
      exact freesLive_of_obeys hprog
    · intro before after driver' h' run' _
      have hd' := run'.owns hinit'
      refine ⟨hd'.liveExactly, fun buf fPos => ?_⟩
      exact freesLive_of_obeys (aesdWrite_obeys_block hd' buf fPos)
    · intro driver' h' heval p
      by_contra hlive
      have hon := ((aesdCleanupModule_eval hd heval p).mp hlive).1
      rw [hoff] at hon
      cases hon

/-- A message is written to the device and the module is unloaded. -/
theorem unload_frees_all_iff_line : ∃ driver₀ h₁ driver h,
    (aesdInitModule {}).Eval kernelExec (fun _ => none) (0, driver₀) h₁ ∧
      WriteAttempts driver₀ h₁ [⟨[97, 10], true⟩] driver h ∧
      driver.dev.onGoingWrite = false ∧
      ∀ driver' h', (aesdCleanupModule driver).Eval kernelExec h driver' h' → ∀ p, h' p = none := by
  obtain ⟨block, hinit⟩ := exists_aesdInitModule (h := fun _ => none) (p := 0) rfl
  have hwrite := Prog.eval_of_run (s := Function.update (fun _ => none) 0 (some block))
    (p := aesdWrite ⟨{ circBufferPtr := some 0 }, false⟩ [97, 10] 0) kernelExec_of_respond
    [some 1, some 0, some 0, some 2, some 0, some 0, some 0] rfl
  have run := WriteAttempts.write .nil hwrite
  exact ⟨_, _, _, _, hinit, run, rfl, ((unload_frees_all_iff hinit run).mpr rfl).2.2.2.2⟩

/-- One byte is written, and the module is unloaded before the rest of the message: the temporary
buffer stays allocated. -/
theorem unload_leaks_temp_buffer : ∃ driver₀ h₁ driver h driver' h',
    (aesdInitModule {}).Eval kernelExec (fun _ => none) (0, driver₀) h₁ ∧
      WriteAttempts driver₀ h₁ [⟨[97], true⟩] driver h ∧
      (aesdCleanupModule driver).Eval kernelExec h driver' h' ∧ h' 1 ≠ none := by
  obtain ⟨block, hinit⟩ := exists_aesdInitModule (h := fun _ => none) (p := 0) rfl
  have hwrite := Prog.eval_of_run (s := Function.update (fun _ => none) 0 (some block))
    (p := aesdWrite ⟨{ circBufferPtr := some 0 }, false⟩ [97] 0) kernelExec_of_respond
    [some 1, some 0, some 0] rfl
  refine ⟨_, _, _, _, _, _, hinit, .write .nil hwrite,
    Prog.eval_of_run kernelExec_of_respond [some 0, some 0, some 0] rfl, ?_⟩
  exact Option.some_ne_none _

end Aesd
