import Aesd.Driver.Contents

/-!
# Writes that fail

A call of `aesd_write` fails if one of its three allocations or the copy from the user does. Every
failure exit frees the temporary buffer and ends the message under way: the position and the
circular buffer stay as they were, the bytes collected before are given up. What is stored later is
what would be stored if neither the call that failed nor the earlier ones of that message had been
made (`failed_write_discards`).
-/

namespace Aesd

open Effect CInt Bytes

/-! ### Calls that may fail -/

/-- One call of `aesd_write`: the bytes it was given and whether it succeeded. -/
structure Attempt where
  buf : List Byte
  succeeded : Bool

/-- A call that succeeds. -/
def Attempt.success (buf : List Byte) : Attempt := ⟨buf, true⟩

/-- The messages so far and the unfinished one after one more call. A failure gives up the
unfinished message. -/
def addAttempt (x : List (List Byte) × List Byte) (a : Attempt) : List (List Byte) × List Byte :=
  if a.succeeded then addChunk newline x a.buf else (x.1, [])

/-- The messages that calls complete, and the one they leave unfinished. -/
def outcome (attempts : List Attempt) : List (List Byte) × List Byte :=
  attempts.foldl addAttempt ([], [])

lemma outcome_concat (attempts : List Attempt) (a : Attempt) :
    outcome (attempts ++ [a]) = addAttempt (outcome attempts) a :=
  List.foldl_concat ..

/-- Successful calls add to what is there. -/
lemma outcome_append_success (attempts : List Attempt) (chunks : List (List Byte)) :
    outcome (attempts ++ chunks.map .success) =
      chunks.foldl (addChunk newline) (outcome attempts) := by
  rw [outcome, List.foldl_append, List.foldl_map]
  rfl

/-- The calls of the unfinished message are the last ones, and leaving them out leaves exactly the
messages that are complete. -/
lemma exists_unfinished (attempts : List Attempt) :
    ∃ (kept : List Attempt) (unfinished : List (List Byte)),
    attempts = kept ++ unfinished.map .success ∧ outcome kept = ((outcome attempts).1, []) ∧
      unfinished.flatten = (outcome attempts).2 := by
  induction attempts using List.reverseRecOn with
  | nil => exact ⟨[], [], rfl, rfl, rfl⟩
  | append_singleton attempts a ih =>
    obtain ⟨buf, succeeded⟩ := a
    rw [outcome_concat, addAttempt]
    have hsettled : ∀ ms, outcome (attempts ++ [⟨buf, succeeded⟩]) = (ms, []) →
        ∃ (kept : List Attempt) (unfinished : List (List Byte)),
          attempts ++ [⟨buf, succeeded⟩] = kept ++ unfinished.map .success ∧
          outcome kept = (ms, []) ∧ unfinished.flatten = [] := by
      intro ms hms
      exact ⟨_, [], by simp, hms, rfl⟩
    cases succeeded with
    | false => exact hsettled _ (outcome_concat ..)
    | true =>
      rw [if_pos rfl, addChunk]
      by_cases hcomplete : ((outcome attempts).2 ++ buf).getLast? = some newline
      · rw [if_pos hcomplete]
        apply hsettled
        rw [outcome_concat, addAttempt, if_pos rfl, addChunk, if_pos hcomplete]
      · rw [if_neg hcomplete]
        obtain ⟨kept, unfinished, rfl, hkept, hflatten⟩ := ih
        refine ⟨kept, unfinished ++ [buf], by simp [Attempt.success], hkept, ?_⟩
        rw [List.flatten_concat, hflatten]

/-- Calls of `aesd_write`, each at any file position, lead from one state of the driver to
another. -/
inductive WriteAttempts (driver₀ : Driver) (h₀ : Heap) :
    List Attempt → Driver → Heap → Prop where
  | nil : WriteAttempts driver₀ h₀ [] driver₀ h₀
  | write {attempts : List Attempt} {driver : Driver} {h h' : Heap} {buf : List Byte} {fPos : ℤ}
      {res : WriteResult} (run : WriteAttempts driver₀ h₀ attempts driver h)
      (heval : (aesdWrite driver buf fPos).Eval kernelExec h res h') :
      WriteAttempts driver₀ h₀ (attempts ++ [⟨buf, decide (0 ≤ res.retval)⟩]) res.driver h'

variable {driver driver' driver₀ : Driver} {h h' h₀ : Heap} {attempts : List Attempt}
  {hist hist' : History} {r r' : List Byte}

/-- The run lemma: the device holds what the calls have completed. -/
lemma WriteAttempts.refines (hinit : Refines driver₀ h₀ [] [])
    (run : WriteAttempts driver₀ h₀ attempts driver h) :
    ∃ hist, hist.map Prod.snd = (outcome attempts).1 ∧
      Refines driver h hist (outcome attempts).2 := by
  induction run with
  | nil => exact ⟨[], rfl, hinit⟩
  | write run heval ih =>
    obtain ⟨hist, hmap, hrefines⟩ := ih
    rw [outcome_concat, addAttempt]
    cases aesdWrite_written hrefines heval with
    | failed hretval _ _ hrefines' =>
      rw [decide_eq_false (not_le.mpr hretval), if_neg Bool.false_ne_true]
      exact ⟨hist, hmap, hrefines'⟩
    | added hretval hincomplete _ hrefines' =>
      rw [decide_eq_true (by omega), if_pos rfl, addChunk, if_neg hincomplete]
      exact ⟨hist, hmap, hrefines'⟩
    | completed hretval hcomplete hcommits =>
      rw [decide_eq_true (by omega), if_pos rfl, addChunk, if_pos hcomplete]
      obtain ⟨p, hrefines'⟩ := hcommits.refines
      refine ⟨_, ?_, hrefines'⟩
      rw [List.map_append, hmap]
      rfl

lemma WriteAttempts.append_writes {chunks : List (List Byte)}
    (run : WriteAttempts driver₀ h₀ attempts driver h)
    (after : DeviceWrites driver h chunks driver' h') :
    WriteAttempts driver₀ h₀ (attempts ++ chunks.map .success) driver' h' := by
  induction after with
  | nil => simpa using run
  | write _ heval hok ih =>
    have step := ih.write heval
    rw [decide_eq_true hok] at step
    simpa [Attempt.success] using step

/-! ### What stays as it was -/

/-- Two rings that have the same messages in the same slots, in any memory. -/
structure SameRing (driver : Driver) (h : Heap) (driver' : Driver) (h' : Heap) : Prop where
  inOffs : driver.dev.circBuffer.inOffs = driver'.dev.circBuffer.inOffs
  outOffs : driver.dev.circBuffer.outOffs = driver'.dev.circBuffer.outOffs
  filled : driver.hasBufferBeenFilled = driver'.hasBufferBeenFilled
  messages : storedMessages driver.dev.circBuffer h = storedMessages driver'.dev.circBuffer h'

/-- The messages stored so far determine the ring. -/
lemma Refines.sameRing (hd : Refines driver h hist r) (hd' : Refines driver' h' hist' r')
    (hmap : hist.map Prod.snd = hist'.map Prod.snd) : SameRing driver h driver' h' := by
  have hlength : hist.length = hist'.length := by simpa using congrArg List.length hmap
  have hlength' : (hist.map entryOf).length = (hist'.map entryOf).length := by simpa using hlength
  refine ⟨?_, ?_, ?_, ?_⟩
  · exact hd.ring.inOffs.trans (by rw [hlength']; exact hd'.ring.inOffs.symm)
  · exact hd.ring.outOffs.trans (by rw [hlength']; exact hd'.ring.outOffs.symm)
  · exact hd.ring.filled.trans (by rw [hlength']; exact hd'.ring.filled.symm)
  · rw [hd.holds.storedMessages_eq, hd'.holds.storedMessages_eq, hmap, hlength]

/-- With the same blocks the entries are the same too. -/
lemma Refines.circBuffer_eq (hd : Refines driver h hist r) (hd' : Refines driver' h' hist r') :
    driver'.dev.circBuffer = driver.dev.circBuffer := by
  have hring := hd'.ring.unique hd.ring
  simp only [CircularBuffer.ring, RingBuffer.mk.injEq] at hring
  obtain ⟨hentry, hin, hout, -⟩ := hring
  cases hb : driver.dev.circBuffer
  cases hb' : driver'.dev.circBuffer
  rw [hb, hb'] at hentry hin hout
  congr

/-! ### Failure of a call -/

/-- The allocation or the copy has failed. -/
def Failed : Prog.Answered KernelOp KernelAnswer → Bool
  | ⟨.kmalloc _, r⟩          => decide (r = none)
  | ⟨.krealloc _ _, r⟩       => decide (r = none)
  | ⟨.copyFromUser _ _ _, r⟩ => decide (r ≠ 0)
  | _                        => false

/-- The ghost state says whether anything has failed. A copy leaves at most what it was to copy. -/
def failureProtocol : Protocol KernelOp KernelAnswer Bool where
  pre _ _ := True
  post
    | _, .copyFromUser _ _ data, r => 0 ≤ r ∧ r ≤ data.length
    | _, _, _                      => True
  next g op r := g || Failed ⟨op, r⟩

lemma failureProtocol_after (tr : List (Prog.Answered KernelOp KernelAnswer)) (g : Bool) :
    failureProtocol.after g tr = (g || tr.any Failed) := by
  induction tr generalizing g with
  | nil => simp [Protocol.after]
  | cons e tr ih =>
    rw [List.any_cons, ← Bool.or_assoc]
    exact ih _

lemma failureProtocol_post (g : Bool) (op : KernelOp) (r : KernelAnswer op) (h h' : Heap)
    (hexec : kernelExec op h r h') : failureProtocol.post g op r := by
  cases op with
  | copyFromUser p offset data =>
    cases p with
    | none => exact hexec.elim
    | some p =>
      obtain ⟨old, -, -, -, ⟨rfl, -⟩ | ⟨hpos, hle, -⟩⟩ := hexec
      · exact ⟨le_rfl, Nat.cast_nonneg _⟩
      · exact ⟨hpos.le, hle⟩
  | _ => trivial

lemma startWrite_obeys_failure (dev : AesdDev) :
    (startWrite dev).Obeys failureProtocol false fun g res => g = !res.1 := by
  rw [startWrite]
  split_ifs with hon
  · rfl
  · refine ⟨trivial, fun tempBuffer _ => ?_⟩
    cases tempBuffer with
    | none => rfl
    | some p => rfl

lemma resizeTempBuffer_obeys_failure (dev : AesdDev) (count : ℤ) :
    (resizeTempBuffer dev count).Obeys failureProtocol false fun g res => g = !res.1 := by
  rw [resizeTempBuffer]
  split
  · exact ⟨trivial, fun never _ => never.elim⟩
  · split_ifs with hgrow
    · refine ⟨trivial, fun expandedTempBuffer _ => ?_⟩
      cases expandedTempBuffer with
      | none => exact ⟨trivial, fun _ _ => rfl⟩
      | some p => rfl
    · rfl

lemma copyToTempBuffer_obeys_failure (dev : AesdDev) {buf : List Byte}
    (hsmall : buf.length < 2 ^ 31) :
    (copyToTempBuffer dev buf).Obeys failureProtocol false fun g res => g = !res.1 := by
  simp only [copyToTempBuffer, Prog.perform_bind, Prog.obeys_call]
  refine ⟨trivial, fun (rc : ℤ) hrc => ?_⟩
  obtain ⟨hnonneg, hle⟩ : 0 ≤ rc ∧ rc ≤ buf.length := hrc
  rw [toI32_of_range (by omega) (by omega)]
  split_ifs with hzero
  · have hfailed : failureProtocol.next false
        (.copyFromUser dev.tempBuffer dev.tempBufferIndex buf) rc = true := decide_eq_true hzero
    rw [hfailed]
    exact ⟨trivial, fun _ _ => rfl⟩
  · exact decide_eq_false hzero

lemma messageComplete_obeys_failure (dev : AesdDev) :
    (messageComplete dev).Obeys failureProtocol false fun g _ => g = false := by
  rw [messageComplete]
  split_ifs with hpos
  · exact ⟨trivial, fun _ _ => rfl⟩
  · rfl

lemma storeMessage_obeys_failure (driver : Driver) :
    (storeMessage driver).Obeys failureProtocol false fun g res => g = true → res.2 = none := by
  simp only [storeMessage, Prog.perform_bind, Prog.obeys_call]
  refine ⟨trivial, fun buffptr _ => ?_⟩
  cases buffptr with
  | none => exact ⟨trivial, fun _ _ _ => rfl⟩
  | some p =>
    simp only [reduceCtorEq, if_false, Prog.obeys_call, Prog.obeys_bind]
    refine ⟨trivial, fun _ _ => ⟨trivial, fun _ _ => ?_⟩⟩
    have hadd : (addMessage driver ⟨some p, toU64 driver.dev.tempBufferIndex⟩).Obeys
        failureProtocol false fun g _ => g = false := by
      simp only [addMessage]
      generalize addCircEntry driver _ = added
      obtain ⟨old, filled, circBuffer⟩ := added
      dsimp only
      split_ifs with hold
      · exact ⟨trivial, fun _ _ => ⟨trivial, fun _ _ => rfl⟩⟩
      · exact ⟨trivial, fun _ _ => rfl⟩
    refine hadd.mono fun g _ hg => ?_
    rw [hg]
    simp

/-- Whatever fails, the call returns an error. -/
lemma aesdWrite_obeys_failure (driver : Driver) (buf : List Byte) (fPos : ℤ)
    (hsmall : buf.length < 2 ^ 31) :
    (aesdWrite driver buf fPos).Obeys failureProtocol false fun g res =>
      g = true → res.retval < 0 := by
  refine Prog.obeys_bind.mpr ((startWrite_obeys_failure driver.dev).mono ?_)
  rintro g ⟨started, dev₁⟩ rfl
  cases started with
  | false => exact fun _ => neg_ENOMEM
  | true =>
  refine Prog.obeys_bind.mpr ((resizeTempBuffer_obeys_failure dev₁ buf.length).mono ?_)
  rintro g ⟨resized, dev₂⟩ rfl
  cases resized with
  | false => exact fun _ => neg_ENOMEM
  | true =>
  refine Prog.obeys_bind.mpr ((copyToTempBuffer_obeys_failure dev₂ hsmall).mono ?_)
  rintro g ⟨copied, dev₃⟩ rfl
  cases copied with
  | false => exact fun _ => neg_EFAULT
  | true =>
  refine Prog.obeys_bind.mpr ((messageComplete_obeys_failure dev₃).mono ?_)
  rintro g complete rfl
  cases complete with
  | false => simp
  | true =>
  refine Prog.obeys_bind.mpr ((storeMessage_obeys_failure _).mono ?_)
  rintro g ⟨driver', old⟩ hg
  by_cases hold : old = none
  · subst hold
    exact fun _ => neg_ENOMEM
  · simp only [hold, if_false]
    intro hfailed
    exact absurd (hg hfailed) hold

/-! ### Runs with and without the call that failed -/

lemma Refines.pending_length_le (hd : Refines driver h hist r) : r.length ≤ 2 ^ 30 := by
  cases hon : driver.dev.onGoingWrite with
  | true =>
    obtain ⟨q, bytes, hp⟩ := hd.pending hon
    exact hp.collected.length_le.trans hp.small
  | false =>
    rw [hd.idle hon]
    simp

lemma PendingBytes.unique {dev : AesdDev} (hr : PendingBytes dev h r)
    (hr' : PendingBytes dev h r') : r = r' := by
  rw [PendingBytes] at hr hr'
  split_ifs at hr hr' with hon
  · obtain ⟨q, bytes, hq, hbytes, hlength, htake⟩ := hr
    obtain ⟨q', bytes', hq', hbytes', hlength', htake'⟩ := hr'
    obtain rfl : q = q' := Option.some_inj.mp (hq.symm.trans hq')
    obtain rfl : bytes = bytes' := Option.some_inj.mp (hbytes.symm.trans hbytes')
    rw [htake, htake', show r.length = r'.length by omega]
  · exact hr.trans hr'.symm

/-- A call in which something fails is one that loses the unfinished message. -/
lemma aesdWrite_failed {buf : List Byte} {fPos : ℤ} {res : WriteResult}
    {tr : List (Prog.Answered KernelOp KernelAnswer)} (hd : Refines driver h hist r)
    (htrace : (aesdWrite driver buf fPos).EvalTrace kernelExec h tr res h')
    (hfail : ∃ e ∈ tr, Failed e = true) :
    res.retval < 0 ∧ res.fPos = fPos ∧ Refines res.driver h' hist [] := by
  have herror : buf.length < 2 ^ 31 → res.retval < 0 := by
    intro hsmall
    -- the protocol records that a call to the kernel has failed
    apply ((aesdWrite_obeys_failure driver buf fPos hsmall).evalTrace (I := fun _ _ => True)
      (fun _ _ _ _ _ _ _ hexec => ⟨failureProtocol_post _ _ _ _ _ hexec, trivial⟩) trivial
      htrace).2
    rw [failureProtocol_after, Bool.false_or, List.any_eq_true]
    exact hfail
  cases aesdWrite_written hd htrace.eval with
  | failed hretval hfPos _ hrefines' => exact ⟨hretval, hfPos, hrefines'⟩
  | added hretval _ _ hrefines' =>
    have hlength := hrefines'.pending_length_le
    rw [List.length_append] at hlength
    have := herror (by omega)
    omega
  | completed hretval _ hcommits =>
    obtain ⟨p, hrefines'⟩ := hcommits.refines
    have hlength := hrefines'.stores.small _ (List.mem_concat_self)
    rw [List.length_append] at hlength
    have := herror (by omega)
    omega

/-- A call in which an allocation or the copy fails returns an error, leaves the position and the
ring, and gives up the unfinished message. Whatever is written afterwards, the ring is the one of a
run without that call and without the earlier calls of the unfinished message. -/
theorem failed_write_discards {h₁ : Heap} {buf : List Byte} {fPos : ℤ} {res : WriteResult}
    {tr : List (Prog.Answered KernelOp KernelAnswer)}
    (hinit : (aesdInitModule {}).Eval kernelExec h₀ (0, driver₀) h₁)
    (run : WriteAttempts driver₀ h₁ attempts driver h)
    (htrace : (aesdWrite driver buf fPos).EvalTrace kernelExec h tr res h')
    (hfail : ∃ e ∈ tr, Failed e = true) :
    res.retval < 0 ∧ res.fPos = fPos ∧
      res.driver.dev.circBuffer = driver.dev.circBuffer ∧ SameRing driver h res.driver h' ∧
      PendingBytes res.driver.dev h' [] ∧
      ∃ (kept : List Attempt) (unfinished : List (List Byte)),
        attempts = kept ++ unfinished.map .success ∧
        PendingBytes driver.dev h unfinished.flatten ∧
        ∀ chunks driver₂ h₂, DeviceWrites res.driver h' chunks driver₂ h₂ →
          ∀ h₀' driver₀' h₁' driver₃ h₃,
            (aesdInitModule {}).Eval kernelExec h₀' (0, driver₀') h₁' →
            WriteAttempts driver₀' h₁' (kept ++ chunks.map .success) driver₃ h₃ →
            SameRing driver₂ h₂ driver₃ h₃ := by
  obtain ⟨hist, hmap, hrefines⟩ := run.refines (aesdInitModule_refines rfl hinit)
  obtain ⟨hretval, hfPos, hrefines'⟩ := aesdWrite_failed hrefines htrace hfail
  have run' := run.write htrace.eval
  rw [decide_eq_false (not_le.mpr hretval)] at run'
  obtain ⟨kept, unfinished, hsplit, hkept, hflatten⟩ := exists_unfinished attempts
  refine ⟨hretval, hfPos, hrefines.circBuffer_eq hrefines', hrefines.sameRing hrefines' rfl,
    hrefines'.pendingBytes, kept, unfinished, hsplit, ?_, ?_⟩
  · rw [hflatten]
    exact hrefines.pendingBytes
  · intro chunks driver₂ h₂ after h₀' driver₀' h₁' driver₃ h₃ hinit' run₃
    obtain ⟨hist₂, hmap₂, hrefines₂⟩ :=
      (run'.append_writes after).refines (aesdInitModule_refines rfl hinit)
    obtain ⟨hist₃, hmap₃, hrefines₃⟩ := run₃.refines (aesdInitModule_refines rfl hinit')
    apply hrefines₂.sameRing hrefines₃
    rw [hmap₂, hmap₃, outcome_append_success, outcome_append_success, outcome_concat, hkept]
    rfl

/-- One message is complete and one byte of the next is written when the allocation for its entry
fails. What is written then is stored after the first message, as if that byte had never been. -/
theorem failed_write_discards_pending : ∃ driver₀ h₁ driver h tr res h' driver₂ h₂ driver₃ h₃,
    (aesdInitModule {}).Eval kernelExec (fun _ => none) (0, driver₀) h₁ ∧
      WriteAttempts driver₀ h₁ [.success [97, 10], .success [98]] driver h ∧
      PendingBytes driver.dev h [98] ∧
      (aesdWrite driver [10] 3).EvalTrace kernelExec h tr res h' ∧ res.retval < 0 ∧ res.fPos = 3 ∧
      res.driver.dev.circBuffer = driver.dev.circBuffer ∧ PendingBytes res.driver.dev h' [] ∧
      DeviceWrites res.driver h' [[99, 10]] driver₂ h₂ ∧
      WriteAttempts driver₀ h₁ [.success [97, 10], .success [99, 10]] driver₃ h₃ ∧
      SameRing driver₂ h₂ driver₃ h₃ ∧
      storedMessages driver₂.dev.circBuffer h₂ = [[97, 10], [99, 10]] := by
  obtain ⟨block, hinit⟩ := exists_aesdInitModule (h := fun _ => none) (p := 0) rfl
  have hfirst := Prog.eval_of_run (s := Function.update (fun _ => none) 0 (some block))
    (p := aesdWrite ⟨{ circBufferPtr := some 0 }, false⟩ [97, 10] 0) kernelExec_of_respond
    [some 1, some 0, some 0, some 2, some 0, some 0, some 0] rfl
  have first := DeviceWrites.write .nil hfirst (by decide)
  have run := WriteAttempts.append_writes .nil (first.write
    (Prog.eval_of_run (p := aesdWrite _ [98] 2) kernelExec_of_respond
      [some 3, some 0, some 0] rfl) (by decide))
  have without := WriteAttempts.append_writes .nil (first.write
    (Prog.eval_of_run (p := aesdWrite _ [99, 10] 2) kernelExec_of_respond
      [some 3, some 0, some 0, some 4, some 0, some 0, some 0] rfl) (by decide))
  -- the copy succeeds, the allocation for the entry does not
  obtain ⟨hretval, hfPos, hring, -, hpending', kept, unfinished, hsplit, hpending, hsame⟩ :=
    failed_write_discards hinit run (Prog.evalTrace_of_run (p := aesdWrite _ [10] 3)
      kernelExec_of_respond [some 0, some 0, none, some 0] rfl) (List.any_eq_true.mp rfl)
  have hflatten : unfinished.flatten = [98] := hpending.unique ⟨3, _, rfl, rfl, rfl, rfl⟩
  -- of the calls so far, only the last belongs to the unfinished message
  obtain rfl : kept = [.success [97, 10]] := by
    rcases kept with _ | ⟨a, _ | ⟨b, kept⟩⟩
    · obtain rfl : unfinished = [[97, 10], [98]] :=
        (List.map_injective_iff.mpr fun _ _ h => congrArg Attempt.buf h) hsplit.symm
      cases hflatten
    · rw [(List.cons_eq_cons.mp hsplit).1]
    · have hlength : kept = [] ∧ unfinished = [] := by simpa using congrArg List.length hsplit
      rw [hlength.2] at hflatten
      cases hflatten
  exact ⟨_, _, _, _, _, _, _, _, _, _, _, hinit, run, ⟨3, _, rfl, rfl, rfl, rfl⟩,
    Prog.evalTrace_of_run kernelExec_of_respond [some 0, some 0, none, some 0] rfl, hretval, hfPos,
    hring, hpending', .write .nil (Prog.eval_of_run (p := aesdWrite _ [99, 10] 3)
      kernelExec_of_respond [some 4, some 0, some 0, some 5, some 0, some 0, some 0] rfl)
      (by decide), without, hsame _ _ _ (.write .nil (Prog.eval_of_run (p := aesdWrite _ [99, 10] 3)
      kernelExec_of_respond [some 4, some 0, some 0, some 5, some 0, some 0, some 0] rfl)
      (by decide)) _ _ _ _ _ hinit without, rfl⟩

/-- One byte of a message is written, and the allocation for its entry fails when the newline is.
A second newline is then stored alone; without the call that failed it completes the message. -/
theorem failed_write_loses_pending : ∃ driver₀ h₁ driver h tr res h' driver₂ h₂ driver₃ h₃,
    (aesdInitModule {}).Eval kernelExec (fun _ => none) (0, driver₀) h₁ ∧
      DeviceWrites driver₀ h₁ [[97]] driver h ∧ PendingBytes driver.dev h [97] ∧
      (aesdWrite driver [10] 1).EvalTrace kernelExec h tr res h' ∧ (∃ e ∈ tr, Failed e = true) ∧
      DeviceWrites res.driver h' [[10]] driver₂ h₂ ∧
      storedMessages driver₂.dev.circBuffer h₂ = [[10]] ∧
      DeviceWrites driver h [[10]] driver₃ h₃ ∧
      storedMessages driver₃.dev.circBuffer h₃ = [[97, 10]] := by
  obtain ⟨block, hinit⟩ := exists_aesdInitModule (h := fun _ => none) (p := 0) rfl
  have hwrite := Prog.eval_of_run (s := Function.update (fun _ => none) 0 (some block))
    (p := aesdWrite ⟨{ circBufferPtr := some 0 }, false⟩ [97] 0) kernelExec_of_respond
    [some 1, some 0, some 0] rfl
  have run := DeviceWrites.write .nil hwrite (by decide)
  refine ⟨_, _, _, _, _, _, _, _, _, _, _, hinit, run, ⟨1, _, rfl, rfl, rfl, rfl⟩,
    Prog.evalTrace_of_run kernelExec_of_respond [some 0, some 0, none, some 0] rfl, ?_,
    .write .nil (Prog.eval_of_run (p := aesdWrite _ [10] 0) kernelExec_of_respond
      [some 2, some 0, some 0, some 3, some 0, some 0, some 0] rfl) (by decide), rfl,
    .write .nil (Prog.eval_of_run (p := aesdWrite _ [10] 0) kernelExec_of_respond
      [some 0, some 0, some 2, some 0, some 0, some 0] rfl) (by decide), rfl⟩
  exact List.any_eq_true.mp rfl

end Aesd
