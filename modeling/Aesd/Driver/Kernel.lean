import Aesd.Lib.Prog
import Aesd.Lib.CInt
import Aesd.Lib.Bytes

/-!
# What the driver calls

The driver is a program over the kernel functions it calls. Memory from `kmalloc` is a set of live
blocks, each with its bytes; a pointer is the number of a block, or `NULL`. `kernelExec` says what
is assumed of the kernel: an allocation may fail, does so above `2 ^ 30` bytes, and otherwise
returns a block that was not live; `copy_from_user` and `copy_to_user` may stop early. An access
outside a live block has no answer.
-/

namespace Aesd

open Effect CInt Bytes

/-- A pointer returned by `kmalloc`, or `NULL`. -/
abbrev Pointer := Option ℕ

/-- The kernel functions the driver calls, and `load`, a read through a pointer. `hang` is a loop
that does not end. -/
inductive KernelOp where
  | kmalloc (size : ℤ)
  | krealloc (p : Pointer) (size : ℤ)
  | kfree (p : Pointer)
  | copyFromUser (dst : Pointer) (offset : ℤ) (data : List Byte)
  | copyToUser (src : Pointer) (offset n : ℤ)
  | load (p : Pointer) (offset : ℤ)
  | memset (dst : Pointer) (byte : Byte) (size : ℤ)
  | memcpy (dst src : Pointer) (size : ℤ)
  | allocChrdevRegion
  | unregisterChrdevRegion
  | cdevAdd
  | cdevDel
  | hang

/-- What each returns; the copies answer with the number of bytes they did not copy, `copyToUser`
also with the bytes that the user got. -/
@[reducible] def KernelAnswer : KernelOp → Type
  | .kmalloc _              => Pointer
  | .krealloc _ _           => Pointer
  | .kfree _                => Unit
  | .copyFromUser _ _ _     => ℤ
  | .copyToUser _ _ _       => ℤ × List Byte
  | .load _ _               => Byte
  | .memset _ _ _           => Unit
  | .memcpy _ _ _           => Unit
  | .allocChrdevRegion      => ℤ
  | .unregisterChrdevRegion => Unit
  | .cdevAdd                => ℤ
  | .cdevDel                => Unit
  | .hang                   => Empty

/-- Programs of the driver. -/
abbrev Kernel (α : Type) := Prog KernelOp KernelAnswer α

/-- One call, as a program. -/
abbrev kernel (op : KernelOp) : Kernel (KernelAnswer op) := Prog.perform op

/-- The live blocks and their bytes. -/
abbrev Heap := ℕ → Option (List Byte)

/-- An allocation of `size` bytes. -/
def Allocates (size : ℤ) (h : Heap) : Pointer → Heap → Prop
  | none, h'   => h' = h
  | some p, h' => size ≤ 2 ^ 30 ∧ h p = none ∧
      ∃ bytes : List Byte, (bytes.length : ℤ) = size ∧ h' = Function.update h p (some bytes)

/-- A change of a block to `size` bytes, in place or by moving it. -/
def Reallocates (p : ℕ) (size : ℤ) (h : Heap) : Pointer → Heap → Prop
  | none, h'   => h' = h
  | some q, h' => size ≤ 2 ^ 30 ∧ (q = p ∨ h q = none) ∧
      ∃ old bytes : List Byte, h p = some old ∧ (bytes.length : ℤ) = size ∧
        old.take size.toNat <+: bytes ∧
        h' = Function.update (Function.update h p none) q (some bytes)

/-- A copy of `data` from the user to `offset` in a block, of which the last `rest` bytes are not
copied. -/
def CopiesFromUser (p : ℕ) (offset : ℤ) (data : List Byte) (h : Heap) (rest : ℤ) (h' : Heap) :
    Prop :=
  ∃ old, h p = some old ∧ 0 ≤ offset ∧ offset + data.length ≤ old.length ∧
    ((rest = 0 ∧ h' = Function.update h p (some (overwrite old offset.toNat data))) ∨
      (0 < rest ∧ rest ≤ data.length ∧ ∃ bytes, bytes.length = old.length ∧
        (∀ i : ℕ, (i < offset ∨ offset + data.length ≤ i) → bytes[i]? = old[i]?) ∧
        h' = Function.update h p (some bytes)))

/-- A copy to the user of the `n` bytes at `offset` in a block, of which the last `rest` are not
copied. No byte is read if there is none to copy. -/
def CopiesToUser (src : Pointer) (offset n : ℤ) (h : Heap) (rest : ℤ) (data : List Byte) : Prop :=
  (n = 0 ∧ rest = 0 ∧ data = []) ∨
    ∃ p bytes, src = some p ∧ h p = some bytes ∧ 0 ≤ offset ∧ offset + n ≤ bytes.length ∧
      0 ≤ rest ∧ rest ≤ n ∧ data = (bytes.drop offset.toNat).take (n - rest).toNat

/-- The calls' effect on the heap. -/
def kernelExec : (op : KernelOp) → Heap → KernelAnswer op → Heap → Prop
  | .kmalloc size, h, r, h' => Allocates size h r h'
  | .krealloc none size, h, r, h' => Allocates size h r h'
  | .krealloc (some p) size, h, r, h' => Reallocates p size h r h'
  | .kfree none, h, _, h' => h' = h
  | .kfree (some p), h, _, h' => h p ≠ none ∧ h' = Function.update h p none
  | .copyFromUser (some p) offset data, h, r, h' => CopiesFromUser p offset data h r h'
  | .copyToUser src offset n, h, r, h' => h' = h ∧ CopiesToUser src offset n h r.1 r.2
  | .load (some p) offset, h, r, h' =>
    h' = h ∧ 0 ≤ offset ∧ ∃ bytes, h p = some bytes ∧ bytes[offset.toNat]? = some r
  | .memset (some p) byte size, h, _, h' =>
    ∃ old, h p = some old ∧ 0 ≤ size ∧ size ≤ old.length ∧
      h' = Function.update h p (some (overwrite old 0 (List.replicate size.toNat byte)))
  | .memcpy (some dst) (some src) size, h, _, h' =>
    ∃ old bytes, h dst = some old ∧ h src = some bytes ∧ 0 ≤ size ∧ size ≤ old.length ∧
      size ≤ bytes.length ∧
      h' = Function.update h dst (some (overwrite old 0 (bytes.take size.toNat)))
  | .allocChrdevRegion, h, _, h' => h' = h
  | .unregisterChrdevRegion, h, _, h' => h' = h
  | .cdevAdd, h, _, h' => h' = h
  | .cdevDel, h, _, h' => h' = h
  | _, _, _, _ => False

/-! ### Executing calls -/

/-- An allocation that fails (`none`) or is made at a given place, filled with zeros. -/
def allocate (size : ℤ) (h : Heap) : Option ℕ → Option (Pointer × Heap)
  | none   => some (none, h)
  | some p =>
    if 0 ≤ size ∧ size ≤ 2 ^ 30 ∧ (h p).isNone then
      some (some p, Function.update h p (some (List.replicate size.toNat 0)))
    else none

/-- A reallocation that fails (`none`) or moves the block to a given place. -/
def reallocate (p : ℕ) (size : ℤ) (h : Heap) : Option ℕ → Option (Pointer × Heap)
  | none   => some (none, h)
  | some q =>
    match h p with
    | none     => none
    | some old =>
      if old.length ≤ size ∧ size ≤ 2 ^ 30 ∧ (q = p ∨ (h q).isNone) then
        some (some q, Function.update (Function.update h p none) q
          (some (old ++ List.replicate (size.toNat - old.length) 0)))
      else none

/-- One possible answer to each call. The choice is `none` if the call is to fail, and says where
an allocation is made. -/
def kernelRespond : (op : KernelOp) → Heap → Option ℕ → Option (KernelAnswer op × Heap)
  | .kmalloc size, h, ch            => allocate size h ch
  | .krealloc none size, h, ch      => allocate size h ch
  | .krealloc (some p) size, h, ch  => reallocate p size h ch
  | .kfree none, h, _               => some ((), h)
  | .kfree (some p), h, _           =>
    if (h p).isSome then some ((), Function.update h p none) else none
  | .copyFromUser (some p) offset data, h, some _ =>
    match h p with
    | none     => none
    | some old =>
      if 0 ≤ offset ∧ offset + data.length ≤ old.length then
        some ((0 : ℤ), Function.update h p (some (overwrite old offset.toNat data)))
      else none
  | .copyToUser (some p) offset n, h, some _ =>
    match h p with
    | none       => none
    | some bytes =>
      if 0 ≤ offset ∧ 0 ≤ n ∧ offset + n ≤ bytes.length then
        some (((0 : ℤ), (bytes.drop offset.toNat).take n.toNat), h)
      else none
  | .load (some p) offset, h, _     =>
    if 0 ≤ offset then ((h p).bind fun bytes => bytes[offset.toNat]?).map fun b => (b, h) else none
  | .memset (some p) byte size, h, _ =>
    match h p with
    | none     => none
    | some old =>
      if 0 ≤ size ∧ size ≤ old.length then
        some ((), Function.update h p (some (overwrite old 0 (List.replicate size.toNat byte))))
      else none
  | .memcpy (some dst) (some src) size, h, _ =>
    match h dst, h src with
    | some old, some bytes =>
      if 0 ≤ size ∧ size ≤ old.length ∧ size ≤ bytes.length then
        some ((), Function.update h dst (some (overwrite old 0 (bytes.take size.toNat))))
      else none
    | _, _ => none
  | .allocChrdevRegion, h, ch       => some ((if ch.isSome then 0 else -1 : ℤ), h)
  | .unregisterChrdevRegion, h, _   => some ((), h)
  | .cdevAdd, h, ch                 => some ((if ch.isSome then 0 else -1 : ℤ), h)
  | .cdevDel, h, _                  => some ((), h)
  | _, _, _                         => none

lemma allocates_of_allocate {size : ℤ} {h h' : Heap} {ch : Option ℕ} {r : Pointer}
    (hr : allocate size h ch = some (r, h')) : Allocates size h r h' := by
  cases ch with
  | none =>
    cases hr
    rfl
  | some p =>
    simp only [allocate] at hr
    split_ifs at hr with hp
    cases hr
    refine ⟨hp.2.1, by simpa using hp.2.2, _, ?_, rfl⟩
    rw [List.length_replicate, Int.toNat_of_nonneg hp.1]

lemma reallocates_of_reallocate {p : ℕ} {size : ℤ} {h h' : Heap} {ch : Option ℕ} {r : Pointer}
    (hr : reallocate p size h ch = some (r, h')) : Reallocates p size h r h' := by
  cases ch with
  | none =>
    cases hr
    rfl
  | some q =>
    simp only [reallocate] at hr
    split at hr
    · cases hr
    · rename_i old hold
      split_ifs at hr with hq
      cases hr
      refine ⟨hq.2.1, by simpa using hq.2.2, old, _, hold, ?_, ?_, rfl⟩
      · rw [List.length_append, List.length_replicate]
        omega
      · rw [List.take_of_length_le (by omega)]
        exact List.prefix_append _ _

/-- The answers are possible ones. -/
lemma kernelExec_of_respond (op : KernelOp) (h : Heap) (ch : Option ℕ) (r : KernelAnswer op)
    (h' : Heap) (hr : kernelRespond op h ch = some (r, h')) : kernelExec op h r h' := by
  cases op with
  | kmalloc size => exact allocates_of_allocate hr
  | krealloc p size =>
    cases p with
    | none => exact allocates_of_allocate hr
    | some p => exact reallocates_of_reallocate hr
  | kfree p =>
    cases p with
    | none =>
      cases hr
      rfl
    | some p =>
      simp only [kernelRespond] at hr
      split_ifs at hr with hp
      cases hr
      exact ⟨Option.isSome_iff_ne_none.mp hp, rfl⟩
  | copyFromUser p offset data =>
    cases p with
    | none => cases hr
    | some p =>
      cases ch with
      | none => cases hr
      | some _ =>
        simp only [kernelRespond] at hr
        split at hr
        · cases hr
        · rename_i old hold
          split_ifs at hr with hfits
          cases hr
          exact ⟨old, hold, hfits.1, hfits.2, Or.inl ⟨rfl, rfl⟩⟩
  | copyToUser p offset n =>
    rcases p with _ | p
    · cases hr
    rcases ch with _ | _
    · cases hr
    simp only [kernelRespond] at hr
    split at hr
    · cases hr
    · rename_i bytes hbytes
      split_ifs at hr with hfits
      cases hr
      refine ⟨rfl, Or.inr ⟨p, bytes, rfl, hbytes, hfits.1, hfits.2.2, le_rfl, hfits.2.1, ?_⟩⟩
      rw [sub_zero]
  | load p offset =>
    cases p with
    | none => cases hr
    | some p =>
      simp only [kernelRespond] at hr
      split_ifs at hr with hoffset
      simp only [Option.map_eq_some_iff, Option.bind_eq_some_iff, Prod.mk.injEq] at hr
      obtain ⟨b, ⟨bytes, hp, hb⟩, rfl, rfl⟩ := hr
      exact ⟨rfl, hoffset, bytes, hp, hb⟩
  | memset p byte size =>
    cases p with
    | none => cases hr
    | some p =>
      simp only [kernelRespond] at hr
      split at hr
      · cases hr
      · rename_i old hold
        split_ifs at hr with hfits
        cases hr
        exact ⟨old, hold, hfits.1, hfits.2, rfl⟩
  | memcpy dst src size =>
    rcases dst with _ | dst
    · cases hr
    rcases src with _ | src
    · cases hr
    simp only [kernelRespond] at hr
    split at hr
    · rename_i old bytes hold hbytes
      split_ifs at hr with hfits
      cases hr
      exact ⟨old, bytes, hold, hbytes, hfits.1, hfits.2.1, hfits.2.2, rfl⟩
    · cases hr
  | allocChrdevRegion =>
    cases hr
    rfl
  | unregisterChrdevRegion =>
    cases hr
    rfl
  | cdevAdd =>
    cases hr
    rfl
  | cdevDel =>
    cases hr
    rfl
  | hang => cases hr

end Aesd
