import Aesd.Lib.RingBuffer

/-!
# Bounded queues in a ring

A first-in first-out queue in `n` slots, with the slot to fill next and the slot to empty next.
The two are the same when the queue is empty and when it is full; a flag tells these apart.

`BoundedQueue.Contains` relates such a ring to the list of its entries, oldest first.
-/

/-- A queue of at most `n` entries. -/
structure BoundedQueue (n : ℕ) (α : Type) where
  slot : Fin n → α
  enqueueIndex : Fin n
  dequeueIndex : Fin n
  isEmpty : Bool

namespace BoundedQueue

variable {n : ℕ} [NeZero n] {α : Type}

/-- The queue has no room left. -/
def isFull (q : BoundedQueue n α) : Bool := !q.isEmpty && q.enqueueIndex = q.dequeueIndex

/-- Fill the next slot. -/
def enqueue (q : BoundedQueue n α) (x : α) : BoundedQueue n α :=
  { q with
    slot := Function.update q.slot q.enqueueIndex x
    enqueueIndex := q.enqueueIndex + 1
    isEmpty := false }

/-- Empty the next slot, leaving `clear` in it. -/
def dequeue (q : BoundedQueue n α) (clear : α) : BoundedQueue n α :=
  { q with
    slot := Function.update q.slot q.dequeueIndex clear
    dequeueIndex := q.dequeueIndex + 1
    isEmpty := if q.dequeueIndex + 1 = q.enqueueIndex then true else q.isEmpty }

/-- The entries of the queue are `xs`, oldest first. -/
structure Contains (q : BoundedQueue n α) (xs : List α) : Prop where
  length_le : xs.length ≤ n
  isEmpty : q.isEmpty = true ↔ xs = []
  enqueueIndex : q.enqueueIndex = Fin.ofNat n (q.dequeueIndex + xs.length)
  slots : ∀ i x, xs[i]? = some x → q.slot (Fin.ofNat n (q.dequeueIndex + i)) = x

variable {q : BoundedQueue n α} {xs : List α} {x : α}

lemma ofNat_val (i : Fin n) : Fin.ofNat n i = i := Fin.ext (Nat.mod_eq_of_lt i.isLt)

lemma contains_nil {slot : Fin n → α} {index : Fin n} :
    Contains (⟨slot, index, index, true⟩ : BoundedQueue n α) [] := by
  refine ⟨Nat.zero_le n, by simp, ?_, by simp⟩
  exact (ofNat_val index).symm

/-- The flag and the two indices together say whether the queue is full. -/
lemma Contains.isFull_iff (h : q.Contains xs) : q.isFull = true ↔ xs.length = n := by
  have hle := h.length_le
  rw [isFull, Bool.and_eq_true, Bool.not_eq_true', ← Bool.not_eq_true, h.isEmpty,
    decide_eq_true_eq, h.enqueueIndex]
  constructor
  · -- the indices coincide also when there are no elements, hence the flag
    rintro ⟨hne, hindex⟩
    have hpos := List.length_pos_iff.mpr hne
    by_contra hlt
    apply RingBuffer.ofNat_ne_of_lt (n := n) (j := q.dequeueIndex)
      (k := q.dequeueIndex + xs.length) (by omega) (by omega)
    rw [hindex, ofNat_val]
  · intro hfull
    have hn := Nat.pos_of_neZero n
    refine ⟨?_, ?_⟩
    · rintro rfl
      rw [List.length_nil] at hfull
      omega
    · rw [hfull, RingBuffer.ofNat_add_self, ofNat_val]

/-- A longer list without the last slot would have another index to fill next. -/
lemma Contains.length_le_length {ys : List α} (h : q.Contains xs) (h' : q.Contains ys)
    (hroom : ys.length < n) : ys.length ≤ xs.length := by
  by_contra hlt
  apply RingBuffer.ofNat_ne_of_lt (n := n) (j := q.dequeueIndex + xs.length)
    (k := q.dequeueIndex + ys.length) (by omega) (by omega)
  rw [← h.enqueueIndex, ← h'.enqueueIndex]

/-- A ring has the entries of one list only. -/
lemma Contains.unique {ys : List α} (h : q.Contains xs) (h' : q.Contains ys) : xs = ys := by
  have hlength : xs.length = ys.length := by
    by_cases hfull : q.isFull = true
    · rw [h.isFull_iff.mp hfull, h'.isFull_iff.mp hfull]
    · have hroom : xs.length < n :=
        lt_of_le_of_ne h.length_le fun heq => hfull (h.isFull_iff.mpr heq)
      have hroom' : ys.length < n :=
        lt_of_le_of_ne h'.length_le fun heq => hfull (h'.isFull_iff.mpr heq)
      exact le_antisymm (h'.length_le_length h hroom) (h.length_le_length h' hroom')
  apply List.ext_getElem hlength
  intro i hi hi'
  rw [← h.slots i _ (List.getElem?_eq_getElem hi), ← h'.slots i _ (List.getElem?_eq_getElem hi')]

/-- Between two indices that follow each other there is one entry. -/
lemma Contains.eq_singleton (h : q.Contains xs) (hempty : q.isEmpty = false)
    (hnext : q.enqueueIndex = q.dequeueIndex + 1) : xs = [q.slot q.dequeueIndex] := by
  apply h.unique
  refine ⟨Nat.pos_of_neZero n, by simp [hempty], ?_, ?_⟩
  · rw [hnext, List.length_singleton, ← RingBuffer.ofNat_succ, ofNat_val]
  · intro i x hx
    obtain ⟨hi, rfl⟩ := List.getElem?_eq_some_iff.mp hx
    obtain rfl : i = 0 := by simpa using hi
    rw [Nat.add_zero, ofNat_val]
    rfl

/-- As long as there is room an entry goes to the end. -/
lemma Contains.enqueue (h : q.Contains xs) (hroom : xs.length < n) (x : α) :
    (q.enqueue x).Contains (xs ++ [x]) := by
  refine ⟨?_, ?_, ?_, ?_⟩
  · rw [List.length_append, List.length_singleton]
    exact hroom
  · simp [BoundedQueue.enqueue]
  · show q.enqueueIndex + 1 = Fin.ofNat n (q.dequeueIndex + (xs ++ [x]).length)
    rw [h.enqueueIndex, RingBuffer.ofNat_succ, List.length_append, List.length_singleton,
      Nat.add_assoc]
  · intro i y hy
    show Function.update q.slot q.enqueueIndex x (Fin.ofNat n (q.dequeueIndex + i)) = y
    rw [h.enqueueIndex]
    rcases Nat.lt_trichotomy i xs.length with hlt | rfl | hgt
    · -- an old element: its slot is not the one that is written
      rw [List.getElem?_append_left hlt] at hy
      rw [Function.update_of_ne (RingBuffer.ofNat_ne_of_lt (by omega) (by omega))]
      exact h.slots i y hy
    · rw [List.getElem?_concat_length, Option.some.injEq] at hy
      rw [Function.update_self, hy]
    · rw [List.getElem?_eq_none (by simp; omega)] at hy
      cases hy

/-- The entry in the next slot is the oldest one. -/
lemma Contains.head (h : q.Contains (x :: xs)) : q.slot q.dequeueIndex = x := by
  have hslot := h.slots 0 x rfl
  rwa [Nat.add_zero, ofNat_val] at hslot

/-- Emptying the next slot removes exactly the oldest entry. -/
lemma Contains.dequeue (h : q.Contains (x :: xs)) (clear : α) :
    (q.dequeue clear).Contains xs := by
  have hle := h.length_le
  rw [List.length_cons] at hle
  have hnext : q.dequeueIndex + 1 = Fin.ofNat n (q.dequeueIndex + 1) := by
    rw [← RingBuffer.ofNat_succ, ofNat_val]
  have hplace : ∀ i, Fin.ofNat n ((q.dequeueIndex + 1 : Fin n) + i) =
      Fin.ofNat n (q.dequeueIndex + (i + 1)) := by
    intro i
    apply Fin.ext
    rw [hnext]
    simp only [Fin.val_ofNat, Nat.mod_add_mod]
    congr 1
    omega
  have hindex : q.enqueueIndex = Fin.ofNat n ((q.dequeueIndex + 1 : Fin n) + xs.length) := by
    rw [h.enqueueIndex, hplace, List.length_cons]
  refine ⟨by omega, ?_, hindex, ?_⟩
  · show (if q.dequeueIndex + 1 = q.enqueueIndex then true else q.isEmpty) = true ↔ xs = []
    have hempty : q.isEmpty = false := by
      rw [← Bool.not_eq_true, h.isEmpty]
      simp
    rw [hempty, hindex]
    constructor
    · -- the indices meet: no element can be left, else the queue would have been full
      intro hsame
      split_ifs at hsame with heq
      by_contra hne
      have hpos := List.length_pos_iff.mpr hne
      apply RingBuffer.ofNat_ne_of_lt (n := n) (j := q.dequeueIndex + 1)
        (k := q.dequeueIndex + (xs.length + 1)) (by omega) (by omega)
      rw [← hplace xs.length, ← hnext]
      exact heq
    · rintro rfl
      rw [if_pos]
      rw [List.length_nil, Nat.add_zero, ofNat_val]
  · -- the slot that is cleared holds none of the others
    intro i y hy
    show Function.update q.slot q.dequeueIndex clear
      (Fin.ofNat n ((q.dequeueIndex + 1 : Fin n) + i)) = y
    have hi := (List.getElem?_eq_some_iff.mp hy).1
    have hne : Fin.ofNat n (q.dequeueIndex + (i + 1)) ≠ q.dequeueIndex := by
      intro heq
      apply RingBuffer.ofNat_ne_of_lt (n := n) (j := q.dequeueIndex)
        (k := q.dequeueIndex + (i + 1)) (by omega) (by omega)
      rw [heq, ofNat_val]
    rw [hplace, Function.update_of_ne hne]
    exact h.slots (i + 1) y (by rwa [List.getElem?_cons_succ])

end BoundedQueue
