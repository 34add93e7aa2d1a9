import Mathlib

/-!
# Rings that keep the newest entries

An array of `n` slots with a place to write next and a place to read from first. A push always
succeeds; once the ring has been filled it replaces the oldest entry. Instead of a count the ring
has a flag that says whether it has been filled.

`RingBuffer.Records` relates a ring to the list of everything pushed so far: entry number `j`
is in slot `j mod n` as long as fewer than `n` entries have followed it. `RingBuffer.Slots` says
this of the slots alone, whatever the flag and the place to read from.
-/

/-- A ring of `n` slots. -/
structure RingBuffer (n : ℕ) (α : Type) where
  slot : Fin n → α
  inOffs : Fin n
  outOffs : Fin n
  filled : Bool

namespace RingBuffer

variable {n : ℕ} [NeZero n] {α : Type}

/-- Write to the next slot; the result is what was there before. -/
def push (r : RingBuffer n α) (x : α) : α × RingBuffer n α :=
  (r.slot r.inOffs,
    { slot := Function.update r.slot r.inOffs x
      inOffs := r.inOffs + 1
      outOffs := if r.filled = true ∧ r.outOffs = r.inOffs then r.outOffs + 1 else r.outOffs
      filled := r.filled || r.inOffs + 1 = 0 })

/-- The ring after the entries `xs` have been pushed, `empty` being what slots hold at first. -/
structure Records (empty : α) (r : RingBuffer n α) (xs : List α) : Prop where
  inOffs : r.inOffs = Fin.ofNat n xs.length
  outOffs : r.outOffs = if n ≤ xs.length then Fin.ofNat n xs.length else 0
  filled : r.filled = decide (n ≤ xs.length)
  recent : ∀ j x, xs[j]? = some x → xs.length ≤ j + n → r.slot (Fin.ofNat n j) = x
  unused : ∀ i : Fin n, xs.length ≤ i → r.slot i = empty

/-- The slots after the entries `xs` have been pushed. -/
structure Slots (empty : α) (r : RingBuffer n α) (xs : List α) : Prop where
  inOffs : r.inOffs = Fin.ofNat n xs.length
  recent : ∀ j x, xs[j]? = some x → xs.length ≤ j + n → r.slot (Fin.ofNat n j) = x
  unused : ∀ i : Fin n, xs.length ≤ i → r.slot i = empty

/-- The slots in the order in which they are read. -/
def walk (r : RingBuffer n α) : List α :=
  (List.range n).map fun i => r.slot (Fin.ofNat n (r.outOffs + i))

variable {empty : α} {r : RingBuffer n α} {xs : List α}

lemma Records.slots (h : Records empty r xs) : Slots empty r xs := ⟨h.inOffs, h.recent, h.unused⟩

lemma ofNat_ne_of_lt {j k : ℕ} (h : j < k) (h' : k < j + n) : Fin.ofNat n j ≠ Fin.ofNat n k := by
  intro heq
  have hmod : k % n = j % n := (congrArg Fin.val heq).symm
  have hdvd := Nat.dvd_of_mod_eq_zero (Nat.sub_mod_eq_zero_of_mod_eq hmod)
  have hzero := Nat.eq_zero_of_dvd_of_lt hdvd (by omega)
  omega

lemma ofNat_add_self (j : ℕ) : Fin.ofNat n (j + n) = Fin.ofNat n j :=
  Fin.ext (Nat.add_mod_right j n)

lemma ofNat_succ (j : ℕ) : Fin.ofNat n j + 1 = Fin.ofNat n (j + 1) := by
  apply Fin.ext
  simp [Fin.val_add]

lemma val_ofNat_of_lt {j : ℕ} (h : j < n) : (Fin.ofNat n j).val = j := Nat.mod_eq_of_lt h

lemma records_nil : Records empty (⟨fun _ => empty, 0, 0, false⟩ : RingBuffer n α) [] := by
  have hn : ¬ n ≤ 0 := by
    have := Nat.pos_of_neZero n
    omega
  refine ⟨rfl, ?_, ?_, ?_, fun _ _ => rfl⟩
  · simp [hn]
  · simp [hn]
  · simp

/-- What a push returns: nothing before the ring is full, then the oldest entry. -/
lemma Records.push_fst (h : Records empty r xs) (x : α) :
    (r.push x).1 = if xs.length < n then empty else xs.getD (xs.length - n) empty := by
  show r.slot r.inOffs = _
  rw [h.inOffs]
  split_ifs with hlen
  · apply h.unused
    rw [val_ofNat_of_lt hlen]
  · have hj : xs.length - n < xs.length := by
      have := Nat.pos_of_neZero n
      omega
    have hslot : Fin.ofNat n xs.length = Fin.ofNat n (xs.length - n) := by
      rw [← ofNat_add_self (xs.length - n), Nat.sub_add_cancel (by omega)]
    rw [hslot, List.getD_eq_getElem?_getD, List.getElem?_eq_getElem hj]
    exact h.recent _ _ (List.getElem?_eq_getElem hj) (by omega)

/-- Whatever the flag is, a push records one more entry in the slots. -/
lemma Slots.push (h : Slots empty r xs) (x : α) : Slots empty (r.push x).2 (xs ++ [x]) := by
  have hlength : (xs ++ [x]).length = xs.length + 1 := by simp
  refine ⟨?_, ?_, ?_⟩
  · show r.inOffs + 1 = _
    rw [h.inOffs, ofNat_succ, hlength]
  · intro j y hj hrecent
    rw [hlength] at hrecent
    show Function.update r.slot r.inOffs x _ = y
    rcases Nat.lt_trichotomy j xs.length with hlt | rfl | hgt
    · rw [List.getElem?_append_left hlt] at hj
      rw [h.inOffs, Function.update_of_ne (ofNat_ne_of_lt hlt (by omega))]
      exact h.recent j y hj (by omega)
    · rw [List.getElem?_concat_length, Option.some.injEq] at hj
      rw [h.inOffs, Function.update_self, hj]
    · rw [List.getElem?_eq_none (by omega)] at hj
      cases hj
  · intro i hi
    rw [hlength] at hi
    have hne : i ≠ r.inOffs := by
      intro hi'
      rw [hi', h.inOffs, Fin.val_ofNat] at hi
      have := Nat.mod_le xs.length n
      omega
    show Function.update r.slot r.inOffs x i = empty
    rw [Function.update_of_ne hne]
    exact h.unused i (by omega)

/-- A push records one more entry. -/
lemma Records.push_snd (h : Records empty r xs) (x : α) :
    Records empty (r.push x).2 (xs ++ [x]) := by
  have hlength : (xs ++ [x]).length = xs.length + 1 := by simp
  have hzero : xs.length < n → (Fin.ofNat n (xs.length + 1) = 0 ↔ n ≤ xs.length + 1) := by
    intro hlen
    rw [Fin.ext_iff, Fin.val_zero, Fin.val_ofNat]
    by_cases hfull : xs.length + 1 = n
    · simp [hfull]
    · rw [Nat.mod_eq_of_lt (by omega)]
      omega
  refine ⟨(h.slots.push x).inOffs, ?_, ?_, ?_, ?_⟩
  · show (if r.filled = true ∧ r.outOffs = r.inOffs then r.outOffs + 1 else r.outOffs) = _
    rw [h.filled, h.outOffs, h.inOffs, hlength]
    by_cases hlen : n ≤ xs.length
    · simp only [hlen, decide_true, if_true, and_self, ofNat_succ, Nat.le_succ_of_le]
    · simp only [hlen, decide_false, Bool.false_eq_true, false_and, if_false]
      split_ifs with hfull
      · exact ((hzero (by omega)).mpr hfull).symm
      · rfl
  · show (r.filled || decide (r.inOffs + 1 = 0)) = _
    rw [h.filled, h.inOffs, ofNat_succ, hlength]
    by_cases hlen : n ≤ xs.length
    · simp [hlen, Nat.le_succ_of_le]
    · simp only [hlen, decide_false, Bool.false_or, hzero (by omega)]
  · exact (h.slots.push x).recent
  · exact (h.slots.push x).unused

/-- The slots from the first one to read on hold the newest entries, oldest first. -/
lemma Records.window (h : Records empty r xs) {i : ℕ} (hi : i < min xs.length n) :
    xs[xs.length - min xs.length n + i]? = some (r.slot (Fin.ofNat n (r.outOffs + i))) := by
  by_cases hlen : n ≤ xs.length
  · have hj : xs.length - n + i < xs.length := by omega
    have hslot : Fin.ofNat n ((Fin.ofNat n xs.length).val + i) =
        Fin.ofNat n (xs.length - n + i) := by
      rw [← ofNat_add_self (xs.length - n + i)]
      apply Fin.ext
      simp only [Fin.val_ofNat, Nat.mod_add_mod]
      congr 1
      omega
    rw [h.outOffs, if_pos hlen, hslot, Nat.min_eq_right hlen, List.getElem?_eq_getElem hj,
      h.recent _ _ (List.getElem?_eq_getElem hj) (by omega)]
  · have hj : i < xs.length := by omega
    rw [h.outOffs, if_neg hlen, Nat.min_eq_left (by omega)]
    simp only [Nat.sub_self, Fin.val_zero, Nat.zero_add]
    rw [List.getElem?_eq_getElem hj, h.recent _ _ (List.getElem?_eq_getElem hj) (by omega)]

/-- The other slots have not been used. -/
lemma Records.outside (h : Records empty r xs) {s : Fin n}
    (hs : ∀ i < min xs.length n, s ≠ Fin.ofNat n (r.outOffs + i)) : r.slot s = empty := by
  apply h.unused
  by_contra hlt
  rw [h.outOffs] at hs
  by_cases hlen : n ≤ xs.length
  · rw [if_pos hlen, Nat.min_eq_right hlen] at hs
    have hfirst := (Fin.ofNat n xs.length).isLt
    have hslot := s.isLt
    -- the slot is behind the first one to read, or before it and reached after the wrap
    by_cases hle : (Fin.ofNat n xs.length).val ≤ s.val
    · apply hs (s.val - (Fin.ofNat n xs.length).val) (by omega)
      apply Fin.ext
      rw [Fin.val_ofNat, Nat.add_sub_cancel' hle, Nat.mod_eq_of_lt hslot]
    · apply hs (s.val + n - (Fin.ofNat n xs.length).val) (by omega)
      apply Fin.ext
      rw [Fin.val_ofNat, Nat.add_sub_cancel' (by omega), Nat.add_mod_right,
        Nat.mod_eq_of_lt hslot]
  · rw [if_neg hlen, Nat.min_eq_left (by omega)] at hs
    apply hs s.val (by omega)
    apply Fin.ext
    rw [Fin.val_zero, Nat.zero_add, val_ofNat_of_lt s.isLt]

/-! ### Reading all slots -/

@[simp] lemma length_walk (r : RingBuffer n α) : r.walk.length = n := by
  simp [walk]

lemma getElem?_walk (r : RingBuffer n α) {i : ℕ} (hi : i < n) :
    r.walk[i]? = some (r.slot (Fin.ofNat n (r.outOffs + i))) := by
  simp [walk, hi]

/-- Read from the first slot on, entries that all fit come before the unused slots. -/
lemma Slots.walk_of_zero (h : Slots empty r xs) (hout : r.outOffs = 0) (hlen : xs.length ≤ n) :
    r.walk = xs ++ List.replicate (n - xs.length) empty := by
  apply List.ext_getElem?
  intro i
  by_cases hi : i < n
  · have hzero : ((0 : Fin n) : ℕ) + i = i := by rw [Fin.val_zero, Nat.zero_add]
    rw [getElem?_walk r hi, hout, hzero]
    by_cases hxs : i < xs.length
    · rw [List.getElem?_append_left hxs, List.getElem?_eq_getElem hxs]
      exact congrArg some (h.recent i _ (List.getElem?_eq_getElem hxs) (by omega))
    · rw [List.getElem?_append_right (by omega), List.getElem?_replicate, if_pos (by omega)]
      exact congrArg some (h.unused _ (by rw [val_ofNat_of_lt hi]; omega))
  · rw [List.getElem?_eq_none (by rw [length_walk]; omega), List.getElem?_eq_none]
    rw [List.length_append, List.length_replicate]
    omega

/-- Read from the slot to write next, the unused slots come first, then the newest entries. -/
lemma Slots.walk_of_inOffs (h : Slots empty r xs) (hout : r.outOffs = r.inOffs) :
    r.walk = List.replicate (n - xs.length) empty ++ xs.drop (xs.length - n) := by
  have hn := Nat.pos_of_neZero n
  apply List.ext_getElem?
  intro i
  by_cases hi : i < n
  · have hslot : Fin.ofNat n ((Fin.ofNat n xs.length).val + i) = Fin.ofNat n (xs.length + i) := by
      apply Fin.ext
      simp only [Fin.val_ofNat, Nat.mod_add_mod]
    rw [getElem?_walk r hi, hout, h.inOffs, hslot]
    by_cases hunused : i < n - xs.length
    · rw [List.getElem?_append_left (by simpa using hunused), List.getElem?_replicate,
        if_pos hunused]
      exact congrArg some (h.unused _ (by rw [val_ofNat_of_lt (by omega)]; omega))
    · rw [List.getElem?_append_right (by rw [List.length_replicate]; omega),
        List.length_replicate, List.getElem?_drop]
      have hj : xs.length - n + (i - (n - xs.length)) < xs.length := by omega
      have hback : xs.length + i = xs.length - n + (i - (n - xs.length)) + n := by omega
      rw [List.getElem?_eq_getElem hj, hback, ofNat_add_self]
      exact congrArg some (h.recent _ _ (List.getElem?_eq_getElem hj) (by omega))
  · rw [List.getElem?_eq_none (by rw [length_walk]; omega), List.getElem?_eq_none]
    rw [List.length_append, List.length_replicate, List.length_drop]
    omega

/-! ### What the entries determine -/

/-- One of the newest entries goes to each slot that has been used. -/
lemma exists_recent (xs : List α) {i : Fin n} (hi : i < xs.length) :
    ∃ j x, xs[j]? = some x ∧ xs.length ≤ j + n ∧ i = Fin.ofNat n j := by
  have hn := Nat.pos_of_neZero n
  have hdiv := Nat.div_add_mod (xs.length - 1 - i) n
  have hmod := Nat.mod_lt (xs.length - 1 - i) hn
  have hj : i + n * ((xs.length - 1 - i) / n) < xs.length := by omega
  refine ⟨_, _, List.getElem?_eq_getElem hj, by omega, ?_⟩
  apply Fin.ext
  rw [Fin.val_ofNat, Nat.add_mul_mod_self_left, Nat.mod_eq_of_lt i.isLt]

lemma Slots.unique {r' : RingBuffer n α} (h : Slots empty r xs) (h' : Slots empty r' xs) :
    r.slot = r'.slot := by
  funext i
  by_cases hi : i < xs.length
  · obtain ⟨j, x, hj, hrecent, rfl⟩ := exists_recent xs hi
    rw [h.recent j x hj hrecent, h'.recent j x hj hrecent]
  · rw [h.unused i (by omega), h'.unused i (by omega)]

/-- The entries pushed determine the ring. -/
lemma Records.unique {r' : RingBuffer n α} (h : Records empty r xs) (h' : Records empty r' xs) :
    r = r' := by
  have hslot := h.slots.unique h'.slots
  have hout : r.outOffs = r'.outOffs := h.outOffs.trans h'.outOffs.symm
  cases r
  cases r'
  congr
  · exact h.inOffs.trans h'.inOffs.symm
  · exact h.filled.trans h'.filled.symm

end RingBuffer
