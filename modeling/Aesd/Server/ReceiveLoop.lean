import Aesd.Server.Framing

/-!
# The counters of the receive loop

`bufferCapacity` is a `size_t` and `totalBytesRecvd` an `int`; the buffer grows when they are equal.
Here the loop has the numbers that the machine has, and memory that can be read and written at any
offset from the buffer; where a machine has none there, the thread ends instead. Every call of
`recv` is as it should be as long as less than `2 ^ 31` bytes have been received for the message,
and none from then on (`recvOk_iff`). So far the loop is the one that `Session` has
(`Serves.inLoop`).
-/

namespace Aesd

open CInt Bytes

/-! ### The loop -/

/-- The variables of the loop, and the memory at each offset from `buffer`. -/
structure RecvVars where
  bufferCapacity : ℤ
  totalBytesRecvd : ℤ
  memory : ℤ → Byte

/-- The loop before `realloc`, before `recv`, or left. -/
inductive RecvLoop where
  | growing (v : RecvVars)
  | receiving (v : RecvVars)
  | left

/-- What the call that the loop waits for returns; `realloc` gives `NULL` or a place with some
memory. -/
inductive RecvInput where
  | realloc (place : Option (ℤ → Byte))
  | recv (bytes : List Byte)
  | recvClosed
  | recvFailed

/-- The bytes that come from the client. -/
def RecvInput.bytes : RecvInput → List Byte
  | .recv bytes => bytes
  | _           => []

namespace RecvVars

/-- The buffer of a new message is set to zero. -/
def fresh (outside : ℤ → Byte) : RecvVars where
  bufferCapacity := recvBufferLengthBytes
  totalBytesRecvd := 0
  memory i := if 0 ≤ i ∧ i < recvBufferLengthBytes then 0 else outside i

/-- `bufferCapacity - totalBytesRecvd`, in `size_t`. -/
def requested (v : RecvVars) : ℤ := toU64 (v.bufferCapacity - v.totalBytesRecvd)

/-- The test before `realloc`, in `size_t`. -/
def head (v : RecvVars) : RecvLoop :=
  if toU64 v.totalBytesRecvd = v.bufferCapacity then .growing v else .receiving v

/-- A buffer of twice the capacity has been got, and the old one is copied. -/
def grow (v : RecvVars) (place : ℤ → Byte) : RecvVars where
  bufferCapacity := toU64 (v.bufferCapacity * 2)
  totalBytesRecvd := v.totalBytesRecvd
  memory i := if 0 ≤ i ∧ i < v.bufferCapacity then v.memory i else place i

/-- `recv` has written `bytes` at `buffer + totalBytesRecvd`, and the `int` that it returned has
been added. -/
def store (v : RecvVars) (bytes : List Byte) : RecvVars where
  bufferCapacity := v.bufferCapacity
  totalBytesRecvd := toI32 (v.totalBytesRecvd + toI32 bytes.length)
  memory i :=
    if v.totalBytesRecvd ≤ i then (bytes[(i - v.totalBytesRecvd).toNat]?).getD (v.memory i)
    else v.memory i

/-- `buffer[totalBytesRecvd-1]`; for a negative count this is a byte in front of the buffer. -/
def last (v : RecvVars) : Byte := v.memory (v.totalBytesRecvd - 1)

variable {v : RecvVars} {bytes : List Byte} {i : ℤ}

lemma grow_memory (place : ℤ → Byte) (hi : 0 ≤ i) (hlt : i < v.bufferCapacity) :
    (v.grow place).memory i = v.memory i :=
  if_pos ⟨hi, hlt⟩

lemma grow_memory_of_neg (place : ℤ → Byte) (hi : i < 0) : (v.grow place).memory i = place i :=
  if_neg fun h => not_le.mpr hi h.1

lemma store_totalBytesRecvd : (v.store bytes).totalBytesRecvd =
    toI32 (v.totalBytesRecvd + bytes.length) := by
  rw [store, add_comm, toI32_add, add_comm]

lemma store_memory_of_lt (hlt : i < v.totalBytesRecvd) :
    (v.store bytes).memory i = v.memory i :=
  if_neg (not_le.mpr hlt)

lemma store_memory_of_getElem? {k : ℕ} {b : Byte} (hb : bytes[k]? = some b)
    (hi : i = v.totalBytesRecvd + k) : (v.store bytes).memory i = b := by
  have hk : (i - v.totalBytesRecvd).toNat = k := by omega
  simp only [store, hk, hb, Option.getD_some]
  exact if_pos (by omega)

end RecvVars

/-- One step; `none` if the input is not a possible result of the call. -/
def RecvLoop.step : RecvLoop → RecvInput → Option RecvLoop
  | .growing _, .realloc none         => some .left
  | .growing v, .realloc (some place) => some (.receiving (v.grow place))
  | .receiving v, .recv bytes         =>
    if bytes ≠ [] ∧ bytes.length ≤ v.requested then
      -- the `int` is negative or zero: taken for an error, or for the end
      if toI32 bytes.length ≤ 0 then some .left
      else if (v.store bytes).last = newline then some .left
      else some (v.store bytes).head
    else none
  | .receiving _, .recvClosed         => some .left
  | .receiving _, .recvFailed         => some .left
  | _, _                              => none

/-- The loop has come somewhere with one message, whatever was in memory. -/
inductive Receives : List RecvInput → RecvLoop → Prop where
  | start (outside : ℤ → Byte) : Receives [] (RecvVars.fresh outside).head
  | step {inputs : List RecvInput} {l l' : RecvLoop} (run : Receives inputs l) (input : RecvInput)
      (hstep : l.step input = some l') : Receives (inputs ++ [input]) l'

/-- The bytes received for the message. -/
def receivedBytes (inputs : List RecvInput) : List Byte := inputs.flatMap RecvInput.bytes

/-- What is promised at a call of `recv`, when `x` has been received for the message. -/
structure RecvOk (v : RecvVars) (x : List Byte) : Prop where
  nonneg : 0 ≤ v.totalBytesRecvd
  lt : v.totalBytesRecvd < v.bufferCapacity
  capacity : ∃ j : ℕ, v.bufferCapacity = recvBufferLengthBytes * 2 ^ j
  requested_pos : 1 ≤ v.requested
  inside : v.totalBytesRecvd + v.requested ≤ v.bufferCapacity
  count : v.totalBytesRecvd = x.length
  contents : ∀ (i : ℕ) b, x[i]? = some b → v.memory i = b

/-! ### Short messages -/

/-- The variables hold `x`. -/
structure RecvVars.Holds (v : RecvVars) (x : List Byte) : Prop where
  capacity : ∃ j : ℕ, v.bufferCapacity = recvBufferLengthBytes * 2 ^ j
  capacity_le : v.bufferCapacity ≤ 2 ^ 32
  count : v.totalBytesRecvd = x.length
  count_le : v.totalBytesRecvd ≤ v.bufferCapacity
  contents : ∀ (i : ℕ) b, x[i]? = some b → v.memory i = b

/-- The loop has received `x`, and grows the buffer exactly if it is full. -/
def RecvLoop.Sound : RecvLoop → List Byte → Prop
  | .growing v, x   => v.Holds x ∧ v.totalBytesRecvd = v.bufferCapacity
  | .receiving v, x => v.Holds x ∧ v.totalBytesRecvd < v.bufferCapacity
  | .left, _        => True

variable {v : RecvVars} {x bytes : List Byte} {l l' : RecvLoop} {input : RecvInput}
  {inputs : List RecvInput}

namespace RecvVars.Holds

lemma requested_eq (hv : v.Holds x) :
    v.requested = v.bufferCapacity - v.totalBytesRecvd := by
  have hcount := hv.count
  have hle := hv.count_le
  have hmax := hv.capacity_le
  exact toU64_of_range (by omega) (by omega)

/-- The test does what it is meant to do. -/
lemma head_eq (hv : v.Holds x) : v.head =
    if v.totalBytesRecvd = v.bufferCapacity then .growing v else .receiving v := by
  have hcount := hv.count
  have hle := hv.count_le
  have hmax := hv.capacity_le
  rw [RecvVars.head, toU64_of_range (by omega) (by omega)]

lemma head (hv : v.Holds x) : v.head.Sound x := by
  rw [hv.head_eq]
  split_ifs with hfull
  · exact ⟨hv, hfull⟩
  · exact ⟨hv, lt_of_le_of_ne hv.count_le hfull⟩

lemma grow_bufferCapacity (hv : v.Holds x) (place : ℤ → Byte) :
    (v.grow place).bufferCapacity = v.bufferCapacity * 2 := by
  have hcount := hv.count
  have hle := hv.count_le
  have hmax := hv.capacity_le
  exact toU64_of_range (by omega) (by omega)

lemma grow (hv : v.Holds x) (hfull : v.totalBytesRecvd = v.bufferCapacity)
    (hshort : x.length < 2 ^ 31) (place : ℤ → Byte) : (v.grow place).Holds x := by
  have hcount := hv.count
  have hdouble := hv.grow_bufferCapacity place
  obtain ⟨j, hj⟩ := hv.capacity
  refine ⟨⟨j + 1, ?_⟩, by omega, hcount, ?_, ?_⟩
  · rw [hdouble, hj, pow_succ, mul_assoc]
  · rw [hdouble]
    change v.totalBytesRecvd ≤ _
    omega
  · intro i b hb
    obtain ⟨hi, -⟩ := List.getElem?_eq_some_iff.mp hb
    rw [RecvVars.grow_memory place (by omega) (by omega)]
    exact hv.contents i b hb

lemma store (hv : v.Holds x) (hfits : bytes.length ≤ v.requested)
    (hshort : (x ++ bytes).length < 2 ^ 31) : (v.store bytes).Holds (x ++ bytes) := by
  rw [List.length_append] at hshort
  rw [hv.requested_eq] at hfits
  have hcount := hv.count
  have hadd : (v.store bytes).totalBytesRecvd = v.totalBytesRecvd + bytes.length := by
    rw [RecvVars.store_totalBytesRecvd, toI32_of_range (by omega) (by omega)]
  refine ⟨hv.capacity, hv.capacity_le, ?_, ?_, ?_⟩
  · rw [hadd, List.length_append]
    omega
  · rw [hadd]
    change _ ≤ v.bufferCapacity
    omega
  · intro i b hb
    rcases Nat.lt_or_ge i x.length with hlt | hge
    · rw [List.getElem?_append_left hlt] at hb
      rw [RecvVars.store_memory_of_lt (by omega)]
      exact hv.contents i b hb
    · rw [List.getElem?_append_right hge] at hb
      exact RecvVars.store_memory_of_getElem? hb (by omega)

end RecvVars.Holds

lemma sound_fresh (outside : ℤ → Byte) : (RecvVars.fresh outside).head.Sound [] := by
  have hcapacity : (recvBufferLengthBytes : ℤ) ≤ 2 ^ 32 := by decide
  refine RecvVars.Holds.head ⟨⟨0, ?_⟩, hcapacity, rfl, Int.natCast_nonneg _, by simp⟩
  rw [pow_zero, mul_one]
  rfl

/-- What a step can do. -/
lemma RecvLoop.step_cases (hstep : l.step input = some l') :
    l' = .left ∨
    (∃ v place, l = .growing v ∧ input = .realloc (some place) ∧ l' = .receiving (v.grow place)) ∨
    (∃ v bytes, l = .receiving v ∧ input = .recv bytes ∧ bytes.length ≤ v.requested ∧
      l' = (v.store bytes).head) := by
  cases l with
  | left => cases hstep
  | growing v =>
    cases input with
    | realloc place =>
      cases place with
      | none =>
        cases hstep
        exact Or.inl rfl
      | some place =>
        cases hstep
        exact Or.inr (Or.inl ⟨v, place, rfl, rfl, rfl⟩)
    | _ => cases hstep
  | receiving v =>
    cases input with
    | recv bytes =>
      simp only [RecvLoop.step] at hstep
      split_ifs at hstep with hfits hnone hlast
      · cases hstep
        exact Or.inl rfl
      · cases hstep
        exact Or.inl rfl
      · cases hstep
        exact Or.inr (Or.inr ⟨v, bytes, rfl, rfl, hfits.2, rfl⟩)
    | recvClosed =>
      cases hstep
      exact Or.inl rfl
    | recvFailed =>
      cases hstep
      exact Or.inl rfl
    | realloc place => cases hstep

/-- One step of a message that stays short. -/
lemma RecvLoop.Sound.step (hl : l.Sound x) (hstep : l.step input = some l')
    (hshort : (x ++ input.bytes).length < 2 ^ 31) : l'.Sound (x ++ input.bytes) := by
  obtain rfl | ⟨v, place, rfl, rfl, rfl⟩ | ⟨v, bytes, rfl, rfl, hfits, rfl⟩ :=
    RecvLoop.step_cases hstep
  · trivial
  · obtain ⟨hv, hfull⟩ := hl
    have hx : x ++ (RecvInput.realloc (some place)).bytes = x := List.append_nil x
    rw [hx] at hshort ⊢
    obtain ⟨j, hj⟩ := hv.capacity
    have hpos : 0 < v.bufferCapacity := by
      rw [hj, recvBufferLengthBytes]
      positivity
    refine ⟨hv.grow hfull hshort place, ?_⟩
    rw [hv.grow_bufferCapacity]
    change v.totalBytesRecvd < _
    omega
  · exact (hl.1.store hfits hshort).head

lemma receivedBytes_concat (inputs : List RecvInput) (input : RecvInput) :
    receivedBytes (inputs ++ [input]) = receivedBytes inputs ++ input.bytes := by
  rw [receivedBytes, List.flatMap_append, List.flatMap_singleton]
  rfl

/-- The run lemma for messages that stay short. -/
lemma Receives.sound (run : Receives inputs l) (hshort : (receivedBytes inputs).length < 2 ^ 31) :
    l.Sound (receivedBytes inputs) := by
  induction run with
  | start outside => exact sound_fresh outside
  | step run input hstep ih =>
    rw [receivedBytes_concat] at hshort ⊢
    have hbefore := hshort
    rw [List.length_append] at hbefore
    exact (ih (by omega)).step hstep hshort

/-- The count is an `int`. -/
def RecvLoop.CountInt : RecvLoop → Prop
  | .growing v | .receiving v => v.totalBytesRecvd < 2 ^ 31
  | .left                     => True

lemma RecvVars.countInt_head (hv : v.totalBytesRecvd < 2 ^ 31) : v.head.CountInt := by
  rw [head]
  split_ifs
  · exact hv
  · exact hv

lemma Receives.countInt (run : Receives inputs l) : l.CountInt := by
  induction run with
  | start outside => exact RecvVars.countInt_head (show (0 : ℤ) < 2 ^ 31 by decide)
  | step run input hstep ih =>
    obtain rfl | ⟨v, place, rfl, rfl, rfl⟩ | ⟨v, bytes, rfl, rfl, -, rfl⟩ :=
      RecvLoop.step_cases hstep
    · trivial
    · exact ih
    · apply RecvVars.countInt_head
      rw [RecvVars.store_totalBytesRecvd]
      exact toI32_lt _

/-- A call of `recv` is as it should be exactly if less than `2 ^ 31` bytes have been received for
the message. -/
theorem recvOk_iff (run : Receives inputs (.receiving v)) :
    RecvOk v (receivedBytes inputs) ↔ (receivedBytes inputs).length < 2 ^ 31 := by
  constructor
  · intro h
    have hcount := h.count
    have hint : v.totalBytesRecvd < 2 ^ 31 := run.countInt
    omega
  · intro hshort
    obtain ⟨hv, hlt⟩ := run.sound hshort
    have hcount := hv.count
    have hrequested := hv.requested_eq
    exact ⟨by omega, hlt, hv.capacity, by omega, by omega, hcount, hv.contents⟩

/-- A full buffer has been grown, into memory that was not zero. -/
theorem recvOk_grown :
    RecvOk ((((RecvVars.fresh fun _ => 0).store (List.replicate 32 97)).grow fun _ => 10).store
      [98, 99]) (List.replicate 32 97 ++ [98, 99]) :=
  (recvOk_iff (.step (.step (.step (.start fun _ => 0) (.recv (List.replicate 32 97)) rfl)
    (.realloc (some fun _ => 10)) rfl) (.recv [98, 99]) rfl)).mpr (by decide)

/-! ### A message of 2 GiB -/

/-- Each call of `recv` returns as many bytes `A` as are asked for; the buffer is full after each
one, and has grown `k` times. -/
def fillInputs : ℕ → List RecvInput
  | 0     => [.recv (List.replicate 32 65)]
  | k + 1 => fillInputs k ++ [.realloc (some fun _ => 0)] ++
      [.recv (List.replicate (32 * 2 ^ k) 65)]

lemma receivedBytes_fill (k : ℕ) :
    receivedBytes (fillInputs k) = List.replicate (32 * 2 ^ k) 65 := by
  induction k with
  | zero => rfl
  | succ k ih =>
    rw [fillInputs, receivedBytes_concat, receivedBytes_concat, ih]
    change List.replicate _ _ ++ [] ++ List.replicate _ _ = _
    rw [List.append_nil, List.replicate_append_replicate, pow_succ]
    congr 1
    omega

/-- A chunk of `A` that does not end behind `2 ^ 31` bytes is taken, if no newline can be read in
front of the buffer. -/
lemma step_recv_letters {m : ℕ} (hpos : 1 ≤ m) (hm : m < 2 ^ 31) (hrequested : m ≤ v.requested)
    (htotal : 0 ≤ v.totalBytesRecvd) (hle : v.totalBytesRecvd + m ≤ 2 ^ 31)
    (hfront : ∀ i < 0, v.memory i ≠ newline) :
    (RecvLoop.receiving v).step (.recv (List.replicate m 65)) =
      some (v.store (List.replicate m 65)).head := by
  have hlength : ((List.replicate m (65 : Byte)).length : ℤ) = m := by rw [List.length_replicate]
  have hne : List.replicate m (65 : Byte) ≠ [] := by
    rw [ne_eq, List.replicate_eq_nil_iff]
    omega
  have hlast : (v.store (List.replicate m 65)).last ≠ newline := by
    rw [RecvVars.last, RecvVars.store_totalBytesRecvd, hlength]
    rcases lt_or_eq_of_le hle with hlt | heq
    · rw [toI32_of_range (by omega) (by omega), RecvVars.store_memory_of_getElem? (k := m - 1)
        (List.getElem?_replicate_of_lt (by omega)) (by omega)]
      decide
    · -- the count has overflowed
      have hwrapped : toI32 (v.totalBytesRecvd + m) = -2 ^ 31 := by
        rw [heq]
        rfl
      rw [hwrapped, RecvVars.store_memory_of_lt (by omega)]
      exact hfront _ (by decide)
  have hcount : ¬ toI32 (List.replicate m (65 : Byte)).length ≤ 0 := by
    rw [hlength, toI32_of_range (by omega) (by omega)]
    omega
  rw [RecvLoop.step, if_pos ⟨hne, hlength ▸ hrequested⟩, if_neg hcount, if_neg hlast]

/-- A full buffer grows and is filled again. -/
lemma step_fill {k : ℕ} (hk : k ≤ 25) (hcapacity : v.bufferCapacity = 32 * 2 ^ k)
    (hcount : v.totalBytesRecvd = 32 * 2 ^ k) (run : Receives (fillInputs k) (.growing v)) :
    ∃ v' : RecvVars, Receives (fillInputs (k + 1)) v'.head ∧ v'.bufferCapacity = 32 * 2 ^ (k + 1) ∧
      v'.totalBytesRecvd = toI32 (32 * 2 ^ (k + 1)) := by
  have hmax : (2 : ℤ) ^ k ≤ 2 ^ 25 := pow_le_pow_right₀ (by decide) hk
  have hpos : 0 < (2 : ℤ) ^ k := by positivity
  have hcast : ((32 * 2 ^ k : ℕ) : ℤ) = 32 * 2 ^ k := by push_cast; rfl
  have hgrown : (v.grow fun _ => 0).bufferCapacity = 32 * 2 ^ k * 2 := by
    rw [RecvVars.grow, hcapacity, toU64_of_range (by omega) (by omega)]
  have hcount' : (v.grow fun _ => 0).totalBytesRecvd = 32 * 2 ^ k := hcount
  have hrequested : (v.grow fun _ => 0).requested = 32 * 2 ^ k := by
    rw [RecvVars.requested, hgrown, hcount', toU64_of_range (by omega) (by omega)]
    omega
  have hfront : ∀ i < 0, (v.grow fun _ => 0).memory i ≠ newline := by
    intro i hi
    rw [RecvVars.grow_memory_of_neg _ hi]
    decide
  have hstep := step_recv_letters (v := v.grow fun _ => 0) (m := 32 * 2 ^ k)
    (by omega) (by omega) (by omega) (by omega) (by omega) hfront
  refine ⟨_, .step (.step run (.realloc (some fun _ => 0)) rfl) _ hstep, ?_, ?_⟩
  · rw [pow_succ, ← mul_assoc]
    exact hgrown
  · rw [RecvVars.store_totalBytesRecvd, hcount', List.length_replicate, hcast, pow_succ]
    congr 1
    omega

/-- Up to `2 ^ 30` bytes the buffer is full each time. -/
lemma receives_fill {k : ℕ} (hk : k ≤ 25) : ∃ v, Receives (fillInputs k) (.growing v) ∧
    v.bufferCapacity = 32 * 2 ^ k ∧ v.totalBytesRecvd = 32 * 2 ^ k := by
  induction k with
  | zero =>
    exact ⟨(RecvVars.fresh fun _ => 0).store (List.replicate 32 65),
      .step (.start fun _ => 0) (.recv _) rfl, rfl, rfl⟩
  | succ k ih =>
    obtain ⟨v, run, hcapacity, hcount⟩ := ih (by omega)
    obtain ⟨v', run', hcapacity', hcount'⟩ := step_fill (by omega) hcapacity hcount run
    have hmax : (2 : ℤ) ^ (k + 1) ≤ 2 ^ 25 := pow_le_pow_right₀ (by decide) hk
    have hpos : 0 < (2 : ℤ) ^ (k + 1) := by positivity
    rw [toI32_of_range (by omega) (by omega)] at hcount'
    refine ⟨v', ?_, hcapacity', hcount'⟩
    rwa [RecvVars.head, hcount', toU64_of_range (by omega) (by omega), if_pos hcapacity'.symm]
      at run'

/-- After `2 ^ 31` bytes without a newline the count is negative, and 4 GiB are asked for, to be
written before the buffer. -/
theorem not_recvOk_fill : ∃ v, Receives (fillInputs 26) (.receiving v) ∧
    receivedBytes (fillInputs 26) = List.replicate (32 * 2 ^ 26) 65 ∧
    v.totalBytesRecvd = -2 ^ 31 ∧ v.requested = 2 ^ 32 ∧
    ¬ RecvOk v (receivedBytes (fillInputs 26)) := by
  obtain ⟨v, run, hcapacity, hcount⟩ := receives_fill le_rfl
  obtain ⟨v', run', hcapacity', hcount'⟩ := step_fill le_rfl hcapacity hcount run
  have hnegative : v'.totalBytesRecvd = -2 ^ 31 := hcount'
  refine ⟨v', ?_, receivedBytes_fill 26, hnegative, ?_, ?_⟩
  · rwa [RecvVars.head, hnegative, hcapacity', if_neg (by decide)] at run'
  · rw [RecvVars.requested, hnegative, hcapacity']
    rfl
  · intro h
    have hnonneg := h.nonneg
    omega

/-! ### The sessions -/

/-- The loop at `l`, with the variables `v`, has the bytes and the capacity of `r`. -/
structure RecvVars.Runs (v : RecvVars) (r : Receiving) (l : RecvLoop) : Prop where
  short : r.totalBytesRecvd < 2 ^ 31
  capacity : v.bufferCapacity = r.bufferCapacity
  run : ∃ inputs, Receives inputs l ∧ receivedBytes inputs = r.received

variable {r : Receiving}

lemma RecvVars.Runs.sound (hr : v.Runs r l) : l.Sound r.received := by
  obtain ⟨inputs, run, hreceived⟩ := hr.run
  rw [← hreceived]
  apply run.sound
  rw [hreceived, r.length_received]
  exact hr.short

lemma RecvVars.runs_fresh (beyond : List Byte) :
    (fresh fun _ => 0).Runs (.fresh beyond) (.receiving (fresh fun _ => 0)) :=
  ⟨show 0 < 2 ^ 31 by decide, rfl, [], .start fun _ => 0, rfl⟩

lemma RecvVars.Runs.grow (hr : v.Runs r (.growing v)) {added : List Byte} (beyond : List Byte)
    (hadded : added.length = r.bufferCapacity) :
    (v.grow fun _ => 0).Runs (r.grow added beyond) (.receiving (v.grow fun _ => 0)) := by
  have hshort := hr.short
  obtain ⟨hv, -⟩ := hr.sound
  obtain ⟨inputs, run, hreceived⟩ := hr.run
  refine ⟨hshort, ?_, _, run.step (.realloc (some fun _ => 0)) rfl, ?_⟩
  · have hlength : (r.grow added beyond).bufferCapacity = r.bufferCapacity * 2 := by
      rw [Receiving.bufferCapacity, Receiving.grow, List.length_append, hadded, mul_two]
      rfl
    rw [hv.grow_bufferCapacity, hlength, hr.capacity, Nat.cast_mul]
    rfl
  · rw [receivedBytes_concat, hreceived, Receiving.received_grow]
    exact List.append_nil _

lemma RecvVars.Holds.last_eq {b : Byte} (hv : v.Holds x) (hlast : x.getLast? = some b) :
    v.last = b := by
  have hcount := hv.count
  rw [List.getLast?_eq_getElem?] at hlast
  obtain ⟨hlt, -⟩ := List.getElem?_eq_some_iff.mp hlast
  have hindex : v.totalBytesRecvd - 1 = (x.length - 1 : ℕ) := by omega
  rw [last, hindex]
  exact hv.contents _ b hlast

/-- Bytes that do not end the message are stored, and the loop goes where the session goes. -/
lemma RecvVars.Runs.store (hr : v.Runs r (.receiving v)) (hne : bytes ≠ [])
    (hfits : r.totalBytesRecvd + bytes.length ≤ r.bufferCapacity)
    (hshort : r.totalBytesRecvd + bytes.length < 2 ^ 31)
    (hlast : (r.received ++ bytes).getLast? ≠ some newline) :
    (v.store bytes).Runs (r.store bytes hfits)
      (if (r.store bytes hfits).totalBytesRecvd = (r.store bytes hfits).bufferCapacity then
        .growing (v.store bytes) else .receiving (v.store bytes)) := by
  have hcapacity := hr.capacity
  have hlength := r.length_received
  have hpos : 0 < bytes.length := List.length_pos_iff.mpr hne
  obtain ⟨hv, -⟩ := hr.sound
  have hcount := hv.count
  have hrequested : bytes.length ≤ v.requested := by
    rw [hv.requested_eq]
    omega
  have hx : (r.received ++ bytes).length < 2 ^ 31 := by
    rw [List.length_append]
    omega
  have hv' := hv.store hrequested hx
  have hnewline : (v.store bytes).last ≠ newline := by
    have hsome := List.getLast?_eq_some_getLast
      (List.append_ne_nil_of_right_ne_nil r.received hne)
    rw [hv'.last_eq hsome]
    intro heq
    rw [hsome, heq] at hlast
    exact hlast rfl
  have hstep : (RecvLoop.receiving v).step (.recv bytes) = some (v.store bytes).head := by
    rw [RecvLoop.step, if_pos ⟨hne, hrequested⟩, toI32_of_range (by omega) (by omega),
      if_neg (by omega), if_neg hnewline]
  have hcapacity' : (v.store bytes).bufferCapacity = (r.store bytes hfits).bufferCapacity := by
    rw [Receiving.bufferCapacity, Receiving.store, length_overwrite hfits]
    exact hcapacity
  have hcount' : (v.store bytes).totalBytesRecvd = (r.store bytes hfits).totalBytesRecvd := by
    rw [hv'.count, List.length_append, hlength]
    rfl
  have hfull : (r.store bytes hfits).totalBytesRecvd = (r.store bytes hfits).bufferCapacity ↔
      (v.store bytes).totalBytesRecvd = (v.store bytes).bufferCapacity := by
    rw [hcapacity', hcount', Nat.cast_inj]
  obtain ⟨inputs, run, hreceived⟩ := hr.run
  refine ⟨hshort, hcapacity', inputs ++ [.recv bytes], ?_, ?_⟩
  · simp only [hfull]
    rw [← hv'.head_eq]
    exact run.step _ hstep
  · rw [receivedBytes_concat, hreceived, Receiving.received_store]
    rfl

/-- Where the session is in its loop, the loop with its own numbers has come to the same place. -/
def Session.InLoop : Session → Prop
  | .growing r         => ∃ v : RecvVars, v.Runs r (.growing v)
  | .receiving r       => ∃ v : RecvVars, v.Runs r (.receiving v)
  | .starting | .ended => True

lemma inLoop_dispatchCommand (c : Option Command) : (dispatchCommand c).1.InLoop := by
  rcases (dispatchCommand_cases c).1 with h | h
  · rw [h]
    trivial
  · rw [h]
    trivial

/-- One step of a session. -/
lemma Session.InLoop.step {s s' : Session} {input : SessionInput} {out : List Command}
    (hs : s.InLoop) (hstep : s.step input = some (s', out)) : s'.InLoop := by
  cases steps_of_step hstep with
  | noMemory => trivial
  | allocated beyond => exact ⟨_, RecvVars.runs_fresh beyond⟩
  | tossed r => trivial
  | grown beyond hadded =>
    obtain ⟨v, hr⟩ := hs
    exact ⟨_, hr.grow beyond hadded⟩
  | complete hne hfits hshort hlast => exact inLoop_dispatchCommand _
  | full hne hfits hshort hlast hfull =>
    obtain ⟨v, hr⟩ := hs
    have hstored := hr.store hne hfits hshort hlast
    rw [if_pos hfull] at hstored
    exact ⟨_, hstored⟩
  | stored hne hfits hshort hlast hroom =>
    obtain ⟨v, hr⟩ := hs
    have hstored := hr.store hne hfits hshort hlast
    rw [if_neg hroom] at hstored
    exact ⟨_, hstored⟩
  | overflow hne hlong => trivial
  | closed r => trivial
  | failed r => trivial
  | ended => trivial

/-- Every session is in the loop as it is: the counts of `Session` are those of the machine. -/
theorem Serves.inLoop {C : Session → SessionInput → Prop} {inputs : List SessionInput}
    {s : Session} {cmds : List Command} (run : Serves C inputs s cmds) : s.InLoop := by
  induction run with
  | start => trivial
  | step run input hC hstep ih => exact ih.step hstep

end Aesd
