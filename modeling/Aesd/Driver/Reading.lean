import Aesd.Driver.Contents

/-!
# Reading the device

`aesd_read` copies from one message. As long as fewer than `2 ^ 31` bytes are stored, successive
calls return the contents piece by piece (`aesdRead_tiles`). A call that does not stay inside the
stored data needs a position that the end test does not recognise: any position but zero when
nothing is stored, and positions behind the message with which the sum of the sizes exceeds
`2 ^ 31` (`aesdRead_inside_iff`).
-/

namespace Aesd

open Effect CInt Bytes

variable {dev : AesdDev} {h h' : Heap} {ms : List (List Byte)} {count fPos : ℤ} {res : ReadResult}

/-! ### One call -/

lemma aesdRead_of_none (hfind : findCircEntry dev (toU64 fPos) = none) :
    aesdRead dev count fPos = .ret ⟨0, fPos, []⟩ := by
  rw [aesdRead, hfind]
  rfl

lemma aesdRead_of_some {slot : Fin maxWriteOperationsSupported} {entryOffset n : ℤ}
    (hfind : findCircEntry dev (toU64 fPos) = some (slot, entryOffset))
    (hn : n = min (toU64 ((dev.circBuffer.entry slot).size - entryOffset)) count) :
    aesdRead dev count fPos =
      .call (.copyToUser (dev.circBuffer.entry slot).buffptr entryOffset n) fun r =>
        if r.1 ≠ 0 then .ret ⟨-EFAULT, fPos, r.2⟩ else .ret ⟨toI64 n, toI64 (fPos + n), r.2⟩ := by
  have hmin : (if toU64 ((dev.circBuffer.entry slot).size - entryOffset) < count then
      toU64 ((dev.circBuffer.entry slot).size - entryOffset) else count) = n := by
    rw [hn]
    split_ifs with hlt
    · exact (min_eq_left hlt.le).symm
    · exact (min_eq_right (not_lt.mp hlt)).symm
  subst hmin
  rw [aesdRead, hfind]
  rfl

/-- A call that asks for no byte returns zero. -/
lemma aesdRead_of_some_zero {slot : Fin maxWriteOperationsSupported} {entryOffset : ℤ}
    (hfind : findCircEntry dev (toU64 fPos) = some (slot, entryOffset))
    (hn : 0 = min (toU64 ((dev.circBuffer.entry slot).size - entryOffset)) count)
    (hfPos : -2 ^ 63 ≤ fPos) (hfPos' : fPos < 2 ^ 63) :
    (aesdRead dev count fPos).Eval kernelExec h res h' ↔ res = ⟨0, fPos, []⟩ ∧ h' = h := by
  rw [aesdRead_of_some hfind hn, add_zero, toI64_of_range hfPos hfPos']
  constructor
  · rintro ⟨⟨rc, data⟩, h₁, ⟨rfl, hcopy⟩, heval⟩
    have hdata : rc = 0 ∧ data = [] := by
      rcases hcopy with ⟨-, hrc, hdata⟩ | ⟨p, bytes, -, -, -, -, hrc, hrc', hdata⟩
      · exact ⟨hrc, hdata⟩
      · obtain rfl : rc = 0 := le_antisymm hrc' hrc
        exact ⟨rfl, hdata⟩
    obtain ⟨rfl, rfl⟩ := hdata
    exact heval
  · rintro ⟨rfl, rfl⟩
    exact ⟨((0 : ℤ), []), h', ⟨rfl, Or.inl ⟨rfl, rfl, rfl⟩⟩, rfl, rfl⟩

variable {j o k n : ℕ} {m : List Byte}

/-- A call that finds byte `o` of message `j` copies from there on, up to the end of the
message. -/
lemma aesdRead_of_stored (hms : HoldsMessages dev.circBuffer h ms) (hm : ms[j]? = some m)
    (hfind : findCircEntry dev (toU64 fPos) = some (dev.circBuffer.place j, (o : ℤ)))
    (ho : o < m.length) (hn : n = min (m.length - o) k) :
    ∃ p, h p = some m ∧ dev.circBuffer.entry (dev.circBuffer.place j) = ⟨some p, m.length⟩ ∧
      aesdRead dev k fPos = .call (.copyToUser (some p) o n) fun r =>
        if r.1 ≠ 0 then .ret ⟨-EFAULT, fPos, r.2⟩
        else .ret ⟨toI64 n, toI64 (fPos + n), r.2⟩ := by
  obtain ⟨p, hp, hentry⟩ := hms.stored j m hm
  have hsmall := hms.small m (List.mem_of_getElem? hm)
  refine ⟨p, hp, hentry, ?_⟩
  have hcount : (n : ℤ) =
      min (toU64 ((dev.circBuffer.entry (dev.circBuffer.place j)).size - o)) k := by
    rw [hentry]
    show (n : ℤ) = min (toU64 ((m.length : ℤ) - o)) k
    rw [toU64_of_range (by omega) (by omega)]
    omega
  have hread := aesdRead_of_some hfind hcount
  rw [hentry] at hread
  exact hread

/-- What such a call returns if the copy does not fail. -/
lemma aesdRead_eval_stored (hms : HoldsMessages dev.circBuffer h ms) (hm : ms[j]? = some m)
    (hfind : findCircEntry dev (toU64 fPos) = some (dev.circBuffer.place j, (o : ℤ)))
    (ho : o < m.length) (hn : n = min (m.length - o) k) (hfPos : 0 ≤ fPos)
    (hfPos' : fPos < 2 ^ 62) (hok : res.retval ≠ -EFAULT) :
    (aesdRead dev k fPos).Eval kernelExec h res h' ↔
      res = ⟨n, fPos + n, (m.drop o).take n⟩ ∧ h' = h := by
  have hsmall := hms.small m (List.mem_of_getElem? hm)
  obtain ⟨p, hp, -, hread⟩ := aesdRead_of_stored (k := k) hms hm hfind ho hn
  rw [hread, toI64_of_range (x := n) (by omega) (by omega), toI64_of_range (by omega) (by omega)]
  constructor
  · rintro ⟨⟨rc, data⟩, h₁, ⟨rfl, hcopy⟩, heval⟩
    dsimp only at hcopy heval
    split_ifs at heval with hrc
    · -- `copy_to_user` has failed, which is excluded
      obtain ⟨rfl, -⟩ := heval
      exact absurd rfl hok
    · obtain ⟨rfl, rfl⟩ := heval
      obtain rfl : rc = 0 := not_ne_iff.mp hrc
      rcases hcopy with ⟨hzero, -, rfl⟩ | ⟨q, bytes, hq, hbytes, -, -, -, -, rfl⟩
      · obtain rfl : n = 0 := by exact_mod_cast hzero
        exact ⟨by simp, rfl⟩
      · cases hq
        rw [hp, Option.some.injEq] at hbytes
        subst hbytes
        exact ⟨by simp, rfl⟩
  · rintro ⟨rfl, rfl⟩
    refine ⟨((0 : ℤ), (m.drop o).take n), h', ⟨rfl, Or.inr ?_⟩, rfl, rfl⟩
    exact ⟨p, m, rfl, hp, by omega, by omega, le_rfl, by omega, by simp⟩

/-! ### Successive calls -/

/-- Successive calls of `aesd_read` on one file from a position on, one for each count, in none of
which the copy to the user fails. -/
inductive SuccessiveReads (dev : AesdDev) :
    Heap → ℤ → List ℕ → List ReadResult → Heap → Prop where
  | nil (h : Heap) (fPos : ℤ) : SuccessiveReads dev h fPos [] [] h
  | cons {h h₁ h' : Heap} {fPos : ℤ} {count : ℕ} {counts : List ℕ} {res : ReadResult}
      {results : List ReadResult} (heval : (aesdRead dev count fPos).Eval kernelExec h res h₁)
      (hok : res.retval ≠ -EFAULT) (rest : SuccessiveReads dev h₁ res.fPos counts results h') :
      SuccessiveReads dev h fPos (count :: counts) (res :: results) h'

/-- The results are consecutive pieces of `C` from position `p` on. Each call advances the position
by what it returns, and only one at the end returns zero. -/
def Tiles (C : List Byte) : ℕ → List ReadResult → Prop
  | _, []             => True
  | p, res :: results =>
    ∃ n : ℕ, res.data = (C.drop p).take n ∧ res.data.length = n ∧ res.retval = n ∧
      res.fPos = (p + n : ℕ) ∧ (n = 0 → p = C.length) ∧ Tiles C (p + n) results

/-- Below `2 ^ 31` stored bytes a position in the contents is found in the message it is in. -/
lemma HoldsMessages.exists_found {buffer : CircularBuffer} (hms : HoldsMessages buffer h ms)
    (hsmall : ms.flatten.length < 2 ^ 31) {p : ℕ} (hp : p < ms.flatten.length) :
    ∃ j m o, ms[j]? = some m ∧ o < m.length ∧ p = bytesBefore ms j + o ∧
      buffer.findEntryOffsetForFpos p = some (buffer.place j, (o : ℤ)) := by
  rcases hms.findEntryOffsetForFpos_cases (f := p) (by omega) (by omega) with
    ⟨hzero, -⟩ | ⟨j, hj, -, hle, hlt, -⟩ | ⟨-, -, hle, -⟩ | ⟨j, -, -, hlarge, -, -⟩
  · -- there are no bytes, but there is one at the position
    omega
  · cases hm : ms[j]? with
    | none =>
      have hsame : bytesBefore ms (j + 1) = bytesBefore ms j := by
        rw [bytesBefore, List.take_add_one, hm, Option.toList_none, List.append_nil, bytesBefore]
      omega
    | some m =>
      have hsucc := bytesBefore_succ_of_getElem? hm
      have hp' : bytesBefore ms j + (p - bytesBefore ms j) = p := by omega
      have hfind := hms.findEntryOffsetForFpos_eq_some hsmall hm (o := p - bytesBefore ms j)
        (by omega)
      rw [hp'] at hfind
      exact ⟨j, m, _, hm, by omega, hp'.symm, hfind⟩
  · -- the position is behind the contents, and also inside them
    omega
  · -- the contents are too small for an overflow
    have htotal := bytesBefore_le ms (j + 1)
    omega

/-- At the end of the contents a call returns zero. -/
lemma aesdRead_eval_end (hms : HoldsMessages dev.circBuffer h ms) (hring : dev.circBufferPtr ≠ none)
    (hsmall : ms.flatten.length < 2 ^ 31) (k : ℕ) :
    (aesdRead dev k ms.flatten.length).Eval kernelExec h res h' ↔
      res = ⟨0, ms.flatten.length, []⟩ ∧ h' = h := by
  have hfind : findCircEntry dev (toU64 ms.flatten.length) =
      dev.circBuffer.findEntryOffsetForFpos ms.flatten.length := by
    rw [findCircEntry, if_neg hring, toU64_of_range (by omega) (by omega)]
  rcases hms.findEntryOffsetForFpos_cases (f := ms.flatten.length) (by omega) (by omega) with
    ⟨hzero, heq⟩ | ⟨j, hj, -, -, hlt, -⟩ | ⟨-, -, -, heq⟩ | ⟨j, -, -, hlarge, -, -⟩
  · -- an empty buffer: its first entry is read, which has no bytes
    refine aesdRead_of_some_zero (hfind.trans heq) ?_ (by omega) (by omega)
    rw [hms.size_outOffs hzero, hzero]
    exact (min_eq_left (Nat.cast_nonneg k)).symm
  · have htotal := bytesBefore_le ms (j + 1)
    omega
  · rw [aesdRead_of_none (hfind.trans heq)]
    rfl
  · have htotal := bytesBefore_le ms (j + 1)
    omega

/-- One call inside the contents: it returns at least one byte, and those that are there. -/
lemma aesdRead_eval_piece (hms : HoldsMessages dev.circBuffer h ms)
    (hring : dev.circBufferPtr ≠ none) (hsmall : ms.flatten.length < 2 ^ 31) {p k : ℕ}
    (hp : p ≤ ms.flatten.length) (hk : 0 < k) :
    ∃ n : ℕ, ((ms.flatten.drop p).take n).length = n ∧ n ≤ k ∧ (n = 0 → p = ms.flatten.length) ∧
      ∀ res h', res.retval ≠ -EFAULT → ((aesdRead dev k p).Eval kernelExec h res h' ↔
        res = ⟨n, (p + n : ℕ), (ms.flatten.drop p).take n⟩ ∧ h' = h) := by
  rcases Nat.lt_or_eq_of_le hp with hlt | rfl
  · obtain ⟨j, m, o, hm, ho, rfl, hfind⟩ := hms.exists_found hsmall hlt
    have hfind' : findCircEntry dev (toU64 (bytesBefore ms j + o : ℕ)) =
        some (dev.circBuffer.place j, (o : ℤ)) := by
      rw [findCircEntry, if_neg hring, toU64_of_range (by omega) (by omega), hfind]
    have hpiece : (ms.flatten.drop (bytesBefore ms j + o)).take (min (m.length - o) k) =
        (m.drop o).take (min (m.length - o) k) := by
      rw [drop_bytesBefore hm ho.le,
        List.take_append_of_le_length (by rw [List.length_drop]; omega)]
    refine ⟨min (m.length - o) k, ?_, by omega, by omega, ?_⟩
    · rw [hpiece, List.length_take, List.length_drop]
      omega
    · intro res h' hok
      rw [aesdRead_eval_stored hms hm hfind' ho rfl (by omega) (by omega) hok, hpiece,
        Nat.cast_add (bytesBefore ms j + o)]
  · -- at the end there is nothing to read
    refine ⟨0, by simp, hk.le, fun _ => rfl, ?_⟩
    intro res h' hok
    rw [aesdRead_eval_end hms hring hsmall]
    simp

variable {p : ℕ} {counts : List ℕ} {results : List ReadResult}

lemma exists_successiveReads (hms : HoldsMessages dev.circBuffer h ms)
    (hring : dev.circBufferPtr ≠ none) (hsmall : ms.flatten.length < 2 ^ 31)
    (hp : p ≤ ms.flatten.length) (hcounts : ∀ k ∈ counts, 0 < k) :
    ∃ results, SuccessiveReads dev h p counts results h := by
  induction counts generalizing p with
  | nil => exact ⟨[], .nil h p⟩
  | cons k counts ih =>
    obtain ⟨n, hlength, -, -, hread⟩ := aesdRead_eval_piece hms hring hsmall hp
      (hcounts k List.mem_cons_self)
    have hp' : p + n ≤ ms.flatten.length := by
      rw [List.length_take, List.length_drop] at hlength
      omega
    obtain ⟨results, rest⟩ := ih hp' fun k' hk' => hcounts k' (List.mem_cons_of_mem k hk')
    have hok : (n : ℤ) ≠ -EFAULT := by
      unfold EFAULT
      omega
    exact ⟨_, .cons ((hread ⟨n, (p + n : ℕ), _⟩ h hok).mpr ⟨rfl, rfl⟩) hok rest⟩

/-- The run lemma: successive calls return consecutive pieces of the contents. -/
lemma SuccessiveReads.tiles (hms : HoldsMessages dev.circBuffer h ms)
    (hring : dev.circBufferPtr ≠ none) (hsmall : ms.flatten.length < 2 ^ 31)
    (hp : p ≤ ms.flatten.length) (hcounts : ∀ k ∈ counts, 0 < k)
    (run : SuccessiveReads dev h p counts results h') :
    Tiles ms.flatten p results := by
  induction counts generalizing p h results with
  | nil =>
    cases run
    trivial
  | cons k counts ih =>
    cases run with
    | cons heval hok rest =>
    obtain ⟨n, hlength, -, hzero, hread⟩ := aesdRead_eval_piece hms hring hsmall hp
      (hcounts k List.mem_cons_self)
    obtain ⟨rfl, rfl⟩ := (hread _ _ hok).mp heval
    refine ⟨n, rfl, hlength, rfl, rfl, hzero, ih hms ?_ ?_ rest⟩
    · rw [List.length_take, List.length_drop] at hlength
      omega
    · intro k' hk'
      exact hcounts k' (List.mem_cons_of_mem k hk')

lemma SuccessiveReads.length_eq {fPos : ℤ} (run : SuccessiveReads dev h fPos counts results h') :
    results.length = counts.length := by
  induction run with
  | nil => rfl
  | cons _ _ _ ih => rw [List.length_cons, List.length_cons, ih]

/-- As many pieces as there are bytes left are all of them. -/
lemma Tiles.flatten_eq {C : List Byte} (ht : Tiles C p results)
    (henough : C.length - p ≤ results.length) :
    (results.map ReadResult.data).flatten = C.drop p := by
  induction results generalizing p with
  | nil =>
    rw [List.drop_eq_nil_of_le (Nat.sub_eq_zero_iff_le.mp (Nat.le_zero.mp henough))]
    rfl
  | cons res results ih =>
    obtain ⟨n, hdata, -, -, -, hzero, hrest⟩ := ht
    rw [List.length_cons] at henough
    have htail := ih hrest (by omega)
    rw [List.map_cons, List.flatten_cons, htail, hdata, ← List.drop_drop, List.take_append_drop]

/-- Successive reads tile the stored contents. From any position in them and with any positive
counts the calls return; whatever they return are consecutive pieces, and enough of them give
everything up to the end. -/
theorem aesdRead_tiles {s : CharDevice} (hs : s.Reachable) (hsmall : (contents s).length < 2 ^ 31)
    (hp : p ≤ (contents s).length) (hcounts : ∀ k ∈ counts, 0 < k) :
    (∃ results h', SuccessiveReads s.driver.dev s.heap p counts results h') ∧
      ∀ results h', SuccessiveReads s.driver.dev s.heap p counts results h' →
        Tiles (contents s) p results ∧
          ((contents s).length - p ≤ counts.length →
            (results.map ReadResult.data).flatten = (contents s).drop p) := by
  obtain ⟨results, run⟩ := exists_successiveReads hs.holds hs.hasRing hsmall hp hcounts
  refine ⟨⟨results, _, run⟩, ?_⟩
  intro results h' run
  have htiles := run.tiles hs.holds hs.hasRing hsmall hp hcounts
  refine ⟨htiles, ?_⟩
  intro henough
  exact htiles.flatten_eq (henough.trans run.length_eq.ge)

theorem aesdRead_tiles_line : ∃ (s : CharDevice) (results : List ReadResult) (h' : Heap),
    s.Reachable ∧ SuccessiveReads s.driver.dev s.heap 0 [1, 1] results h' ∧
      (results.map ReadResult.data).flatten = [97, 10] := by
  obtain ⟨s, hs, hms, -⟩ := exists_reachable_line
  have hcontents : contents s = [97, 10] := by
    rw [contents, hms]
    rfl
  have hcounts : ∀ k ∈ [1, 1], 0 < k := by simp
  have htiles := aesdRead_tiles hs (by rw [hcontents]; decide) (Nat.zero_le _) hcounts
  obtain ⟨results, h', run⟩ := htiles.1
  have hall := (htiles.2 results h' run).2 (by rw [hcontents]; decide)
  rw [hcontents] at hall
  exact ⟨s, results, h', hs, run, hall⟩

/-! ### Reads that leave the stored data -/

/-- Nothing but bytes of an entry is handed to `copy_to_user`, and at or behind the end of the
contents nothing at all: the call returns zero and leaves the position. -/
def ReadsInside (s : CharDevice) (count fPos : ℤ) : Prop :=
  (∀ p offset n h', (aesdRead s.driver.dev count fPos).Calls kernelExec s.heap
      (.copyToUser p offset n) h' →
    ∃ slot, p = (s.driver.dev.circBuffer.entry slot).buffptr ∧
      ∀ i, offset ≤ i → i < offset + n → i < (s.driver.dev.circBuffer.entry slot).size) ∧
  ((contents s).length ≤ fPos →
    (∀ p offset n h', (aesdRead s.driver.dev count fPos).Calls kernelExec s.heap
      (.copyToUser p offset n) h' → n = 0) ∧
    (∃ res h', (aesdRead s.driver.dev count fPos).Eval kernelExec s.heap res h') ∧
    ∀ res h', (aesdRead s.driver.dev count fPos).Eval kernelExec s.heap res h' →
      res.retval = 0 ∧ res.fPos = fPos ∧ res.data = [])

variable {s : CharDevice}

/-- The only call that `aesd_read` makes. -/
lemma aesdRead_calls_of_some {slot : Fin maxWriteOperationsSupported} {entryOffset n : ℤ}
    (hfind : findCircEntry dev (toU64 fPos) = some (slot, entryOffset))
    (hn : n = min (toU64 ((dev.circBuffer.entry slot).size - entryOffset)) count)
    {op : KernelOp} :
    (aesdRead dev count fPos).Calls kernelExec h op h' ↔
      op = .copyToUser (dev.circBuffer.entry slot).buffptr entryOffset n ∧ h' = h := by
  rw [aesdRead_of_some hfind hn, Prog.calls_call]
  constructor
  · rintro (hop | ⟨⟨rc, data⟩, h₁, -, hrest⟩)
    · exact hop
    · dsimp only at hrest
      split_ifs at hrest
      · exact hrest.elim
      · exact hrest.elim
  · exact Or.inl

lemma readsInside_of_none (hfind : findCircEntry s.driver.dev (toU64 fPos) = none) :
    ReadsInside s count fPos := by
  rw [ReadsInside, aesdRead_of_none hfind]
  refine ⟨fun _ _ _ _ hcalls => hcalls.elim, fun _ => ⟨fun _ _ _ _ hcalls => hcalls.elim, ?_, ?_⟩⟩
  · exact ⟨_, _, rfl, rfl⟩
  · rintro res h' ⟨rfl, -⟩
    exact ⟨rfl, rfl, rfl⟩

/-- A call that copies nothing stays inside. -/
lemma readsInside_of_zero {slot : Fin maxWriteOperationsSupported} {entryOffset : ℤ}
    (hfind : findCircEntry s.driver.dev (toU64 fPos) = some (slot, entryOffset))
    (hn : 0 = min (toU64 ((s.driver.dev.circBuffer.entry slot).size - entryOffset)) count)
    (hfPos : 0 ≤ fPos) (hfPos' : fPos < 2 ^ 63) : ReadsInside s count fPos := by
  have heval {res : ReadResult} {h' : Heap} :
      (aesdRead s.driver.dev count fPos).Eval kernelExec s.heap res h' ↔
        res = ⟨0, fPos, []⟩ ∧ h' = s.heap :=
    aesdRead_of_some_zero hfind hn (by omega) hfPos'
  constructor
  · intro p offset n h' hcalls
    obtain ⟨hop, -⟩ := (aesdRead_calls_of_some hfind hn).mp hcalls
    cases hop
    exact ⟨slot, rfl, fun i hi hi' => absurd hi' (by omega)⟩
  · intro _
    refine ⟨?_, ⟨_, _, heval.mpr ⟨rfl, rfl⟩⟩, ?_⟩
    · intro p offset n h' hcalls
      obtain ⟨hop, -⟩ := (aesdRead_calls_of_some hfind hn).mp hcalls
      cases hop
      rfl
    · intro res h' hres
      obtain ⟨rfl, -⟩ := heval.mp hres
      exact ⟨rfl, rfl, rfl⟩

/-- A call that finds an entry stays inside exactly if it asks for nothing or finds a byte of the
entry or the place behind its last one. -/
lemma readsInside_iff_of_some (hs : s.Reachable) {slot : Fin maxWriteOperationsSupported}
    {entryOffset : ℤ} (hfind : findCircEntry s.driver.dev (toU64 fPos) = some (slot, entryOffset))
    (hoffset : 0 ≤ entryOffset) (hoffset' : entryOffset < 2 ^ 63)
    (hsize : 0 ≤ (s.driver.dev.circBuffer.entry slot).size)
    (hsize' : (s.driver.dev.circBuffer.entry slot).size ≤ 2 ^ 30)
    (hinside : entryOffset < (s.driver.dev.circBuffer.entry slot).size →
      fPos < (contents s).length)
    (hfPos : 0 ≤ fPos) (hfPos' : fPos < 2 ^ 63) (hcount : 0 ≤ count) :
    ReadsInside s count fPos ↔
      count = 0 ∨ entryOffset ≤ (s.driver.dev.circBuffer.entry slot).size := by
  rcases hcount.eq_or_lt with rfl | hpos
  · refine iff_of_true ?_ (Or.inl rfl)
    exact readsInside_of_zero hfind (min_eq_right (toU64_nonneg _)).symm hfPos hfPos'
  · rw [or_iff_right hpos.ne']
    rcases lt_trichotomy entryOffset (s.driver.dev.circBuffer.entry slot).size with
      hlt | heq | hgt
    · -- inside the entry: the bytes copied are some of its own
      refine iff_of_true ⟨?_, fun hend => absurd hend (not_le.mpr (hinside hlt))⟩ hlt.le
      intro p offset n h' hcalls
      obtain ⟨hop, -⟩ := (aesdRead_calls_of_some hfind rfl).mp hcalls
      cases hop
      refine ⟨slot, rfl, ?_⟩
      intro i _ hi
      rw [toU64_of_range (by omega) (by omega)] at hi
      have hmin := min_le_left ((s.driver.dev.circBuffer.entry slot).size - entryOffset) count
      omega
    · -- at its end: nothing is copied
      refine iff_of_true (readsInside_of_zero hfind ?_ hfPos hfPos') heq.le
      rw [heq, sub_self]
      exact (min_eq_left hcount).symm
    · -- the bytes left are negative, and as a `size_t` more than any count
      refine iff_of_false ?_ (not_le.mpr hgt)
      rintro ⟨hbytes, -⟩
      have hleft : 0 < toU64 ((s.driver.dev.circBuffer.entry slot).size - entryOffset) := by
        rw [toU64]
        omega
      obtain ⟨slot', hptr, hlt⟩ :=
        hbytes _ _ _ _ ((aesdRead_calls_of_some hfind rfl).mpr ⟨rfl, rfl⟩)
      have hsame := hs.holds.size_eq hptr
      have hfirst := hlt entryOffset le_rfl (lt_add_of_pos_right _ (lt_min hleft hpos))
      omega

/-- The message with which the sizes exceed `2 ^ 31` is the only one of its kind. -/
lemma bytesBefore_crossing_unique {i j : ℕ} (hi : bytesBefore ms i < 2 ^ 31)
    (hi' : 2 ^ 31 < bytesBefore ms (i + 1)) (hj : bytesBefore ms j < 2 ^ 31)
    (hj' : 2 ^ 31 ≤ bytesBefore ms (j + 1)) : i = j := by
  rcases Nat.lt_trichotomy i j with hlt | heq | hgt
  · have hmono := bytesBefore_mono ms (show i + 1 ≤ j by omega)
    omega
  · exact heq
  · have hmono := bytesBefore_mono ms (show j + 1 ≤ i by omega)
    omega

/-- Exactly when a call stays inside the stored data: it asks for nothing, or its position is zero
if nothing is stored and not behind a message with which the sizes exceed `2 ^ 31`. -/
theorem aesdRead_inside_iff (hs : s.Reachable) (hfPos : 0 ≤ fPos) (hfPos' : fPos < 2 ^ 63)
    (hcount : 0 ≤ count) :
    ReadsInside s count fPos ↔
      count = 0 ∨ ((contents s).length = 0 → fPos = 0) ∧
        ∀ j, bytesBefore (storedMessages s.driver.dev.circBuffer s.heap) j < 2 ^ 31 →
          2 ^ 31 < bytesBefore (storedMessages s.driver.dev.circBuffer s.heap) (j + 1) →
          fPos ≤ bytesBefore (storedMessages s.driver.dev.circBuffer s.heap) (j + 1) := by
  have hms := hs.holds
  have hfind : findCircEntry s.driver.dev (toU64 fPos) =
      s.driver.dev.circBuffer.findEntryOffsetForFpos fPos := by
    rw [findCircEntry, if_neg hs.hasRing, toU64_of_range hfPos (by omega)]
  have hcontents : contents s = (storedMessages s.driver.dev.circBuffer s.heap).flatten := rfl
  generalize storedMessages s.driver.dev.circBuffer s.heap = ms at hms hcontents ⊢
  rcases hms.findEntryOffsetForFpos_cases hfPos hfPos' with
    ⟨hzero, heq⟩ | ⟨j, hj, hsum, hle, hlt, heq⟩ | ⟨hnonempty, hsmall, -, heq⟩ |
    ⟨j, hj, hsum, hlarge, hle, heq⟩
  · have hsize := hms.size_outOffs hzero
    rw [readsInside_iff_of_some hs (hfind.trans heq) hfPos hfPos' hsize.ge (by omega)
      (by omega) hfPos hfPos' hcount, hsize, hcontents]
    apply or_congr_right
    have hnone : ∀ j, bytesBefore ms j < 2 ^ 31 → 2 ^ 31 < bytesBefore ms (j + 1) →
        fPos ≤ bytesBefore ms (j + 1) := by
      intro j _ hlarge
      have htotal := bytesBefore_le ms (j + 1)
      omega
    exact ⟨fun hle => ⟨fun _ => le_antisymm hle hfPos, hnone⟩, fun hstart => (hstart.1 hzero).le⟩
  · -- the position is in a message
    have hsucc := hms.bytesBefore_succ hj
    have hsize := hms.size_range hj
    have htotal := bytesBefore_le ms (j + 1)
    rw [readsInside_iff_of_some hs (hfind.trans heq) (by omega) (by omega) hsize.1 hsize.2
      (by rw [hcontents]; omega) hfPos hfPos' hcount]
    refine iff_of_true (Or.inr (by omega)) (Or.inr ⟨by rw [hcontents]; omega, ?_⟩)
    intro i _ hlarge
    have hij : j ≤ i := by
      by_contra hlt'
      have hmono := bytesBefore_mono ms (show i + 1 ≤ j by omega)
      omega
    have hmono := bytesBefore_mono ms (show j + 1 ≤ i + 1 by omega)
    omega
  · -- the position is behind the contents, and nothing is found
    refine iff_of_true (readsInside_of_none (hfind.trans heq))
      (Or.inr ⟨by rw [hcontents]; omega, ?_⟩)
    intro i _ hlarge
    have htotal := bytesBefore_le ms (i + 1)
    omega
  · -- the walk has stopped at the sum that overflows
    have hsucc := hms.bytesBefore_succ hj
    have hsize := hms.size_range hj
    have htotal := bytesBefore_le ms (j + 1)
    have hpositive : (contents s).length ≠ 0 := by
      rw [hcontents]
      omega
    split_ifs at heq with hedge
    · refine iff_of_true (readsInside_of_none (hfind.trans heq))
        (Or.inr ⟨fun hzero => absurd hzero hpositive, ?_⟩)
      intro i hi hi'
      obtain rfl := bytesBefore_crossing_unique hi hi' hsum hlarge
      omega
    · rw [readsInside_iff_of_some hs (hfind.trans heq) (by omega) (by omega) hsize.1 hsize.2
        (by omega) hfPos hfPos' hcount]
      apply or_congr_right
      constructor
      · intro hend
        refine ⟨fun hzero => absurd hzero hpositive, ?_⟩
        intro i hi hi'
        obtain rfl := bytesBefore_crossing_unique hi hi' hsum hlarge
        omega
      · rintro ⟨-, hbound⟩
        have := hbound j hsum (by omega)
        omega

theorem aesdRead_inside_line : ∃ s : CharDevice, s.Reachable ∧ contents s = [97, 10] ∧
    ReadsInside s 5 2 := by
  obtain ⟨s, hs, hms, -⟩ := exists_reachable_line
  refine ⟨s, hs, by rw [contents, hms]; rfl, ?_⟩
  rw [aesdRead_inside_iff hs (by decide) (by decide) (by decide), contents, hms]
  refine Or.inr ⟨fun hzero => absurd hzero (by decide), ?_⟩
  intro j _ hlarge
  have htotal := bytesBefore_le [[97, 10]] (j + 1)
  exact absurd (hlarge.trans_le htotal) (by decide)

/-- After one byte that does not end a message nothing is stored, but the position is one, and a
call of `aesd_read` on the same file copies through `NULL`. -/
theorem aesdRead_leaves_contents : ∃ s : CharDevice, s.Reachable ∧ contents s = [] ∧
    s.fPos 0 = 1 ∧
    (aesdRead s.driver.dev 1 (s.fPos 0)).Calls kernelExec s.heap (.copyToUser none 1 1) s.heap ∧
    ¬ ReadsInside s 1 (s.fPos 0) := by
  obtain ⟨block, h₀, driver, h₁, fPos, hinit, run⟩ := exists_reachable_fresh
  have hwrite := Prog.eval_of_run (p := aesdWrite (freshDevice block).driver [97] 0)
    (s := (freshDevice block).heap) kernelExec_of_respond [some 1, some 0, some 0] rfl
  have hend : ((0 : ℕ) : ℤ) ≤ 1 := by decide
  refine ⟨_, ⟨h₀, driver, h₁, fPos, hinit, run.tail (.write 0 [97] hwrite)⟩, rfl, rfl, ?_, ?_⟩
  · exact Or.inl ⟨rfl, rfl⟩
  · rintro ⟨-, hpast⟩
    have hzero := (hpast hend).1 none 1 1 _ (Or.inl ⟨rfl, rfl⟩)
    cases hzero

end Aesd
