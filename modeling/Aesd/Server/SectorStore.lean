import Aesd.Server.Dispatch

/-!
# Partitions as stores of sectors

`write <part> <data> <offset>` and `nvmeReadPartitionSector` take the number of a sector within
the partition and do not use it: all transfers are of the partition's first sector.
-/

namespace Aesd

open Effect CInt

variable {d d' : Device} {part : PedPartition}

/-! ### The effect of one command -/

/-- A partition has a first sector. -/
lemma PedGeometry.fits_first (g : PedGeometry) : g.Fits 0 1 := by
  have := g.start_le_end
  rw [PedGeometry.Fits, PedGeometry.length]
  omega

lemma eval_reply {fd : ℤ} {text : Text} {u : Unit} :
    (reply fd text).Eval pedExecOk d u d' ↔ d' = d := by
  simp only [reply, sendOnSocketf]
  split_ifs
  · simp
  · simp
  · simp [pedExecOk, pedExec, Succeeds]

/-- The first sector is written, whatever the sector number. -/
lemma eval_nvmeWritePartitionSector {partNumber sectorNumber length : ℤ} {buffer : ℕ → Byte}
    {rc : NvmeStatus} (hpart : pedDiskGetPartition d.table (toI32 partNumber) = some part)
    (haesd : part.isAesd = true) :
    (nvmeWritePartitionSector partNumber sectorNumber buffer length).Eval pedExecOk d rc d' ↔
      rc = .ok ∧ d' = d.writeSectors buffer part.geom.start 1 := by
  have hfits := part.geom.fits_first
  simp only [nvmeWritePartitionSector, openDisk, nvmeCheckNameSafety, printf, Prog.perform_bind,
    Prog.pure_eq_ret, Prog.ret_bind, Prog.call_bind, Prog.eval_call, Prog.eval_ret,
    pedExecOk_pedDeviceGet, pedExecOk_pedDeviceOpen, pedExecOk_pedDiskNew, pedExecOk_printf,
    pedExecOk_pedGeometryWrite, pedExecOk_pedGeometrySync, and_assoc, exists_and_left,
    exists_eq_left, exists_const, hpart, haesd, if_true, hfits, true_and, add_zero]

/-- The first sector is read, whatever the sector number. -/
lemma eval_nvmeReadPartitionSector {partNumber sectorNumber : ℤ}
    {res : NvmeStatus × List Byte} (hsize : 0 < d.dev.sectorSize)
    (hpart : pedDiskGetPartition d.table (toI32 partNumber) = some part) :
    (nvmeReadPartitionSector partNumber sectorNumber d.dev.sectorSize).Eval pedExecOk d res d' ↔
      res = (.ok, d.sectors part.geom.start) ∧ d' = d := by
  have hfits := part.geom.fits_first
  have hcount : toI32 ((d.dev.sectorSize : ℤ) / d.dev.sectorSize) = 1 := by
    rw [Int.ediv_self (by omega)]
    decide
  have hread : d.readSectors part.geom.start 1 = d.sectors part.geom.start := by
    simp [Device.readSectors]
  simp only [nvmeReadPartitionSector, openPartition, openDisk, printf, Prog.perform_bind,
    Prog.pure_eq_ret, Prog.ret_bind, Prog.eval_call, Prog.eval_ret, pedExecOk_pedDeviceGet,
    pedExecOk_pedDeviceOpen, pedExecOk_pedDiskNew, pedExecOk_printf, pedExecOk_pedGeometryRead,
    and_assoc, exists_and_left, exists_eq_left, exists_const, hpart, hfits, true_and, add_zero,
    hcount, hread]

/-- `write <part> <data> <offset>`, without the partition: its other tokens, and the bytes that
follow the data in memory. -/
structure WriteArgs where
  data : Text
  offset : Text
  past : ℕ → Byte

/-- The tokens of the command. -/
def WriteArgs.command (w : WriteArgs) (num : Text) : Command where
  cmd := str "write"
  arg1 := num
  arg2 := w.data
  arg3 := w.offset

/-- The device after the data has been written to sector `first`. -/
def WriteArgs.store (w : WriteArgs) (first : ℤ) (d : Device) : Device :=
  d.writeSectors (tokenMemory w.data w.past) first 1

lemma eval_write {fd : ℤ} {num : Text} {w : WriteArgs}
    (hpart : pedDiskGetPartition d.table (atoi num) = some part) (haesd : part.isAesd = true) :
    (write fd w.past (w.command num)).Eval pedExecOk d () d' ↔
      d' = w.store part.geom.start d := by
  rw [atoi, ← toI32_toU32, ← atoi] at hpart
  simp only [write, WriteArgs.command, sectorOffsetArg, printf, Prog.perform_bind, Prog.pure_eq_ret,
    Prog.ret_bind, Prog.eval_bind, Prog.eval_call, Prog.eval_ret, pedExecOk_printf, eval_reply,
    eval_nvmeWritePartitionSector hpart haesd, and_assoc, exists_and_left, exists_eq_left,
    exists_const, reduceCtorEq, if_false, ne_eq, not_true_eq_false, true_and]
  rfl

/-! ### Sequences of commands -/

/-- The commands are given one after the other, and libparted does what it is asked for. -/
def Writes (fd : ℤ) (num : Text) : List WriteArgs → Device → Device → Prop
  | [], d, d'      => d' = d
  | w :: ws, d, d' => ∃ d₁, (write fd w.past (w.command num)).Eval pedExecOk d () d₁ ∧
      Writes fd num ws d₁ d'

/-- The data of the last write to sector `k` of the partition. -/
def lastWrite (ws : List WriteArgs) (k : ℤ) : Option Text :=
  (ws.filter fun w => atoi w.offset = k).getLast?.map (·.data)

/-- What a sector should hold: the data that was written to it last, or its initial contents. -/
def Holds (written : Option Text) (initial sector : List Byte) : Prop :=
  match written with
  | some data => data <+: sector
  | none      => sector = initial

lemma writes_iff {fd : ℤ} {num : Text} {ws : List WriteArgs}
    (hpart : pedDiskGetPartition d.table (atoi num) = some part) (haesd : part.isAesd = true) :
    Writes fd num ws d d' ↔ d' = ws.foldl (fun d w => w.store part.geom.start d) d := by
  induction ws generalizing d with
  | nil => rfl
  | cons w ws ih =>
    simp only [Writes, eval_write hpart haesd, exists_eq_left, List.foldl_cons]
    exact ih hpart

lemma WriteArgs.store_sectors (w : WriteArgs) (first : ℤ) :
    (w.store first d).sectors = Function.update d.sectors first
      (sectorOf d.dev.sectorSize (tokenMemory w.data w.past) 0) := by
  funext x
  by_cases hx : x = first
  · subst hx
    simp [WriteArgs.store, Device.writeSectors]
  · have hout : ¬ (first ≤ x ∧ x < first + 1) := by omega
    simp only [WriteArgs.store, Device.writeSectors, if_neg hout, Function.update_of_ne hx]

lemma dev_foldl_store (ws : List WriteArgs) (first : ℤ) :
    (ws.foldl (fun d w => w.store first d) d).dev = d.dev := by
  induction ws generalizing d with
  | nil => rfl
  | cons w ws ih => exact ih

lemma table_foldl_store (ws : List WriteArgs) (first : ℤ) :
    (ws.foldl (fun d w => w.store first d) d).table = d.table := by
  induction ws generalizing d with
  | nil => rfl
  | cons w ws ih => exact ih

/-- Only the first sector of the partition changes, and it has what was written last. -/
lemma sectors_foldl_store (ws : List WriteArgs) (first : ℤ) :
    (ws.foldl (fun d w => w.store first d) d).sectors =
      ws.getLast?.elim d.sectors fun w => Function.update d.sectors first
        (sectorOf d.dev.sectorSize (tokenMemory w.data w.past) 0) := by
  induction ws using List.reverseRecOn with
  | nil => rfl
  | append_singleton ws w ih =>
    rw [List.foldl_append, List.foldl_cons, List.foldl_nil, WriteArgs.store_sectors,
      dev_foldl_store, ih, List.getLast?_concat]
    cases ws.getLast? with
    | none => rfl
    | some v => exact Function.update_idem ..

/-- Data of at most one sector is found at the beginning of the sector written. -/
lemma prefix_sectorOf {data : Text} {past : ℕ → Byte} {size : ℕ} (h : data.length ≤ size) :
    data <+: sectorOf size (tokenMemory data past) 0 := by
  rw [List.prefix_iff_eq_take]
  refine List.ext_getElem ?_ fun i hi _ => ?_
  · simp [sectorOf, h]
  · simp [sectorOf, tokenMemory, List.getElem?_append_left hi, List.getElem?_eq_getElem hi]

/-! ### The law of a store -/

/-- A token that `write` can be given as data: not empty, without NUL and blanks, and no longer
than a sector. -/
def DataToken (size : ℕ) (data : Text) : Prop :=
  data ≠ [] ∧ data.length ≤ size ∧ ∀ b ∈ data, b ≠ 0 ∧ isspace b = false

/-- The partition is a store of sectors for writes at the given offsets: whatever it holds and
whatever is written, afterwards every sector holds what was written to it last, or is as it was,
and so is the sector `q` that `nvmeReadPartitionSector` returns. -/
def SectorStore (fd : ℤ) (d : Device) (num : Text) (part : PedPartition) (offsets : List Text)
    (q : ℤ) : Prop :=
  ∀ (sectors : ℤ → List Byte) (ws : List WriteArgs) (d' : Device),
    (∀ x, (sectors x).length = d.dev.sectorSize) → ws.map (·.offset) = offsets →
    (∀ w ∈ ws, DataToken d.dev.sectorSize w.data) →
    Writes fd num ws { d with sectors := sectors } d' →
    (∀ k, 0 ≤ k → k < part.geom.length →
      Holds (lastWrite ws k) (sectors (part.geom.start + k)) (d'.sectors (part.geom.start + k))) ∧
    ∃ bytes, (nvmeReadPartitionSector (toU32 (atoi num)) (toU32 q) d.dev.sectorSize).Eval
        pedExecOk d' (.ok, bytes) d' ∧
      Holds (lastWrite ws q) (sectors (part.geom.start + q)) bytes

lemma lastWrite_of_forall_ne {ws : List WriteArgs} {k : ℤ} (h : ∀ w ∈ ws, atoi w.offset ≠ k) :
    lastWrite ws k = none := by
  have hnil : ws.filter (fun w => atoi w.offset = k) = [] := by
    rw [List.filter_eq_nil_iff]
    intro w hw
    simpa using h w hw
  rw [lastWrite, hnil]
  rfl

lemma lastWrite_of_forall_eq {ws : List WriteArgs} {k : ℤ} (h : ∀ w ∈ ws, atoi w.offset = k) :
    lastWrite ws k = ws.getLast?.map (·.data) := by
  have hself : ws.filter (fun w => atoi w.offset = k) = ws := by
    rw [List.filter_eq_self]
    intro w hw
    simpa using h w hw
  rw [lastWrite, hself]

lemma lastWrite_of_mem {ws : List WriteArgs} {w : WriteArgs} (hw : w ∈ ws) :
    ∃ v ∈ ws, lastWrite ws (atoi w.offset) = some v.data := by
  have hmem : w ∈ ws.filter fun v => atoi v.offset = atoi w.offset :=
    List.mem_filter.mpr ⟨hw, by simp⟩
  obtain ⟨v, hv⟩ := Option.isSome_iff_exists.mp (List.getLast?_isSome.mpr (List.ne_nil_of_mem hmem))
  refine ⟨v, (List.mem_filter.mp (List.mem_of_getLast? hv)).1, ?_⟩
  rw [lastWrite, hv]
  rfl

/-- The first sector holds what was written last to the partition. -/
lemma holds_first {ws : List WriteArgs} {sectors : ℤ → List Byte} {size : ℕ} {first : ℤ}
    (hdata : ∀ w ∈ ws, DataToken size w.data) :
    Holds (ws.getLast?.map (·.data)) (sectors first)
      (ws.getLast?.elim sectors (fun w => Function.update sectors first
        (sectorOf size (tokenMemory w.data w.past) 0)) first) := by
  cases hlast : ws.getLast? with
  | none => rfl
  | some w =>
    simp only [Option.map_some, Option.elim_some, Function.update_self]
    exact prefix_sectorOf (hdata w (List.mem_of_getLast? hlast)).2.1

/-- The other sectors do not change. -/
lemma sectors_foldl_store_of_ne (ws : List WriteArgs) {first x : ℤ} (hx : x ≠ first) :
    (ws.foldl (fun d w => w.store first d) d).sectors x = d.sectors x := by
  rw [sectors_foldl_store]
  cases ws.getLast? with
  | none => rfl
  | some w => exact Function.update_of_ne hx ..

section Law

variable {fd : ℤ} {num : Text} {offsets : List Text} {q : ℤ}

/-- With all offsets 0 the law holds. -/
lemma sectorStore_of_zero (hsize : 0 < d.dev.sectorSize)
    (hpart : pedDiskGetPartition d.table (atoi num) = some part) (haesd : part.isAesd = true)
    (hzero : ∀ o ∈ offsets, atoi o = 0) : SectorStore fd d num part offsets 0 := by
  intro sectors ws d' hlen hws hdata hwrites
  have hzero' : ∀ w ∈ ws, atoi w.offset = 0 := by
    intro w hw
    apply hzero
    rw [← hws]
    exact List.mem_map_of_mem hw
  have hd' := (writes_iff (d := { d with sectors := sectors }) hpart haesd).mp hwrites
  have hpart' : pedDiskGetPartition d'.table (toI32 (toU32 (atoi num))) = some part := by
    rw [hd', table_foldl_store, atoi, toI32_toU32]
    exact hpart
  have hdev : d'.dev = d.dev := by rw [hd', dev_foldl_store]
  have hfirst : Holds (lastWrite ws 0) (sectors part.geom.start) (d'.sectors part.geom.start) := by
    rw [lastWrite_of_forall_eq hzero', hd', sectors_foldl_store]
    exact holds_first hdata
  refine ⟨fun k hk hk' => ?_, d'.sectors part.geom.start, ?_, ?_⟩
  · by_cases hk0 : k = 0
    · subst hk0
      rw [add_zero]
      exact hfirst
    · -- nothing has been written to any other sector
      have hnone : lastWrite ws k = none := lastWrite_of_forall_ne fun w hw h => by
        rw [hzero' w hw] at h
        exact hk0 h.symm
      rw [hnone, hd', sectors_foldl_store_of_ne ws (by omega)]
      rfl
  · rw [← hdev, eval_nvmeReadPartitionSector (by rw [hdev]; exact hsize) hpart']
    exact ⟨rfl, rfl⟩
  · rw [add_zero]
    exact hfirst

/-- Contents that tell the first sector of the partition from the others. -/
def markedSectors (size : ℕ) (first x : ℤ) : List Byte :=
  List.replicate size (if x = first then 65 else 66)

/-- A write of `A`. -/
def writeA (offset : Text) : WriteArgs := ⟨str "A", offset, fun _ => 0⟩

/-- A sector begins with `A` as the first marked one does, or with `B` as the others do. -/
lemma not_prefix_replicate {size : ℕ} : ¬ str "A" <+: List.replicate size 66 := by
  intro h
  cases size with
  | zero => exact absurd (List.prefix_nil.mp h) (by decide)
  | succ n =>
    rw [List.replicate_succ] at h
    exact absurd (List.cons_prefix_cons.mp h).1 (by decide)

/-- After any writes of `A` the first sector begins with an `A`. -/
lemma prefix_first (offsets : List Text) (hsize : 0 < d.dev.sectorSize) {first : ℤ}
    (hd : d.sectors = markedSectors d.dev.sectorSize first) :
    str "A" <+: ((offsets.map writeA).foldl (fun d w => w.store first d) d).sectors first := by
  rw [sectors_foldl_store]
  cases hlast : (offsets.map writeA).getLast? with
  | none =>
    obtain ⟨n, hn⟩ := Nat.exists_eq_succ_of_ne_zero hsize.ne'
    simp only [Option.elim_none, hd, markedSectors, if_true, hn, List.replicate_succ]
    exact List.cons_prefix_cons.mpr ⟨rfl, List.nil_prefix⟩
  | some w =>
    obtain ⟨o, -, rfl⟩ := List.mem_map.mp (List.mem_of_getLast? hlast)
    simp only [Option.elim_some, Function.update_self]
    exact prefix_sectorOf hsize

/-- The law fails as soon as one offset is not 0. -/
lemma zero_of_sectorStore (hsize : 0 < d.dev.sectorSize)
    (hpart : pedDiskGetPartition d.table (atoi num) = some part) (haesd : part.isAesd = true)
    (hoffsets : ∀ o ∈ offsets, 0 ≤ atoi o ∧ atoi o < part.geom.length)
    (h : SectorStore fd d num part offsets q) : (∀ o ∈ offsets, atoi o = 0) ∧ q = 0 := by
  set sectors := markedSectors d.dev.sectorSize part.geom.start with hsectors
  set d' := (offsets.map writeA).foldl (fun d w => w.store part.geom.start d)
    { d with sectors := sectors } with hd'
  have hA : DataToken d.dev.sectorSize (str "A") := by
    refine ⟨by decide, hsize, fun b hb => ?_⟩
    obtain rfl : b = 65 := List.mem_singleton.mp hb
    decide
  have hdata : ∀ w ∈ offsets.map writeA, w.data = str "A" := by simp [writeA]
  obtain ⟨hlaw, bytes, hread, hbytes⟩ := h sectors (offsets.map writeA) d'
    (fun x => by simp [hsectors, markedSectors]) (by simp [Function.comp_def, writeA])
    (fun w hw => by rw [hdata w hw]; exact hA)
    ((writes_iff (d := { d with sectors := sectors }) hpart haesd).mpr rfl)
  have hother : ∀ k, k ≠ 0 →
      sectors (part.geom.start + k) = List.replicate d.dev.sectorSize 66 := by
    intro k hk
    rw [hsectors, markedSectors, if_neg (by omega)]
  have hzero : ∀ o ∈ offsets, atoi o = 0 := by
    intro o ho
    by_contra hne
    have hk := hlaw (atoi o) (hoffsets o ho).1 (hoffsets o ho).2
    obtain ⟨v, hv, hlast⟩ := lastWrite_of_mem (List.mem_map_of_mem (f := writeA) ho)
    rw [show lastWrite (offsets.map writeA) (atoi o) = some v.data from hlast, hdata v hv, hd',
      sectors_foldl_store_of_ne _ (by omega)] at hk
    have hbegins : str "A" <+: sectors (part.geom.start + atoi o) := hk
    rw [hother _ hne] at hbegins
    exact not_prefix_replicate hbegins
  refine ⟨hzero, ?_⟩
  by_contra hne
  have hnone : lastWrite (offsets.map writeA) q = none := by
    refine lastWrite_of_forall_ne fun w hw hwq => ?_
    obtain ⟨o, ho, rfl⟩ := List.mem_map.mp hw
    rw [show atoi (writeA o).offset = 0 from hzero o ho] at hwq
    exact hne hwq.symm
  have hpart' : pedDiskGetPartition d'.table (toI32 (toU32 (atoi num))) = some part := by
    rw [hd', table_foldl_store, atoi, toI32_toU32]
    exact hpart
  have hdev : d'.dev = d.dev := by rw [hd', dev_foldl_store]
  rw [← hdev, eval_nvmeReadPartitionSector (by rw [hdev]; exact hsize) hpart', Prod.mk.injEq]
    at hread
  obtain ⟨⟨-, rfl⟩, -⟩ := hread
  rw [hnone, hother q hne] at hbytes
  have hbegins := prefix_first (d := { d with sectors := sectors }) offsets hsize rfl
  rw [← hd', show d'.sectors part.geom.start = _ from hbytes] at hbegins
  exact not_prefix_replicate hbegins

/-- A partition is a store of sectors exactly for writes and reads at offset 0. -/
theorem sectorStore_iff (hsize : 0 < d.dev.sectorSize)
    (hpart : pedDiskGetPartition d.table (atoi num) = some part) (haesd : part.isAesd = true)
    (hoffsets : ∀ o ∈ offsets, 0 ≤ atoi o ∧ atoi o < part.geom.length) :
    SectorStore fd d num part offsets q ↔ (∀ o ∈ offsets, atoi o = 0) ∧ q = 0 := by
  constructor
  · exact zero_of_sectorStore hsize hpart haesd hoffsets
  · rintro ⟨hzero, rfl⟩
    exact sectorStore_of_zero hsize hpart haesd hzero

end Law

/-- A partition of ten sectors. -/
def tenSectors : PedPartition := aesdPart 1 (between 10 19)

theorem sectorStore_atZero :
    SectorStore 4 (diskWith [tenSectors]) (str "1") tenSectors [str "0", str "00"] 0 :=
  (sectorStore_iff (by decide) (by decide) (by decide) (by decide)).mpr (by decide)

/-- `write 1 <data> 1` changes sector 0. -/
theorem sectorStore_fails_atOne :
    ¬ SectorStore 4 (diskWith [tenSectors]) (str "1") tenSectors [str "1"] 0 := by
  intro h
  have hzero := zero_of_sectorStore (by decide) (by decide) (by decide) (by decide) h
  exact absurd (hzero.1 (str "1") (by decide)) (by decide)

end Aesd
