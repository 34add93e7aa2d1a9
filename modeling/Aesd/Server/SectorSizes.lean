import Aesd.Server.Acts
import Aesd.Server.CreateDelete
import Aesd.Server.SectorStore

/-!
# Sizes in bytes and in sectors

`read` sizes its buffer with sectors of 512 bytes, in an `int`; `nvmeReadPartitionSector` divides
the size by the sector size of the device; `nvmeWritePartitionSector` writes one sector of the
device, whatever the length it is given. Each of the three is right under a condition on the
numbers: `readBufferOk_iff`, `fillsBuffer_iff`, `writesLength_iff`.
-/

namespace Aesd

open Effect CInt

variable {α : Type} {d d' : Device} {part : PedPartition} {partNumber sectorNumber : ℤ}

/-! ### Transfers that succeed -/

/-- A result that is none of the failures comes from the body. -/
lemma eval_openDisk_iff {fail : NvmeStatus → α} {body : PedDevice → PedDisk → Sys α} {res : α}
    (hfail : ∀ rc, rc ≠ .ok → res ≠ fail rc) :
    (openDisk (fun _ => pure ()) fail body).Eval pedExec d res d' ↔
      (body d.dev d.table).Eval pedExec d res d' := by
  constructor
  · exact eval_openDisk (fun _ _ _ _ h => h) (fun _ _ _ h => h.2) hfail
  · intro h
    exact ⟨_, _, ⟨rfl, Or.inr rfl⟩, true, _, rfl, _, _, ⟨rfl, Or.inr rfl⟩, h⟩

/-- What a successful read delivers. -/
lemma eval_nvmeReadPartitionSector_ok {length : ℤ} {bytes : List Byte} :
    (nvmeReadPartitionSector partNumber sectorNumber length).Eval pedExec d (.ok, bytes) d' ↔
      ∃ part, pedDiskGetPartition d.table (toI32 partNumber) = some part ∧
        part.geom.Fits 0 (toI32 (length / d.dev.sectorSize)) ∧
        bytes = d.readSectors part.geom.start (toI32 (length / d.dev.sectorSize)) ∧ d' = d := by
  have hfail : ∀ rc, rc ≠ .ok → ((.ok, bytes) : NvmeStatus × List Byte) ≠ (rc, []) := by
    rintro rc hrc heq
    exact hrc (congrArg Prod.fst heq).symm
  rw [nvmeReadPartitionSector, openPartition, eval_openDisk_iff hfail]
  cases pedDiskGetPartition d.table (toI32 partNumber) with
  | none => simp [printf, pedExec]
  | some part =>
    simp only [printf, Prog.perform_bind, Prog.eval_call, pedExec, Option.some.injEq,
      exists_eq_left', add_zero]
    constructor
    · rintro ⟨_, _, rfl, read, _, ⟨rfl, hread⟩, h⟩
      cases read with
      | none => cases h.1
      | some bytes' =>
        obtain ⟨heq, rfl⟩ := h
        cases heq
        obtain ⟨hfits, rfl⟩ := hread _ rfl
        exact ⟨hfits, rfl, rfl⟩
    · rintro ⟨hfits, rfl, rfl⟩
      refine ⟨(), _, rfl, some _, _, ⟨rfl, ?_⟩, rfl, rfl⟩
      intro bytes hbytes
      exact ⟨hfits, (Option.some.inj hbytes).symm⟩

/-- What a successful write leaves. -/
lemma eval_nvmeWritePartitionSector_ok {buffer : ℕ → Byte} {length : ℤ}
    (hpart : pedDiskGetPartition d.table (toI32 partNumber) = some part)
    (haesd : part.isAesd = true) :
    (nvmeWritePartitionSector partNumber sectorNumber buffer length).Eval pedExec d .ok d' ↔
      d' = d.writeSectors buffer part.geom.start 1 := by
  have hfail : ∀ rc, rc ≠ .ok → NvmeStatus.ok ≠ id rc := fun rc hrc => hrc.symm
  have hfits := part.geom.fits_first
  rw [nvmeWritePartitionSector, eval_openDisk_iff hfail, hpart]
  simp only [nvmeCheckNameSafety, printf, Prog.perform_bind, Prog.pure_eq_ret, Prog.ret_bind,
    Prog.call_bind, Prog.eval_call, pedExec, haesd, if_true, add_zero, exists_const, exists_eq_left]
  constructor
  · rintro ⟨written, d₁, ⟨rfl, -, rfl⟩ | ⟨rfl, -⟩, h⟩
    · obtain ⟨synced, _, rfl, h⟩ := h
      cases synced with
      | false => cases h.1
      | true => exact h.2
    · cases h.1
  · rintro rfl
    exact ⟨true, _, Or.inl ⟨rfl, hfits, rfl⟩, true, _, rfl, rfl, rfl⟩

/-! ### The size of the read buffer -/

/-- `readBufferSize`: the product in an `int`, and that as a `size_t`. -/
def readBufferSize (sectorsToRead : ℤ) : ℤ := toU64 (toI32 (sectorsToRead * 512))

/-- `readBufferSize - 1`, where the terminator is put. -/
def terminatorIndex (readBufferSize : ℤ) : ℤ := toU64 (readBufferSize - 1)

/-- `read` after `nvmeReadPartitionSector` has returned. -/
def finishRead (clientFD : ℤ) (printAsHex : Bool) (readBufferSize : ℤ)
    (readBuffer : Option (ℕ × (ℕ → Byte))) (rc : NvmeStatus) (bytes : List Byte) : Sys Unit :=
  if rc = .partDne then do
    reply clientFD (str "Specified partition does not exist.\n")
    sys (.free (readBuffer.map (·.1)))
  else if rc ≠ .ok then do
    reply clientFD (str "Encountered an error during read\n")
    sys (.free (readBuffer.map (·.1)))
  else
    match readBuffer with
    | none => fault
    | some (block, leftover) => do
      showSectors clientFD printAsHex (readBufferContents readBufferSize bytes leftover)
      sys (.free (some block))

/-- The size is that of the allocation, of the read and of what is shown. -/
lemma read_eq {fd : ℤ} {c : Command} {arg1 arg3 : Text} (harg1 : c.arg1 = some arg1)
    (harg3 : c.arg3 = some arg3) (hpos : 0 < atoi arg3) :
    read fd c = (do
      let sectorOffset ← sectorOffsetArg fd c.arg2
      let size := readBufferSize (atoi arg3)
      printf (str "readbuffersize: " ++ dec (toI64 size) ++ str "\n")
      let readBuffer ← sys (.malloc size)
      reply fd (str "Reading " ++ dec (toI64 size) ++ str " bytes from part " ++
        dec (atoi arg1) ++ str " at sector " ++ dec sectorOffset ++ str "\n")
      let (rc, bytes) ← nvmeReadPartitionSector (toU32 (atoi arg1)) (toU32 sectorOffset) size
      finishRead fd (c.extra.any fun extra => strncmp extra (str "-b") 3 == 0) size readBuffer
        rc bytes) := by
  rw [read, harg1, harg3]
  simp only [if_neg (not_le.mpr hpos)]
  congr 1
  funext sectorOffset
  congr 1
  funext _
  congr 1
  funext readBuffer
  congr 1
  funext _
  congr 1
  funext res
  unfold finishRead
  split_ifs
  · rfl
  · rfl
  · cases readBuffer <;> rfl

/-- The size is that of `n` sectors of 512 bytes, and the terminator, which is put after a
successful read, is put into the allocated block. -/
structure ReadBufferOk (n : ℤ) (readBuffer : Option (ℕ × (ℕ → Byte))) (rc : NvmeStatus) :
    Prop where
  size_eq : readBufferSize n = 512 * n
  inside : rc = .ok →
    readBuffer ≠ none ∧ terminatorIndex (readBufferSize n) < readBufferSize n

/-- The sizes are right exactly below `2 ^ 22` sectors, if `malloc` does not fail or the read
does. -/
theorem readBufferOk_iff {n : ℤ} (hpos : 0 < n) (hint : n < 2 ^ 31)
    (readBuffer : Option (ℕ × (ℕ → Byte))) (rc : NvmeStatus) :
    ReadBufferOk n readBuffer rc ↔ n < 2 ^ 22 ∧ (rc = .ok → readBuffer ≠ none) := by
  have hsize : readBufferSize n = 512 * n ↔ n < 2 ^ 22 := by
    simp only [readBufferSize, toU64, toI32]
    omega
  constructor
  · rintro ⟨heq, hinside⟩
    exact ⟨hsize.mp heq, fun hrc => (hinside hrc).1⟩
  · rintro ⟨hlt, hblock⟩
    have heq := hsize.mpr hlt
    refine ⟨heq, fun hrc => ⟨hblock hrc, ?_⟩⟩
    rw [terminatorIndex, heq, toU64_of_range (by omega) (by omega)]
    omega

theorem readBufferOk_one :
    ReadBufferOk 1 (some (0, fun _ => 0)) .ok ∧ ReadBufferOk 1 none .error :=
  ⟨(readBufferOk_iff (by decide) (by decide) _ _).mpr ⟨by decide, fun _ => nofun⟩,
    (readBufferOk_iff (by decide) (by decide) _ _).mpr ⟨by decide, nofun⟩⟩

/-- For 8388608 sectors the block has no bytes, and the terminator is put before it. -/
theorem not_readBufferOk_8388608 :
    readBufferSize 8388608 = 0 ∧ terminatorIndex 0 = 2 ^ 64 - 1 ∧
      ¬ ReadBufferOk 8388608 (some (0, fun _ => 0)) .ok := by
  refine ⟨by decide, by decide, ?_⟩
  rintro ⟨heq, -⟩
  exact absurd heq (by decide)

/-! ### The sectors read -/

/-- A successful read of `512 * n` bytes fills the buffer, with the data of `n` sectors of the
partition, so that nothing of what `malloc` left in it is shown. -/
def FillsBuffer (d : Device) (partNumber sectorNumber : ℤ) (n : ℕ) : Prop :=
  ∀ bytes d', (nvmeReadPartitionSector partNumber sectorNumber (512 * n)).Eval pedExec d
      (.ok, bytes) d' →
    bytes.length = 512 * n ∧
    (∃ part, pedDiskGetPartition d.table (toI32 partNumber) = some part ∧
      bytes = d.readSectors part.geom.start n) ∧
    (∀ leftover leftover', readBufferContents (512 * n) bytes leftover =
      readBufferContents (512 * n) bytes leftover') ∧
    ∀ geom offset count d₁,
      (nvmeReadPartitionSector partNumber sectorNumber (512 * n)).Calls pedExec d
        (.pedGeometryRead geom offset count) d₁ → count = n

/-- Sectors have the size that the device says. -/
def Device.SectorsSized (d : Device) : Prop := ∀ x, (d.sectors x).length = d.dev.sectorSize

lemma Device.SectorsSized.length_readSectors (hd : d.SectorsSized) (first count : ℤ) :
    (d.readSectors first count).length = count.toNat * d.dev.sectorSize := by
  simp [Device.readSectors, List.length_flatMap, hd _]

/-- A buffer that was read into completely has the bytes that were read, but for the last one. -/
lemma readBufferContents_eq_set {size : ℕ} {bytes : List Byte} (hlength : bytes.length = size)
    (leftover : ℕ → Byte) :
    readBufferContents size bytes leftover = bytes.set (size - 1) 0 := by
  have hcontents : (List.range size).map (fun i => bytes[i]?.getD (leftover i)) = bytes := by
    apply List.ext_getElem
    · rw [List.length_map, List.length_range, hlength]
    · intro i _ hi
      rw [List.getElem_map, List.getElem_range, List.getElem?_eq_getElem hi, Option.getD_some]
  rw [readBufferContents, Int.toNat_natCast, hcontents]

/-- A full buffer hides what was there before. -/
lemma readBufferContents_of_length {n : ℕ} {bytes : List Byte} (hlength : bytes.length = n)
    (leftover leftover' : ℕ → Byte) :
    readBufferContents n bytes leftover = readBufferContents n bytes leftover' := by
  rw [readBufferContents_eq_set hlength, readBufferContents_eq_set hlength]

/-- A read of as many sectors as were asked for, which hold as many bytes. -/
lemma fillsBuffer_of_count {n : ℕ} (hsectors : d.SectorsSized)
    (hcount : toI32 (512 * n / d.dev.sectorSize) = n) (hbytes : n * d.dev.sectorSize = 512 * n) :
    FillsBuffer d partNumber sectorNumber n := by
  intro bytes d' h
  rw [eval_nvmeReadPartitionSector_ok, hcount] at h
  obtain ⟨part, hpart, -, rfl, rfl⟩ := h
  have hlength : (d'.readSectors part.geom.start n).length = 512 * n := by
    rw [hsectors.length_readSectors, Int.toNat_natCast, hbytes]
  refine ⟨hlength, ⟨part, hpart, rfl⟩, ?_, ?_⟩
  · intro leftover leftover'
    have hsame := readBufferContents_of_length hlength leftover leftover'
    rwa [Nat.cast_mul, Nat.cast_ofNat] at hsame
  · intro geom offset count d₁ hcalls
    have hacts : (SysOp.pedGeometryRead geom offset count).Acts := trivial
    obtain ⟨part', -, heq⟩ := (calls_nvmeReadPartitionSector hacts).mp ⟨d₁, hcalls⟩
    cases heq
    exact hcount

/-- The read of an existing partition fills the buffer exactly if it cannot succeed, or the device
has sectors of 512 bytes. -/
theorem fillsBuffer_iff {n : ℕ} (hsectors : d.SectorsSized)
    (hpart : pedDiskGetPartition d.table (toI32 partNumber) = some part) :
    FillsBuffer d partNumber sectorNumber n ↔
      n = 0 ∨ (d.dev.sectorSize = 512 ∧ n < 2 ^ 31) ∨
        ¬ part.geom.Fits 0 (toI32 (512 * n / d.dev.sectorSize)) := by
  constructor
  · intro h
    by_cases hfits : part.geom.Fits 0 (toI32 (512 * n / d.dev.sectorSize))
    · obtain ⟨hlength, -, -, hcalls⟩ :=
        h _ _ (eval_nvmeReadPartitionSector_ok.mpr ⟨part, hpart, hfits, rfl, rfl⟩)
      obtain ⟨d₁, hcall⟩ : ∃ d₁, (nvmeReadPartitionSector partNumber sectorNumber (512 * n)).Calls
          pedExec d (.pedGeometryRead part.geom 0 (toI32 (512 * n / d.dev.sectorSize))) d₁ :=
        (calls_nvmeReadPartitionSector (by trivial)).mpr ⟨part, hpart, rfl⟩
      have hcount := hcalls _ _ _ d₁ hcall
      rw [hsectors.length_readSectors, hcount, Int.toNat_natCast, mul_comm] at hlength
      rcases Nat.eq_zero_or_pos n with hzero | hpos
      · exact Or.inl hzero
      · have hsize := Nat.eq_of_mul_eq_mul_right hpos hlength
        rw [hsize, toI32] at hcount
        exact Or.inr (Or.inl ⟨hsize, by omega⟩)
    · exact Or.inr (Or.inr hfits)
  · rintro (rfl | ⟨hsize, hlt⟩ | hfits)
    · exact fillsBuffer_of_count hsectors (by simp [toI32]) (by simp)
    · refine fillsBuffer_of_count hsectors ?_ (by rw [hsize, mul_comm])
      rw [hsize, Nat.cast_ofNat, Int.mul_ediv_cancel_left _ (by decide)]
      exact toI32_of_range (by omega) (by omega)
    · intro bytes d' h
      obtain ⟨part', hpart', hfits', -⟩ := eval_nvmeReadPartitionSector_ok.mp h
      rw [hpart] at hpart'
      cases hpart'
      exact absurd hfits' hfits

/-- A disk with sectors of `size` zero bytes. -/
def zeroDisk (size : ℕ) : Device where
  dev := { length := 100, sectorSize := size, model := [] }
  table := [tenSectors]
  sectors _ := List.replicate size 0

lemma zeroDisk_sectorsSized (size : ℕ) : (zeroDisk size).SectorsSized :=
  fun _ => List.length_replicate

lemma zeroDisk_partition (size : ℕ) :
    pedDiskGetPartition (zeroDisk size).table (toI32 1) = some tenSectors := rfl

theorem fillsBuffer_512 : FillsBuffer (zeroDisk 512) 1 0 3 :=
  (fillsBuffer_iff (zeroDisk_sectorsSized 512) (zeroDisk_partition 512)).mpr
    (Or.inr (Or.inl ⟨rfl, by decide⟩))

/-- With sectors of 4096 bytes a read of one sector succeeds and transfers nothing. -/
theorem not_fillsBuffer_4096 :
    (nvmeReadPartitionSector 1 0 512).Eval pedExec (zeroDisk 4096) (.ok, []) (zeroDisk 4096) ∧
      ¬ FillsBuffer (zeroDisk 4096) 1 0 1 := by
  have hread : (nvmeReadPartitionSector 1 0 512).Eval pedExec (zeroDisk 4096) (.ok, [])
      (zeroDisk 4096) :=
    eval_nvmeReadPartitionSector_ok.mpr ⟨tenSectors, rfl, by decide, rfl, rfl⟩
  refine ⟨hread, ?_⟩
  intro h
  have hlength := (h [] (zeroDisk 4096) hread).1
  cases hlength

/-! ### The bytes written -/

/-- Of a buffer of the given length no byte behind its end is handed to `ped_geometry_write`, a
write that succeeds has written all of it, and it does not succeed for a length that is no multiple
of the sector size. -/
structure WritesLength (d : Device) (partNumber sectorNumber : ℤ) (buffer : ℕ → Byte)
    (length : ℕ) : Prop where
  inside : ∀ geom buffer' offset count d',
    (nvmeWritePartitionSector partNumber sectorNumber buffer length).Calls pedExec d
      (.pedGeometryWrite geom buffer' offset count) d' →
    buffer' = buffer ∧ ∀ i : ℤ, i < count * d.dev.sectorSize → i < length
  complete : ∀ d', (nvmeWritePartitionSector partNumber sectorNumber buffer length).Eval pedExec d
      .ok d' →
    ∃ geom count d₁,
      (nvmeWritePartitionSector partNumber sectorNumber buffer length).Calls pedExec d
        (.pedGeometryWrite geom buffer 0 count) d₁ ∧
      length ≤ count * d.dev.sectorSize ∧
      ∀ i < length,
        (d'.sectors (geom.start + (i / d.dev.sectorSize : ℕ)))[i % d.dev.sectorSize]? =
          some (buffer i)
  refused : ¬ d.dev.sectorSize ∣ length → ∀ d',
    ¬ (nvmeWritePartitionSector partNumber sectorNumber buffer length).Eval pedExec d .ok d'

/-- A write to an `AESD` partition uses exactly the bytes it is given if they are those of one
sector. -/
theorem writesLength_iff {buffer : ℕ → Byte} {length : ℕ}
    (hpart : pedDiskGetPartition d.table (toI32 partNumber) = some part)
    (haesd : part.isAesd = true) :
    WritesLength d partNumber sectorNumber buffer length ↔ length = d.dev.sectorSize := by
  obtain ⟨d₁, hcall⟩ : ∃ d₁, (nvmeWritePartitionSector partNumber sectorNumber buffer length).Calls
      pedExec d (.pedGeometryWrite part.geom buffer 0 1) d₁ :=
    (calls_nvmeWritePartitionSector (by trivial)).mpr ⟨part, hpart, haesd, rfl⟩
  have hone : ∀ {geom buffer' offset count d'},
      (nvmeWritePartitionSector partNumber sectorNumber buffer length).Calls pedExec d
        (.pedGeometryWrite geom buffer' offset count) d' →
      geom = part.geom ∧ buffer' = buffer ∧ offset = 0 ∧ count = 1 := by
    intro geom buffer' offset count d' hcalls
    have hacts : (SysOp.pedGeometryWrite geom buffer' offset count).Acts := trivial
    obtain ⟨part', hpart', -, heq⟩ := (calls_nvmeWritePartitionSector hacts).mp ⟨d', hcalls⟩
    rw [hpart] at hpart'
    cases hpart'
    cases heq
    exact ⟨rfl, rfl, rfl, rfl⟩
  constructor
  · intro h
    obtain ⟨-, hinside⟩ := h.inside _ _ _ _ _ hcall
    obtain ⟨geom, count, d₂, hcall', hcomplete, -⟩ :=
      h.complete _ ((eval_nvmeWritePartitionSector_ok hpart haesd).mpr rfl)
    obtain ⟨-, -, -, rfl⟩ := hone hcall'
    have hle : d.dev.sectorSize ≤ length := by
      by_contra hlt
      have := hinside length (by omega)
      omega
    omega
  · rintro rfl
    refine ⟨?_, ?_, ?_⟩
    · intro geom buffer' offset count d' hcalls
      obtain ⟨-, rfl, -, rfl⟩ := hone hcalls
      exact ⟨rfl, fun i hi => by omega⟩
    · intro d' h
      obtain rfl := (eval_nvmeWritePartitionSector_ok hpart haesd).mp h
      refine ⟨part.geom, 1, d₁, hcall, by omega, ?_⟩
      intro i hi
      rw [Nat.div_eq_of_lt hi, Nat.mod_eq_of_lt hi]
      simp [Device.writeSectors, sectorOf, hi]
    · intro hdvd
      exact absurd dvd_rfl hdvd

/-- Exactly one sector's worth of bytes. -/
theorem writesLength_512 : WritesLength (zeroDisk 512) 1 0 (fun _ => 65) 512 :=
  (writesLength_iff (zeroDisk_partition 512) (by decide)).mpr rfl

/-- `write 1 A 0`: with the one byte of the token, the 511 bytes behind it go to the disk. -/
theorem not_writesLength_one :
    (nvmeWritePartitionSector 1 0 (tokenMemory (str "A") fun _ => 66) 1).Eval pedExec (zeroDisk 512)
        .ok ((zeroDisk 512).writeSectors (tokenMemory (str "A") fun _ => 66) 10 1) ∧
      ¬ WritesLength (zeroDisk 512) 1 0 (tokenMemory (str "A") fun _ => 66) 1 := by
  refine ⟨(eval_nvmeWritePartitionSector_ok (zeroDisk_partition 512) (by decide)).mpr rfl, ?_⟩
  rw [writesLength_iff (zeroDisk_partition 512) (by decide)]
  decide

end Aesd
