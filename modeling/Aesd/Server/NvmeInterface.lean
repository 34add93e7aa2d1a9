import Aesd.Server.System

/-!
# The partition interface

`nvmeInterface.c`. Every function opens the disk afresh and works on its own copy of the
partition table (`openDisk`); the copy is an ordinary value here, and what a function does to it
becomes visible to others only through a commit. Messages to standard error are left out.
-/

namespace Aesd

open Effect CInt

/-- `nvmeStatus_t`. -/
inductive NvmeStatus where
  | ok | error | notFound | input | partDne | badName
  deriving DecidableEq

/-- A use of a null pointer. -/
def fault {α : Type} : Sys α := .call .fault Empty.elim

/-- `printf`, of a text that is already formatted. -/
def printf (text : Text) : Sys Unit := sys (.printf text)

@[simp] lemma quiet_fault {α : Type} : Quiet (fault : Sys α) := ⟨trivial, fun r => r.elim⟩

/-- Programs that only print. -/
abbrev Prints {α : Type} (p : Sys α) : Prop := p.Only fun op => ∃ text, op = .printf text

lemma Prints.quiet {α : Type} {p : Sys α} (hp : Prints p) : Quiet p := by
  apply Prog.Only.mono hp
  rintro _ ⟨text, rfl⟩
  trivial

lemma prints_printf (text : Text) : Prints (printf text) := ⟨⟨text, rfl⟩, fun _ => trivial⟩

@[simp] lemma quiet_printf (text : Text) : Quiet (printf text) := (prints_printf text).quiet

/-- `%s` of a string that may be `NULL`, with the default the code prints instead. -/
def orUnknown (s : Option Text) : Text := s.getD (str "(unknown)")

/-! ### Status of the controllers -/

/-- Print one piece of text after the other. -/
def printAll (texts : List Text) : Sys Unit := texts.forM printf

lemma prints_printAll (texts : List Text) : Prints (printAll texts) :=
  Prog.only_forM texts prints_printf

lemma quiet_printAll (texts : List Text) : Quiet (printAll texts) := (prints_printAll texts).quiet

/-- `print_namespace_info`: the lines it prints. -/
def printNamespaceInfo (n : NvmeNs) : List Text :=
  [str "    namespace: " ++ orUnknown n.name ++ str "\n",
   str "      nsid: " ++ dec n.nsid ++ str "\n",
   str "      lba size: " ++ dec n.lbaSize ++ str "\n",
   str "      lba count: " ++ dec n.lbaCount ++ str "\n",
   str "      approx size bytes: " ++ dec (toU64 (n.lbaSize * n.lbaCount)) ++ str "\n"]

/-- The lines `nvmeGetStatus` prints for one controller. -/
def controllerInfo (s : NvmeSubsystem) (c : NvmeCtrl) : List Text :=
  [str "controller: " ++ orUnknown c.name ++ str "\n",
   str "  subsystem: " ++ orUnknown s.name ++ str "\n",
   str "  subnqn: " ++ orUnknown s.nqn ++ str "\n",
   str "  model: " ++ orUnknown c.model ++ str "\n",
   str "  serial: " ++ orUnknown c.serial ++ str "\n",
   str "  firmware: " ++ orUnknown c.firmware ++ str "\n",
   str "  transport: " ++ orUnknown c.transport ++ str "\n"] ++
  (match c.address with
   | some (b :: addr) => [str "  address: " ++ (b :: addr) ++ str "\n"]
   | _                => []) ++
  (if s.namespaces = [] then [str "No namespace found in subsystem\n"] else []) ++
  c.namespaces.flatMap printNamespaceInfo ++ s.namespaces.flatMap printNamespaceInfo ++
  [str "\n"]

/-- `nvmeGetStatus`. -/
def nvmeGetStatus : Sys NvmeStatus := do
  let some r ← sys .nvmeScan | return .error
  printAll (r.flatMap fun host => host.flatMap fun s => s.ctrls.flatMap (controllerInfo s))
  return if r.any fun host => host.any fun s => !s.ctrls.isEmpty then .ok else .notFound

lemma quiet_nvmeGetStatus : Quiet nvmeGetStatus := by
  refine ⟨trivial, fun r => ?_⟩
  cases r with
  | none => trivial
  | some r => exact (quiet_printAll _).bind fun _ => trivial

/-- `nvmeListNamespace`. Its `found` is never set. -/
def nvmeListNamespace : Sys NvmeStatus := do
  let some r ← sys .nvmeScan | return .error
  printAll (r.flatMap fun host => host.flatMap fun s => s.ctrls.flatMap fun c =>
    c.namespaces.flatMap printNamespaceInfo ++ [str "\n"])
  return .notFound

/-! ### Opening the disk -/

/-- The beginning of every partition function: `ped_device_get`, `ped_device_open`,
`ped_disk_new`, with the statuses they fail with. `trace` is what is printed in between. -/
def openDisk {α : Type} (trace : PedDevice → Sys Unit) (fail : NvmeStatus → α)
    (body : PedDevice → PedDisk → Sys α) : Sys α := do
  let some dev ← sys .pedDeviceGet | return fail .notFound
  trace dev
  let .true ← sys .pedDeviceOpen | return fail .error
  let some disk ← sys .pedDiskNew | return fail .error
  body dev disk

/-- Opening the disk makes three calls. -/
lemma only_openDisk {α : Type} {A : SysOp → Prop} {trace : PedDevice → Sys Unit}
    {fail : NvmeStatus → α} {body : PedDevice → PedDisk → Sys α} (hget : A .pedDeviceGet)
    (hopen : A .pedDeviceOpen) (hnew : A .pedDiskNew) (htrace : ∀ dev, (trace dev).Only A)
    (hbody : ∀ dev disk, (body dev disk).Only A) : (openDisk trace fail body).Only A := by
  simp only [openDisk, Prog.perform_bind]
  refine ⟨hget, fun dev => ?_⟩
  cases dev with
  | none => trivial
  | some dev =>
    refine (htrace dev).bind fun _ => ⟨hopen, fun opened => ?_⟩
    cases opened with
    | false => trivial
    | true =>
      refine ⟨hnew, fun disk => ?_⟩
      cases disk with
      | none => trivial
      | some disk => exact hbody dev disk

/-- The rule of `openDisk`, for protocols in which opening the device changes nothing. -/
lemma obeys_openDisk {α G : Type} {P : Protocol SysOp Answer G} {g : G}
    {trace : PedDevice → Sys Unit} {fail : NvmeStatus → α} {body : PedDevice → PedDisk → Sys α}
    {Q : G → α → Prop} (hget : P.pre g .pedDeviceGet ∧ ∀ r, P.next g .pedDeviceGet r = g)
    (hopen : P.pre g .pedDeviceOpen ∧ ∀ r, P.next g .pedDeviceOpen r = g)
    (hnew : P.pre g .pedDiskNew ∧ P.next g .pedDiskNew none = g)
    (htrace : ∀ dev, (trace dev).Obeys P g fun g' _ => g' = g)
    (hfail : ∀ rc, rc ≠ .ok → Q g (fail rc))
    (hbody : ∀ dev disk, P.post g .pedDiskNew (some disk) →
      (body dev disk).Obeys P (P.next g .pedDiskNew (some disk)) Q) :
    (openDisk trace fail body).Obeys P g Q := by
  simp only [openDisk, Prog.perform_bind]
  refine ⟨hget.1, fun dev _ => ?_⟩
  rw [hget.2]
  cases dev with
  | none => exact hfail _ (by decide)
  | some dev =>
    refine Prog.obeys_bind.mpr ((htrace dev).mono ?_)
    rintro _ _ rfl
    refine ⟨hopen.1, fun opened _ => ?_⟩
    rw [hopen.2]
    cases opened with
    | false => exact hfail _ (by decide)
    | true =>
      refine ⟨hnew.1, fun disk hdisk => ?_⟩
      cases disk with
      | none =>
        rw [hnew.2]
        exact hfail _ (by decide)
      | some disk => exact hbody dev disk hdisk

/-- The trace line of the functions that print the device's name. -/
def printModel (dev : PedDevice) : Sys Unit :=
  printf (str "Parted device name: " ++ dev.model ++ str "\n")

/-- `openDisk`, then the partition `partNumber`, which must exist. -/
def openPartition {α : Type} (partNumber : ℤ) (fail : NvmeStatus → α)
    (body : PedDevice → PedPartition → Sys α) : Sys α :=
  openDisk (fun _ => pure ()) fail fun dev disk => do
    let some part := pedDiskGetPartition disk partNumber | do
      printf (str "Specified partition does not exist.\n")
      return fail .partDne
    body dev part

/-! ### SAFE_MODE -/

/-- The partition's name starts with `AESD`. -/
def PedPartition.isAesd (p : PedPartition) : Bool := strncmp p.name (str "AESD") 4 == 0

/-- `nvmeCheckNameSafety`. -/
def nvmeCheckNameSafety (part : PedPartition) : Sys NvmeStatus := do
  printf (str "comparing string " ++ part.name ++ str " to AESD\n")
  printf (str "Check rc: " ++ dec (strncmp part.name (str "AESD") 4) ++ str "\n")
  if part.isAesd then
    return .ok
  else
    return .badName

lemma prints_nvmeCheckNameSafety (part : PedPartition) : Prints (nvmeCheckNameSafety part) := by
  refine (prints_printf _).bind fun _ => (prints_printf _).bind fun _ => ?_
  split_ifs
  · trivial
  · trivial

lemma quiet_nvmeCheckNameSafety (part : PedPartition) : Quiet (nvmeCheckNameSafety part) :=
  (prints_nvmeCheckNameSafety part).quiet

/-- `nvmeCheckNameSafetyPartNumber`. -/
def nvmeCheckNameSafetyPartNumber (partNumber : ℤ) : Sys NvmeStatus :=
  openPartition partNumber id fun _ part => nvmeCheckNameSafety part

/-! ### Listing -/

/-- What one turn of `nvmeListPartitions`'s loop prints. -/
def partitionInfo (disk : PedDisk) (i : ℕ) : List Text :=
  match pedDiskGetPartition disk i with
  | none      => []
  | some part =>
    [str "part " ++ dec i ++ str " name: " ++ part.name ++ str "\n",
     str "\tSize: " ++ dec part.geom.length ++ str " Sectors\n",
     str "\tStart: " ++ dec part.geom.start ++ str " | End: " ++ dec part.geom.end_ ++ str "\n"]

/-- `nvmeListPartitions`: the partitions numbered 1 to 15. -/
def nvmeListPartitions : Sys NvmeStatus :=
  openDisk printModel id fun _ disk => do
    printAll ((List.range' 1 15).flatMap (partitionInfo disk))
    return .ok

/-! ### Creating and deleting -/

/-- The region `nvmeCreatePartition` asks for, `size` sectors from the end of the partition with
the highest number on, or the status it refuses with; `none` stands for a null dereference. -/
def requestRegion (dev : PedDevice) (disk : PedDisk) (size : ℤ) :
    Option (Except NvmeStatus (ℤ × ℤ)) :=
  let lastPartNum := pedDiskGetLastPartitionNum disk
  if lastPartNum = -1 then
    some (.error .error)
  else
    -- the new partition begins behind the one with the highest number, wherever that is
    match pedDiskGetPartition disk lastPartNum with
    | none      => none
    | some last =>
      -- the end of that partition plus the size, then the end of the new one
      if toI64 (last.geom.end_ + size) > dev.length - 1 then
        some (.error .input)
      else
        let sectorStart := toI64 (last.geom.end_ + 1)
        let sectorEnd := toI64 (toI64 (sectorStart + size) - 1)
        if sectorEnd > dev.length - 1 then
          some (.error .input)
        else
          some (.ok (sectorStart, sectorEnd))

lemma requestRegion_error {dev : PedDevice} {disk : PedDisk} {size : ℤ} {rc : NvmeStatus}
    (h : requestRegion dev disk size = some (.error rc)) : rc ≠ .ok := by
  rintro rfl
  simp only [requestRegion] at h
  split_ifs at h
  · cases h
  · split at h
    · cases h
    · split_ifs at h
      all_goals cases h

/-- There is a partition with the highest number. -/
lemma requestRegion_ne_none (dev : PedDevice) (disk : PedDisk) (size : ℤ) :
    requestRegion dev disk size ≠ none := by
  simp only [requestRegion]
  split_ifs with hlast
  · exact Option.some_ne_none _
  · cases hfound : pedDiskGetPartition disk (pedDiskGetLastPartitionNum disk) with
    | none =>
      obtain ⟨p, hp, hnum⟩ := exists_num_eq_last hlast
      simp only [pedDiskGetPartition, List.find?_eq_none] at hfound
      exact absurd (decide_eq_true hnum) (hfound p hp)
    | some last =>
      dsimp only
      split_ifs
      all_goals exact Option.some_ne_none _

/-- The part of `nvmeCreatePartition` after `ped_disk_add_partition`: name the new partition and
commit. `snprintf` fills at most 15 bytes of `partName`. -/
def nameAndCommit (disk : PedDisk) (newPart : PedPartition) :
    Sys (NvmeStatus × Option PedPartition) := do
  let full := str "AESD Part " ++ dec newPart.num
  let partName := full.take 15
  printf (str "trying to name part " ++ partName ++ str "\n")
  if full.length ≠ partName.length then
    return (.error, none)
  -- the result of ped_partition_set_name is not looked at
  let named ← sys (.pedPartitionSetName newPart partName)
  let newPart := if named then { newPart with name := partName } else newPart
  let disk := newPart :: disk
  let .true ← sys (.pedDiskCommitToDev disk) | return (.error, none)
  let .true ← sys (.pedDiskCommitToOs disk) | return (.error, none)
  return (.ok, some newPart)

/-- `nvmeCreatePartition`. Besides its status it returns `newPart`, whose number (as a
`uint8_t`) the code stores through `newPartNumber`. -/
def nvmeCreatePartition (size : ℤ) : Sys (NvmeStatus × Option PedPartition) :=
  openDisk printModel (fun rc => (rc, none)) fun dev disk => do
    let .true ← sys (.pedFileSystemTypeGet (str "ext4")) | return (.error, none)
    let some grainSize ← sys (.pedDiskGetPartitionAlignment disk) | fault
    printf (str "Found " ++ dec grainSize ++ str " alignment\n")
    printf (str "sector size: " ++ dec dev.sectorSize ++ str "\n")
    match requestRegion dev disk size with
    | none => fault
    | some (.error rc) => return (rc, none)
    | some (.ok (sectorStart, sectorEnd)) =>
      let .true ← sys (.pedPartitionNew sectorStart sectorEnd) | return (.error, none)
      printf (str "created new part!\n")
      let some newPart ← sys (.pedDiskAddPartition disk sectorStart sectorEnd)
        | return (.error, none)
      nameAndCommit disk newPart

/-- `nvmeDeletePartition`. A failing `ped_disk_delete_partition` is only reported, the commit
follows all the same. -/
def nvmeDeletePartition (partNumber : ℤ) : Sys NvmeStatus :=
  openDisk (fun _ => pure ()) id fun _ disk => do
    let some partToDelete := pedDiskGetPartition disk partNumber | return .input
    let .ok ← nvmeCheckNameSafety partToDelete | do
      printf (str "Detected rmpart on non-AESD partition with SAFE_MODE active.\n" ++
        str "Saving you from yourself.\n")
      return .badName
    let deleted ← sys (.pedDiskDeletePartition disk partToDelete)
    let disk := if deleted then disk.erase partToDelete else disk
    -- ped_disk_commit is ped_disk_commit_to_dev followed by ped_disk_commit_to_os
    let .true ← sys (.pedDiskCommitToDev disk) | return .error
    let .true ← sys (.pedDiskCommitToOs disk) | return .error
    return .ok

/-! ### Sector transfers -/

/-- `nvmeWritePartitionSector`. `buffer` is the memory from the given pointer on; neither
`sectorNumber` nor `length` is used. -/
def nvmeWritePartitionSector (partNumber _sectorNumber : ℤ) (buffer : ℕ → Byte) (_length : ℤ) :
    Sys NvmeStatus :=
  openDisk (fun _ => pure ()) id fun _ disk => do
    let some partToWrite := pedDiskGetPartition disk (toI32 partNumber) | do
      printf (str "Specified partition does not exist.\n")
      return .input
    let .ok ← nvmeCheckNameSafety partToWrite | do
      printf (str "Detected write on non-AESD partition with SAFE_MODE active.\n" ++
        str "Saving you from yourself.\n")
      return .badName
    printf (str "writing geom " ++ dec partToWrite.geom.start ++ str " " ++
      dec partToWrite.geom.length ++ str " " ++ dec partToWrite.geom.end_ ++ str "\n")
    let .true ← sys (.pedGeometryWrite partToWrite.geom buffer 0 1) | return .error
    let .true ← sys (.pedGeometrySync partToWrite.geom) | return .error
    return .ok

/-- `nvmeReadPartitionSector`, with the bytes it puts into the buffer. `sectorNumber` is not
used. -/
def nvmeReadPartitionSector (partNumber _sectorNumber length : ℤ) :
    Sys (NvmeStatus × List Byte) :=
  openPartition (toI32 partNumber) (fun rc => (rc, [])) fun dev partToRead => do
    let sectorCount := toI32 (length / dev.sectorSize)
    printf (str "nvmeRead: reading " ++ dec sectorCount ++ str " sectors\n")
    let some bytes ← sys (.pedGeometryRead partToRead.geom 0 sectorCount) | return (.error, [])
    return (.ok, bytes)

/-! ### Ranges of the performance commands -/

/-- The comparisons of `nvmeCheckLbaRangeInPart`. `size` is a `size_t`, so its comparison with
the signed length is an unsigned one; the sums are signed. -/
def lbaRangeInBounds (geom : PedGeometry) (range : LbaRange) : Bool :=
  let size := toU32 (range.endlba - range.startlba)
  !(toU64 geom.length < size) && !(geom.end_ < toI64 (range.startlba + geom.start)) &&
    !(geom.end_ < toI64 (range.endlba + geom.start)) && !(geom.length < size)

/-- `nvmeCheckLbaRangeInPart`. -/
def nvmeCheckLbaRangeInPart (partNumber : ℤ) (range : LbaRange) : Sys NvmeStatus :=
  openPartition partNumber id fun _ part =>
    return if lbaRangeInBounds part.geom range then .ok else .error

/-- `nvmeGetStartLbaInPart`, with the `size_t` it stores through `lba`. -/
def nvmeGetStartLbaInPart (partNumber : ℤ) : Sys (NvmeStatus × ℤ) :=
  openPartition partNumber (fun rc => (rc, 0)) fun _ part => return (.ok, toU64 part.geom.start)

/-- `nvmeGetEndLbaInPart`, with the `size_t` it stores through `lba`. -/
def nvmeGetEndLbaInPart (partNumber : ℤ) : Sys (NvmeStatus × ℤ) :=
  openPartition partNumber (fun rc => (rc, 0)) fun _ part => return (.ok, toU64 part.geom.end_)

end Aesd
