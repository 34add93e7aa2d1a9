import Aesd.Server.TableUpdate

/-!
# The status of an update

`nvmeCreatePartition` and `nvmeDeletePartition` make a chain of calls that may fail, and react
differently to each: they return, only report, or do not look at the result. Of the two commits the
first alone changes the disk. A record of the calls (`UpdateCalls`) decides whether the status tells
what has become of the table (`status_truthful_iff`).
-/

namespace Aesd

open Effect CInt

/-! ### A record of the calls -/

/-- What the calls of an update have returned so far: the partition that was added, whether it was
named, whether one was deleted, the table that was committed to the device, and whether the kernel
was told of it. -/
structure UpdateCalls where
  added : Option PedPartition := none
  named : Bool := false
  deleted : Bool := false
  toDev : Option PedDisk := none
  toOs : Bool := false

def UpdateCalls.next (g : UpdateCalls) : (op : SysOp) → Answer op → UpdateCalls
  | .pedDiskAddPartition _ _ _, r  => { g with added := r }
  | .pedPartitionSetName _ _, r    => { g with named := r }
  | .pedDiskDeletePartition _ _, r => { g with deleted := r }
  | .pedDiskCommitToDev disk, r    => if r then { g with toDev := some disk } else g
  | .pedDiskCommitToOs _, r        => { g with toOs := r }
  | _, _                           => g

/-- The record of a whole run. -/
def updateCalls (tr : List (Prog.Answered SysOp Answer)) : UpdateCalls :=
  tr.foldl (fun g e => g.next e.1 e.2) {}

/-- Nothing is owed. Before the commit the table is read as it was at first, and a partition is
added on free sectors. -/
def updateUse (init : PedDisk) : Protocol SysOp Answer UpdateCalls where
  pre _ _ := True
  post g op r := match op, r with
    | .pedDiskNew, some disk                   => g.toDev = none → disk = init
    | .pedDiskAddPartition disk _ _, some part => Placed disk part
    | _, _                                     => True
  next := UpdateCalls.next

variable {init : PedDisk} {g : UpdateCalls} {α β : Type}

/-- The table is the first one until another is committed. -/
def UpdateCalls.Describes (init : PedDisk) (d : Device) (g : UpdateCalls) : Prop :=
  d.table = g.toDev.getD init

lemma updateUse_step (d : Device) (g : UpdateCalls) (op : SysOp) (r : Answer op) (d' : Device)
    (hd : g.Describes init d) (_ : (updateUse init).pre g op) (hexec : pedExec op d r d') :
    (updateUse init).post g op r ∧ ((updateUse init).next g op r).Describes init d' := by
  have hsame : d' = d → g.Describes init d' := by
    rintro rfl
    exact hd
  cases op with
  | pedDiskNew =>
    obtain ⟨rfl, hr⟩ := hexec
    refine ⟨?_, hd⟩
    rcases hr with rfl | rfl
    · trivial
    · -- as long as nothing has been committed, the table that is read is the first one
      intro htoDev
      rw [UpdateCalls.Describes, htoDev] at hd
      exact hd
  | pedDiskAddPartition disk start end_ =>
    obtain ⟨rfl, hr⟩ := hexec
    refine ⟨?_, hd⟩
    cases r with
    | none => trivial
    | some part => exact hr part rfl
  | pedDiskCommitToDev disk =>
    refine ⟨trivial, ?_⟩
    rcases hexec with ⟨rfl, rfl⟩ | ⟨rfl, rfl⟩
    · rfl
    · exact hd
  | pedGeometryWrite geom buffer offset count =>
    refine ⟨trivial, ?_⟩
    rcases hexec with ⟨-, -, rfl⟩ | ⟨-, -, htable, -⟩
    · exact hd
    · exact htable.trans hd
  | perfStart kind job => exact ⟨trivial, hexec.2.1.trans hd⟩
  | pedDeviceGet => exact ⟨trivial, hsame hexec.1⟩
  | pedGeometryRead geom offset count => exact ⟨trivial, hsame hexec.1⟩
  | _ => exact ⟨trivial, hsame hexec⟩

/-! ### Rules -/

lemma updateUse_quiet {p : Sys α} {Q : UpdateCalls → α → Prop} (hp : Quiet p) (hQ : ∀ a, Q g a) :
    p.Obeys (updateUse init) g Q := by
  refine hp.obeys (fun _ _ => trivial) ?_ hQ
  intro op r hop
  cases op <;> first | rfl | exact hop.elim

lemma updateUse_quiet_bind {p : Sys α} {f : α → Sys β} {Q : UpdateCalls → β → Prop} (hp : Quiet p)
    (hf : ∀ a, (f a).Obeys (updateUse init) g Q) : (p >>= f).Obeys (updateUse init) g Q :=
  Prog.obeys_bind.mpr (updateUse_quiet hp hf)

lemma updateUse_openDisk {trace : PedDevice → Sys Unit} {fail : NvmeStatus → α}
    {body : PedDevice → PedDisk → Sys α} {Q : UpdateCalls → α → Prop}
    (htrace : ∀ dev, Quiet (trace dev)) (hfail : ∀ rc, rc ≠ .ok → Q {} (fail rc))
    (hbody : ∀ dev, (body dev init).Obeys (updateUse init) {} Q) :
    (openDisk trace fail body).Obeys (updateUse init) {} Q := by
  refine obeys_openDisk ⟨trivial, fun _ => rfl⟩ ⟨trivial, fun _ => rfl⟩ ⟨trivial, rfl⟩ ?_ hfail ?_
  · intro dev
    exact updateUse_quiet (htrace dev) fun _ => rfl
  · intro dev disk hdisk
    obtain rfl := hdisk rfl
    exact hbody dev

/-! ### The two functions -/

/-- How `nvmeCreatePartition` may end. -/
inductive CreateOutcome (init : PedDisk) :
    UpdateCalls → NvmeStatus × Option PedPartition → Prop where
  | refused {g : UpdateCalls} {rc : NvmeStatus} (hrc : rc ≠ .ok) (htoDev : g.toDev = none) :
      CreateOutcome init g (rc, none)
  | unsynced {g : UpdateCalls} {part : PedPartition} (htoDev : g.toDev = some (part :: init))
      (htoOs : g.toOs = false) : CreateOutcome init g (.error, none)
  | created {g : UpdateCalls} {part : PedPartition} {name : Text} (hpart : Placed init part)
      (hadded : g.added = some part) (hname : strncmp name (str "AESD") 4 = 0 ↔ g.named = true)
      (htoDev : g.toDev = some ({ part with name := name } :: init)) (htoOs : g.toOs = true) :
      CreateOutcome init g (.ok, some { part with name := name })

/-- What the new partition is called starts with `AESD`. -/
lemma strncmp_partName (num : ℤ) :
    strncmp ((str "AESD Part " ++ dec num).take 15) (str "AESD") 4 = 0 := rfl

lemma updateUse_nameAndCommit {newPart : PedPartition} (hpart : Placed init newPart) :
    (nameAndCommit init newPart).Obeys (updateUse init) { added := some newPart }
      (CreateOutcome init) := by
  simp only [nameAndCommit, printf, Prog.perform_bind]
  refine ⟨trivial, fun _ _ => ?_⟩
  split_ifs
  · exact .refused (by decide) rfl
  · refine ⟨trivial, fun named _ => ⟨trivial, fun committed _ => ?_⟩⟩
    cases committed with
    | false => exact .refused (by decide) rfl
    | true =>
      refine ⟨trivial, fun told _ => ?_⟩
      cases told with
      | false => exact .unsynced rfl rfl
      | true =>
        cases named with
        | true => exact .created hpart rfl (iff_of_true (strncmp_partName _) rfl) rfl rfl
        | false =>
          refine .created hpart rfl (iff_of_false ?_ Bool.false_ne_true) rfl rfl
          rw [hpart.1]
          decide

lemma updateUse_nvmeCreatePartition (size : ℤ) :
    (nvmeCreatePartition size).Obeys (updateUse init) {} (CreateOutcome init) := by
  refine updateUse_openDisk (fun _ => quiet_printf _) (fun rc hrc => .refused hrc rfl) fun dev => ?_
  simp only [Prog.perform_bind]
  refine ⟨trivial, fun fsType _ => ?_⟩
  cases fsType with
  | false => exact .refused (by decide) rfl
  | true =>
    refine ⟨trivial, fun align _ => ?_⟩
    cases align with
    | none => exact ⟨trivial, fun r => r.elim⟩
    | some grainSize =>
      refine updateUse_quiet_bind (quiet_printf _) fun _ =>
        updateUse_quiet_bind (quiet_printf _) fun _ => ?_
      split
      · exact ⟨trivial, fun r => r.elim⟩
      · rename_i rc hrc
        exact .refused (requestRegion_error hrc) rfl
      · refine ⟨trivial, fun made _ => ?_⟩
        cases made with
        | false => exact .refused (by decide) rfl
        | true =>
          refine updateUse_quiet_bind (quiet_printf _) fun _ => ⟨trivial, fun newPart hnew => ?_⟩
          cases newPart with
          | none => exact .refused (by decide) rfl
          | some newPart => exact updateUse_nameAndCommit hnew

/-- How `nvmeDeletePartition` may end. -/
inductive DeleteOutcome (init : PedDisk) (partNumber : ℤ) : UpdateCalls → NvmeStatus → Prop where
  | refused {g : UpdateCalls} {rc : NvmeStatus} (hrc : rc ≠ .ok) (htoDev : g.toDev = none) :
      DeleteOutcome init partNumber g rc
  | committed {g : UpdateCalls} {part : PedPartition}
      (hpart : pedDiskGetPartition init partNumber = some part)
      (htoDev : g.toDev = some (if g.deleted then init.erase part else init)) :
      DeleteOutcome init partNumber g (if g.toOs then .ok else .error)

lemma updateUse_nvmeDeletePartition (partNumber : ℤ) :
    (nvmeDeletePartition partNumber).Obeys (updateUse init) {}
      (DeleteOutcome init partNumber) := by
  refine updateUse_openDisk (fun _ => trivial) (fun rc hrc => .refused hrc rfl) fun dev => ?_
  cases hpart : pedDiskGetPartition init partNumber with
  | none => exact .refused (by decide) rfl
  | some part =>
    refine updateUse_quiet_bind (quiet_nvmeCheckNameSafety part) fun rc => ?_
    cases rc with
    | ok =>
      refine ⟨trivial, fun deleted _ => ⟨trivial, fun committed _ => ?_⟩⟩
      cases committed with
      | false => exact .refused (by decide) rfl
      | true =>
        refine ⟨trivial, fun told _ => ?_⟩
        cases told with
        | false => exact .committed hpart rfl
        | true => exact .committed hpart rfl
    | _ => exact updateUse_quiet_bind (quiet_printf _) fun _ => .refused (by decide) rfl

/-! ### What the status tells -/

/-- The `uint8_t` that `nvmeCreatePartition` stores through `newPartNumber`, if it does. -/
def storedNumber (newPart : Option PedPartition) : Option ℤ := newPart.map fun part => toU8 part.num

/-- A success means that one `AESD` partition with the stored number has been added to the table,
and anything else that the table is as it was. -/
structure CreateTruthful (d d' : Device) (rc : NvmeStatus) (newPart : Option PedPartition) : Prop
    where
  ok_iff : rc = .ok ↔ ∃ part, Adds (d.table, d'.table) part ∧ part.isAesd = true ∧
    storedNumber newPart = some part.num
  unchanged : rc ≠ .ok → d'.table = d.table

/-- A success means that the partition of this number has been removed from the table, and anything
else that the table is as it was. -/
structure DeleteTruthful (partNumber : ℤ) (d d' : Device) (rc : NvmeStatus) : Prop where
  ok_iff : rc = .ok ↔ ∃ part, pedDiskGetPartition d.table partNumber = some part ∧
    Removes (d.table, d'.table) part
  unchanged : rc ≠ .ok → d'.table = d.table

/-- The failures that `nvmeCreatePartition` takes no account of are those to name the partition and
to tell the kernel, once the table is written; and a large number does not fit. -/
def UpdateCalls.CreateAccounted (g : UpdateCalls) : Prop :=
  g.toDev ≠ none → g.named = true ∧ g.toOs = true ∧ ∀ part, g.added = some part → part.num ≤ 255

/-- In `nvmeDeletePartition` a failure to delete has to come with one to tell the kernel. -/
def UpdateCalls.DeleteAccounted (g : UpdateCalls) : Prop :=
  g.toDev ≠ none → g.deleted = g.toOs

lemma toU8_eq_self_iff {n : ℤ} (hn : 0 < n) : toU8 n = n ↔ n ≤ 255 := by
  rw [toU8]
  omega

lemma CreateOutcome.truthful_iff {d d' : Device} {rc : NvmeStatus} {newPart : Option PedPartition}
    (h : CreateOutcome d.table g (rc, newPart)) (hd' : g.Describes d.table d') :
    CreateTruthful d d' rc newPart ↔ g.CreateAccounted := by
  rw [UpdateCalls.Describes] at hd'
  cases h with
  | refused hrc htoDev =>
    rw [htoDev] at hd'
    refine iff_of_true ⟨?_, fun _ => hd'⟩ fun h => absurd htoDev h
    refine iff_of_false hrc ?_
    rintro ⟨part, -, -, hstored⟩
    cases hstored
  | unsynced htoDev htoOs =>
    rw [htoDev] at hd'
    -- the new partition is on the disk, but the status says that it is not
    refine iff_of_false ?_ ?_
    · intro h
      have hsame := hd'.symm.trans (h.unchanged (by decide))
      exact List.cons_ne_self _ _ hsame
    · intro h
      rw [(h (by rw [htoDev]; exact Option.some_ne_none _)).2.1] at htoOs
      cases htoOs
  | @created part name hpart hadded hname htoDev htoOs =>
    rw [htoDev] at hd'
    constructor
    · intro h _
      obtain ⟨added, hadds, haesd, hstored⟩ := h.ok_iff.mp rfl
      obtain rfl : added = { part with name := name } := hadds.unique hd'
      refine ⟨hname.mp (by simpa [PedPartition.isAesd] using haesd), htoOs, ?_⟩
      rintro part' hpart'
      obtain rfl : part = part' := Option.some.inj (hadded.symm.trans hpart')
      exact (toU8_eq_self_iff hpart.2.1).mp (Option.some.inj hstored)
    · intro h
      obtain ⟨hnamed, -, hnum⟩ := h (by rw [htoDev]; exact Option.some_ne_none _)
      refine ⟨iff_of_true rfl ⟨_, hd', ?_, ?_⟩, fun hrc => absurd rfl hrc⟩
      · simpa [PedPartition.isAesd] using hname.mpr hnamed
      · exact congrArg some ((toU8_eq_self_iff hpart.2.1).mpr (hnum part hadded))

lemma erase_ne_self {disk : PedDisk} {part : PedPartition} (hpart : part ∈ disk) :
    disk.erase part ≠ disk := by
  intro heq
  have hlength := congrArg List.length heq
  rw [List.length_erase_of_mem hpart] at hlength
  have := List.length_pos_of_mem hpart
  omega

lemma DeleteOutcome.truthful_iff {d d' : Device} {partNumber : ℤ} {rc : NvmeStatus}
    (h : DeleteOutcome d.table partNumber g rc) (hd' : g.Describes d.table d') :
    DeleteTruthful partNumber d d' rc ↔ g.DeleteAccounted := by
  rw [UpdateCalls.Describes] at hd'
  cases h with
  | refused hrc htoDev =>
    rw [htoDev] at hd'
    refine iff_of_true ⟨iff_of_false hrc ?_, fun _ => hd'⟩ fun h => absurd htoDev h
    rintro ⟨part, -, hmem, herase⟩
    exact erase_ne_self hmem (herase.symm.trans hd')
  | @committed part hpart htoDev =>
    rw [htoDev] at hd'
    change d'.table = if g.deleted then d.table.erase part else d.table at hd'
    have hmem := (mem_of_pedDiskGetPartition hpart).1
    have haccounted : g.DeleteAccounted ↔ g.deleted = g.toOs := by
      rw [UpdateCalls.DeleteAccounted, htoDev]
      exact ⟨fun h => h (Option.some_ne_none _), fun h _ => h⟩
    rw [haccounted]
    -- the table follows the deletion, the status follows the kernel
    cases hdeleted : g.deleted with
    | true =>
      rw [hdeleted, if_pos rfl] at hd'
      cases htoOs : g.toOs with
      | true =>
        exact iff_of_true ⟨iff_of_true rfl ⟨part, hpart, hmem, hd'⟩, fun h => absurd rfl h⟩ rfl
      | false =>
        refine iff_of_false ?_ Bool.noConfusion
        intro h
        exact erase_ne_self hmem (hd'.symm.trans (h.unchanged (by decide)))
    | false =>
      rw [hdeleted, if_neg Bool.false_ne_true] at hd'
      have hkept : ¬ ∃ part, pedDiskGetPartition d.table partNumber = some part ∧
          Removes (d.table, d'.table) part := by
        rintro ⟨part, -, hmem, herase⟩
        exact erase_ne_self hmem (herase.symm.trans hd')
      cases htoOs : g.toOs with
      | true =>
        refine iff_of_false ?_ Bool.noConfusion
        intro h
        exact hkept (h.ok_iff.mp rfl)
      | false => exact iff_of_true ⟨iff_of_false (by decide) hkept, fun _ => hd'⟩ rfl

/-- Whatever the table, the arguments and the failures of single calls: the status of
`nvmeCreatePartition` tells what has become of the table exactly if, once the table has been
written, the partition had been named, the kernel is told and the number fits; that of
`nvmeDeletePartition` if the partition had been deleted from the copy and the kernel is told, or
neither. -/
theorem status_truthful_iff (d : Device) :
    (∀ size tr rc newPart d',
      (nvmeCreatePartition size).EvalTrace pedExec d tr (rc, newPart) d' →
        (CreateTruthful d d' rc newPart ↔ (updateCalls tr).CreateAccounted)) ∧
    (∀ partNumber tr rc d', (nvmeDeletePartition partNumber).EvalTrace pedExec d tr rc d' →
        (DeleteTruthful partNumber d d' rc ↔ (updateCalls tr).DeleteAccounted)) := by
  constructor
  · intro size tr rc newPart d' run
    obtain ⟨hd', houtcome⟩ :=
      (updateUse_nvmeCreatePartition size).evalTrace updateUse_step (s := d) rfl run
    exact houtcome.truthful_iff hd'
  · intro partNumber tr rc d' run
    obtain ⟨hd', houtcome⟩ :=
      (updateUse_nvmeDeletePartition partNumber).evalTrace updateUse_step (s := d) rfl run
    exact houtcome.truthful_iff hd'

/-- A disk with one partition. -/
def singlePart : Device := diskWith [aesdPart 1 (between 10 19)]

/-- `singlePart` with a new partition behind the first. -/
def addedPart : Device := diskWith [aesdPart 2 (between 20 24), aesdPart 1 (between 10 19)]

theorem status_truthful_singlePart :
    (∃ tr newPart, (nvmeCreatePartition 5).EvalTrace pedExec singlePart tr (.ok, newPart)
        addedPart ∧ CreateTruthful singlePart addedPart .ok newPart) ∧
    (∃ tr, (nvmeDeletePartition 2).EvalTrace pedExec addedPart tr .ok singlePart ∧
      DeleteTruthful 2 addedPart singlePart .ok) := by
  constructor
  · have run := Prog.evalTrace_of_run (p := nvmeCreatePartition 5) (s := singlePart)
      pedRespond_exec (List.replicate 10 .success ++ [.place ⟨2, [], between 20 24⟩] ++
        List.replicate 4 .success) rfl
    refine ⟨_, _, run, ((status_truthful_iff _).1 _ _ _ _ _ run).mpr fun _ => ⟨rfl, rfl, ?_⟩⟩
    rintro part ⟨⟩
    decide
  · have run := Prog.evalTrace_of_run (p := nvmeDeletePartition 2) (s := addedPart)
      pedRespond_exec (List.replicate 8 .success) rfl
    exact ⟨_, run, ((status_truthful_iff _).2 _ _ _ _ run).mpr fun _ => rfl⟩

/-- The kernel cannot be told of a new partition: an error, but the table has it. A partition cannot
be deleted from the copy: a success, but the table still has it. -/
theorem status_not_truthful :
    (∃ tr newPart, (nvmeCreatePartition 5).EvalTrace pedExec singlePart tr (.error, newPart)
        addedPart ∧ ¬ CreateTruthful singlePart addedPart .error newPart) ∧
    (∃ tr, (nvmeDeletePartition 1).EvalTrace pedExec singlePart tr .ok singlePart ∧
      ¬ DeleteTruthful 1 singlePart singlePart .ok) := by
  constructor
  · refine ⟨_, _, Prog.evalTrace_of_run (p := nvmeCreatePartition 5) (s := singlePart)
      pedRespond_exec (List.replicate 10 .success ++ [.place ⟨2, [], between 20 24⟩] ++
        List.replicate 3 .success ++ [.failure]) rfl, ?_⟩
    intro h
    exact absurd (h.unchanged (by decide)) (by decide)
  · refine ⟨_, Prog.evalTrace_of_run (p := nvmeDeletePartition 1) (s := singlePart)
      pedRespond_exec (List.replicate 5 .success ++ [.failure] ++ List.replicate 2 .success) rfl,
      ?_⟩
    intro h
    obtain ⟨part, -, hmem, herase⟩ := h.ok_iff.mp rfl
    exact erase_ne_self hmem herase.symm

end Aesd
