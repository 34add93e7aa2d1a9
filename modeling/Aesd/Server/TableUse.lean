import Aesd.Server.Dispatch

/-!
# How the commands use the partition table

What a command can do to the disk is said once, as a protocol (`tableUse`): it reads the table,
commits only an edit of the copy it read last, and writes only to an `AESD` partition of that
copy. Every property of runs in which the table changes is derived from this.
-/

namespace Aesd

open Effect CInt

/-- The tables a thread may commit when it has read `disk`: one partition added on free sectors,
one `AESD` partition taken away, or the same again. -/
inductive TableEdit (disk : PedDisk) : PedDisk → Prop where
  | create (part : PedPartition) (name : Text) (h : Placed disk part) :
      TableEdit disk ({ part with name := name } :: disk)
  | delete (part : PedPartition) (hmem : part ∈ disk) (haesd : part.isAesd = true) :
      TableEdit disk (disk.erase part)
  | rewrite : TableEdit disk disk

/-- The table a thread read last, and what it has since replaced by what. -/
structure TableView where
  view : PedDisk
  committed : Option (PedDisk × PedDisk) := none

/-- Edit what was read last, and commit it one time, write to `AESD` partitions of it, start no
performance write. With `once`, the table is not read again after a commit, and deletions from the
copy and updates of the kernel's view may be counted on to succeed. -/
def tableUse (once : Prop) : Protocol SysOp Answer TableView where
  pre g op := match op with
    | .pedDiskNew                  => once → g.committed = none
    | .pedDiskCommitToDev disk     => TableEdit g.view disk ∧ g.committed = none
    | .pedGeometryWrite geom _ _ _ => ∃ q ∈ g.view, q.isAesd = true ∧ geom = q.geom
    | .perfStart kind _            => kind.checksName = false
    | _                            => True
  post _ op r := match op, r with
    | .pedDiskAddPartition disk _ _, some part => Placed disk part
    | .pedDiskDeletePartition _ _, deleted     => once → deleted = true
    | .pedDiskCommitToOs _, synced             => once → synced = true
    | _, _                                     => True
  next g op r := match op, r with
    | .pedDiskNew, some disk         => { view := disk }
    | .pedDiskCommitToDev disk, true => { g with committed := some (g.view, disk) }
    | _, _                           => g

/-- Deletions from a copy and updates of the kernel's view succeed. -/
def reliable : (op : SysOp) → Answer op → Bool
  | .pedDiskDeletePartition _ _, deleted => deleted
  | .pedDiskCommitToOs _, synced         => synced
  | _, _                                 => true

variable {α β : Type} {once : Prop} {g : TableView}

/-- The answers of libparted are ones the protocol relies on. -/
lemma tableUse_post {op : SysOp} {d d' : Device} {r : Answer op} (hexec : pedExec op d r d')
    (hrel : once → reliable op r = true) : (tableUse once).post g op r := by
  cases op with
  | pedDiskAddPartition disk start end_ =>
    cases r with
    | none => trivial
    | some part => exact hexec.2 part rfl
  | pedDiskDeletePartition disk part => exact hrel
  | pedDiskCommitToOs disk => exact hrel
  | _ => trivial

/-- After a call a thread's copy is the one it had, or the table as it is on the disk. -/
lemma tableUse_view {op : SysOp} {d d' : Device} {r : Answer op} (hexec : pedExec op d r d') :
    ((tableUse once).next g op r).view = g.view ∨
      ((tableUse once).next g op r).view = d.table := by
  cases op with
  | pedDiskNew =>
    rcases hexec with ⟨-, rfl | rfl⟩
    · exact Or.inl rfl
    · exact Or.inr rfl
  | pedDiskCommitToDev disk =>
    cases r with
    | false => exact Or.inl rfl
    | true => exact Or.inl rfl
  | _ => exact Or.inl rfl

/-! ### Rules -/

/-- A part that leaves the disk alone can be skipped. -/
lemma tableUse_quiet {p : Sys α} {Q : TableView → α → Prop} (hp : Quiet p) (hQ : ∀ a, Q g a) :
    p.Obeys (tableUse once) g Q := by
  refine hp.obeys ?_ ?_ hQ
  · intro op hop
    cases op <;> trivial
  · intro op r hop
    cases op <;> first | rfl | exact hop.elim

lemma tableUse_quiet_bind {p : Sys α} {f : α → Sys β} {Q : TableView → β → Prop} (hp : Quiet p)
    (hf : ∀ a, (f a).Obeys (tableUse once) g Q) : (p >>= f).Obeys (tableUse once) g Q :=
  Prog.obeys_bind.mpr (tableUse_quiet hp hf)

lemma tableUse_openDisk {trace : PedDevice → Sys Unit} {fail : NvmeStatus → α}
    {body : PedDevice → PedDisk → Sys α} {Q : TableView → α → Prop}
    (hg : once → g.committed = none) (htrace : ∀ dev, Quiet (trace dev))
    (hfail : ∀ rc, rc ≠ .ok → Q g (fail rc))
    (hbody : ∀ dev disk, (body dev disk).Obeys (tableUse once) { view := disk } Q) :
    (openDisk trace fail body).Obeys (tableUse once) g Q := by
  refine obeys_openDisk ⟨trivial, fun _ => rfl⟩ ⟨trivial, fun _ => rfl⟩ ⟨hg, rfl⟩ ?_ hfail
    fun dev disk _ => hbody dev disk
  intro dev
  exact tableUse_quiet (htrace dev) fun _ => rfl

/-- The name check as a rule: what follows it may use that the name starts with `AESD`. -/
lemma tableUse_nameCheck {part : PedPartition} {f : NvmeStatus → Sys α}
    {Q : TableView → α → Prop} (hok : part.isAesd = true → (f .ok).Obeys (tableUse once) g Q)
    (hbad : (f .badName).Obeys (tableUse once) g Q) :
    (nvmeCheckNameSafety part >>= f).Obeys (tableUse once) g Q := by
  simp only [nvmeCheckNameSafety, printf, Prog.perform_bind, Prog.call_bind]
  refine ⟨trivial, fun _ _ => ⟨trivial, fun _ _ => ?_⟩⟩
  cases haesd : part.isAesd with
  | true =>
    simp only [if_true, Prog.pure_eq_ret, Prog.ret_bind]
    exact hok haesd
  | false =>
    simp only [Bool.false_eq_true, if_false, Prog.pure_eq_ret, Prog.ret_bind]
    exact hbad

/-! ### The partition functions -/

/-- What is known when `nvmeCreatePartition` has returned: a success has committed the new
partition on top of the table that was read, a failure nothing. -/
def CreateDone (once : Prop) (g : TableView) : NvmeStatus × Option PedPartition → Prop
  | (.ok, some part) => ∃ p, Placed g.view p ∧ part = { p with name := part.name } ∧
      g.committed = some (g.view, part :: g.view)
  | (.ok, none)      => False
  | _                => once → g.committed = none

lemma CreateDone.of_failure {rc : NvmeStatus} {part : Option PedPartition} (hrc : rc ≠ .ok)
    (hg : once → g.committed = none) : CreateDone once g (rc, part) := by
  cases rc <;> first | exact hg | exact absurd rfl hrc

lemma tableUse_nameAndCommit {disk : PedDisk} {newPart : PedPartition}
    (hpart : Placed disk newPart) :
    (nameAndCommit disk newPart).Obeys (tableUse once) { view := disk }
      (CreateDone once) := by
  simp only [nameAndCommit, printf, Prog.perform_bind]
  refine ⟨trivial, fun _ _ => ?_⟩
  split_ifs
  · exact fun _ => rfl
  · refine ⟨trivial, fun named _ => ⟨?_, fun committed _ => ?_⟩⟩
    · -- the partition that is committed has been placed, named or not
      cases named with
      | true => exact ⟨.create newPart _ hpart, rfl⟩
      | false => exact ⟨.create newPart newPart.name hpart, rfl⟩
    · cases committed with
      | false => exact fun _ => rfl
      | true =>
        refine ⟨trivial, fun synced hsynced => ?_⟩
        cases synced with
        | false => exact fun hrel => absurd (hsynced hrel) Bool.false_ne_true
        | true =>
          cases named with
          | true => exact ⟨newPart, hpart, rfl, rfl⟩
          | false => exact ⟨newPart, hpart, rfl, rfl⟩

lemma tableUse_nvmeCreatePartition (size : ℤ) (hg : once → g.committed = none) :
    (nvmeCreatePartition size).Obeys (tableUse once) g (CreateDone once) := by
  refine tableUse_openDisk hg (fun _ => quiet_printf _) (fun rc hrc => .of_failure hrc hg)
    fun dev disk => ?_
  simp only [Prog.perform_bind]
  refine ⟨trivial, fun fsType _ => ?_⟩
  cases fsType with
  | false => exact fun _ => rfl
  | true =>
    refine ⟨trivial, fun align _ => ?_⟩
    cases align with
    | none => exact ⟨trivial, fun r => r.elim⟩
    | some grainSize =>
      refine tableUse_quiet_bind (quiet_printf _) fun _ =>
        tableUse_quiet_bind (quiet_printf _) fun _ => ?_
      split
      · exact ⟨trivial, fun r => r.elim⟩
      · rename_i rc hrc
        exact .of_failure (requestRegion_error hrc) fun _ => rfl
      · refine ⟨trivial, fun made _ => ?_⟩
        cases made with
        | false => exact fun _ => rfl
        | true =>
          refine tableUse_quiet_bind (quiet_printf _) fun _ => ⟨trivial, fun newPart hnew => ?_⟩
          cases newPart with
          | none => exact fun _ => rfl
          | some newPart => exact tableUse_nameAndCommit hnew

/-- What is known when `nvmeDeletePartition` has returned: a success has committed the table
that was read without the partition, a failure nothing. -/
def DeleteDone (once : Prop) (partNumber : ℤ) (g : TableView) (rc : NvmeStatus) : Prop :=
  if rc = .ok then
    ∃ part, pedDiskGetPartition g.view partNumber = some part ∧
      (once → g.committed = some (g.view, g.view.erase part))
  else once → g.committed = none

lemma tableUse_nvmeDeletePartition (partNumber : ℤ) (hg : once → g.committed = none) :
    (nvmeDeletePartition partNumber).Obeys (tableUse once) g
      (DeleteDone once partNumber) := by
  have hfailed : ∀ {rc g}, rc ≠ NvmeStatus.ok → (once → g.committed = none) →
      DeleteDone once partNumber g rc := fun hrc hg => by rwa [DeleteDone, if_neg hrc]
  refine tableUse_openDisk hg (fun _ => trivial) (fun rc hrc => hfailed hrc hg) fun dev disk => ?_
  cases hpart : pedDiskGetPartition disk partNumber with
  | none => exact hfailed (by decide) fun _ => rfl
  | some part =>
    refine tableUse_nameCheck (fun haesd => ?_) ?_
    · refine ⟨trivial, fun deleted hdeleted => ⟨?_, fun committed _ => ?_⟩⟩
      · cases deleted with
        | true => exact ⟨.delete part (mem_of_pedDiskGetPartition hpart).1 haesd, rfl⟩
        | false => exact ⟨.rewrite, rfl⟩
      · cases committed with
        | false => exact hfailed (by decide) fun _ => rfl
        | true =>
          refine ⟨trivial, fun synced hsynced => ?_⟩
          cases synced with
          | false => exact hfailed (by decide) fun hrel => absurd (hsynced hrel) Bool.false_ne_true
          | true =>
            refine ⟨part, hpart, fun hrel => ?_⟩
            rw [hdeleted hrel]
            rfl
    · exact tableUse_quiet_bind (quiet_printf _) fun _ => hfailed (by decide) fun _ => rfl

/-! ### Commands -/

/-- The program keeps to the protocol from whatever it has read before. -/
def Disciplined (p : Sys α) : Prop := ∀ g, p.Obeys (tableUse False) g fun _ _ => True

lemma disciplined_ret (a : α) : Disciplined (.ret a : Sys α) := fun _ => trivial

lemma disciplined_of_quiet {p : Sys α} (hp : Quiet p) : Disciplined p := fun _ =>
  tableUse_quiet hp fun _ => trivial

lemma Disciplined.bind {p : Sys α} {f : α → Sys β} (hp : Disciplined p)
    (hf : ∀ a, Disciplined (f a)) : Disciplined (p >>= f) := fun g =>
  Prog.obeys_bind.mpr ((hp g).mono fun g' a _ => hf a g')

lemma disciplined_ite {b : Prop} [Decidable b] {p q : Sys α} (hp : b → Disciplined p)
    (hq : ¬ b → Disciplined q) : Disciplined (if b then p else q) := by
  split
  · exact hp ‹b›
  · exact hq ‹¬ b›

lemma disciplined_redirected {clientFD : ℤ} {body : Sys α} (h : Disciplined body) :
    Disciplined (redirected clientFD body) := by
  intro g
  refine ⟨trivial, fun saved _ => ⟨trivial, fun _ _ => ?_⟩⟩
  have hrestore : ∀ a : α, Disciplined (do sys (.dup2 saved stdoutFileno); return a) := fun a =>
    disciplined_of_quiet ⟨trivial, fun _ => trivial⟩
  exact h.bind hrestore g

lemma disciplined_openPartition {partNumber : ℤ} {fail : NvmeStatus → α}
    {body : PedDevice → PedPartition → Sys α} (h : ∀ dev part, Disciplined (body dev part)) :
    Disciplined (openPartition partNumber fail body) := by
  intro g
  refine tableUse_openDisk False.elim (fun _ => trivial) (fun _ _ => trivial) fun dev disk => ?_
  cases pedDiskGetPartition disk partNumber with
  | none => exact tableUse_quiet_bind (quiet_printf _) fun _ => trivial
  | some part => exact h dev part _

lemma disciplined_nvmeListPartitions : Disciplined nvmeListPartitions := fun _ =>
  tableUse_openDisk False.elim (fun _ => quiet_printf _) (fun _ _ => trivial) fun _ _ =>
    tableUse_quiet_bind (quiet_printAll _) fun _ => trivial

lemma disciplined_nvmeWritePartitionSector (partNumber sectorNumber : ℤ) (buffer : ℕ → Byte)
    (length : ℤ) :
    Disciplined (nvmeWritePartitionSector partNumber sectorNumber buffer length) := by
  intro g
  refine tableUse_openDisk False.elim (fun _ => trivial) (fun _ _ => trivial) fun dev disk => ?_
  cases hpart : pedDiskGetPartition disk (toI32 partNumber) with
  | none => exact tableUse_quiet_bind (quiet_printf _) fun _ => trivial
  | some part =>
    refine tableUse_nameCheck (fun haesd => ?_) ?_
    · refine tableUse_quiet_bind (quiet_printf _) fun _ => ⟨?_, fun written _ => ?_⟩
      · -- the partition is one of the table that was read, and its name was checked
        exact ⟨part, (mem_of_pedDiskGetPartition hpart).1, haesd, rfl⟩
      · cases written with
        | false => trivial
        | true =>
          refine ⟨trivial, fun synced _ => ?_⟩
          cases synced <;> trivial
    · exact tableUse_quiet_bind (quiet_printf _) fun _ => trivial

lemma disciplined_nvmeReadPartitionSector (partNumber sectorNumber length : ℤ) :
    Disciplined (nvmeReadPartitionSector partNumber sectorNumber length) := by
  refine disciplined_openPartition fun dev part => ?_
  refine (disciplined_of_quiet (quiet_printf _)).bind fun _ g => ⟨trivial, fun bytes _ => ?_⟩
  cases bytes <;> trivial

lemma disciplined_mkpart (clientFD : ℤ) (c : Command) : Disciplined (mkpart clientFD c) := by
  refine (disciplined_of_quiet (quiet_printf _)).bind fun _ =>
    (disciplined_of_quiet (quiet_replyIf _ _ _)).bind fun _ =>
    (disciplined_of_quiet (quiet_atoiArg _)).bind fun newPartSize => ?_
  split_ifs
  · refine Disciplined.bind (fun g => ?_) fun x => ?_
    · exact (tableUse_nvmeCreatePartition _ False.elim).mono fun _ _ _ => trivial
    · dsimp only
      split_ifs <;> exact disciplined_of_quiet (quiet_reply _ _)
  · exact disciplined_of_quiet (quiet_reply _ _)

lemma disciplined_rmpart (clientFD : ℤ) (c : Command) : Disciplined (rmpart clientFD c) := by
  refine (disciplined_of_quiet (quiet_printf _)).bind fun _ =>
    (disciplined_of_quiet (quiet_replyIf _ _ _)).bind fun _ =>
    (disciplined_of_quiet (quiet_atoiArg _)).bind fun partToDel => ?_
  split_ifs
  · refine Disciplined.bind (fun g => ?_) fun rc => ?_
    · exact (tableUse_nvmeDeletePartition _ False.elim).mono fun _ _ _ => trivial
    · split_ifs <;> exact disciplined_of_quiet (quiet_reply _ _)
  · exact disciplined_of_quiet (quiet_reply _ _)

lemma disciplined_listparts (clientFD : ℤ) : Disciplined (listparts clientFD) := by
  refine (disciplined_of_quiet (quiet_printf _)).bind fun _ =>
    (disciplined_redirected disciplined_nvmeListPartitions).bind fun rc => ?_
  split_ifs
  · exact disciplined_of_quiet (quiet_reply _ _)
  · exact disciplined_ret _

lemma disciplined_write (clientFD : ℤ) (past : ℕ → Byte) (c : Command) :
    Disciplined (write clientFD past c) := by
  refine (disciplined_of_quiet (quiet_printf _)).bind fun _ => ?_
  cases c.arg1 with
  | none => exact disciplined_of_quiet (quiet_reply _ _)
  | some arg1 =>
    refine (disciplined_of_quiet (quiet_sectorOffsetArg _ _)).bind fun sectorOffset => ?_
    cases c.arg2 with
    | none => exact disciplined_of_quiet quiet_fault
    | some arg2 =>
      refine (disciplined_of_quiet (quiet_reply _ _)).bind fun _ =>
        (disciplined_nvmeWritePartitionSector _ _ _ _).bind fun rc => ?_
      split_ifs
      · exact disciplined_of_quiet (quiet_reply _ _)
      · exact disciplined_of_quiet (quiet_reply _ _)
      · exact disciplined_ret _

lemma disciplined_read (clientFD : ℤ) (c : Command) : Disciplined (read clientFD c) := by
  have hfree : ∀ block, Quiet (sys (.free block)) := fun _ => ⟨trivial, fun _ => trivial⟩
  unfold read
  cases c.arg1 with
  | none => exact disciplined_of_quiet (quiet_reply _ _)
  | some arg1 =>
    refine (disciplined_of_quiet (quiet_sectorOffsetArg _ _)).bind fun sectorOffset => ?_
    cases c.arg3 with
    | none => exact disciplined_of_quiet (quiet_reply _ _)
    | some arg3 =>
      refine disciplined_ite (fun _ => disciplined_of_quiet (quiet_reply _ _)) fun _ => ?_
      refine (disciplined_of_quiet (quiet_printf _)).bind fun _ =>
        Disciplined.bind (fun g => ⟨trivial, fun _ _ => trivial⟩) fun readBuffer =>
        (disciplined_of_quiet (quiet_reply _ _)).bind fun _ =>
        (disciplined_nvmeReadPartitionSector _ _ _).bind fun x => ?_
      have hrefused : ∀ text, Disciplined (do
          reply clientFD text
          sys (.free (readBuffer.map (·.1)))) :=
        fun text => disciplined_of_quiet ((quiet_reply _ _).bind fun _ => hfree _)
      refine disciplined_ite (fun _ => hrefused _) fun _ =>
        disciplined_ite (fun _ => hrefused _) fun _ => ?_
      cases readBuffer with
      | none => exact disciplined_of_quiet quiet_fault
      | some b => exact disciplined_of_quiet ((quiet_showSectors _ _ _).bind fun _ => hfree _)

lemma disciplined_startJob {kind : PerfKind} (hkind : kind.checksName = false)
    (job : PerfJobInfo) : Disciplined (startJob kind job) := fun _ =>
  ⟨hkind, fun texts _ => disciplined_of_quiet (quiet_printAll texts) _⟩

lemma disciplined_perfRange (clientFD : ℤ) {kind : PerfKind} (hkind : kind.checksName = false)
    (partToPerf : ℤ) (perfJob : PerfJobInfo) :
    Disciplined (perfRange clientFD kind partToPerf perfJob) := by
  have hrefuse := fun text (job : PerfJobInfo) => quiet_then (quiet_reply clientFD text) job
  unfold perfRange
  refine disciplined_ite (fun _ => disciplined_of_quiet (hrefuse _ _)) fun _ => ?_
  refine (disciplined_openPartition fun _ _ => disciplined_ret _).bind fun rc => ?_
  refine disciplined_ite (fun _ => disciplined_of_quiet (hrefuse _ _)) fun _ => ?_
  refine (disciplined_openPartition fun _ _ => disciplined_ret _).bind fun x => ?_
  refine disciplined_ite (fun _ => disciplined_of_quiet (hrefuse _ _)) fun _ => ?_
  refine (disciplined_openPartition fun _ _ => disciplined_ret _).bind fun y => ?_
  refine disciplined_ite (fun _ => disciplined_of_quiet (hrefuse _ _)) fun _ => ?_
  refine (disciplined_of_quiet (quiet_reply _ _)).bind fun _ =>
    (disciplined_redirected (disciplined_startJob hkind _)).bind fun _ =>
    (disciplined_of_quiet (quiet_printAll _)).bind fun _ => disciplined_ret _

lemma disciplined_perfCommand (clientFD : ℤ) {kind : PerfKind}
    (hkind : kind.checksName = false) (c : Command) (perfJob : PerfJobInfo) :
    Disciplined (perfCommand clientFD kind c perfJob) := by
  have hmissing : Disciplined (perfCommand.missing clientFD perfJob) :=
    disciplined_of_quiet (quiet_then (quiet_reply _ _) _)
  obtain ⟨-, heq⟩ | ⟨arg1, arg2, arg3, extra, -, -, -, -, heq⟩ :=
    perfCommand_cases clientFD kind c perfJob
  · rwa [heq]
  · simp only [heq, hkind, Bool.false_eq_true, if_false]
    exact disciplined_perfRange clientFD hkind _ _

/-- The commands `seq_write` and `rand_write`, under their long and short names. -/
def Command.isPerfWrite (c : Command) : Bool :=
  c.is "seq_write" || c.is "sw" || c.is "rand_write" || c.is "rw"

/-- The other performance commands read. -/
lemma Command.checksName_of_kind {c : Command} {kind : PerfKind} (hc : c.isPerfWrite = false)
    (hkind : c.kind = .perf kind) : kind.checksName = false := by
  simp only [Command.isPerfWrite, Bool.or_assoc, Bool.or_eq_false_iff] at hc
  obtain ⟨hsw, hsw', hrw, hrw'⟩ := hc
  have hbranch : ∀ {b : Prop} [Decidable b] {k k' : CommandKind},
      (k = .perf kind → kind.checksName = false) → (k' = .perf kind → kind.checksName = false) →
      (if b then k else k') = .perf kind → kind.checksName = false := by
    intro b _ k k' hk hk'
    split
    · exact hk
    · exact hk'
  have hread : ∀ {kind' : PerfKind}, kind'.checksName = false →
      CommandKind.perf kind' = .perf kind → kind.checksName = false := by
    rintro kind' hkind' ⟨⟩
    exact hkind'
  revert hkind
  simp only [Command.kind, hsw, hsw', hrw, hrw', Bool.or_self, Bool.false_eq_true, if_false]
  iterate 8 refine hbranch (by simp) ?_
  exact hbranch (hread rfl) (hbranch (hread rfl) (by simp))

/-- Every command but the performance writes keeps to the protocol. -/
theorem disciplined_dispatch (clientFD : ℤ) (past : ℕ → Byte) {c : Command}
    (hc : c.isPerfWrite = false) (perfJob : PerfJobInfo) :
    Disciplined (dispatch clientFD past c perfJob) := by
  have hthen : ∀ {p : Sys Unit} (x : Bool × PerfJobInfo), Disciplined p →
      Disciplined (do p; return x : Sys (Bool × PerfJobInfo)) :=
    fun x hp => hp.bind fun _ => disciplined_ret x
  rw [dispatch_eq]
  refine (disciplined_of_quiet (quiet_printf _)).bind fun _ => ?_
  cases hkind : c.kind with
  | help => exact hthen _ (disciplined_of_quiet (quiet_sendCommandUsage clientFD))
  | status =>
    exact (disciplined_of_quiet (quiet_redirected quiet_nvmeGetStatus)).bind fun _ =>
      disciplined_ret _
  | listparts => exact hthen _ (disciplined_listparts clientFD)
  | quit => exact disciplined_ret _
  | mkpart => exact hthen _ (disciplined_mkpart clientFD c)
  | rmpart => exact hthen _ (disciplined_rmpart clientFD c)
  | write => exact hthen _ (disciplined_write clientFD past c)
  | read => exact hthen _ (disciplined_read clientFD c)
  | perf kind =>
    have hreads := Command.checksName_of_kind hc hkind
    exact (disciplined_perfCommand clientFD hreads c perfJob).bind fun _ => disciplined_ret _
  | unknown => exact disciplined_ret _

lemma disciplined_serve (clientFD : ℤ) {cmds : List (Command × (ℕ → Byte))}
    (hcmds : ∀ x ∈ cmds, x.1.isPerfWrite = false) (perfJob : PerfJobInfo) :
    Disciplined (serve clientFD cmds perfJob) := by
  induction cmds generalizing perfJob with
  | nil => exact disciplined_ret _
  | cons x rest ih =>
    obtain ⟨c, past⟩ := x
    refine (disciplined_dispatch clientFD past (hcmds _ List.mem_cons_self) perfJob).bind
      fun y => ?_
    exact disciplined_ite (fun _ => ih (fun z hz => hcmds z (List.mem_cons_of_mem _ hz)) _)
      fun _ => disciplined_ret _

end Aesd
