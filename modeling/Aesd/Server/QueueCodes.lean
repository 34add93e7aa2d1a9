import Aesd.Server.QueueExecution

/-!
# The codes that the queue returns

`processNextCommandInQueue` returns the members of two enumerations as one `int`.
`NVME_STATUS_ERROR` is `ERROR_STATE`, and `NVME_STATUS_PART_DNE` is `ERROR_EMPTY_QUEUE`. A code says
what it should unless a call fails while a command is executed, a command reads a partition 1 that
does not exist, or it creates a partition in an empty table (`queueCodes_iff`).
-/

namespace Aesd

open Effect CInt

/-! ### A record of the calls -/

/-- The failures that the functions of `nvmeInterface.c` report as `NVME_STATUS_ERROR`. A new
partition whose name would be longer than 15 bytes is one of them. -/
def fails : (op : SysOp) → Answer op → Bool
  | .pedDeviceOpen, r             => !r
  | .pedDiskNew, r                => r.isNone
  | .pedFileSystemTypeGet _, r    => !r
  | .pedPartitionNew _ _, r       => !r
  | .pedDiskAddPartition _ _ _, r => r.all fun part => 15 < (partName part.num).length
  | .pedDiskCommitToDev _, r      => !r
  | .pedDiskCommitToOs _, r       => !r
  | .pedGeometryWrite _ _ _ _, r  => !r
  | .pedGeometryRead _ _ _, r     => r.isNone
  | .pedGeometrySync _, r         => !r
  | .nvmeScan, r                  => r.isNone
  | _, _                          => false

/-- The table that a call reads. -/
def readTable : (op : SysOp) → Answer op → List PedDisk
  | .pedDiskNew, r => r.toList
  | _, _           => []

/-- Whether a call has failed so far, and the tables that have been read. -/
structure DriveCalls where
  failed : Bool := false
  tables : List PedDisk := []

/-- Nothing is owed. -/
def driveCalls : Protocol SysOp Answer DriveCalls where
  pre _ _ := True
  post _ _ _ := True
  next g op r := ⟨g.failed || fails op r, g.tables ++ readTable op r⟩

lemma driveCalls_after (g : DriveCalls) (tr : List (Prog.Answered SysOp Answer)) :
    driveCalls.after g tr = ⟨g.failed || tr.any fun e => fails e.1 e.2,
      g.tables ++ tr.flatMap fun e => readTable e.1 e.2⟩ := by
  induction tr generalizing g with
  | nil => simp [Protocol.after]
  | cons e tr ih =>
    show driveCalls.after (driveCalls.next g e.1 e.2) tr = _
    rw [ih]
    simp [driveCalls, Bool.or_assoc]

variable {α β : Type} {g : DriveCalls} {lacks : PedDisk → Prop}

/-- The status is one of the two that are also codes of the queue exactly if a call has failed or a
table has been read that lacks something. -/
def ReportsFailure (lacks : PedDisk → Prop) (g : DriveCalls) (rc : NvmeStatus) : Prop :=
  rc = .error ∨ rc = .partDne ↔ g.failed = true ∨ ∃ disk ∈ g.tables, lacks disk

namespace ReportsFailure

variable {rc : NvmeStatus}

lemma of_failed (hfailed : g.failed = true) : ReportsFailure lacks g .error :=
  iff_of_true (Or.inl rfl) (Or.inl hfailed)

lemma of_lacks {disk : PedDisk} (hread : disk ∈ g.tables) (hlacks : lacks disk)
    (hrc : rc = .error ∨ rc = .partDne) : ReportsFailure lacks g rc :=
  iff_of_true hrc (Or.inr ⟨disk, hread, hlacks⟩)

lemma of_ok (hok : g.failed = false) (hread : ∀ disk ∈ g.tables, ¬ lacks disk)
    (herror : rc ≠ .error) (hpartDne : rc ≠ .partDne) : ReportsFailure lacks g rc := by
  refine iff_of_false (not_or.mpr ⟨herror, hpartDne⟩) (not_or.mpr ⟨by simp [hok], ?_⟩)
  rintro ⟨disk, hdisk, hlacks⟩
  exact hread disk hdisk hlacks

end ReportsFailure

lemma Prints.bind_obeys {p : Sys α} {f : α → Sys β} {Q : DriveCalls → β → Prop} (hp : Prints p)
    (hf : ∀ a, (f a).Obeys driveCalls g Q) : (p >>= f).Obeys driveCalls g Q := by
  refine Prog.obeys_bind.mpr (hp.obeys (fun _ _ => trivial) ?_ hf)
  rintro _ r ⟨text, rfl⟩
  simp [driveCalls, fails, readTable]

lemma reportsFailure_openDisk {trace : PedDevice → Sys Unit} {fail : NvmeStatus → α}
    {body : PedDevice → PedDisk → Sys α} {status : α → NvmeStatus}
    (htrace : ∀ dev, Prints (trace dev)) (hfail : ∀ rc, status (fail rc) = rc)
    (hbody : ∀ dev disk, (body dev disk).Obeys driveCalls ⟨false, [disk]⟩
      fun g a => ReportsFailure lacks g (status a)) :
    (openDisk trace fail body).Obeys driveCalls {} fun g a =>
      ReportsFailure lacks g (status a) := by
  have hnone : ∀ g : DriveCalls, g.tables = [] → ∀ disk ∈ g.tables, ¬ lacks disk := by
    intro g hg disk hdisk
    rw [hg] at hdisk
    cases hdisk
  simp only [openDisk, Prog.perform_bind]
  refine ⟨trivial, fun (dev : Option PedDevice) _ => ?_⟩
  cases dev with
  | none =>
    show ReportsFailure lacks _ (status (fail .notFound))
    rw [hfail]
    exact .of_ok rfl (hnone _ rfl) (by decide) (by decide)
  | some dev =>
    refine (htrace dev).bind_obeys fun _ => ⟨trivial, fun (opened : Bool) _ => ?_⟩
    cases opened with
    | false =>
      show ReportsFailure lacks _ (status (fail .error))
      rw [hfail]
      exact .of_failed rfl
    | true =>
      refine ⟨trivial, fun (disk : Option PedDisk) _ => ?_⟩
      cases disk with
      | none =>
        show ReportsFailure lacks _ (status (fail .error))
        rw [hfail]
        exact .of_failed rfl
      | some disk => exact hbody dev disk

/-! ### The functions -/

lemma reportsFailure_nvmeGetStatus :
    nvmeGetStatus.Obeys driveCalls {} (ReportsFailure fun _ => False) := by
  simp only [nvmeGetStatus, Prog.perform_bind]
  refine ⟨trivial, fun (root : Option NvmeRoot) _ => ?_⟩
  cases root with
  | none => exact .of_failed rfl
  | some root =>
    refine (prints_printAll _).bind_obeys fun _ => ?_
    refine ReportsFailure.of_ok rfl (fun _ _ => id) ?_ ?_
    · split_ifs <;> decide
    · split_ifs <;> decide

lemma reportsFailure_nvmeListNamespace :
    nvmeListNamespace.Obeys driveCalls {} (ReportsFailure fun _ => False) := by
  simp only [nvmeListNamespace, Prog.perform_bind]
  refine ⟨trivial, fun (root : Option NvmeRoot) _ => ?_⟩
  cases root with
  | none => exact .of_failed rfl
  | some root =>
    refine (prints_printAll _).bind_obeys fun _ => ?_
    exact ReportsFailure.of_ok rfl (fun _ _ => id) (by decide) (by decide)

lemma reportsFailure_nvmeReadPartitionSector {partNumber sectorNumber length : ℤ} :
    (nvmeReadPartitionSector partNumber sectorNumber length).Obeys driveCalls {} fun g res =>
      ReportsFailure (fun disk => pedDiskGetPartition disk (toI32 partNumber) = none) g res.1 := by
  rw [nvmeReadPartitionSector, openPartition]
  apply reportsFailure_openDisk (fun _ => by trivial) (fun _ => by rfl)
  intro dev disk
  cases hpart : pedDiskGetPartition disk (toI32 partNumber) with
  | none =>
    refine (prints_printf _).bind_obeys fun _ => ?_
    exact ReportsFailure.of_lacks List.mem_cons_self hpart (Or.inr rfl)
  | some part =>
    refine (prints_printf _).bind_obeys fun _ =>
      ⟨trivial, fun (bytes : Option (List Byte)) _ => ?_⟩
    cases bytes with
    | none => exact ReportsFailure.of_failed rfl
    | some bytes =>
      refine ReportsFailure.of_ok rfl ?_ (by simp) (by simp)
      intro disk' hdisk'
      obtain rfl : disk' = disk := List.mem_singleton.mp hdisk'
      simp [hpart]

lemma reportsFailure_nvmeWritePartitionSector {partNumber sectorNumber length : ℤ}
    {buffer : ℕ → Byte} :
    (nvmeWritePartitionSector partNumber sectorNumber buffer length).Obeys driveCalls {}
      (ReportsFailure fun _ => False) := by
  refine reportsFailure_openDisk (fun _ => trivial) (fun _ => rfl) fun dev disk => ?_
  have hrefused : ∀ text rc, rc ≠ .error → rc ≠ .partDne →
      (do printf text; return rc : Sys NvmeStatus).Obeys driveCalls ⟨false, [disk]⟩
        (ReportsFailure fun _ => False) := fun text rc herror hpartDne =>
    (prints_printf text).bind_obeys fun _ => .of_ok rfl (fun _ _ => id) herror hpartDne
  cases pedDiskGetPartition disk (toI32 partNumber) with
  | none => exact hrefused _ _ (by decide) (by decide)
  | some part =>
    refine (prints_nvmeCheckNameSafety part).bind_obeys fun rc => ?_
    cases rc with
    | ok =>
      refine (prints_printf _).bind_obeys fun _ => ⟨trivial, fun (written : Bool) _ => ?_⟩
      cases written with
      | false => exact ReportsFailure.of_failed rfl
      | true =>
        refine ⟨trivial, fun (synced : Bool) _ => ?_⟩
        cases synced with
        | false => exact ReportsFailure.of_failed rfl
        | true => exact ReportsFailure.of_ok rfl (fun _ _ => id) (by decide) (by decide)
    | _ => exact hrefused _ _ (by decide) (by decide)

lemma reportsFailure_nvmeDeletePartition {partNumber : ℤ} :
    (nvmeDeletePartition partNumber).Obeys driveCalls {} (ReportsFailure fun _ => False) := by
  refine reportsFailure_openDisk (fun _ => trivial) (fun _ => rfl) fun dev disk => ?_
  cases pedDiskGetPartition disk partNumber with
  | none => exact ReportsFailure.of_ok rfl (fun _ _ => id) (by decide) (by decide)
  | some part =>
    refine (prints_nvmeCheckNameSafety part).bind_obeys fun rc => ?_
    cases rc with
    | ok =>
      refine ⟨trivial, fun deleted _ => ⟨trivial, fun (committed : Bool) _ => ?_⟩⟩
      cases committed with
      | false => exact ReportsFailure.of_failed rfl
      | true =>
        refine ⟨trivial, fun (told : Bool) _ => ?_⟩
        cases told with
        | false => exact ReportsFailure.of_failed rfl
        | true => exact ReportsFailure.of_ok rfl (fun _ _ => id) (by decide) (by decide)
    | _ =>
      refine (prints_printf _).bind_obeys fun _ => ?_
      exact ReportsFailure.of_ok rfl (fun _ _ => id) (by decide) (by decide)

/-- After a partition has been added a name that does not fit, or a commit, may fail. -/
lemma reportsFailure_nameAndCommit {disk : PedDisk} {newPart : PedPartition}
    (hfailed : g.failed = decide (15 < (partName newPart.num).length))
    (hread : ∀ disk ∈ g.tables, ¬ lacks disk) :
    (nameAndCommit disk newPart).Obeys driveCalls g fun g res => ReportsFailure lacks g res.1 := by
  refine (prints_printf _).bind_obeys fun _ => ?_
  split_ifs with hlength
  · refine ReportsFailure.of_failed (hfailed.trans (decide_eq_true ?_))
    rw [List.length_take] at hlength
    show 15 < (str "AESD Part " ++ dec newPart.num).length
    omega
  · have hok : g.failed = false := by
      rw [hfailed, decide_eq_false_iff_not]
      rw [not_not, List.length_take] at hlength
      show ¬ 15 < (str "AESD Part " ++ dec newPart.num).length
      omega
    refine ⟨trivial, fun (named : Bool) _ => ⟨trivial, fun (committed : Bool) _ => ?_⟩⟩
    cases committed with
    | false => exact ReportsFailure.of_failed (by simp [driveCalls, fails])
    | true =>
      refine ⟨trivial, fun (told : Bool) _ => ?_⟩
      cases told with
      | false => exact ReportsFailure.of_failed (by simp [driveCalls, fails])
      | true =>
        refine ReportsFailure.of_ok ?_ ?_ (by simp) (by simp)
        · simp [driveCalls, fails, hok]
        · simpa [driveCalls, readTable] using hread

/-- A table with partitions is only too small. -/
lemma requestRegion_input {dev : PedDevice} {disk : PedDisk} {size : ℤ} {rc : NvmeStatus}
    (hlast : pedDiskGetLastPartitionNum disk ≠ -1)
    (h : requestRegion dev disk size = some (.error rc)) : rc = .input := by
  simp only [requestRegion, if_neg hlast] at h
  split at h
  · cases h
  · split_ifs at h <;> cases h <;> rfl

lemma reportsFailure_nvmeCreatePartition {size : ℤ} :
    (nvmeCreatePartition size).Obeys driveCalls {} fun g res =>
      ReportsFailure (fun disk => pedDiskGetLastPartitionNum disk = -1) g res.1 := by
  apply reportsFailure_openDisk (fun _ => prints_printf _) (fun _ => by rfl)
  intro dev disk
  simp only [Prog.perform_bind]
  refine ⟨trivial, fun (fsType : Bool) _ => ?_⟩
  cases fsType with
  | false => exact ReportsFailure.of_failed rfl
  | true =>
    refine ⟨trivial, fun (grainSize : Option ℤ) _ => ?_⟩
    cases grainSize with
    | none => exact ⟨trivial, fun r => r.elim⟩
    | some grainSize =>
      refine (prints_printf _).bind_obeys fun _ => (prints_printf _).bind_obeys fun _ => ?_
      by_cases hlast : pedDiskGetLastPartitionNum disk = -1
      · -- there is no partition that the new one could follow
        have hrequest : requestRegion dev disk size = some (.error .error) := by
          simp [requestRegion, hlast]
        rw [hrequest]
        exact ReportsFailure.of_lacks List.mem_cons_self hlast (Or.inl rfl)
      · have hread : ∀ disk' ∈ [disk], ¬ pedDiskGetLastPartitionNum disk' = -1 := by
          intro disk' hdisk'
          rw [List.mem_singleton.mp hdisk']
          exact hlast
        split
        · -- the process ends, and there is no status
          exact ⟨trivial, fun r => r.elim⟩
        · rename_i rc hrequest
          rw [requestRegion_input hlast hrequest]
          exact ReportsFailure.of_ok rfl hread (by simp) (by simp)
        · refine ⟨trivial, fun (made : Bool) _ => ?_⟩
          cases made with
          | false => exact ReportsFailure.of_failed rfl
          | true =>
            refine (prints_printf _).bind_obeys fun _ =>
              ⟨trivial, fun (newPart : Option PedPartition) _ => ?_⟩
            cases newPart with
            | none => exact ReportsFailure.of_failed rfl
            | some newPart => exact reportsFailure_nameAndCommit rfl hread

/-! ### The codes of executed commands -/

/-- The command needs a partition that the table does not have: a read needs partition 1, and a new
partition is put behind another one. -/
def UserCommandInfo.Lacks (cmd : UserCommandInfo) (disk : PedDisk) : Prop :=
  match cmd.userCommandType with
  | .io       => cmd.ioType = .readToBuffer ∧ pedDiskGetPartition disk 1 = none
  | .createNs => pedDiskGetLastPartitionNum disk = -1
  | _         => False

/-- The code of an executed command is one that the queue uses itself exactly if a call has failed
or a table has been read that lacks a partition. -/
def Coincides (cmd : UserCommandInfo) (g : DriveCalls) (code : ℤ) : Prop :=
  code = ERROR_STATE ∨ code = ERROR_EMPTY_QUEUE ↔
    g.failed = true ∨ ∃ disk ∈ g.tables, cmd.Lacks disk

lemma toInt_eq_ERROR_STATE {rc : NvmeStatus} : rc.toInt = ERROR_STATE ↔ rc = .error := by
  cases rc <;> decide

lemma toInt_eq_ERROR_EMPTY_QUEUE {rc : NvmeStatus} :
    rc.toInt = ERROR_EMPTY_QUEUE ↔ rc = .partDne := by
  cases rc <;> decide

variable {cmd : UserCommandInfo}

lemma coincides_toInt {rc : NvmeStatus} (hlacks : ∀ disk, cmd.Lacks disk ↔ lacks disk) :
    Coincides cmd g rc.toInt ↔ ReportsFailure lacks g rc := by
  simp only [Coincides, ReportsFailure, toInt_eq_ERROR_STATE, toInt_eq_ERROR_EMPTY_QUEUE, hlacks]

lemma coincides_input : Coincides cmd {} ERROR_INPUT :=
  iff_of_false (by decide) (by simp)

lemma coincides_notSupported : Coincides cmd {} ERROR_NOT_SUPPORTED :=
  iff_of_false (by decide) (by simp)

/-- The status of a function is returned as the code. -/
lemma coincides_bind {p : Sys α} {status : α → NvmeStatus} {bytes : α → List Byte}
    (hp : p.Obeys driveCalls {} fun g a => ReportsFailure lacks g (status a))
    (hlacks : ∀ disk, cmd.Lacks disk ↔ lacks disk) :
    (p >>= fun a => .ret ((status a).toInt, bytes a)).Obeys driveCalls {}
      fun g res => Coincides cmd g res.1 :=
  Prog.obeys_bind.mpr (hp.mono fun _ _ h => (coincides_toInt hlacks).mpr h)

lemma coincides_executeUserCommand (memory : ℕ → Byte) (cmd : UserCommandInfo) :
    (executeUserCommand memory cmd).Obeys driveCalls {} fun g res => Coincides cmd g res.1 := by
  unfold executeUserCommand
  cases htype : cmd.userCommandType with
  | io =>
    cases hio : cmd.ioType with
    | status =>
      apply coincides_bind reportsFailure_nvmeGetStatus
      simp [UserCommandInfo.Lacks, htype, hio]
    | readToBuffer =>
      dsimp only
      split_ifs
      · exact coincides_input
      · have hone : toI32 1 = 1 := by decide
        apply coincides_bind reportsFailure_nvmeReadPartitionSector
        simp [UserCommandInfo.Lacks, htype, hio, hone]
    | writeToBuffer =>
      dsimp only
      split_ifs
      · exact coincides_input
      · apply coincides_bind reportsFailure_nvmeWritePartitionSector
        simp [UserCommandInfo.Lacks, htype, hio]
    | readToFile | writeFromFile | other value => exact coincides_notSupported
  | listNs =>
    apply coincides_bind reportsFailure_nvmeListNamespace
    simp [UserCommandInfo.Lacks, htype]
  | createNs =>
    apply coincides_bind reportsFailure_nvmeCreatePartition
    simp [UserCommandInfo.Lacks, htype]
  | removeNs =>
    apply coincides_bind reportsFailure_nvmeDeletePartition
    simp [UserCommandInfo.Lacks, htype]
  | getStatus =>
    apply coincides_bind reportsFailure_nvmeGetStatus
    simp [UserCommandInfo.Lacks, htype]
  | other value => exact coincides_input

lemma coincides_processNext {s : Process} {cmd : CommandT} {Q : List CommandT}
    (hq : Represents s.queue (cmd :: Q)) (hready : cmd.stateNeeded = .idle) :
    s.processNext.Obeys driveCalls {} fun g x => Coincides cmd.userCmdInfo g x.1 := by
  rw [processNext_cons hq, if_neg (by simp [hready])]
  cases cmd.cmdType with
  | userCommand =>
    exact Prog.obeys_bind.mpr (coincides_executeUserCommand s.memory cmd.userCmdInfo)
  | perfCommand | adminCommand => exact coincides_notSupported
  | other value => exact coincides_input

/-! ### The codes of the queue -/

/-- The codes say what they should: that the queue is empty, or that the command needs another state
than the machine is in; what is executed returns neither. -/
structure Unambiguous (s : Process) (Q : List CommandT) (code : ℤ) : Prop where
  empty : code = ERROR_EMPTY_QUEUE ↔ Q = []
  state : code = ERROR_STATE ↔ ∃ cmd, Q.head? = some cmd ∧ cmd.stateNeeded ≠ s.queue.state
  executed : ∀ cmd, Q.head? = some cmd → cmd.stateNeeded = s.queue.state →
    code ≠ ERROR_EMPTY_QUEUE ∧ code ≠ ERROR_STATE

/-- Among the calls of a run one has failed, or has read a table that lacks a partition which the
head of the queue needs. -/
def FailsOrLacks (Q : List CommandT) (tr : List (Prog.Answered SysOp Answer)) : Prop :=
  (∃ e ∈ tr, fails e.1 e.2 = true) ∨ ∃ cmd disk, Q.head? = some cmd ∧
    (⟨.pedDiskNew, some disk⟩ : Prog.Answered SysOp Answer) ∈ tr ∧ cmd.userCmdInfo.Lacks disk

lemma mem_readTable {disk : PedDisk} {e : Prog.Answered SysOp Answer} :
    disk ∈ readTable e.1 e.2 ↔ e = ⟨.pedDiskNew, some disk⟩ := by
  obtain ⟨op, r⟩ := e
  cases op <;> simp [readTable]

variable {s s' : Process} {d d' : Device} {Q : List CommandT}
  {tr : List (Prog.Answered SysOp Answer)} {code : ℤ}

/-- What the calls of a run say about the code of an executed command. -/
lemma failsOrLacks_iff {cmd : CommandT} (hq : Represents s.queue (cmd :: Q))
    (hready : cmd.stateNeeded = .idle)
    (h : s.processNext.EvalTrace pedExec d tr (code, s') d') :
    FailsOrLacks (cmd :: Q) tr ↔ code = ERROR_STATE ∨ code = ERROR_EMPTY_QUEUE := by
  obtain ⟨-, hcode⟩ := (coincides_processNext hq hready).evalTrace (I := fun _ _ => True)
    (fun _ _ _ _ _ _ _ _ => ⟨trivial, trivial⟩) trivial h
  rw [driveCalls_after] at hcode
  refine Iff.trans ?_ hcode.symm
  simp only [FailsOrLacks, Bool.false_or, List.any_eq_true, List.nil_append, List.mem_flatMap,
    mem_readTable, exists_eq_right]
  simp [and_comm]

/-- The code is right exactly if it is not one that an executed command should not have. -/
lemma unambiguous_iff (hq : Represents s.queue Q)
    (h : s.processNext.EvalTrace pedExec d tr (code, s') d') :
    Unambiguous s Q code ↔ ¬ FailsOrLacks Q tr := by
  cases Q with
  | nil =>
    rw [processNext_nil hq] at h
    obtain ⟨rfl, heq, -⟩ := h
    obtain ⟨rfl, -⟩ := Prod.mk.inj heq
    refine iff_of_true ⟨by simp, ?_, by simp⟩ (by simp [FailsOrLacks])
    exact iff_of_false (by decide) (by simp)
  | cons cmd Q =>
    have hidle : s.queue.state = .idle := hq.idle
    by_cases hready : cmd.stateNeeded = .idle
    · -- the command is executed, and its code is returned
      rw [failsOrLacks_iff hq hready h]
      constructor
      · rintro hcode (hstate | hempty)
        · exact (hcode.executed cmd rfl (hready.trans hidle.symm)).2 hstate
        · exact (hcode.executed cmd rfl (hready.trans hidle.symm)).1 hempty
      · intro hcode
        rw [not_or] at hcode
        refine ⟨iff_of_false hcode.2 (by simp), iff_of_false hcode.1 ?_, fun _ _ _ => hcode.symm⟩
        rintro ⟨cmd', hcmd', hneeded⟩
        obtain rfl : cmd = cmd' := Option.some.inj hcmd'
        exact hneeded (hready.trans hidle.symm)
    · -- the code says that another state is needed, and it is
      rw [processNext_cons hq, if_pos hready] at h
      obtain ⟨rfl, heq, -⟩ := h
      obtain ⟨rfl, -⟩ := Prod.mk.inj heq
      refine iff_of_true ⟨iff_of_false (by decide) (by simp), ?_, ?_⟩ (by simp [FailsOrLacks])
      · exact iff_of_true rfl ⟨cmd, rfl, by rwa [hidle]⟩
      · intro cmd' hcmd' hneeded
        obtain rfl : cmd = cmd' := Option.some.inj hcmd'
        exact absurd (hneeded.trans hidle) hready

/-- A consumer calls `processNextCommandInQueue` until it returns `ERROR_EMPTY_QUEUE`. `C` says what
holds of the queue and the calls each time. -/
inductive Consumes (C : Process → List (Prog.Answered SysOp Answer) → Prop) :
    Process → Device → Process → Device → Prop where
  | stop {s s' : Process} {d d' : Device} {tr : List (Prog.Answered SysOp Answer)}
      (h : s.processNext.EvalTrace pedExec d tr (ERROR_EMPTY_QUEUE, s') d') (hC : C s tr) :
      Consumes C s d s' d'
  | next {s s₁ s' : Process} {d d₁ d' : Device} {tr : List (Prog.Answered SysOp Answer)} {code : ℤ}
      (h : s.processNext.EvalTrace pedExec d tr (code, s₁) d₁) (hC : C s tr)
      (hcode : code ≠ ERROR_EMPTY_QUEUE) (hrest : Consumes C s₁ d₁ s' d') :
      Consumes C s d s' d'

/-- The calls of a consumer's turn neither fail nor lack a partition. -/
def TurnOk (s : Process) (tr : List (Prog.Answered SysOp Answer)) : Prop :=
  ∀ Q, Represents s.queue Q → ¬ FailsOrLacks Q tr

lemma Consumes.represents_nil (h : Consumes TurnOk s d s' d') (hq : Represents s.queue Q) :
    Represents s'.queue [] := by
  induction h generalizing Q with
  | stop h hC =>
    obtain rfl := ((unambiguous_iff hq h).mpr (hC Q hq)).empty.mp rfl
    rw [processNext_nil hq] at h
    obtain ⟨-, heq, -⟩ := h
    rw [(Prod.mk.inj heq).2]
    exact hq.dequeueLocked.2
  | next h _ _ _ ih =>
    obtain ⟨Q', hq'⟩ := hq.eval (processNext_queueExec h.eval)
    exact ih hq'

/-- Every call returns the right code exactly if, while it executes a command, no call fails and no
table lacks the partition that the command needs; and a consumer all of whose calls are such stops
only when the queue is empty. -/
theorem queueCodes_iff (hq : Represents s.queue Q) :
    (∀ d tr code s' d', s.processNext.EvalTrace pedExec d tr (code, s') d' →
      (Unambiguous s Q code ↔ ¬ FailsOrLacks Q tr)) ∧
    ∀ d s' d', Consumes TurnOk s d s' d' → Represents s'.queue [] :=
  ⟨fun _ _ _ _ _ h => unambiguous_iff hq h, fun _ _ _ h => h.represents_nil hq⟩

theorem queueCodes_oneCommand :
    (∀ d tr code s' d', (processWith [ioCommand .readToBuffer 1]).processNext.EvalTrace pedExec d tr
        (code, s') d' →
      (Unambiguous (processWith [ioCommand .readToBuffer 1]) [ioCommand .readToBuffer 1] code ↔
        ¬ FailsOrLacks [ioCommand .readToBuffer 1] tr)) ∧
    ∀ d s' d', Consumes TurnOk (processWith [ioCommand .readToBuffer 1]) d s' d' →
      Represents s'.queue [] :=
  queueCodes_iff (processWith_represents (by decide))

/-- Two reads are in the queue and there is no partition 1. A call executes the first one and
returns `ERROR_EMPTY_QUEUE`, so that a consumer leaves the second one in the queue; if the device
cannot be opened the call returns `ERROR_STATE`, although no other state is needed. -/
theorem queueCodes_ambiguous :
    ¬ Unambiguous (processWith [ioCommand .readToBuffer 1, ioCommand .readToBuffer 1])
        [ioCommand .readToBuffer 1, ioCommand .readToBuffer 1] ERROR_EMPTY_QUEUE ∧
      ¬ Unambiguous (processWith [ioCommand .readToBuffer 1, ioCommand .readToBuffer 1])
        [ioCommand .readToBuffer 1, ioCommand .readToBuffer 1] ERROR_STATE ∧
      (∃ s', Consumes (fun _ _ => True)
          (processWith [ioCommand .readToBuffer 1, ioCommand .readToBuffer 1]) secondPart s'
          secondPart ∧ Represents s'.queue [ioCommand .readToBuffer 1]) ∧
      ∃ s', (processWith [ioCommand .readToBuffer 1, ioCommand .readToBuffer 1]).processNext.Eval
        pedExec secondPart (ERROR_STATE, s') secondPart := by
  have hq : Represents _ [ioCommand .readToBuffer 1, ioCommand .readToBuffer 1] :=
    processWith_represents (by decide)
  have hio : IsBufferIo (ioCommand .readToBuffer 1) := ioCommand_isBufferIo (Or.inl rfl) (by decide)
  have hrefused : (ioCommand .readToBuffer 1).userCmdInfo.refusal secondPart.table 1 =
      some .partDne := by decide
  have hone : toI32 1 = 1 := by decide
  refine ⟨?_, ?_, ?_, ?_⟩
  · intro h
    cases h.empty.mp rfl
  · intro h
    obtain ⟨cmd, hcmd, hneeded⟩ := h.state.mp rfl
    obtain rfl : ioCommand .readToBuffer 1 = cmd := Option.some.inj hcmd
    exact hneeded hq.idle.symm
  · -- the consumer stops after the first command
    have hrun := (hio.eval hq).mpr
      ⟨[], (eval_bufferIo_refused hone hrefused).mpr
        ⟨rfl, ⟨.partDne, Or.inr (Or.inr rfl), rfl⟩, rfl⟩, rfl⟩
    obtain ⟨tr, htrace⟩ := hrun.exists_trace
    exact ⟨_, .stop htrace trivial, hq.dequeueLocked.2⟩
  · -- `ped_device_open` fails
    exact ⟨_, (hio.eval hq).mpr
      ⟨[], (eval_bufferIo_refused hone hrefused).mpr
        ⟨rfl, ⟨.error, Or.inr (Or.inl rfl), rfl⟩, rfl⟩, rfl⟩⟩

end Aesd
