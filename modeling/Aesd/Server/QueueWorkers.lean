import Aesd.Server.AcceptedCommands
import Aesd.Server.AllCommands
import Aesd.Server.QueueExecution

/-!
# Threads that work on the command queue

The queue is there for threads that put commands in it and threads that take them out, all of which
work on one disk. The mutex is held while a command is put in or taken out, but not while it is
executed. So a command may be executed while others are, also after one that was accepted later.
Still nothing is done to the disk that no command asks for, and at most one thing for each command
that is taken out (`queueWorkers_commissioned`).
-/

namespace Aesd

open Effect CInt

variable {α : Type}

/-! ### Threads -/

/-- A step of a thread: an operation on the queue, a look at the memory when a command's execution
begins, or a call that the execution makes. -/
inductive WorkerOp where
  | queue (op : QueueOp)
  | memory
  | sys (op : SysOp)

@[reducible] def WorkerAnswer : WorkerOp → Type
  | .queue op => QueueAnswer op
  | .memory   => ℕ → Byte
  | .sys op   => Answer op

/-- Programs of such threads. -/
abbrev Worker (α : Type) := Prog WorkerOp WorkerAnswer α

/-- The calls of a command's execution. -/
def onDisk (p : Sys α) : Worker α := p.embed WorkerOp.sys fun _ r => r

/-- The operations of the queue's functions, with what `execute_user_command` does written out. Into
which memory the bytes that it reads are put makes no difference here. -/
def workerOp : (op : QueueOp) → Unit → Worker (QueueAnswer op × Unit)
  | .executeUserCommand nextCommand, s => do
    let memory ← Prog.perform WorkerOp.memory
    let res ← onDisk (executeUserCommand memory nextCommand.userCmdInfo)
    return (res.1, s)
  | op, s => do
    let r ← Prog.perform (WorkerOp.queue op)
    return (r, s)

/-- One call of one of the three functions. -/
def QueueCall.onDisk (call : QueueCall) : Worker (ℤ × Unit) := call.body.handle workerOp ()

/-- A thread that makes these calls. -/
def makeCalls : List QueueCall → Worker Unit
  | []            => return ()
  | call :: calls => do
    let _ ← call.onDisk
    makeCalls calls

/-- What the threads share. -/
structure QueueAndDisk where
  queue : CommandQueue
  device : Device

/-- What the steps do. The memory may be any at any time. -/
def workerExec : (op : WorkerOp) → QueueAndDisk → WorkerAnswer op → QueueAndDisk → Prop
  | .queue op, s, r, s' => queueExec op s.queue r s'.queue ∧ s'.device = s.device
  | .memory, s, _, s'   => s' = s
  | .sys op, s, r, s'   => pedExec op s.device r s'.device ∧ s'.queue = s.queue

/-! ### What commands ask for -/

/-- The call changes the disk, or may do so. -/
def SysOp.Changes : SysOp → Prop
  | .pedDiskCommitToDev _ | .pedGeometryWrite _ _ _ _ | .perfStart _ _ => True
  | _ => False

/-- What may be done to the disk for a command, by a thread that has read `view` last: for
`create_ns`, commit one partition more; for `remove_ns`, commit the table without the `AESD`
partition whose number is in `sector`, or as it is; for `write_to_buffer`, write one sector to
partition 1, if it is an `AESD` partition. -/
inductive Commissioned (cmd : UserCommandInfo) (view : PedDisk) : SysOp → Prop where
  | create (part : PedPartition) (name : Text) (htype : cmd.userCommandType = .createNs)
      (hplaced : Placed view part) :
      Commissioned cmd view (.pedDiskCommitToDev ({ part with name := name } :: view))
  | remove {part : PedPartition} {disk : PedDisk} (htype : cmd.userCommandType = .removeNs)
      (hpart : pedDiskGetPartition view (toI32 cmd.sector) = some part)
      (haesd : part.isAesd = true) (hdisk : disk = view ∨ disk = view.erase part) :
      Commissioned cmd view (.pedDiskCommitToDev disk)
  | write {part : PedPartition} (htype : cmd.userCommandType = .io)
      (hio : cmd.ioType = .writeToBuffer) (hpart : pedDiskGetPartition view 1 = some part)
      (haesd : part.isAesd = true) (memory : ℕ → Byte) :
      Commissioned cmd view (.pedGeometryWrite part.geom (fun i => memory (cmd.buffer + i)) 0 1)

/-- The command that a thread has taken out last, until something has been done to the disk for it,
and the table that the thread has read last. -/
structure OnHand where
  command : Option CommandT := none
  view : PedDisk

/-- The command on hand is to be executed, and asks for the call. -/
def OnHand.Allows (g : OnHand) (op : SysOp) : Prop :=
  ∃ cmd, g.command = some cmd ∧ cmd.cmdType = .userCommand ∧ cmd.stateNeeded = .idle ∧
    Commissioned cmd.userCmdInfo g.view op

/-- What changes the disk must be asked for by the command on hand. -/
def commission : Protocol SysOp Answer OnHand where
  pre g op := op.Changes → g.Allows op
  post _ op r := match op, r with
    | .pedDiskAddPartition disk _ _, some part => Placed disk part
    | _, _                                     => True
  next g op r := match op, r with
    | .pedDiskNew, some disk         => { g with view := disk }
    | .pedDiskCommitToDev _, _       => { g with command := none }
    | .pedGeometryWrite _ _ _ _, _   => { g with command := none }
    | _, _                           => g

/-- The same for threads. The queue has been initialised, and its machine stays idle. -/
def workerCommission : Protocol WorkerOp WorkerAnswer OnHand where
  pre g op := match op with
    | .sys op => commission.pre g op
    | _       => True
  post g op r := match op, r with
    | .queue .isInitComplete, (r : Bool) => r = true
    | .queue .state, (r : SmState)       => r = .idle
    | .sys op, r                         => commission.post g op r
    | _, _                               => True
  next g op r := match op, r with
    | .queue .dequeueLocked, (some cmd : Option CommandT) => { g with command := some cmd }
    | .sys op, r                                          => commission.next g op r
    | _, _                                                => g

/-! ### Executing a command -/

variable {g : OnHand} {cmd : CommandT}

/-- Programs that change nothing on the disk. -/
abbrev Inert (p : Sys α) : Prop := p.Only fun op => ¬ op.Changes

lemma inert_of_quiet {p : Sys α} (hp : Quiet p) : Inert p := by
  apply Prog.Only.mono hp
  intro op hop
  cases op <;> first | exact id | exact hop.elim

/-- They are always allowed. -/
lemma commission_of_inert {p : Sys α} (hp : Inert p) :
    p.Obeys commission g fun _ _ => True := by
  induction p generalizing g with
  | ret a => trivial
  | call op k ih => exact ⟨fun hop => absurd hop hp.1, fun r _ => ih r (hp.2 r)⟩

/-- A part that leaves the disk alone can be skipped. -/
lemma commission_quiet_bind {β : Type} {p : Sys α} {f : α → Sys β} {Q : OnHand → β → Prop}
    (hp : Quiet p) (hf : ∀ a, (f a).Obeys commission g Q) :
    (p >>= f).Obeys commission g Q := by
  refine Prog.obeys_bind.mpr (hp.obeys ?_ ?_ hf)
  · intro op hop hchanges
    cases op <;> first | exact hop.elim | exact hchanges.elim
  · intro op r hop
    cases op <;> first | rfl | exact hop.elim

lemma commission_openDisk {trace : PedDevice → Sys Unit} {fail : NvmeStatus → α}
    {body : PedDevice → PedDisk → Sys α} (htrace : ∀ dev, Quiet (trace dev))
    (hbody : ∀ dev disk,
      (body dev disk).Obeys commission { g with view := disk } fun _ _ => True) :
    (openDisk trace fail body).Obeys commission g fun _ _ => True := by
  simp only [openDisk, Prog.perform_bind]
  refine ⟨False.elim, fun dev _ => ?_⟩
  cases dev with
  | none => trivial
  | some dev =>
    refine commission_quiet_bind (htrace dev) fun _ => ⟨False.elim, fun opened _ => ?_⟩
    cases opened with
    | false => trivial
    | true =>
      refine ⟨False.elim, fun disk _ => ?_⟩
      cases disk with
      | none => trivial
      | some disk => exact hbody dev disk

/-- The name check as a rule: what follows it may use that the name starts with `AESD`. -/
lemma commission_nameCheck {part : PedPartition} {f : NvmeStatus → Sys α}
    {Q : OnHand → α → Prop} (hok : part.isAesd = true → (f .ok).Obeys commission g Q)
    (hbad : (f .badName).Obeys commission g Q) :
    (nvmeCheckNameSafety part >>= f).Obeys commission g Q := by
  simp only [nvmeCheckNameSafety, printf, Prog.perform_bind, Prog.call_bind]
  refine ⟨False.elim, fun _ _ => ⟨False.elim, fun _ _ => ?_⟩⟩
  cases haesd : part.isAesd with
  | true =>
    simp only [if_true, Prog.pure_eq_ret, Prog.ret_bind]
    exact hok haesd
  | false =>
    simp only [Bool.false_eq_true, if_false, Prog.pure_eq_ret, Prog.ret_bind]
    exact hbad

lemma commission_nvmeCreatePartition (size : ℤ)
    (hcreate : ∀ view part name, Placed view part →
      OnHand.Allows { g with view := view }
        (.pedDiskCommitToDev ({ part with name := name } :: view))) :
    (nvmeCreatePartition size).Obeys commission g fun _ _ => True := by
  refine commission_openDisk (fun _ => quiet_printf _) fun dev disk => ?_
  simp only [Prog.perform_bind]
  refine ⟨False.elim, fun fsType _ => ?_⟩
  cases fsType with
  | false => trivial
  | true =>
    refine ⟨False.elim, fun align _ => ?_⟩
    cases align with
    | none => exact ⟨False.elim, fun r => r.elim⟩
    | some grainSize =>
      refine commission_quiet_bind (quiet_printf _) fun _ =>
        commission_quiet_bind (quiet_printf _) fun _ => ?_
      split
      · exact ⟨False.elim, fun r => r.elim⟩
      · trivial
      · refine ⟨False.elim, fun made _ => ?_⟩
        cases made with
        | false => trivial
        | true =>
          refine commission_quiet_bind (quiet_printf _) fun _ =>
            ⟨False.elim, fun newPart hplaced => ?_⟩
          cases newPart with
          | none => trivial
          | some newPart =>
            simp only [nameAndCommit]
            refine commission_quiet_bind (quiet_printf _) fun _ => ?_
            split_ifs
            · trivial
            · refine ⟨False.elim, fun named _ => ⟨fun _ => ?_, fun committed _ => ?_⟩⟩
              · -- the commit: that the name could not be set does not stop it
                cases named with
                | true => exact hcreate disk newPart _ hplaced
                | false => exact hcreate disk newPart newPart.name hplaced
              · cases committed with
                | false => trivial
                | true =>
                  refine ⟨False.elim, fun synced _ => ?_⟩
                  cases synced <;> trivial

lemma commission_nvmeDeletePartition (partNumber : ℤ)
    (hremove : ∀ view part disk, pedDiskGetPartition view partNumber = some part →
      part.isAesd = true → disk = view ∨ disk = view.erase part →
      OnHand.Allows { g with view := view } (.pedDiskCommitToDev disk)) :
    (nvmeDeletePartition partNumber).Obeys commission g fun _ _ => True := by
  refine commission_openDisk (fun _ => trivial) fun dev disk => ?_
  cases hpart : pedDiskGetPartition disk partNumber with
  | none => trivial
  | some part =>
    refine commission_nameCheck (fun haesd => ?_) ?_
    · refine ⟨False.elim, fun deleted _ => ⟨fun _ => ?_, fun committed _ => ?_⟩⟩
      · -- the commit: that the partition could not be deleted does not stop it
        cases deleted with
        | true => exact hremove disk part _ hpart haesd (Or.inr rfl)
        | false => exact hremove disk part _ hpart haesd (Or.inl rfl)
      · cases committed with
        | false => trivial
        | true =>
          refine ⟨False.elim, fun synced _ => ?_⟩
          cases synced <;> trivial
    · exact commission_quiet_bind (quiet_printf _) fun _ => trivial

lemma commission_nvmeWritePartitionSector (sectorNumber : ℤ) (buffer : ℕ → Byte) (length : ℤ)
    (hwrite : ∀ view part, pedDiskGetPartition view 1 = some part → part.isAesd = true →
      OnHand.Allows { g with view := view } (.pedGeometryWrite part.geom buffer 0 1)) :
    (nvmeWritePartitionSector 1 sectorNumber buffer length).Obeys commission g
      fun _ _ => True := by
  refine commission_openDisk (fun _ => trivial) fun dev disk => ?_
  cases hpart : pedDiskGetPartition disk (toI32 1) with
  | none => exact commission_quiet_bind (quiet_printf _) fun _ => trivial
  | some part =>
    refine commission_nameCheck (fun haesd => ?_) ?_
    · refine commission_quiet_bind (quiet_printf _) fun _ => ⟨fun _ => ?_, fun written _ => ?_⟩
      · exact hwrite disk part hpart haesd
      · cases written with
        | false => trivial
        | true =>
          refine ⟨False.elim, fun synced _ => ?_⟩
          cases synced <;> trivial
    · exact commission_quiet_bind (quiet_printf _) fun _ => trivial

lemma quiet_nvmeListNamespace : Quiet nvmeListNamespace := by
  refine ⟨trivial, fun r => ?_⟩
  cases r with
  | none => trivial
  | some r => exact (quiet_printAll _).bind fun _ => trivial

lemma inert_nvmeReadPartitionSector (partNumber sectorNumber length : ℤ) :
    Inert (nvmeReadPartitionSector partNumber sectorNumber length) := by
  unfold nvmeReadPartitionSector openPartition
  refine only_openDisk id id id (fun _ => trivial) fun dev disk => ?_
  cases pedDiskGetPartition disk (toI32 partNumber) with
  | none => exact (inert_of_quiet (quiet_printf _)).bind fun _ => trivial
  | some part =>
    refine (inert_of_quiet (quiet_printf _)).bind fun _ => ⟨id, fun bytes => ?_⟩
    cases bytes <;> trivial

/-- Executing a command does to the disk what it asks for. -/
lemma commission_executeUserCommand (memory : ℕ → Byte) (hg : g.command = some cmd)
    (huser : cmd.cmdType = .userCommand) (hidle : cmd.stateNeeded = .idle) :
    (executeUserCommand memory cmd.userCmdInfo).Obeys commission g fun _ _ => True := by
  have hallows : ∀ {view op}, Commissioned cmd.userCmdInfo view op →
      OnHand.Allows { g with view := view } op := fun h => ⟨cmd, hg, huser, hidle, h⟩
  have hinert : ∀ {β : Type} {p : Sys β} {f : β → ℤ × List Byte}, Inert p →
      (do let res ← p; return f res : Sys (ℤ × List Byte)).Obeys commission g
        fun _ _ => True := fun {β p f} hp =>
    commission_of_inert (p := p >>= fun res => .ret (f res)) (hp.bind fun _ => trivial)
  unfold executeUserCommand
  cases htype : cmd.userCmdInfo.userCommandType with
  | io =>
    cases hio : cmd.userCmdInfo.ioType with
    | status => exact hinert (inert_of_quiet quiet_nvmeGetStatus)
    | readToBuffer =>
      dsimp only
      split_ifs
      · trivial
      · exact hinert (inert_nvmeReadPartitionSector _ _ _)
    | writeToBuffer =>
      dsimp only
      split_ifs
      · trivial
      · refine Prog.obeys_bind.mpr
          ((commission_nvmeWritePartitionSector _ _ _ ?_).mono fun _ _ _ => trivial)
        exact fun view part hpart haesd => hallows (.write htype hio hpart haesd memory)
    | readToFile | writeFromFile | other value => trivial
  | listNs => exact hinert (inert_of_quiet quiet_nvmeListNamespace)
  | createNs =>
    refine Prog.obeys_bind.mpr
      ((commission_nvmeCreatePartition _ ?_).mono fun _ _ _ => trivial)
    exact fun view part name hplaced => hallows (.create part name htype hplaced)
  | removeNs =>
    refine Prog.obeys_bind.mpr
      ((commission_nvmeDeletePartition _ ?_).mono fun _ _ _ => trivial)
    exact fun view part disk hpart haesd hdisk => hallows (.remove htype hpart haesd hdisk)
  | getStatus => exact hinert (inert_of_quiet quiet_nvmeGetStatus)
  | other value => trivial

/-! ### The queue's functions -/

lemma onDisk_commission {p : Sys α} {Q : OnHand → α → Prop} (hp : p.Obeys commission g Q) :
    (onDisk p).Obeys workerCommission g Q :=
  hp.embed (fun _ _ h => h) (fun _ _ _ h => h) fun _ _ _ => rfl

/-- Each call leaves the disk alone apart from what the command it takes out asks for. -/
lemma QueueCall.commission (call : QueueCall) :
    call.onDisk.Obeys workerCommission g fun _ _ => True := by
  cases call with
  | enqueue cmd =>
    refine ⟨trivial, fun (isInitComplete : Bool) hinit => ?_⟩
    obtain rfl : isInitComplete = true := hinit
    simp only [Prog.bind, Prog.pure_eq_ret, Bool.not_true, Bool.false_eq_true, if_false]
    split_ifs
    · trivial
    · cases cmd with
      | none => trivial
      | some cmd => exact ⟨trivial, fun r _ => trivial⟩
  | process =>
    refine ⟨trivial, fun (isInitComplete : Bool) hinit => ?_⟩
    obtain rfl : isInitComplete = true := hinit
    refine ⟨trivial, fun (next : Option CommandT) _ => ?_⟩
    cases next with
    | none => trivial
    | some cmd =>
      refine ⟨trivial, fun (state : SmState) hstate => ?_⟩
      obtain rfl : state = .idle := hstate
      simp only [Prog.bind, Prog.pure_eq_ret, and_self]
      split_ifs with hidle
      · trivial
      · cases htype : cmd.cmdType with
        | userCommand =>
          -- what is done to the disk from here on is done for this command
          refine ⟨trivial, fun memory _ => ?_⟩
          refine Prog.obeys_bind.mpr (Prog.obeys_bind.mpr
            (Prog.obeys_ret.mpr (Prog.obeys_bind.mpr (onDisk_commission ?_))))
          exact (commission_executeUserCommand memory rfl htype (not_not.mp hidle)).mono
            fun _ _ _ => trivial
        | perfCommand => exact ⟨trivial, fun r _ => trivial⟩
        | adminCommand => exact ⟨trivial, fun r _ => trivial⟩
        | other value => trivial
  | status =>
    refine ⟨trivial, fun (isInitComplete : Bool) hinit => ?_⟩
    obtain rfl : isInitComplete = true := hinit
    exact ⟨trivial, fun r _ => trivial⟩

lemma commission_makeCalls (calls : List QueueCall) :
    (makeCalls calls).Obeys workerCommission g fun _ _ => True := by
  induction calls generalizing g with
  | nil => trivial
  | cons call calls ih => exact Prog.obeys_bind.mpr (call.commission.mono fun _ _ _ => ih)

/-! ### What becomes of the disk -/

section

variable {view init : PedDisk} {info : UserCommandInfo} {op : SysOp} {d d' : Device}
  {r : Answer op}

lemma Commissioned.edit {disk : PedDisk} (h : Commissioned info view (.pedDiskCommitToDev disk)) :
    TableEdit view disk := by
  cases h with
  | create part name _ hplaced => exact .create part name hplaced
  | remove _ hpart haesd hdisk =>
    rcases hdisk with rfl | rfl
    · exact .rewrite
    · exact .delete _ (mem_of_pedDiskGetPartition hpart).1 haesd

lemma Commissioned.geom {geom : PedGeometry} {buffer : ℕ → Byte} {offset count : ℤ}
    (h : Commissioned info view (.pedGeometryWrite geom buffer offset count)) :
    ∃ q ∈ view, q.isAesd = true ∧ geom = q.geom := by
  cases h with
  | write _ _ hpart haesd _ => exact ⟨_, (mem_of_pedDiskGetPartition hpart).1, haesd, rfl⟩

/-- What a command may ask for, any command of the server may do. -/
lemma commission_tableUse (hpre : commission.pre g op) :
    (tableUse False).pre { view := g.view } op := by
  cases op with
  | pedDiskNew => exact False.elim
  | pedDiskCommitToDev disk =>
    obtain ⟨_, -, -, -, h⟩ := hpre trivial
    exact ⟨h.edit, rfl⟩
  | pedGeometryWrite geom buffer offset count =>
    obtain ⟨_, -, -, -, h⟩ := hpre trivial
    exact h.geom
  | perfStart kind job =>
    obtain ⟨_, -, -, -, h⟩ := hpre trivial
    cases h
  | _ => trivial

lemma commission_post (hexec : pedExec op d r d') : commission.post g op r := by
  cases op with
  | pedDiskAddPartition disk start end_ =>
    cases r with
    | none => trivial
    | some part => exact hexec.2 part rfl
  | _ => trivial

/-- After a call a thread's copy is the one it had, or the table as it is on the disk. -/
lemma commission_view (hexec : pedExec op d r d') :
    (commission.next g op r).view = g.view ∨ (commission.next g op r).view = d.table := by
  cases op with
  | pedDiskNew =>
    rcases hexec with ⟨-, rfl | rfl⟩
    · exact Or.inl rfl
    · exact Or.inr rfl
  | _ => exact Or.inl rfl

end

/-! ### Runs -/

variable {Tid : Type}

/-- The steps that are operations on the queue. -/
def queueEvents (tr : List (Event WorkerOp WorkerAnswer Tid)) :
    List (Event QueueOp QueueAnswer Tid) :=
  tr.filterMap fun
    | ⟨t, .queue op, r⟩ => some ⟨t, op, r⟩
    | _                 => none

/-- The command that an event takes out of the queue. -/
def takenBy : Event QueueOp QueueAnswer Tid → Option CommandT
  | ⟨_, .dequeueLocked, cmd⟩ => cmd
  | _                        => none

/-- The commands taken out so far. -/
def taken (tr : List (Event QueueOp QueueAnswer Tid)) : List CommandT := tr.filterMap takenBy

/-- One operation: what has been accepted has been taken out or is in the queue, in this order. -/
lemma fifoExec_accounts {t : Tid} {op : QueueOp} {r : QueueAnswer op} {Q Q' : List CommandT}
    {tr : List (Event QueueOp QueueAnswer Tid)} (hexec : fifoExec op Q r Q')
    (h : accepted tr = taken tr ++ Q) :
    accepted (tr ++ [⟨t, op, r⟩]) = taken (tr ++ [⟨t, op, r⟩]) ++ Q' := by
  have hother : acceptedBy ⟨t, op, r⟩ = none → takenBy ⟨t, op, r⟩ = none → Q' = Q →
      accepted (tr ++ [⟨t, op, r⟩]) = taken (tr ++ [⟨t, op, r⟩]) ++ Q' := by
    rintro haccepted htaken rfl
    simpa [accepted, taken, haccepted, htaken] using h
  cases op with
  | enqueueLocked cmd =>
    rw [fifoExec] at hexec
    split_ifs at hexec
    · obtain ⟨rfl, rfl⟩ := hexec
      have htaken : takenBy ⟨t, .enqueueLocked cmd, ERROR_NONE⟩ = none := rfl
      rw [accepted, taken, List.filterMap_append, List.filterMap_append, ← accepted, ← taken, h]
      simp [acceptedBy, htaken]
    · obtain ⟨rfl, rfl⟩ := hexec
      exact hother rfl rfl rfl
  | dequeueLocked =>
    obtain ⟨rfl, rfl⟩ := hexec
    cases Q with
    | nil => exact hother rfl rfl rfl
    | cons cmd Q =>
      have haccepted : acceptedBy ⟨t, .dequeueLocked, some cmd⟩ = none := rfl
      have htaken : takenBy ⟨t, .dequeueLocked, some cmd⟩ = some cmd := rfl
      rw [accepted, taken, List.filterMap_append, List.filterMap_append, ← accepted, ← taken, h]
      simp [haccepted, htaken]
  | executeUserCommand cmd => exact hother rfl rfl hexec
  | _ => exact hother rfl rfl hexec.2

variable [DecidableEq Tid]

/-- What thread `t` has on hand after some steps on a disk that had this table at first. -/
def onHand (table : PedDisk) (t : Tid) (tr : List (Event WorkerOp WorkerAnswer Tid)) : OnHand :=
  workerCommission.after { view := table } (eventsOf t tr)

/-- What holds after any steps. -/
structure Working (d : Device) (tr : List (Event WorkerOp WorkerAnswer Tid)) (s : QueueAndDisk) :
    Prop where
  queue : ∃ Q, Represents s.queue Q ∧ accepted (queueEvents tr) = taken (queueEvents tr) ++ Q
  sane : Sane d.table s.device.table
  contents : SameContents d.table d s.device
  views : ∀ t, Sane d.table (onHand d.table t tr).view

variable {d : Device} {tr : List (Event WorkerOp WorkerAnswer Tid)} {s s' : QueueAndDisk} {t : Tid}
  {op : WorkerOp} {r : WorkerAnswer op}

lemma onHand_concat (table : PedDisk) (u : Tid) :
    onHand table u (tr ++ [⟨t, op, r⟩]) =
      if t = u then workerCommission.next (onHand table u tr) op r else onHand table u tr := by
  rw [onHand, eventsOf_concat]
  split_ifs
  · rw [Protocol.after_concat, onHand]
  · rfl

/-- One step. -/
lemma Working.step (h : Working d tr s)
    (hpre : workerCommission.pre (onHand d.table t tr) op) (hexec : workerExec op s r s') :
    workerCommission.post (onHand d.table t tr) op r ∧ Working d (tr ++ [⟨t, op, r⟩]) s' := by
  have hviews : (workerCommission.next (onHand d.table t tr) op r).view =
        (onHand d.table t tr).view ∨
      (workerCommission.next (onHand d.table t tr) op r).view = s.device.table →
      ∀ u, Sane d.table (onHand d.table u (tr ++ [⟨t, op, r⟩])).view := by
    intro hview u
    rw [onHand_concat]
    split_ifs with hu
    · subst hu
      rcases hview with hview | hview
      · rw [hview]
        exact h.views t
      · rw [hview]
        exact h.sane
    · exact h.views u
  cases op with
  | queue op =>
    obtain ⟨hqueue, hdevice⟩ := hexec
    obtain ⟨Q, hQ, haccounts⟩ := h.queue
    obtain ⟨Q', hfifo, hQ'⟩ := hQ.step op r hqueue
    refine ⟨?_, ⟨Q', hQ', ?_⟩, hdevice ▸ h.sane, hdevice ▸ h.contents, hviews (Or.inl ?_)⟩
    · cases op with
      | isInitComplete => exact hfifo.1
      | state => exact hfifo.1
      | _ => trivial
    · rw [queueEvents, List.filterMap_append]
      exact fifoExec_accounts hfifo haccounts
    · -- the table that the thread has read is the same
      cases op with
      | dequeueLocked => cases r <;> rfl
      | _ => rfl
  | memory =>
    obtain rfl := hexec
    refine ⟨trivial, ?_, h.sane, h.contents, hviews (Or.inl rfl)⟩
    simpa [queueEvents] using h.queue
  | sys op =>
    obtain ⟨hped, hqueue⟩ := hexec
    have huse := commission_tableUse hpre
    have hkeeps := pedExec_keeps (h.views t).keeps h.sane.keeps huse hped
    refine ⟨commission_post (g := onHand d.table t tr) hped, ?_, ?_, fun p hp hprot x hx => ?_,
      hviews (commission_view hped)⟩
    · rw [hqueue]
      simpa [queueEvents] using h.queue
    · -- only a commit changes the table, and it edits one that the thread has read
      rcases pedExec_table t hped with htable | ⟨disk, hcommit, htable⟩
      · rw [htable]
        exact h.sane
      · cases hcommit
        rw [htable]
        exact (h.views t).edit huse.1
    · -- the sectors of the other partitions
      rw [hkeeps.2 p hp hprot x hx, h.contents p hp hprot x hx]

/-- In every interleaving of any number of threads that make any calls on the queue, on a disk whose
partitions do not overlap: the commands accepted are the ones taken out followed by those in the
queue, in this order. Each call that may change the disk is asked for by the command that its thread
has taken out last, for which nothing has been done to the disk before. No partitions come to
overlap or have the same number, and those whose name does not start with `AESD` are kept with their
contents. -/
theorem queueWorkers_commissioned {calls : Tid → List QueueCall}
    {c : Config WorkerOp WorkerAnswer Unit QueueAndDisk Tid} (hapart : NonOverlapping d.table)
    (hnums : (d.table.map (·.num)).Nodup)
    (run : Run workerExec anyStep ⟨⟨commandQueueInit, d⟩, fun t => makeCalls (calls t)⟩ tr c) :
    (∃ Q, Represents c.state.queue Q ∧
      accepted (queueEvents tr) = taken (queueEvents tr) ++ Q) ∧
    (∀ before t op r after, tr = before ++ ⟨t, .sys op, r⟩ :: after → op.Changes →
      (onHand d.table t before).Allows op) ∧
    NonOverlapping c.state.device.table ∧ (c.state.device.table.map (·.num)).Nodup ∧
    ∀ q ∈ d.table, q.isAesd = false → q ∈ c.state.device.table ∧
      ∀ x, q.geom.Has x → c.state.device.sectors x = d.sectors x := by
  have hinit : Sane d.table d.table := ⟨hapart, hnums, keeps_self hapart⟩
  obtain ⟨h, howed⟩ := run.owed workerCommission { view := d.table } (fun tr s => Working d tr s)
    ⟨⟨[], commandQueueInit_represents, rfl⟩, hinit, fun _ _ _ _ _ => rfl, fun _ => hinit⟩
    (fun t => commission_makeCalls (calls t))
    fun tr s t op r s' hworking hpre hexec => hworking.step hpre hexec
  refine ⟨h.queue, fun before t op r after heq hop => howed before _ after heq hop, h.sane.apart,
    h.sane.nums, fun q hq hprot => ⟨(h.sane.keeps q hq hprot).1, h.contents q hq hprot⟩⟩

/-- The answer to each step; of the memory nothing is read. -/
def workerRespond :
    (op : WorkerOp) → QueueAndDisk → Outcome → Option (WorkerAnswer op × QueueAndDisk)
  | .queue op, s, _ => (queueRespond op s.queue 0).map fun x => (x.1, { s with queue := x.2 })
  | .memory, s, _   => some (fun _ => 0, s)
  | .sys op, s, o   => (pedRespond op s.device o).map fun x => (x.1, { s with device := x.2 })

lemma workerExec_of_respond (op : WorkerOp) (s : QueueAndDisk) (o : Outcome) (r : WorkerAnswer op)
    (s' : QueueAndDisk) (h : workerRespond op s o = some (r, s')) : workerExec op s r s' := by
  cases op with
  | queue op =>
    obtain ⟨x, hx, heq⟩ := Option.map_eq_some_iff.mp h
    cases heq
    exact ⟨queueExec_of_respond op _ _ _ _ hx, rfl⟩
  | memory =>
    cases h
    rfl
  | sys op =>
    obtain ⟨x, hx, heq⟩ := Option.map_eq_some_iff.mp h
    cases heq
    exact ⟨pedRespond_exec op _ _ _ _ hx, rfl⟩

/-- A user command of this type. -/
def userCommandOf (userCommandType : UserCommandType) (sector : ℕ) : CommandT :=
  { cmdType := .userCommand
    userCmdInfo := { userCommandType := userCommandType, sector := sector } }

/-- One thread puts two commands in the queue and executes one, the other thread executes one. -/
def createAndRemove : Bool → List QueueCall
  | true  => [.enqueue (some (userCommandOf .createNs 5)),
    .enqueue (some (userCommandOf .removeNs 2)), .process]
  | false => [.process]

/-- The second command is executed from start to end between the reading and the commit of the
first one. -/
def removeMeanwhile : List (Bool × Outcome) :=
  succeed true 4 ++ succeed false 14 ++ succeed true 12 ++
  [(false, .place ⟨3, [], between 20 24⟩)] ++ succeed false 4

/-- The removed partition is there again, but the foreign one never was away. -/
theorem queueWorkers_commissioned_remove : ∃ tr c,
    Run workerExec anyStep
      ⟨⟨commandQueueInit, bootAndAesd⟩, fun t => makeCalls (createAndRemove t)⟩ tr c ∧
    c.state.device.table.map (·.num) = [3, 1, 2] ∧
    ⟨1, str "boot", between 0 9⟩ ∈ c.state.device.table := by
  obtain ⟨tr, c, run, htest⟩ := exists_run_of_play (C := anyStep) (fun _ _ _ => true)
    ⟨⟨commandQueueInit, bootAndAesd⟩, fun t => makeCalls (createAndRemove t)⟩ removeMeanwhile
    (fun x => x.2.state.device.table.map (·.num) = [3, 1, 2]) workerExec_of_respond
    (fun _ _ _ _ => trivial) (by decide)
  have h := queueWorkers_commissioned (by decide) (by decide) run
  exact ⟨tr, c, run, by simpa using htest, (h.2.2.2.2 _ (by decide) (by decide)).1⟩

end Aesd
