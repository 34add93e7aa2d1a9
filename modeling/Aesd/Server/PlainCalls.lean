import Aesd.Server.Dispatch

/-!
# Functions that make plain calls only

Most of the server's functions neither use a null pointer nor touch the descriptors or the heap.
Opening the disk is such a part of every partition function, and can be split off (`openDisk_eq`).

A judgement that can be carried through sequences, redirected regions and calls that may answer
`NULL` is one about the commands, once it is known what they do with an argument that is absent
(`Compositional`).
-/

namespace Aesd

open Effect CInt

/-- Calls other than `dup`, `dup2`, `malloc`, `free` and the use of a null pointer; messages go to
`clientFD`. -/
def SysOp.Plain (clientFD : ℤ) : SysOp → Prop
  | .dup _ | .dup2 _ _ | .malloc _ | .free _ | .fault => False
  | .send fd _ => fd = clientFD
  | _ => True

abbrev Plain {α : Type} (clientFD : ℤ) (p : Sys α) : Prop := p.Only (SysOp.Plain clientFD)

variable {α : Type} {clientFD : ℤ}

lemma plain_ret (a : α) : Plain clientFD (.ret a) := trivial

lemma plain_ite {b : Prop} [Decidable b] {p q : Sys α} (hp : Plain clientFD p)
    (hq : Plain clientFD q) : Plain clientFD (if b then p else q) := by
  split
  · exact hp
  · exact hq

/-! ### Messages -/

lemma plain_of_prints {p : Sys α} (hp : Prints p) : Plain clientFD p := by
  apply Prog.Only.mono hp
  rintro _ ⟨text, rfl⟩
  trivial

lemma plain_printf (text : Text) : Plain clientFD (printf text) :=
  plain_of_prints (prints_printf text)

lemma plain_printAll (texts : List Text) : Plain clientFD (printAll texts) :=
  plain_of_prints (prints_printAll texts)

lemma plain_reply (clientFD : ℤ) (text : Text) : Plain clientFD (reply clientFD text) := by
  refine Prog.Only.bind ?_ fun _ => trivial
  exact plain_ite trivial (plain_ite trivial ⟨rfl, fun _ => trivial⟩)

lemma plain_replyIf (cond : Bool) (clientFD : ℤ) (text : Text) :
    Plain clientFD (replyIf cond clientFD text) :=
  plain_ite (plain_reply clientFD text) trivial

lemma plain_sendCommandUsage (clientFD : ℤ) : Plain clientFD (sendCommandUsage clientFD) :=
  Prog.only_forM _ fun _ => ⟨rfl, fun _ => trivial⟩

lemma plain_sectorOffsetArg (clientFD : ℤ) (arg : Option Text) :
    Plain clientFD (sectorOffsetArg clientFD arg) := by
  cases arg with
  | none => exact (plain_reply _ _).bind fun _ => trivial
  | some arg => trivial

lemma plain_nvmeGetStatus : Plain clientFD nvmeGetStatus := by
  refine ⟨trivial, fun r => ?_⟩
  cases r with
  | none => trivial
  | some r => exact (plain_printAll _).bind fun _ => trivial

/-! ### The partition functions -/

/-- Opening the disk, with what came of it. -/
def openedDisk (trace : PedDevice → Sys Unit) : Sys (Except NvmeStatus (PedDevice × PedDisk)) :=
  openDisk trace .error fun dev disk => return .ok (dev, disk)

/-- What follows when the disk has been opened, or could not be. -/
def withDisk (fail : NvmeStatus → α) (body : PedDevice → PedDisk → Sys α) :
    Except NvmeStatus (PedDevice × PedDisk) → Sys α
  | .error rc        => return fail rc
  | .ok (dev, disk) => body dev disk

lemma openDisk_eq (trace : PedDevice → Sys Unit) (fail : NvmeStatus → α)
    (body : PedDevice → PedDisk → Sys α) :
    openDisk trace fail body = openedDisk trace >>= withDisk fail body := by
  simp only [openedDisk, openDisk, Prog.perform_bind, Prog.call_bind]
  congr 1
  funext dev
  cases dev with
  | none => rfl
  | some dev =>
    dsimp only
    rw [Prog.bind_assoc]
    congr 1
    funext _
    simp only [Prog.call_bind]
    congr 1
    funext opened
    cases opened with
    | false => rfl
    | true =>
      simp only [Prog.call_bind]
      congr 1
      funext disk
      cases disk with
      | none => rfl
      | some disk => rfl

lemma plain_openDisk {trace : PedDevice → Sys Unit} {fail : NvmeStatus → α}
    {body : PedDevice → PedDisk → Sys α} (htrace : ∀ dev, Plain clientFD (trace dev))
    (hbody : ∀ dev disk, Plain clientFD (body dev disk)) :
    Plain clientFD (openDisk trace fail body) :=
  only_openDisk trivial trivial trivial htrace hbody

lemma plain_openedDisk {trace : PedDevice → Sys Unit}
    (htrace : ∀ dev, Plain clientFD (trace dev)) : Plain clientFD (openedDisk trace) :=
  plain_openDisk htrace fun _ _ => trivial

lemma plain_openPartition {partNumber : ℤ} {fail : NvmeStatus → α}
    {body : PedDevice → PedPartition → Sys α}
    (hbody : ∀ dev part, Plain clientFD (body dev part)) :
    Plain clientFD (openPartition partNumber fail body) := by
  refine plain_openDisk (fun _ => trivial) fun dev disk => ?_
  cases pedDiskGetPartition disk partNumber with
  | none => exact (plain_printf _).bind fun _ => trivial
  | some part => exact hbody dev part

lemma plain_nvmeCheckNameSafety (part : PedPartition) : Plain clientFD (nvmeCheckNameSafety part) :=
  plain_of_prints (prints_nvmeCheckNameSafety part)

lemma plain_nvmeListPartitions : Plain clientFD nvmeListPartitions :=
  plain_openDisk (fun _ => plain_printf _) fun _ _ => (plain_printAll _).bind fun _ => trivial

lemma plain_nameAndCommit (disk : PedDisk) (newPart : PedPartition) :
    Plain clientFD (nameAndCommit disk newPart) := by
  refine (plain_printf _).bind fun _ => plain_ite trivial ⟨trivial, fun named => ?_⟩
  refine ⟨trivial, fun committed => ?_⟩
  cases committed with
  | false => trivial
  | true =>
    refine ⟨trivial, fun told => ?_⟩
    cases told <;> trivial

lemma plain_nvmeDeletePartition (partNumber : ℤ) :
    Plain clientFD (nvmeDeletePartition partNumber) := by
  refine plain_openDisk (fun _ => trivial) fun _ disk => ?_
  cases pedDiskGetPartition disk partNumber with
  | none => trivial
  | some part =>
    refine (plain_nvmeCheckNameSafety part).bind fun rc => ?_
    cases rc with
    | ok =>
      refine ⟨trivial, fun deleted => ⟨trivial, fun committed => ?_⟩⟩
      cases committed with
      | false => trivial
      | true =>
        refine ⟨trivial, fun told => ?_⟩
        cases told <;> trivial
    | _ => exact (plain_printf _).bind fun _ => trivial

lemma plain_nvmeWritePartitionSector (partNumber sectorNumber : ℤ) (buffer : ℕ → Byte)
    (length : ℤ) :
    Plain clientFD (nvmeWritePartitionSector partNumber sectorNumber buffer length) := by
  refine plain_openDisk (fun _ => trivial) fun _ disk => ?_
  cases pedDiskGetPartition disk (toI32 partNumber) with
  | none => exact (plain_printf _).bind fun _ => trivial
  | some part =>
    refine (plain_nvmeCheckNameSafety part).bind fun rc => ?_
    cases rc with
    | ok =>
      refine (plain_printf _).bind fun _ => ⟨trivial, fun written => ?_⟩
      cases written with
      | false => trivial
      | true =>
        refine ⟨trivial, fun synced => ?_⟩
        cases synced <;> trivial
    | _ => exact (plain_printf _).bind fun _ => trivial

lemma plain_nvmeReadPartitionSector (partNumber sectorNumber length : ℤ) :
    Plain clientFD (nvmeReadPartitionSector partNumber sectorNumber length) := by
  refine plain_openPartition fun dev part => ?_
  refine (plain_printf _).bind fun _ => ⟨trivial, fun bytes => ?_⟩
  cases bytes <;> trivial

lemma plain_startJob (kind : PerfKind) (job : PerfJobInfo) : Plain clientFD (startJob kind job) :=
  ⟨trivial, fun texts => plain_printAll texts⟩

/-! ### Commands -/

/-- A judgement about programs that can be carried through the commands of a client. -/
structure Compositional (clientFD : ℤ) (J : ∀ {α : Type}, Sys α → Prop) : Prop where
  plain : ∀ {α : Type} {p : Sys α}, Plain clientFD p → J p
  bind : ∀ {α β : Type} {p : Sys α} {f : α → Sys β}, J p → (∀ a, J (f a)) → J (p >>= f)
  redirected : ∀ {α : Type} {p : Sys α}, Plain clientFD p → J (redirected clientFD p)
  malloc : ∀ {α : Type} {size : ℤ} {f : Option (ℕ × (ℕ → Byte)) → Sys α},
    (∀ b, J (f (some b))) → (J (fault : Sys α) → J (f none)) → J (sys (.malloc size) >>= f)
  alignment : ∀ {α : Type} {disk : PedDisk} {f : Option ℤ → Sys α},
    (∀ b, J (f (some b))) → (J (fault : Sys α) → J (f none)) →
      J (sys (.pedDiskGetPartitionAlignment disk) >>= f)

namespace Compositional

variable {J : ∀ {α : Type}, Sys α → Prop} (hJ : Compositional clientFD J)
include hJ

lemma ret (a : α) : J (.ret a : Sys α) := hJ.plain trivial

lemma reply (text : Text) : J (reply clientFD text) := hJ.plain (plain_reply clientFD text)

lemma reply_ret (text : Text) (a : α) : J (do Aesd.reply clientFD text; return a : Sys α) :=
  hJ.plain ((plain_reply clientFD text).bind fun _ => trivial)

omit hJ in
lemma ite {b : Prop} [Decidable b] {p q : Sys α} (hp : b → J p) (hq : ¬ b → J q) :
    J (if b then p else q) := by
  split
  · exact hp ‹b›
  · exact hq ‹¬ b›

lemma openDisk {trace : PedDevice → Sys Unit} {fail : NvmeStatus → α}
    {body : PedDevice → PedDisk → Sys α} (htrace : ∀ dev, Plain clientFD (trace dev))
    (hbody : ∀ dev disk, J (body dev disk)) : J (openDisk trace fail body) := by
  rw [openDisk_eq]
  refine hJ.bind (hJ.plain (plain_openedDisk htrace)) fun opened => ?_
  cases opened with
  | error rc => exact hJ.ret _
  | ok opened => exact hbody opened.1 opened.2

lemma listparts : J (listparts clientFD) := by
  refine hJ.bind (hJ.plain (plain_printf _)) fun _ =>
    hJ.bind (hJ.redirected plain_nvmeListPartitions) fun rc => ?_
  exact ite (fun _ => hJ.reply _) fun _ => hJ.ret _

lemma nvmeCreatePartition (size : ℤ) : J (nvmeCreatePartition size) := by
  refine hJ.openDisk (fun _ => plain_printf _) fun dev disk => ?_
  refine hJ.bind (hJ.plain ⟨trivial, fun _ => trivial⟩) fun known => ?_
  cases known with
  | false => exact hJ.ret _
  | true =>
    refine hJ.alignment (fun grainSize => ?_) id
    refine hJ.bind (hJ.plain (plain_printf _)) fun _ =>
      hJ.bind (hJ.plain (plain_printf _)) fun _ => ?_
    obtain ⟨region, hregion⟩ := Option.ne_none_iff_exists'.mp (requestRegion_ne_none dev disk size)
    rw [hregion]
    apply hJ.plain
    cases region with
    | error rc => trivial
    | ok region =>
      refine ⟨trivial, fun created => ?_⟩
      cases created with
      | false => trivial
      | true =>
        refine (plain_printf _).bind fun _ => ⟨trivial, fun newPart => ?_⟩
        cases newPart with
        | none => trivial
        | some newPart => exact plain_nameAndCommit disk newPart

lemma mkpart {c : Command} (hsize : J (atoiArg c.arg1)) : J (mkpart clientFD c) := by
  refine hJ.bind (hJ.plain (plain_printf _)) fun _ =>
    hJ.bind (hJ.plain (plain_replyIf _ _ _)) fun _ => hJ.bind hsize fun newPartSize => ?_
  refine ite (fun _ => ?_) fun _ => hJ.reply _
  refine hJ.bind (hJ.nvmeCreatePartition _) fun x => ?_
  exact ite (fun _ => hJ.reply _) fun _ => hJ.reply _

lemma rmpart {c : Command} (hnumber : J (atoiArg c.arg1)) : J (rmpart clientFD c) := by
  refine hJ.bind (hJ.plain (plain_printf _)) fun _ =>
    hJ.bind (hJ.plain (plain_replyIf _ _ _)) fun _ => hJ.bind hnumber fun partToDel => ?_
  refine ite (fun _ => ?_) fun _ => hJ.reply _
  refine hJ.bind (hJ.plain (plain_nvmeDeletePartition _)) fun rc => ?_
  exact ite (fun _ => hJ.reply _) fun _ => ite (fun _ => hJ.reply _) fun _ => hJ.reply _

lemma write {past : ℕ → Byte} {c : Command}
    (hdata : c.arg1.isSome = true → c.arg2 = none → J (fault : Sys Unit)) :
    J (write clientFD past c) := by
  refine hJ.bind (hJ.plain (plain_printf _)) fun _ => ?_
  cases harg1 : c.arg1 with
  | none => exact hJ.reply _
  | some arg1 =>
    refine hJ.bind (hJ.plain (plain_sectorOffsetArg _ _)) fun sectorOffset => ?_
    cases harg2 : c.arg2 with
    | none => exact hdata (by rw [harg1]; rfl) harg2
    | some arg2 =>
      refine hJ.bind (hJ.reply _) fun _ =>
        hJ.bind (hJ.plain (plain_nvmeWritePartitionSector _ _ _ _)) fun rc => ?_
      exact ite (fun _ => hJ.reply _) fun _ => ite (fun _ => hJ.reply _) fun _ => hJ.ret _

lemma showSectors (printAsHex : Bool) (contents : List Byte) :
    J (showSectors clientFD printAsHex contents) :=
  ite (fun _ => hJ.redirected (plain_printAll _)) fun _ => hJ.reply _

/-- Memory that may be `NULL`, and may be freed. -/
lemma buffer (hfree : ∀ block, J (sys (.free block))) {size : ℤ}
    {f : Option (ℕ × (ℕ → Byte)) → Sys Unit}
    (hf : ∀ r, J (sys (.free (r.map (·.1)))) → (r = none → J (fault : Sys Unit)) → J (f r)) :
    J (sys (.malloc size) >>= f) :=
  hJ.malloc (fun b => hf (some b) (hfree _) (by simp)) fun hfault =>
    hf none (hfree _) fun _ => hfault

lemma read (c : Command) (hbuffer : ∀ {size : ℤ} {f : Option (ℕ × (ℕ → Byte)) → Sys Unit},
    (∀ r, J (sys (.free (r.map (·.1)))) → (r = none → J (fault : Sys Unit)) → J (f r)) →
      J (sys (.malloc size) >>= f)) : J (read clientFD c) := by
  unfold Aesd.read
  cases c.arg1 with
  | none => exact hJ.reply _
  | some arg1 =>
    refine hJ.bind (hJ.plain (plain_sectorOffsetArg _ _)) fun sectorOffset => ?_
    cases c.arg3 with
    | none => exact hJ.reply _
    | some arg3 =>
      refine ite (fun _ => hJ.reply _) fun _ => ?_
      refine hJ.bind (hJ.plain (plain_printf _)) fun _ => hbuffer fun r hfree hfault => ?_
      refine hJ.bind (hJ.reply _) fun _ =>
        hJ.bind (hJ.plain (plain_nvmeReadPartitionSector _ _ _)) fun x => ?_
      refine ite (fun _ => hJ.bind (hJ.reply _) fun _ => hfree) fun _ =>
        ite (fun _ => hJ.bind (hJ.reply _) fun _ => hfree) fun _ => ?_
      cases r with
      -- `malloc` has failed, and the buffer is printed all the same
      | none => exact hfault rfl
      | some b => exact hJ.bind (hJ.showSectors _ _) fun _ => hfree

lemma perfRange (kind : PerfKind) (partToPerf : ℤ) (perfJob : PerfJobInfo) :
    J (perfRange clientFD kind partToPerf perfJob) := by
  refine ite (fun _ => hJ.reply_ret _ _) fun _ => ?_
  refine hJ.bind (hJ.plain (plain_openPartition fun _ _ => plain_ret _)) fun rc =>
    ite (fun _ => hJ.reply_ret _ _) fun _ => ?_
  refine hJ.bind (hJ.plain (plain_openPartition fun _ _ => plain_ret _)) fun x =>
    ite (fun _ => hJ.reply_ret _ _) fun _ => ?_
  refine hJ.bind (hJ.plain (plain_openPartition fun _ _ => plain_ret _)) fun y =>
    ite (fun _ => hJ.reply_ret _ _) fun _ => ?_
  exact hJ.bind (hJ.reply _) fun _ => hJ.bind (hJ.redirected (plain_startJob kind _)) fun _ =>
    hJ.bind (hJ.plain (plain_printAll _)) fun _ => hJ.ret _

lemma perfCommand (kind : PerfKind) (c : Command) (perfJob : PerfJobInfo) :
    J (perfCommand clientFD kind c perfJob) := by
  have hmissing : J (perfCommand.missing clientFD perfJob) := hJ.reply_ret _ _
  obtain ⟨-, heq⟩ | ⟨arg1, arg2, arg3, extra, -, -, -, -, heq⟩ :=
    perfCommand_cases clientFD kind c perfJob
  · rwa [heq]
  rw [heq]
  refine ite (fun _ => ?_) fun _ => hJ.perfRange kind _ _
  refine hJ.bind (hJ.plain (plain_openPartition fun _ part =>
    plain_nvmeCheckNameSafety part)) fun rc => ?_
  exact ite (fun _ => hJ.reply_ret _ _) fun _ => ite (fun _ => hJ.reply_ret _ _) fun _ =>
    hJ.perfRange kind _ _

/-- The commands that use an argument without asking whether it is there decide, and the one that
uses the heap. -/
lemma dispatch {past : ℕ → Byte} {c : Command} {perfJob : PerfJobInfo}
    (hmkpart : c.kind = .mkpart → J (Aesd.mkpart clientFD c))
    (hrmpart : c.kind = .rmpart → J (Aesd.rmpart clientFD c))
    (hwrite : c.kind = .write → J (Aesd.write clientFD past c))
    (hread : c.kind = .read → J (Aesd.read clientFD c)) :
    J (dispatch clientFD past c perfJob) := by
  have hthen : ∀ {p : Sys Unit} (x : Bool × PerfJobInfo), J p →
      J (do p; return x : Sys (Bool × PerfJobInfo)) := fun x hp => hJ.bind hp fun _ => hJ.ret x
  rw [dispatch_eq]
  refine hJ.bind (hJ.plain (plain_printf _)) fun _ => ?_
  cases hkind : c.kind with
  | help => exact hthen _ (hJ.plain (plain_sendCommandUsage _))
  | status => exact hJ.bind (hJ.redirected plain_nvmeGetStatus) fun _ => hJ.ret _
  | listparts => exact hthen _ hJ.listparts
  | quit => exact hJ.ret _
  | mkpart => exact hthen _ (hmkpart hkind)
  | rmpart => exact hthen _ (hrmpart hkind)
  | write => exact hthen _ (hwrite hkind)
  | read => exact hthen _ (hread hkind)
  | perf kind => exact hJ.bind (hJ.perfCommand kind c perfJob) fun _ => hJ.ret _
  | unknown => exact hJ.ret _

end Compositional

end Aesd
