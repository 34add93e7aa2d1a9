import Aesd.Server.FreeSpace
import Aesd.Server.PlainCalls

/-!
# What a command does, and to which partition

A command works on the disk with few calls: it asks for a new partition, deletes one, commits a
table, reads or writes sectors, or starts a performance job. Which of these calls a command can get
to is described by the numbers it is given and the partition that has the number (`acts_dispatch`).
Every call to libparted may fail.
-/

namespace Aesd

open Effect CInt

/-- The calls with which a command works on the disk. -/
def SysOp.Acts : SysOp → Prop
  | .pedPartitionNew _ _ | .pedDiskDeletePartition _ _ | .pedDiskCommitToDev _
  | .pedGeometryWrite _ _ _ _ | .pedGeometryRead _ _ _ | .perfStart _ _ => True
  | _ => False

variable {α β : Type} {d d' : Device} {op : SysOp}

/-- Programs that make none of the calls. -/
abbrev Idle (p : Sys α) : Prop := p.Only fun op => ¬ op.Acts

lemma Idle.not_calls {p : Sys α} (hp : Idle p) (hop : op.Acts) : ¬ p.Calls pedExec d op d' :=
  Prog.Only.not_calls hp fun h => h hop

lemma Idle.not_exists_calls {p : Sys α} (hp : Idle p) (hop : op.Acts) :
    ¬ ∃ d', p.Calls pedExec d op d' := by
  rintro ⟨d', h⟩
  exact hp.not_calls hop h

lemma Quiet.idle {p : Sys α} (hp : Quiet p) : Idle p := by
  apply Prog.Only.mono hp
  intro op hop
  cases op <;> first | exact id | exact hop.elim

lemma idle_report (text : Text) (a : α) : Idle (do printf text; return a) :=
  (quiet_printf text).idle.bind fun _ => trivial

/-! ### Programs that only find something out -/

/-- The program makes none of the calls, and may return what `R` says. -/
structure Yields (d : Device) (p : Sys α) (R : α → Prop) : Prop where
  idle : Idle p
  eval : ∀ b d', p.Eval pedExec d b d' ↔ R b ∧ d' = d

namespace Yields

variable {p : Sys α} {f : α → Sys β} {R : α → Prop}

lemma calls_bind (hp : Yields d p R) (hop : op.Acts) :
    (p >>= f).Calls pedExec d op d' ↔ ∃ a, R a ∧ (f a).Calls pedExec d op d' := by
  rw [Prog.calls_bind, or_iff_right (hp.idle.not_calls hop)]
  constructor
  · rintro ⟨a, d₁, heval, hcalls⟩
    obtain ⟨ha, rfl⟩ := (hp.eval a d₁).mp heval
    exact ⟨a, ha, hcalls⟩
  · rintro ⟨a, ha, hcalls⟩
    exact ⟨a, d, (hp.eval a d).mpr ⟨ha, rfl⟩, hcalls⟩

lemma exists_calls_bind (hp : Yields d p R) (hop : op.Acts) :
    (∃ d', (p >>= f).Calls pedExec d op d') ↔ ∃ a, R a ∧ ∃ d', (f a).Calls pedExec d op d' := by
  simp only [hp.calls_bind hop]
  rw [exists_comm]
  simp only [exists_and_left]

/-- What the first part finds out does not matter. -/
lemma andThen {S : β → Prop} (hp : Yields d p R) (ha : ∃ a, R a) (hf : ∀ a, Yields d (f a) S) :
    Yields d (p >>= f) S := by
  refine ⟨hp.idle.bind fun a => (hf a).idle, fun b d' => ?_⟩
  rw [Prog.eval_bind]
  constructor
  · rintro ⟨a, d₁, heval, h⟩
    obtain ⟨-, rfl⟩ := (hp.eval a d₁).mp heval
    exact ((hf a).eval b d').mp h
  · intro h
    obtain ⟨a, ha⟩ := ha
    exact ⟨a, d, (hp.eval a d).mpr ⟨ha, rfl⟩, ((hf a).eval b d').mpr h⟩

end Yields

lemma yields_ret (a : α) : Yields d (.ret a) (· = a) := ⟨trivial, fun _ _ => Prog.eval_ret⟩

/-- A call whose answer may be anything. -/
lemma yields_sys (hop : ¬ op.Acts) (hexec : ∀ r d', pedExec op d r d' ↔ d' = d) :
    Yields d (sys op) fun _ => True := by
  refine ⟨⟨hop, fun _ => trivial⟩, fun b d' => ?_⟩
  constructor
  · rintro ⟨r, d₁, h, -, rfl⟩
    exact ⟨trivial, (hexec r _).mp h⟩
  · rintro ⟨-, rfl⟩
    exact ⟨b, d', (hexec b d').mpr rfl, rfl, rfl⟩

lemma yields_printf (text : Text) : Yields d (printf text) fun _ => True :=
  yields_sys id fun _ _ => Iff.rfl

lemma yields_malloc (size : ℤ) : Yields d (sys (.malloc size)) fun _ => True :=
  yields_sys id fun _ _ => Iff.rfl

lemma yields_reply (fd : ℤ) (text : Text) : Yields d (reply fd text) fun _ => True := by
  refine ⟨(quiet_reply fd text).idle, fun b d' => ?_⟩
  simp only [reply, sendOnSocketf]
  split_ifs
  · simp
  · simp
  · simp [pedExec]

lemma yields_nvmeCheckNameSafety (part : PedPartition) : Yields d (nvmeCheckNameSafety part)
    (· = if part.isAesd then .ok else .badName) := by
  refine (yields_printf _).andThen ⟨(), trivial⟩ fun _ =>
    (yields_printf _).andThen ⟨(), trivial⟩ fun _ => ?_
  split_ifs
  · exact yields_ret _
  · exact yields_ret _

/-- Opening the disk delivers its table, or fails. -/
lemma calls_openDisk {trace : PedDevice → Sys Unit} {fail : NvmeStatus → α}
    {body : PedDevice → PedDisk → Sys α} (htrace : ∀ dev, Yields d (trace dev) fun _ => True)
    (hop : op.Acts) : (openDisk trace fail body).Calls pedExec d op d' ↔
      (body d.dev d.table).Calls pedExec d op d' := by
  unfold openDisk
  simp only [Prog.perform_bind]
  constructor
  · intro h
    obtain ⟨dev, _, ⟨rfl, hdev⟩, h⟩ := h.of_ne (by rintro rfl; exact hop)
    rcases hdev with rfl | rfl
    · exact h.elim
    obtain ⟨_, -, h⟩ := ((htrace _).calls_bind hop).mp h
    obtain ⟨opened, _, rfl, h⟩ := h.of_ne (by rintro rfl; exact hop)
    cases opened with
    | false => exact h.elim
    | true =>
      obtain ⟨disk, _, ⟨rfl, hdisk⟩, h⟩ := h.of_ne (by rintro rfl; exact hop)
      rcases hdisk with rfl | rfl
      · exact h.elim
      · exact h
  · intro h
    refine Or.inr ⟨some d.dev, d, ⟨rfl, Or.inr rfl⟩, ?_⟩
    refine ((htrace _).calls_bind hop).mpr ⟨(), trivial, ?_⟩
    exact Or.inr ⟨true, d, rfl, Or.inr ⟨some d.table, d, ⟨rfl, Or.inr rfl⟩, h⟩⟩

lemma idle_openDisk {trace : PedDevice → Sys Unit} {fail : NvmeStatus → α}
    {body : PedDevice → PedDisk → Sys α} (htrace : ∀ dev, Idle (trace dev))
    (hbody : ∀ dev disk, Idle (body dev disk)) : Idle (openDisk trace fail body) :=
  only_openDisk id id id htrace hbody

/-- What follows when the disk has been opened, or could not be, is all that matters. -/
lemma eval_openDisk_of_body {trace : PedDevice → Sys Unit} {fail : NvmeStatus → α}
    {body : PedDevice → PedDisk → Sys α} {res a : α}
    (htrace : ∀ dev, Yields d (trace dev) fun _ => True)
    (hbody : ∀ b d', (body d.dev d.table).Eval pedExec d b d' ↔ b = res ∧ d' = d) :
    (openDisk trace fail body).Eval pedExec d a d' ↔
      (a = fail .notFound ∨ a = fail .error ∨ a = res) ∧ d' = d := by
  unfold openDisk
  simp only [Prog.perform_bind]
  constructor
  · rintro ⟨dev, _, ⟨rfl, rfl | rfl⟩, h⟩
    · -- there is no device
      obtain ⟨rfl, rfl⟩ := h
      exact ⟨Or.inl rfl, rfl⟩
    obtain ⟨_, _, htraced, opened, _, rfl, h⟩ := Prog.eval_bind.mp h
    obtain ⟨-, rfl⟩ := ((htrace _).eval _ _).mp htraced
    cases opened with
    | false =>
      obtain ⟨rfl, rfl⟩ := h
      exact ⟨Or.inr (Or.inl rfl), rfl⟩
    | true =>
      obtain ⟨disk, _, ⟨rfl, rfl | rfl⟩, h⟩ := h
      · -- there is no table on it
        obtain ⟨rfl, rfl⟩ := h
        exact ⟨Or.inr (Or.inl rfl), rfl⟩
      · obtain ⟨ha, rfl⟩ := (hbody a d').mp h
        exact ⟨Or.inr (Or.inr ha), rfl⟩
  · have htraced : ∀ dev, (trace dev).Eval pedExec d () d :=
      fun dev => ((htrace dev).eval () d).mpr ⟨trivial, rfl⟩
    rintro ⟨rfl | rfl | ha, rfl⟩
    · exact ⟨none, d', ⟨rfl, Or.inl rfl⟩, rfl, rfl⟩
    · refine ⟨some d'.dev, d', ⟨rfl, Or.inr rfl⟩, Prog.eval_bind.mpr ⟨(), d', htraced _, ?_⟩⟩
      exact ⟨false, d', rfl, rfl, rfl⟩
    · refine ⟨some d'.dev, d', ⟨rfl, Or.inr rfl⟩, Prog.eval_bind.mpr ⟨(), d', htraced _, ?_⟩⟩
      exact ⟨true, d', rfl, some d'.table, d', ⟨rfl, Or.inr rfl⟩, (hbody a d').mpr ⟨ha, rfl⟩⟩

lemma yields_openDisk {trace : PedDevice → Sys Unit} {fail : NvmeStatus → α}
    {body : PedDevice → PedDisk → Sys α} {res : α}
    (htrace : ∀ dev, Yields d (trace dev) fun _ => True) (hidle : ∀ dev disk, Idle (body dev disk))
    (hbody : Yields d (body d.dev d.table) (· = res)) :
    Yields d (openDisk trace fail body) fun a =>
      a = fail .notFound ∨ a = fail .error ∨ a = res :=
  ⟨idle_openDisk (fun dev => (htrace dev).idle) hidle,
    fun _ _ => eval_openDisk_of_body htrace hbody.eval⟩

/-- The partition, when the disk has been opened. -/
def atPartition (partNumber : ℤ) (fail : NvmeStatus → α) (body : PedDevice → PedPartition → Sys α)
    (dev : PedDevice) (disk : PedDisk) : Sys α := do
  let some part := pedDiskGetPartition disk partNumber | do
    printf (str "Specified partition does not exist.\n")
    return fail .partDne
  body dev part

section

variable {partNumber : ℤ} {fail : NvmeStatus → α} {body : PedDevice → PedPartition → Sys α}

lemma openPartition_eq : openPartition partNumber fail body =
    openDisk (fun _ => pure ()) fail (atPartition partNumber fail body) := rfl

lemma yields_pure_unit : Yields d (pure () : Sys Unit) fun _ => True :=
  ⟨trivial, fun _ _ => by simp⟩

lemma calls_openPartition (hop : op.Acts) :
    (openPartition partNumber fail body).Calls pedExec d op d' ↔
      ∃ part, pedDiskGetPartition d.table partNumber = some part ∧
        (body d.dev part).Calls pedExec d op d' := by
  rw [openPartition_eq, calls_openDisk (fun _ => yields_pure_unit) hop, atPartition]
  cases pedDiskGetPartition d.table partNumber with
  | none => exact iff_of_false ((idle_report _ _).not_calls hop) (by simp)
  | some part => simp

/-- What a function that looks at one partition may return. -/
lemma yields_openPartition {res : PedPartition → α}
    (hbody : ∀ dev part, Yields d (body dev part) (· = res part)) :
    Yields d (openPartition partNumber fail body) fun a =>
      a = fail .notFound ∨ a = fail .error ∨
        a = (pedDiskGetPartition d.table partNumber).elim (fail .partDne) res := by
  have hlookup : ∀ dev disk, Yields d (atPartition partNumber fail body dev disk)
      (· = (pedDiskGetPartition disk partNumber).elim (fail .partDne) res) := by
    intro dev disk
    unfold atPartition
    cases pedDiskGetPartition disk partNumber with
    | none => exact (yields_printf _).andThen ⟨(), trivial⟩ fun _ => yields_ret _
    | some part => exact hbody dev part
  rw [openPartition_eq]
  exact yields_openDisk (fun _ => yields_pure_unit) (fun dev disk => (hlookup dev disk).idle)
    (hlookup d.dev d.table)

end

/-! ### The functions that work on the disk -/

/-- The calls that delete a partition: the copy of the table is committed whether the deletion has
failed or not. -/
def Deletes (disk : PedDisk) (part : PedPartition) (op : SysOp) : Prop :=
  op = .pedDiskDeletePartition disk part ∨ op = .pedDiskCommitToDev (disk.erase part) ∨
    op = .pedDiskCommitToDev disk

lemma calls_nvmeDeletePartition {partNumber : ℤ} (hop : op.Acts) :
    (∃ d', (nvmeDeletePartition partNumber).Calls pedExec d op d') ↔
      ∃ part, pedDiskGetPartition d.table partNumber = some part ∧ part.isAesd = true ∧
        Deletes d.table part op := by
  simp only [nvmeDeletePartition, calls_openDisk (fun _ => yields_pure_unit) hop]
  cases pedDiskGetPartition d.table partNumber with
  | none => simp
  | some part =>
    simp only [(yields_nvmeCheckNameSafety part).calls_bind hop, exists_eq_left, Option.some.injEq,
      exists_eq_left']
    cases part.isAesd with
    | false => exact iff_of_false ((idle_report _ _).not_exists_calls hop) (by simp)
    | true =>
      simp only [if_true, Prog.perform_bind, Prog.calls_call, true_and]
      constructor
      · rintro ⟨d', ⟨rfl, -⟩ | ⟨deleted, d₁, -, ⟨rfl, -⟩ | ⟨committed, d₂, -, h⟩⟩⟩
        · exact Or.inl rfl
        · cases deleted with
          | false => exact Or.inr (Or.inr rfl)
          | true => exact Or.inr (Or.inl rfl)
        · cases committed with
          | false => exact h.elim
          | true =>
            obtain ⟨told, d₃, -, h⟩ := h.of_ne (by rintro rfl; exact hop)
            cases told <;> exact h.elim
      · rintro (rfl | rfl | rfl)
        · exact ⟨d, Or.inl ⟨rfl, rfl⟩⟩
        · exact ⟨d, Or.inr ⟨true, d, rfl, Or.inl ⟨rfl, rfl⟩⟩⟩
        · exact ⟨d, Or.inr ⟨false, d, rfl, Or.inl ⟨rfl, rfl⟩⟩⟩

lemma calls_nvmeWritePartitionSector {partNumber sectorNumber length : ℤ} {buffer : ℕ → Byte}
    (hop : op.Acts) :
    (∃ d', (nvmeWritePartitionSector partNumber sectorNumber buffer length).Calls pedExec d op d') ↔
      ∃ part, pedDiskGetPartition d.table (toI32 partNumber) = some part ∧ part.isAesd = true ∧
        op = .pedGeometryWrite part.geom buffer 0 1 := by
  simp only [nvmeWritePartitionSector, calls_openDisk (fun _ => yields_pure_unit) hop]
  cases pedDiskGetPartition d.table (toI32 partNumber) with
  | none => exact iff_of_false ((idle_report _ _).not_exists_calls hop) (by simp)
  | some part =>
    simp only [(yields_nvmeCheckNameSafety part).calls_bind hop, exists_eq_left, Option.some.injEq,
      exists_eq_left']
    cases part.isAesd with
    | false => exact iff_of_false ((idle_report _ _).not_exists_calls hop) (by simp)
    | true =>
      simp only [if_true, (yields_printf _).calls_bind hop, Prog.perform_bind, Prog.calls_call,
        true_and, exists_const]
      constructor
      · rintro ⟨d', ⟨rfl, -⟩ | ⟨written, d₁, -, h⟩⟩
        · rfl
        · cases written with
          | false => exact h.elim
          | true =>
            obtain ⟨synced, d₂, -, h⟩ := h.of_ne (by rintro rfl; exact hop)
            cases synced <;> exact h.elim
      · rintro rfl
        exact ⟨d, Or.inl ⟨rfl, rfl⟩⟩

lemma calls_nvmeReadPartitionSector {partNumber sectorNumber length : ℤ} (hop : op.Acts) :
    (∃ d', (nvmeReadPartitionSector partNumber sectorNumber length).Calls pedExec d op d') ↔
      ∃ part, pedDiskGetPartition d.table (toI32 partNumber) = some part ∧
        op = .pedGeometryRead part.geom 0 (toI32 (length / d.dev.sectorSize)) := by
  simp only [nvmeReadPartitionSector, calls_openPartition hop, (yields_printf _).calls_bind hop,
    Prog.perform_bind, Prog.calls_call, true_and, exists_const]
  constructor
  · rintro ⟨d', part, hpart, ⟨rfl, -⟩ | ⟨bytes, d₁, -, h⟩⟩
    · exact ⟨part, hpart, rfl⟩
    · cases bytes <;> exact h.elim
  · rintro ⟨part, hpart, rfl⟩
    exact ⟨d, part, hpart, Or.inl ⟨rfl, rfl⟩⟩

/-! ### Creating -/

/-- The calls that create a partition: it is asked for, and the table with it is committed, named or
not. -/
def Creates (d : Device) (start end_ : ℤ) (op : SysOp) : Prop :=
  op = .pedPartitionNew start end_ ∨
    ∃ part name, Placed d.table part ∧ str "AESD Part " ++ dec part.num = name ∧
      name.length ≤ 15 ∧ (op = .pedDiskCommitToDev ({ part with name := name } :: d.table) ∨
        op = .pedDiskCommitToDev (part :: d.table))

lemma calls_nameAndCommit {part : PedPartition} (hop : op.Acts) :
    (∃ d', (nameAndCommit d.table part).Calls pedExec d op d') ↔
      ∃ name, str "AESD Part " ++ dec part.num = name ∧ name.length ≤ 15 ∧
        (op = .pedDiskCommitToDev ({ part with name := name } :: d.table) ∨
          op = .pedDiskCommitToDev (part :: d.table)) := by
  simp only [nameAndCommit, exists_eq_left', (yields_printf _).calls_bind hop, true_and,
    exists_const]
  split_ifs with hlong
  · refine iff_of_false (by simp) ?_
    rintro ⟨hshort, -⟩
    exact hlong (by rw [List.take_of_length_le hshort])
  · have hshort : (str "AESD Part " ++ dec part.num).length ≤ 15 := by
      rw [not_ne_iff] at hlong
      rw [hlong, List.length_take]
      exact min_le_left _ _
    have htake := List.take_of_length_le hshort
    simp only [hshort, true_and, Prog.perform_bind]
    constructor
    · rintro ⟨d', h⟩
      obtain ⟨named, _, rfl, ⟨rfl, -⟩ | ⟨committed, d₂, -, h⟩⟩ := h.of_ne (by rintro rfl; exact hop)
      · cases named with
        | false => exact Or.inr rfl
        | true => exact Or.inl (by rw [if_pos rfl, htake])
      · cases committed with
        | false => exact h.elim
        | true =>
          obtain ⟨told, d₃, -, h⟩ := h.of_ne (by rintro rfl; exact hop)
          cases told <;> exact h.elim
    · -- a run in which the name could be set, and one in which it could not
      rintro (rfl | rfl)
      · exact ⟨d, Or.inr ⟨true, d, rfl, Or.inl ⟨by rw [if_pos rfl, htake], rfl⟩⟩⟩
      · exact ⟨d, Or.inr ⟨false, d, rfl, Or.inl ⟨rfl, rfl⟩⟩⟩

lemma yields_printModel (dev : PedDevice) : Yields d (printModel dev) fun _ => True :=
  yields_printf _

/-- The part of `nvmeCreatePartition` that follows its own checks. -/
def createAt (disk : PedDisk) (sectorStart sectorEnd : ℤ) :
    Sys (NvmeStatus × Option PedPartition) := do
  let .true ← sys (.pedPartitionNew sectorStart sectorEnd) | return (.error, none)
  printf (str "created new part!\n")
  let some newPart ← sys (.pedDiskAddPartition disk sectorStart sectorEnd) | return (.error, none)
  nameAndCommit disk newPart

lemma calls_createAt {start end_ : ℤ} (hop : op.Acts) :
    (∃ d', (createAt d.table start end_).Calls pedExec d op d') ↔ Creates d start end_ op := by
  constructor
  · rintro ⟨d', ⟨rfl, -⟩ | ⟨made, d₁, hd₁, h⟩⟩
    · exact Or.inl rfl
    · rw [show d₁ = d from hd₁] at h
      cases made with
      | false => exact h.elim
      | true =>
        obtain ⟨_, -, h⟩ := ((yields_printf _).calls_bind hop).mp h
        obtain ⟨part, d₂, ⟨hd₂, hplaced⟩, h⟩ := h.of_ne (by rintro rfl; exact hop)
        rw [hd₂] at h
        cases part with
        | none => exact h.elim
        | some part =>
          obtain ⟨name, hname, hlength, hcommit⟩ := (calls_nameAndCommit hop).mp ⟨d', h⟩
          exact Or.inr ⟨part, name, hplaced part rfl, hname, hlength, hcommit⟩
  · rintro (rfl | ⟨part, name, hplaced, hcommit⟩)
    · exact ⟨d, Or.inl ⟨rfl, rfl⟩⟩
    · obtain ⟨d', h⟩ := (calls_nameAndCommit hop).mpr ⟨name, hcommit⟩
      refine ⟨d', Or.inr ⟨true, d, rfl, ((yields_printf _).calls_bind hop).mpr ⟨(), trivial, ?_⟩⟩⟩
      exact Or.inr ⟨some part, d, ⟨rfl, by rintro _ ⟨⟩; exact hplaced⟩, h⟩

/-- The region that is asked for decides. -/
def createIn (disk : PedDisk) : Option (Except NvmeStatus (ℤ × ℤ)) →
    Sys (NvmeStatus × Option PedPartition)
  | none                             => fault
  | some (.error rc)                 => return (rc, none)
  | some (.ok (sectorStart, sectorEnd)) => createAt disk sectorStart sectorEnd

lemma calls_createIn {request : Option (Except NvmeStatus (ℤ × ℤ))} (hop : op.Acts) :
    (∃ d', (createIn d.table request).Calls pedExec d op d') ↔
      ∃ start end_, request = some (.ok (start, end_)) ∧ Creates d start end_ op := by
  rcases request with _ | rc | ⟨start, end_⟩
  · exact iff_of_false (quiet_fault.idle.not_exists_calls hop) (by simp)
  · simp [createIn]
  · simp [createIn, calls_createAt hop]

lemma calls_nvmeCreatePartition {size : ℤ} (hop : op.Acts) :
    (∃ d', (nvmeCreatePartition size).Calls pedExec d op d') ↔
      ∃ start end_, requestRegion d.dev d.table size = some (.ok (start, end_)) ∧
        Creates d start end_ op := by
  have hcreateIn : ∀ disk request, createIn disk request = match request with
      | none => fault
      | some (.error rc) => return (rc, none)
      | some (.ok (sectorStart, sectorEnd)) => createAt disk sectorStart sectorEnd := by
    rintro disk (_ | rc | ⟨start, end_⟩) <;> rfl
  rw [← calls_createIn hop, hcreateIn]
  simp only [nvmeCreatePartition, calls_openDisk yields_printModel hop, Prog.perform_bind]
  constructor
  · rintro ⟨d', h⟩
    obtain ⟨known, d₁, hd₁, h⟩ := h.of_ne (by rintro rfl; exact hop)
    rw [show d₁ = d from hd₁] at h
    cases known with
    | false => exact h.elim
    | true =>
      obtain ⟨grainSize, d₂, hd₂, h⟩ := h.of_ne (by rintro rfl; exact hop)
      rw [show d₂ = d from hd₂] at h
      cases grainSize with
      | none => exact absurd h (quiet_fault.idle.not_calls hop)
      | some grainSize =>
        obtain ⟨_, -, h⟩ := ((yields_printf _).calls_bind hop).mp h
        obtain ⟨_, -, h⟩ := ((yields_printf _).calls_bind hop).mp h
        exact ⟨d', h⟩
  · -- a run in which libparted knows the type of the file system, and has an alignment
    rintro ⟨d', h⟩
    refine ⟨d', Or.inr ⟨true, d, rfl, Or.inr ⟨some 1, d, rfl, ?_⟩⟩⟩
    refine ((yields_printf _).calls_bind hop).mpr ⟨(), trivial, ?_⟩
    exact ((yields_printf _).calls_bind hop).mpr ⟨(), trivial, h⟩

/-! ### The commands -/

lemma calls_bind_idle {p : Sys α} {f : α → Sys β} (hf : ∀ a, Idle (f a)) (hop : op.Acts) :
    (∃ d', (p >>= f).Calls pedExec d op d') ↔ ∃ d', p.Calls pedExec d op d' := by
  constructor
  · rintro ⟨d', h⟩
    rcases Prog.calls_bind.mp h with h | ⟨a, d₁, -, h⟩
    · exact ⟨d', h⟩
    · exact absurd h ((hf a).not_calls hop)
  · rintro ⟨d', h⟩
    exact ⟨d', Prog.calls_bind.mpr (Or.inl h)⟩

lemma idle_reply (fd : ℤ) (text : Text) : Idle (reply fd text) := (quiet_reply fd text).idle

lemma yields_replyIf (cond : Bool) (fd : ℤ) (text : Text) :
    Yields d (replyIf cond fd text) fun _ => True := by
  cases cond with
  | true => exact yields_reply fd text
  | false => exact yields_pure_unit

lemma calls_atoiArg {arg : Option Text} {f : ℤ → Sys α} (hop : op.Acts) :
    (∃ d', (atoiArg arg >>= f).Calls pedExec d op d') ↔
      ∃ s, arg = some s ∧ ∃ d', (f (atoi s)).Calls pedExec d op d' := by
  cases arg with
  | none =>
    refine iff_of_false ?_ (by simp)
    rintro ⟨d', h⟩
    obtain ⟨r, -⟩ := h.of_ne (by rintro rfl; exact hop)
    exact r.elim
  | some s => simp [atoiArg]

lemma yields_sectorOffsetArg (fd : ℤ) (arg : Option Text) :
    Yields d (sectorOffsetArg fd arg) (· = (arg.map atoi).getD 0) := by
  cases arg with
  | none => exact (yields_reply _ _).andThen ⟨(), trivial⟩ fun _ => yields_ret _
  | some s => exact yields_ret _

variable {fd : ℤ} {c : Command} {past : ℕ → Byte}

lemma acts_mkpart (hop : op.Acts) : (∃ d', (mkpart fd c).Calls pedExec d op d') ↔
    ∃ size, c.arg1 = some size ∧ 0 < atoi size ∧ ∃ start end_,
      requestRegion d.dev d.table (toU32 (atoi size)) = some (.ok (start, end_)) ∧
      Creates d start end_ op := by
  rw [mkpart, (yields_printf _).exists_calls_bind hop]
  simp only [(yields_replyIf _ _ _).exists_calls_bind hop, calls_atoiArg hop, true_and,
    exists_const]
  refine exists_congr fun size => and_congr_right fun _ => ?_
  split_ifs with hpos
  · rw [calls_bind_idle (fun _ => ?_) hop, calls_nvmeCreatePartition hop, and_iff_right hpos]
    split_ifs
    · exact idle_reply _ _
    · exact idle_reply _ _
  · exact iff_of_false ((idle_reply _ _).not_exists_calls hop) fun h => hpos h.1

lemma acts_rmpart (hop : op.Acts) : (∃ d', (rmpart fd c).Calls pedExec d op d') ↔
    ∃ number, c.arg1 = some number ∧ ∃ part,
      pedDiskGetPartition d.table (atoi number) = some part ∧ 0 < part.num ∧
      part.isAesd = true ∧ Deletes d.table part op := by
  rw [rmpart, (yields_printf _).exists_calls_bind hop]
  simp only [(yields_replyIf _ _ _).exists_calls_bind hop, calls_atoiArg hop, true_and,
    exists_const]
  refine exists_congr fun number => and_congr_right fun _ => ?_
  have hnum : ∀ part, pedDiskGetPartition d.table (atoi number) = some part →
      part.num = atoi number := fun part hpart => (mem_of_pedDiskGetPartition hpart).2
  split_ifs with hpos
  · rw [calls_bind_idle (fun _ => ?_) hop, calls_nvmeDeletePartition hop]
    · refine exists_congr fun part => and_congr_right fun hpart => ?_
      rw [hnum part hpart, and_iff_right hpos]
    · split_ifs
      · exact idle_reply _ _
      · exact idle_reply _ _
      · exact idle_reply _ _
  · refine iff_of_false ((idle_reply _ _).not_exists_calls hop) ?_
    rintro ⟨part, hpart, hpos', -⟩
    rw [hnum part hpart] at hpos'
    exact hpos hpos'

lemma acts_write (hop : op.Acts) : (∃ d', (write fd past c).Calls pedExec d op d') ↔
    ∃ number, c.arg1 = some number ∧ ∃ part,
      pedDiskGetPartition d.table (atoi number) = some part ∧ part.isAesd = true ∧
      ∃ data, c.arg2 = some data ∧
        op = .pedGeometryWrite part.geom (tokenMemory data past) 0 1 := by
  rw [write, (yields_printf _).exists_calls_bind hop]
  simp only [true_and, exists_const]
  cases c.arg1 with
  | none => exact iff_of_false ((idle_reply _ _).not_exists_calls hop) (by simp)
  | some number =>
    simp only [(yields_sectorOffsetArg _ _).exists_calls_bind hop, exists_eq_left,
      Option.some.injEq, exists_eq_left']
    cases c.arg2 with
    | none => exact iff_of_false (quiet_fault.idle.not_exists_calls hop) (by simp)
    | some data =>
      simp only [(yields_reply _ _).exists_calls_bind hop, true_and, exists_const]
      rw [calls_bind_idle (fun _ => ?_) hop, calls_nvmeWritePartitionSector hop]
      · simp [atoi, toI32_toU32]
      · split_ifs
        · exact idle_reply _ _
        · exact idle_reply _ _
        · trivial

lemma acts_read (hop : op.Acts) : (∃ d', (read fd c).Calls pedExec d op d') ↔
    ∃ number, c.arg1 = some number ∧ ∃ part,
      pedDiskGetPartition d.table (atoi number) = some part ∧
      ∃ count, c.arg3 = some count ∧ 0 < atoi count ∧ op = .pedGeometryRead part.geom 0
        (toI32 (toU64 (toI32 (atoi count * 512)) / d.dev.sectorSize)) := by
  unfold read
  cases c.arg1 with
  | none => exact iff_of_false ((idle_reply _ _).not_exists_calls hop) (by simp)
  | some number =>
    simp only [(yields_sectorOffsetArg _ _).exists_calls_bind hop, exists_eq_left,
      Option.some.injEq, exists_eq_left']
    cases c.arg3 with
    | none => exact iff_of_false ((idle_reply _ _).not_exists_calls hop) (by simp)
    | some count =>
      dsimp only
      split_ifs with hcount
      · refine iff_of_false ((idle_reply _ _).not_exists_calls hop) ?_
        rintro ⟨part, -, _, ⟨⟩, hpos, -⟩
        exact absurd hcount (not_le.mpr hpos)
      · rw [(yields_printf _).exists_calls_bind hop]
        simp only [(yields_malloc _).exists_calls_bind hop, true_and, exists_const,
          (yields_reply _ _).exists_calls_bind hop]
        refine (exists_congr fun readBuffer => calls_bind_idle (fun x => ?_) hop).trans ?_
        · have hfree : ∀ block, Quiet (sys (.free block)) := fun _ => ⟨trivial, fun _ => trivial⟩
          split_ifs
          · exact Quiet.idle ((quiet_reply _ _).bind fun _ => hfree _)
          · exact Quiet.idle ((quiet_reply _ _).bind fun _ => hfree _)
          · cases readBuffer with
            | none => exact quiet_fault.idle
            | some b => exact Quiet.idle ((quiet_showSectors _ _ _).bind fun _ => hfree _)
        · have hpos : 0 < atoi count := not_le.mp hcount
          have hnumber : toI32 (toU32 (atoi number)) = atoi number := toI32_toU32 _
          simp [calls_nvmeReadPartitionSector hop, hnumber, hpos]

/-- The range is not backwards, and the duration is not negative. -/
def PerfJobInfo.InOrder (job : PerfJobInfo) : Prop :=
  job.lbaRange.startlba ≤ job.lbaRange.endlba ∧ 0 ≤ job.durationMs

lemma idle_refused (fd : ℤ) (text : Text) (a : α) : Idle (do reply fd text; return a) :=
  (quiet_then (quiet_reply fd text) a).idle

lemma calls_redirected_startJob {kind : PerfKind} {job : PerfJobInfo} (hop : op.Acts) :
    (∃ d', (redirected fd (startJob kind job)).Calls pedExec d op d') ↔
      op = .perfStart kind job := by
  have hdup2 : ∀ oldfd newfd, Yields d (sys (.dup2 oldfd newfd)) fun _ => True :=
    fun _ _ => yields_sys id fun _ _ => Iff.rfl
  rw [redirected, (yields_sys id fun _ _ => Iff.rfl).exists_calls_bind hop]
  simp only [(hdup2 _ _).exists_calls_bind hop, true_and, exists_const]
  refine (exists_congr fun savedfd => calls_bind_idle (fun a => ?_) hop).trans ?_
  · exact ⟨id, fun _ => trivial⟩
  · simp only [exists_const]
    constructor
    · rintro ⟨d', ⟨rfl, -⟩ | ⟨texts, d₁, -, h⟩⟩
      · rfl
      · exact absurd h ((quiet_printAll texts).idle.not_calls hop)
    · rintro rfl
      exact ⟨d, Or.inl ⟨rfl, rfl⟩⟩

/-- A function that gives a number of a partition only goes on if the partition exists. -/
lemma calls_openPartition_number {partNumber : ℤ} {number : PedPartition → ℤ}
    {f : NvmeStatus × ℤ → Sys α} (hidle : ∀ x, x.1 ≠ .ok → Idle (f x)) (hop : op.Acts) :
    (∃ d', (openPartition partNumber (fun rc => (rc, 0))
        (fun _ part => return (.ok, number part)) >>= f).Calls pedExec d op d') ↔
      ∃ part, pedDiskGetPartition d.table partNumber = some part ∧
        ∃ d', (f (.ok, number part)).Calls pedExec d op d' := by
  have hyields : Yields d (openPartition partNumber (fun rc => (rc, 0))
      fun _ part => return (.ok, number part)) _ := yields_openPartition fun _ part => yields_ret _
  rw [hyields.exists_calls_bind hop]
  constructor
  · rintro ⟨x, rfl | rfl | rfl, h⟩
    · exact absurd h ((hidle _ (by simp)).not_exists_calls hop)
    · exact absurd h ((hidle _ (by simp)).not_exists_calls hop)
    · cases hpart : pedDiskGetPartition d.table partNumber with
      | none =>
        rw [hpart] at h
        exact absurd h ((hidle _ (by simp)).not_exists_calls hop)
      | some part =>
        rw [hpart] at h
        exact ⟨part, rfl, h⟩
  · rintro ⟨part, hpart, h⟩
    exact ⟨_, Or.inr (Or.inr (by rw [hpart]; rfl)), h⟩

/-- A check that may let something through. -/
lemma exists_calls_ite {R : NvmeStatus → Prop} {refused rest : Sys α} (hrefused : Idle refused)
    (hR : ∃ rc, R rc ∧ rc ≠ .error) (hop : op.Acts) :
    (∃ rc, R rc ∧ ∃ d', (if rc = .error then refused else rest).Calls pedExec d op d') ↔
      ∃ d', rest.Calls pedExec d op d' := by
  constructor
  · rintro ⟨rc, -, h⟩
    split_ifs at h
    · exact absurd h (hrefused.not_exists_calls hop)
    · exact h
  · intro h
    obtain ⟨rc, hrc, hne⟩ := hR
    refine ⟨rc, hrc, ?_⟩
    rwa [if_neg hne]

/-- The name check lets through what it has found to be safe. -/
lemma exists_calls_ok {R : NvmeStatus → Prop} {bad failed rest : Sys α} (hbad : Idle bad)
    (hfailed : Idle failed) (hop : op.Acts) :
    (∃ rc, R rc ∧ ∃ d', (if rc = .badName then bad else if rc ≠ .ok then failed else rest).Calls
      pedExec d op d') ↔ R .ok ∧ ∃ d', rest.Calls pedExec d op d' := by
  constructor
  · rintro ⟨rc, hrc, h⟩
    split_ifs at h with hbadName hok
    · exact absurd h (hbad.not_exists_calls hop)
    · exact absurd h (hfailed.not_exists_calls hop)
    · rw [not_ne_iff] at hok
      exact ⟨hok ▸ hrc, h⟩
  · rintro ⟨hrc, h⟩
    exact ⟨.ok, hrc, h⟩

/-- The range check lets a partition through that it cannot look at, so only the order of the range
is sure to be checked. -/
lemma acts_perfRange {partToPerf : ℤ} {kind : PerfKind} {job : PerfJobInfo} (hop : op.Acts) :
    (∃ d', (perfRange fd kind partToPerf job).Calls pedExec d op d') ↔
      job.InOrder ∧ ∃ part, pedDiskGetPartition d.table (toU8 partToPerf) = some part ∧
        op = .perfStart kind (job.shift (toU64 part.geom.start)) := by
  have hcheck : Yields d (nvmeCheckLbaRangeInPart (toU8 partToPerf) job.lbaRange) _ :=
    yields_openPartition fun _ _ => yields_ret _
  unfold perfRange
  split_ifs with hbad
  · refine iff_of_false ((idle_refused _ _ _).not_exists_calls hop) ?_
    rintro ⟨⟨hle, hdur⟩, -⟩
    omega
  have hinOrder : job.InOrder := ⟨by omega, by omega⟩
  rw [and_iff_right hinOrder, hcheck.exists_calls_bind hop,
    exists_calls_ite (idle_refused _ _ _) ⟨.notFound, Or.inl rfl, by decide⟩ hop,
    nvmeGetStartLbaInPart, calls_openPartition_number _ hop]
  · refine exists_congr fun part => and_congr_right fun hpart => ?_
    dsimp only
    rw [if_neg (by simp), nvmeGetEndLbaInPart, calls_openPartition_number _ hop, hpart]
    · simp only [Option.some.injEq, exists_eq_left', ne_eq, not_true_eq_false, if_false]
      rw [(yields_reply _ _).exists_calls_bind hop]
      simp only [true_and, exists_const]
      rw [calls_bind_idle (fun _ => Quiet.idle (quiet_then (quiet_printAll _) _)) hop,
        calls_redirected_startJob hop]
    · intro x hx
      rw [if_pos hx]
      exact idle_refused _ _ _
  · intro x hx
    dsimp only
    rw [if_pos hx]
    exact idle_refused _ _ _

/-- The job that the arguments of a performance command describe, if the numbers of sectors are read
off by `number`. -/
def Command.job (number : Text → ℤ) (c : Command) : Option PerfJobInfo := do
  let arg2 ← c.arg2
  let arg3 ← c.arg3
  let extra ← c.extra
  return { lbaRange := { startlba := toU32 (number arg2), endlba := toU32 (number arg3) }
           durationMs := atoi extra }

lemma acts_perfCommand {kind : PerfKind} {perfJob : PerfJobInfo} (hop : op.Acts) :
    (∃ d', (perfCommand fd kind c perfJob).Calls pedExec d op d') ↔
      ∃ arg1, c.arg1 = some arg1 ∧ ∃ part,
        pedDiskGetPartition d.table (toU8 (atoi arg1)) = some part ∧
        (kind.checksName = true → part.isAesd = true) ∧ ∃ job, c.job atoi = some job ∧
        job.InOrder ∧ op = .perfStart kind (job.shift (toU64 part.geom.start)) := by
  have hmissing : ¬ ∃ d', (perfCommand.missing fd perfJob).Calls pedExec d op d' :=
    (idle_refused fd _ perfJob).not_exists_calls hop
  obtain ⟨hnone, heq⟩ | ⟨arg1, arg2, arg3, extra, harg1, harg2, harg3, hextra, heq⟩ :=
    perfCommand_cases fd kind c perfJob
  · rw [heq]
    refine iff_of_false hmissing ?_
    obtain h | h | h | h := hnone <;> simp [Command.job, h]
  have hname : Yields d (nvmeCheckNameSafetyPartNumber (toU8 (atoi arg1))) _ :=
    yields_openPartition fun _ part => yields_nvmeCheckNameSafety part
  have hjob : c.job atoi = some (perfJobOf arg2 arg3 extra) := by
    simp [Command.job, perfJobOf, harg2, harg3, hextra]
  simp only [heq, harg1, hjob, Option.some.injEq, exists_eq_left']
  cases kind.checksName with
  | false =>
    simp only [Bool.false_eq_true, if_false, acts_perfRange hop, false_implies, true_and]
    constructor
    · rintro ⟨hinOrder, part, hpart, heq⟩
      exact ⟨part, hpart, hinOrder, heq⟩
    · rintro ⟨part, hpart, hinOrder, heq⟩
      exact ⟨hinOrder, part, hpart, heq⟩
  | true =>
    simp only [if_true, hname.exists_calls_bind hop, forall_true_left]
    rw [exists_calls_ok (idle_refused _ _ _) (idle_refused _ _ _) hop, acts_perfRange hop]
    cases pedDiskGetPartition d.table (toU8 (atoi arg1)) with
    | none => simp
    | some part =>
      by_cases haesd : part.isAesd = true
      · simp [haesd, perfJobOf]
      · simp [haesd]

/-! ### What a client's command gets to -/

/-- What a command does with the partition it is for, if the numbers among its arguments are read
off by `number`. -/
def Command.ActsOn (number : Text → ℤ) (d : Device) (past : ℕ → Byte) (c : Command)
    (part : PedPartition) (op : SysOp) : Prop :=
  match c.kind with
  | .rmpart    => 0 < part.num ∧ part.isAesd = true ∧ Deletes d.table part op
  | .write     =>
    part.isAesd = true ∧ ∃ data, c.arg2 = some data ∧
      op = .pedGeometryWrite part.geom (tokenMemory data past) 0 1
  | .read      =>
    ∃ count, c.arg3 = some count ∧ 0 < number count ∧ op = .pedGeometryRead part.geom 0
      (toI32 (toU64 (toI32 (number count * 512)) / d.dev.sectorSize))
  | .perf kind =>
    (kind.checksName = true → part.isAesd = true) ∧ ∃ job, c.job number = some job ∧
      job.InOrder ∧ op = .perfStart kind (job.shift (toU64 part.geom.start))
  | _          => False

/-- What `mkpart` does. -/
def Command.ActsNew (number : Text → ℤ) (d : Device) (c : Command) (op : SysOp) : Prop :=
  c.kind = .mkpart ∧ ∃ size, c.arg1 = some size ∧ 0 < number size ∧ ∃ start end_,
    requestRegion d.dev d.table (toU32 (number size)) = some (.ok (start, end_)) ∧
    Creates d start end_ op

/-- The number of the partition, as it arrives where the partition is looked up: the performance
commands pass it through an `uint8_t`. -/
def CommandKind.passNumber : CommandKind → ℤ → ℤ
  | .perf _, k => toU8 k
  | _, k       => k

lemma idle_listparts (fd : ℤ) : Idle (listparts fd) := by
  have hlist : Idle nvmeListPartitions := by
    refine idle_openDisk (fun dev => (quiet_printf _).idle) fun _ _ => ?_
    exact (quiet_printAll _).idle.bind fun _ => trivial
  refine (quiet_printf _).idle.bind fun _ => Prog.Only.bind ?_ fun rc => ?_
  · exact ⟨id, fun _ => ⟨id, fun _ => hlist.bind fun _ => ⟨id, fun _ => trivial⟩⟩⟩
  · split_ifs
    · exact idle_reply _ _
    · trivial

/-- The calls that a command can get to. -/
theorem acts_dispatch {perfJob : PerfJobInfo} (hop : op.Acts) :
    (∃ d', (dispatch fd past c perfJob).Calls pedExec d op d') ↔
      c.ActsNew atoi d op ∨ ∃ arg1, c.arg1 = some arg1 ∧ ∃ part,
        pedDiskGetPartition d.table (c.kind.passNumber (atoi arg1)) = some part ∧
        c.ActsOn atoi d past part op := by
  have hreturn : ∀ {p : Sys Unit} (x : Bool × PerfJobInfo),
      (∃ d', (do p; return x : Sys (Bool × PerfJobInfo)).Calls pedExec d op d') ↔
        ∃ d', p.Calls pedExec d op d' := fun x => calls_bind_idle (fun _ => trivial) hop
  rw [dispatch_eq, (yields_printf _).exists_calls_bind hop]
  simp only [true_and, exists_const, Command.ActsNew, Command.ActsOn]
  cases c.kind with
  | mkpart =>
    simp only [runBranch, hreturn, acts_mkpart hop]
    simp
  | rmpart =>
    simp only [runBranch, hreturn, acts_rmpart hop, reduceCtorEq, false_and, false_or,
      CommandKind.passNumber]
  | write =>
    simp only [runBranch, hreturn, acts_write hop, reduceCtorEq, false_and, false_or,
      CommandKind.passNumber]
  | read =>
    simp only [runBranch, hreturn, acts_read hop, reduceCtorEq, false_and, false_or,
      CommandKind.passNumber]
  | perf kind =>
    rw [runBranch, calls_bind_idle (fun _ => by trivial) hop, acts_perfCommand hop]
    simp only [reduceCtorEq, false_and, false_or, CommandKind.passNumber]
  | help =>
    have hidle := (quiet_sendCommandUsage fd).idle
    simp only [runBranch, hreturn]
    exact iff_of_false (hidle.not_exists_calls hop) (by simp)
  | status =>
    have hidle : Idle (redirected fd nvmeGetStatus) :=
      Quiet.idle (quiet_redirected quiet_nvmeGetStatus)
    rw [runBranch, calls_bind_idle (fun _ => by trivial) hop]
    exact iff_of_false (hidle.not_exists_calls hop) (by simp)
  | listparts =>
    simp only [runBranch, hreturn]
    exact iff_of_false ((idle_listparts fd).not_exists_calls hop) (by simp)
  | quit => simp [runBranch]
  | unknown => simp [runBranch]

end Aesd
