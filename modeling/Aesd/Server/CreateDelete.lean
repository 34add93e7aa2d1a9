import Aesd.Server.FreeSpace
import Aesd.Server.PerfWrite
import Aesd.Server.TruthfulStatus

/-!
# Creating and deleting a partition

What a successful `nvmeCreatePartition` or `nvmeDeletePartition` has done, and that the second
takes back what the first has done.
-/

namespace Aesd

open Effect CInt

variable {α : Type} {d d' : Device} {size partNumber : ℤ} {newPart : Option PedPartition}
  {exec : (op : SysOp) → Device → Answer op → Device → Prop}

/-! ### What a success has done -/

/-- The name that `nvmeCreatePartition` gives. -/
def partName (num : ℤ) : Text := str "AESD Part " ++ dec num

lemma eval_printf (hexec : ∀ op d r d', exec op d r d' → pedExec op d r d') {text : Text} {u : Unit}
    (h : (printf text).Eval exec d u d') : d' = d := by
  obtain ⟨_, _, hprint, -, rfl⟩ := h
  exact hexec _ _ _ _ hprint

lemma eval_openDisk (hexec : ∀ op d r d', exec op d r d' → pedExec op d r d')
    {trace : PedDevice → Sys Unit} {fail : NvmeStatus → α} {body : PedDevice → PedDisk → Sys α}
    {a : α} (htrace : ∀ dev u d₁, (trace dev).Eval exec d u d₁ → d₁ = d)
    (hfail : ∀ rc, rc ≠ .ok → a ≠ fail rc) (h : (openDisk trace fail body).Eval exec d a d') :
    (body d.dev d.table).Eval exec d a d' := by
  simp only [openDisk, Prog.perform_bind] at h
  obtain ⟨_, _, hget, h⟩ := h
  obtain ⟨rfl, rfl | rfl⟩ := hexec _ _ _ _ hget
  · exact absurd h.1 (hfail _ (by decide))
  obtain ⟨_, _, hprint, h⟩ := Prog.eval_bind.mp h
  obtain rfl := htrace _ _ _ hprint
  obtain ⟨opened, _, hopen, h⟩ := h
  obtain rfl := (hexec _ _ _ _ hopen).symm
  cases opened with
  | false => exact absurd h.1 (hfail _ (by decide))
  | true =>
    obtain ⟨_, _, hnew, h⟩ := h
    obtain ⟨rfl, rfl | rfl⟩ := hexec _ _ _ _ hnew
    · exact absurd h.1 (hfail _ (by decide))
    · exact h

lemma eval_nameAndCommit (hexec : ∀ op d r d', exec op d r d' → pedExec op d r d')
    {part : PedPartition} (h : (nameAndCommit d.table part).Eval exec d (.ok, newPart) d') :
    ∃ named added, exec (.pedPartitionSetName part (partName part.num)) d named d ∧
      added = (if named then { part with name := partName part.num } else part) ∧
      newPart = some added ∧ d' = { d with table := added :: d.table } := by
  simp only [nameAndCommit, Prog.perform_bind] at h
  obtain ⟨_, _, hprint, h⟩ := Prog.eval_bind.mp h
  obtain rfl := (eval_printf hexec hprint).symm
  split_ifs at h with hshort
  · exact absurd h.1 (by simp)
  · have hname : (str "AESD Part " ++ dec part.num).take 15 = partName part.num := by
      rw [not_ne_iff, List.length_take] at hshort
      exact List.take_of_length_le (by omega)
    rw [hname] at h
    obtain ⟨named, _, hnamed, h⟩ := h
    obtain rfl := (hexec _ _ _ _ hnamed).symm
    obtain ⟨committed, _, hcommit, h⟩ := h
    cases committed with
    | false => exact absurd h.1 (by simp)
    | true =>
    obtain ⟨told, _, htold, h⟩ := h
    obtain rfl := (hexec _ _ _ _ htold).symm
    cases told with
    | false => exact absurd h.1 (by simp)
    | true =>
    obtain ⟨hres, rfl⟩ := h
    obtain ⟨-, rfl⟩ | ⟨hfalse, -⟩ := hexec _ _ _ _ hcommit
    · exact ⟨named, _, hnamed, rfl, congrArg Prod.snd hres, rfl⟩
    · cases hfalse

/-- The calls of `nvmeCreatePartition` that matter for its success. -/
lemma eval_nvmeCreatePartition (hexec : ∀ op d r d', exec op d r d' → pedExec op d r d')
    (h : (nvmeCreatePartition size).Eval exec d (.ok, newPart) d') :
    ∃ start end_ part named added, exec (.pedDiskAddPartition d.table start end_) d (some part) d ∧
      exec (.pedPartitionSetName part (partName part.num)) d named d ∧
      added = (if named then { part with name := partName part.num } else part) ∧
      newPart = some added ∧ d' = { d with table := added :: d.table } := by
  replace h := eval_openDisk hexec (fun _ _ _ => eval_printf hexec)
    (fun rc hrc heq => hrc (congrArg Prod.fst heq).symm) h
  simp only [Prog.perform_bind] at h
  obtain ⟨fsType, _, hfs, h⟩ := h
  obtain rfl := (hexec _ _ _ _ hfs).symm
  cases fsType with
  | false => exact absurd h.1 (by simp)
  | true =>
  obtain ⟨align, _, halign, h⟩ := h
  obtain rfl := (hexec _ _ _ _ halign).symm
  cases align with
  | none =>
    obtain ⟨r, -⟩ := h
    exact r.elim
  | some grainSize =>
  obtain ⟨_, _, hprint, h⟩ := Prog.eval_bind.mp h
  obtain rfl := (eval_printf hexec hprint).symm
  obtain ⟨_, _, hprint, h⟩ := Prog.eval_bind.mp h
  obtain rfl := (eval_printf hexec hprint).symm
  split at h
  · obtain ⟨r, -⟩ := h
    exact r.elim
  · rename_i rc hrc
    exact absurd (congrArg Prod.fst h.1).symm (requestRegion_error hrc)
  · rename_i start end_ hregion
    obtain ⟨made, _, hmade, h⟩ := h
    obtain rfl := (hexec _ _ _ _ hmade).symm
    cases made with
    | false => exact absurd h.1 (by simp)
    | true =>
    obtain ⟨_, _, hprint, h⟩ := Prog.eval_bind.mp h
    obtain rfl := (eval_printf hexec hprint).symm
    obtain ⟨part, _, hadd, h⟩ := h
    obtain rfl := (hexec _ _ _ _ hadd).1.symm
    cases part with
    | none => exact absurd h.1 (by simp)
    | some part =>
      obtain ⟨named, added, h⟩ := eval_nameAndCommit hexec h
      exact ⟨start, end_, part, named, added, hadd, h⟩

/-- The calls of `nvmeDeletePartition` that matter for its success. -/
lemma eval_nvmeDeletePartition (hexec : ∀ op d r d', exec op d r d' → pedExec op d r d')
    (h : (nvmeDeletePartition partNumber).Eval exec d .ok d') :
    ∃ part deleted, pedDiskGetPartition d.table partNumber = some part ∧
      exec (.pedDiskDeletePartition d.table part) d deleted d ∧
      d' = { d with table := if deleted then d.table.erase part else d.table } := by
  replace h := eval_openDisk hexec (fun _ _ _ hret => (hret : _ ∧ _).2)
    (fun rc hrc heq => hrc heq.symm) h
  cases hpart : pedDiskGetPartition d.table partNumber with
  | none =>
    rw [hpart] at h
    exact absurd h.1 (by simp)
  | some part =>
  simp only [hpart] at h
  simp only [nvmeCheckNameSafety] at h
  obtain ⟨rc, _, hcheck, h⟩ := Prog.eval_bind.mp h
  obtain ⟨_, _, hprint, hcheck⟩ := Prog.eval_bind.mp hcheck
  obtain rfl := (eval_printf hexec hprint).symm
  obtain ⟨_, _, hprint, hcheck⟩ := Prog.eval_bind.mp hcheck
  obtain rfl := (eval_printf hexec hprint).symm
  split_ifs at hcheck with haesd
  · obtain ⟨rfl, rfl⟩ := hcheck
    obtain ⟨deleted, _, hdeleted, h⟩ := h
    obtain rfl := (hexec _ _ _ _ hdeleted).symm
    obtain ⟨committed, _, hcommit, h⟩ := h
    cases committed with
    | false => exact absurd h.1 (by simp)
    | true =>
    obtain ⟨told, _, htold, h⟩ := h
    obtain rfl := (hexec _ _ _ _ htold).symm
    cases told with
    | false => exact absurd h.1 (by simp)
    | true =>
    obtain ⟨-, rfl⟩ := h
    obtain ⟨-, rfl⟩ | ⟨hfalse, -⟩ := hexec _ _ _ _ hcommit
    · exact ⟨part, deleted, rfl, hdeleted, rfl⟩
    · cases hfalse
  · obtain ⟨rfl, rfl⟩ := hcheck
    obtain ⟨_, _, -, h⟩ := Prog.eval_bind.mp h
    exact absurd h.1 (by simp)

/-! ### One after the other -/

/-- A GPT label has 128 entries. -/
def gptNumber : (op : SysOp) → Answer op → Bool
  | .pedDiskAddPartition _ _ _, some part => part.num ≤ 128
  | _, _ => true

/-- None of libparted's calls fails, on a disk with a GPT label. -/
def pedExecOkGpt (op : SysOp) (d : Device) (r : Answer op) (d' : Device) : Prop :=
  pedExecOk op d r d' ∧ gptNumber op r = true

/-- A partition that exists and has an `AESD` name is deleted. -/
lemma nvmeDeletePartition_eval {part : PedPartition} {rc : NvmeStatus}
    (hpart : pedDiskGetPartition d.table partNumber = some part) (haesd : part.isAesd = true) :
    (nvmeDeletePartition partNumber).Eval pedExecOk d rc d' ↔
      rc = .ok ∧ d' = { d with table := d.table.erase part } := by
  simp [nvmeDeletePartition, openDisk, nvmeCheckNameSafety, printf, Prog.perform_bind,
    Prog.pure_eq_ret, Prog.ret_bind, Prog.call_bind, hpart, haesd]

lemma isAesd_partName (part : PedPartition) (num : ℤ) :
    { part with name := partName num }.isAesd = true := rfl

lemma returns_checks {part : PedPartition}
    (hpart : pedDiskGetPartition d.table partNumber = some part) (haesd : part.isAesd = true) :
    Returns d (nvmeCheckNameSafety part) .ok ∧
      Returns d (nvmeCheckNameSafetyPartNumber partNumber) .ok := by
  have hnumber : Returns d (nvmeCheckNameSafetyPartNumber partNumber) _ :=
    returns_openPartition returns_nvmeCheckNameSafety
  rw [hpart, Option.elim_some, haesd, if_pos rfl] at hnumber
  have hsafe := returns_nvmeCheckNameSafety (d := d) part
  rw [haesd, if_pos rfl] at hsafe
  exact ⟨hsafe, hnumber⟩

/-- `rmpart` undoes `mkpart`: a partition that has been created passes both name checks, the one by
its number too, and deleting the number that was reported succeeds and leaves the disk as it was
before. -/
theorem rmpart_undoes_mkpart
    (h : (nvmeCreatePartition size).Eval pedExecOkGpt d (.ok, newPart) d') :
    ∃ part k, newPart = some part ∧ storedNumber newPart = some k ∧
      (∀ rc d₂, (nvmeCheckNameSafety part).Eval pedExecOk d' rc d₂ ↔ rc = .ok ∧ d₂ = d') ∧
      (∀ rc d₂, (nvmeCheckNameSafetyPartNumber k).Eval pedExecOk d' rc d₂ ↔
        rc = .ok ∧ d₂ = d') ∧
      ∀ rc d₂, (nvmeDeletePartition k).Eval pedExecOk d' rc d₂ ↔ rc = .ok ∧ d₂ = d := by
  obtain ⟨start, end_, part, named, _, hadd, hnamed, rfl, rfl, rfl⟩ :=
    eval_nvmeCreatePartition (fun _ _ _ _ hexec => hexec.1.1) h
  obtain rfl : named = true := hnamed.1.2
  have hplaced := hadd.1.1.2 part rfl
  have hle : part.num ≤ 128 := of_decide_eq_true hadd.2
  have hk : toU8 part.num = part.num :=
    (toU8_eq_self_iff hplaced.2.1).mpr (hle.trans (by decide))
  simp only [if_true]
  set added : PedPartition := { part with name := partName part.num }
  have haesd : added.isAesd = true := isAesd_partName part part.num
  have hfound : pedDiskGetPartition (added :: d.table) part.num = some added :=
    List.find?_cons_of_pos (decide_eq_true rfl)
  obtain ⟨hsafe, hnumber⟩ :=
    returns_checks (d := { d with table := added :: d.table }) hfound haesd
  refine ⟨added, part.num, rfl, congrArg some hk, hsafe.eval, hnumber.eval, fun rc d₂ => ?_⟩
  rw [nvmeDeletePartition_eval hfound haesd, List.erase_cons_head]

/-- The answers of `pedRespond` that are no failures, with numbers of a GPT label. -/
def pedRespondGpt : (op : SysOp) → Device → Outcome → Option (Answer op × Device)
  | .pedDiskAddPartition disk _ _, d, .place part =>
    if Placed disk part ∧ part.num ≤ 128 then some (some part, d) else none
  | op, d, .success => pedRespond op d .success
  | _, _, _         => none

lemma pedRespond_success {op : SysOp} {r : Answer op}
    (h : pedRespond op d .success = some (r, d')) : Succeeds op r ∧ gptNumber op r = true := by
  cases op with
  | pedGeometryWrite geom buffer offset count =>
    simp only [pedRespond] at h
    split_ifs at h
    cases h
    exact ⟨rfl, rfl⟩
  | _ => cases h <;> first | exact ⟨rfl, rfl⟩ | exact ⟨trivial, rfl⟩

lemma pedRespondGpt_exec (op : SysOp) (d : Device) (o : Outcome) (r : Answer op) (d' : Device)
    (h : pedRespondGpt op d o = some (r, d')) : pedExecOkGpt op d r d' := by
  unfold pedRespondGpt at h
  split at h
  · split_ifs at h with hplaced
    cases h
    refine ⟨⟨⟨rfl, ?_⟩, rfl⟩, decide_eq_true hplaced.2⟩
    rintro part ⟨⟩
    exact hplaced.1
  · obtain ⟨hsucceeds, hnum⟩ := pedRespond_success h
    exact ⟨⟨pedRespond_exec op d _ r d' h, hsucceeds⟩, hnum⟩
  · cases h

theorem rmpart_undoes_mkpart_five : ∃ part k,
    (nvmeCreatePartition 5).Eval pedExecOkGpt singlePart (.ok, some part) addedPart ∧
      storedNumber (some part) = some k ∧
      (nvmeDeletePartition k).Eval pedExecOk addedPart .ok singlePart := by
  have h : (nvmeCreatePartition 5).Eval pedExecOkGpt singlePart
      (.ok, some (aesdPart 2 (between 20 24))) addedPart :=
    Prog.eval_of_run pedRespondGpt_exec (List.replicate 10 .success ++
      [.place ⟨2, [], between 20 24⟩] ++ List.replicate 4 .success) rfl
  obtain ⟨part, k, hpart, hk, -, -, hdelete⟩ := rmpart_undoes_mkpart h
  obtain rfl := Option.some.inj hpart
  exact ⟨_, k, h, hk, (hdelete _ _).mpr ⟨rfl, rfl⟩⟩

end Aesd
