import Aesd.Server.Dispatch

/-!
# Performance writes

`seq_write` and `rand_write` overwrite a range of the raw disk. The range is checked against the
partition in 64 bits, on sectors relative to the partition, and stored in 32 bits, relative to the
disk. Each of the four functions the handler calls on the way reads the partition table afresh.
-/

namespace Aesd

open Effect CInt

/-! ### Calls that succeed on a table that nobody changes -/

variable {α β : Type} {d d' : Device} {kind : PerfKind} {job : PerfJobInfo}

/-- The program returns `a`, leaves the device alone and starts no job. -/
structure Returns (d : Device) (p : Sys α) (a : α) : Prop where
  eval : ∀ b d', p.Eval pedExecOk d b d' ↔ b = a ∧ d' = d
  no_start : ∀ kind job d', ¬ p.Calls pedExecOk d (.perfStart kind job) d'

lemma returns_ret (a : α) : Returns d (.ret a : Sys α) a :=
  ⟨fun _ _ => Prog.eval_ret, fun _ _ _ => Prog.calls_ret⟩

/-- A call that leaves the device alone, with the same result whatever it answers. -/
lemma returns_call {op : SysOp} {k : Answer op → Sys α} {a : α} (r : Answer op)
    (hop : ∀ kind job, op ≠ .perfStart kind job) (hr : pedExecOk op d r d)
    (hk : ∀ r' d', pedExecOk op d r' d' → d' = d ∧ Returns d (k r') a) :
    Returns d (.call op k) a := by
  refine ⟨fun b d' => ?_, fun kind job d' => ?_⟩
  · simp only [Prog.eval_call]
    constructor
    · rintro ⟨r', d₁, hexec, hb⟩
      obtain ⟨rfl, hret⟩ := hk r' d₁ hexec
      exact (hret.eval b d').mp hb
    · intro h
      exact ⟨r, d, hr, ((hk r d hr).2.eval b d').mpr h⟩
  · simp only [Prog.calls_call]
    rintro (⟨h, _⟩ | ⟨r', d₁, hexec, hcalls⟩)
    · exact hop kind job h.symm
    · obtain ⟨rfl, hret⟩ := hk r' d₁ hexec
      exact hret.no_start kind job d' hcalls

lemma Returns.calls_bind {p : Sys α} {f : α → Sys β} {a : α} (hp : Returns d p a) :
    (p >>= f).Calls pedExecOk d (.perfStart kind job) d' ↔
      (f a).Calls pedExecOk d (.perfStart kind job) d' := by
  rw [Prog.calls_bind]
  constructor
  · rintro (h | ⟨b, d₁, hb, h⟩)
    · exact absurd h (hp.no_start kind job d')
    · obtain ⟨rfl, rfl⟩ := (hp.eval b d₁).mp hb
      exact h
  · intro h
    exact Or.inr ⟨a, d, (hp.eval a d).mpr ⟨rfl, rfl⟩, h⟩

lemma Returns.bind {p : Sys α} {f : α → Sys β} {a : α} {b : β} (hp : Returns d p a)
    (hf : Returns d (f a) b) : Returns d (p >>= f) b := by
  refine ⟨fun b' d' => ?_, fun kind job d' h => hf.no_start kind job d' (hp.calls_bind.mp h)⟩
  rw [Prog.eval_bind, ← hf.eval b' d']
  constructor
  · rintro ⟨a', d₁, ha, hb⟩
    obtain ⟨rfl, rfl⟩ := (hp.eval a' d₁).mp ha
    exact hb
  · intro h
    exact ⟨a, d, (hp.eval a d).mpr ⟨rfl, rfl⟩, h⟩

lemma returns_printf (text : Text) : Returns d (printf text) () := by
  refine returns_call () (fun _ _ => by simp) ⟨rfl, trivial⟩ ?_
  rintro _ _ ⟨rfl, _⟩
  exact ⟨rfl, returns_ret ()⟩

lemma returns_reply (fd : ℤ) (text : Text) : Returns d (reply fd text) () := by
  simp only [reply, sendOnSocketf]
  split_ifs
  · exact returns_ret ()
  · exact returns_ret ()
  · refine returns_call 0 (fun _ _ => by simp) ⟨rfl, trivial⟩ ?_
    rintro r _ ⟨rfl, _⟩
    exact ⟨rfl, returns_ret ()⟩

/-- Opening the disk delivers the partition of the table. -/
lemma returns_openPartition {partNumber : ℤ} {fail : NvmeStatus → α}
    {body : PedDevice → PedPartition → Sys α} {res : PedPartition → α}
    (hbody : ∀ part, Returns d (body d.dev part) (res part)) :
    Returns d (openPartition partNumber fail body)
      ((pedDiskGetPartition d.table partNumber).elim (fail .partDne) res) := by
  simp only [openPartition, openDisk, Prog.perform_bind]
  refine returns_call (some d.dev) (fun _ _ => by simp) ⟨⟨rfl, Or.inr rfl⟩, rfl⟩ ?_
  rintro r _ ⟨⟨rfl, rfl | rfl⟩, hr⟩
  · cases hr
  refine ⟨rfl, returns_call true (fun _ _ => by simp) ⟨rfl, rfl⟩ ?_⟩
  rintro r _ ⟨rfl, rfl⟩
  refine ⟨rfl, returns_call (some _) (fun _ _ => by simp) ⟨⟨rfl, Or.inr rfl⟩, rfl⟩ ?_⟩
  rintro r _ ⟨⟨rfl, rfl | rfl⟩, hr⟩
  · cases hr
  refine ⟨rfl, ?_⟩
  dsimp only
  cases pedDiskGetPartition _ partNumber with
  | none => exact (returns_printf _).bind (returns_ret _)
  | some part => exact hbody part

lemma returns_nvmeCheckNameSafety (part : PedPartition) :
    Returns d (nvmeCheckNameSafety part) (if part.isAesd then .ok else .badName) := by
  refine (returns_printf _).bind ((returns_printf _).bind ?_)
  split_ifs
  · exact returns_ret _
  · exact returns_ret _

/-! ### Where a performance write ends up -/

/-- The partition has an `AESD` name and the whole range lies inside it. -/
def LbaRange.Inside (range : LbaRange) (part : PedPartition) : Prop :=
  part.isAesd = true ∧ range.startlba ≤ range.endlba ∧ part.geom.start ≤ range.startlba ∧
    range.endlba ≤ part.geom.end_

instance (range : LbaRange) (part : PedPartition) : Decidable (range.Inside part) :=
  inferInstanceAs (Decidable (_ ∧ _))

/-- The checks between the name check and the start of the job: the range is not backwards, the
duration is not negative, and the range is in the partition. -/
def PerfJobInfo.Accepted (job : PerfJobInfo) (part : PedPartition) : Prop :=
  job.lbaRange.startlba ≤ job.lbaRange.endlba ∧ 0 ≤ job.durationMs ∧
    lbaRangeInBounds part.geom job.lbaRange = true

instance (job : PerfJobInfo) (part : PedPartition) : Decidable (job.Accepted part) :=
  inferInstanceAs (Decidable (_ ∧ _))

lemma calls_redirected {kind' : PerfKind} {job' : PerfJobInfo} {fd : ℤ} {body : Sys α} :
    (redirected fd body).Calls pedExecOk d (.perfStart kind' job') d' ↔
      body.Calls pedExecOk d (.perfStart kind' job') d' := by
  have hrestore : ∀ saved (a : α), Quiet (do sys (.dup2 saved stdoutFileno); return a) :=
    fun _ _ => ⟨trivial, fun _ => trivial⟩
  simp only [redirected, Prog.perform_bind, Prog.calls_call, reduceCtorEq, false_and, false_or]
  constructor
  · rintro ⟨saved, _, ⟨rfl, _⟩, _, _, ⟨rfl, _⟩, h⟩
    rcases Prog.calls_bind.mp h with h | ⟨a, d₁, _, h⟩
    · exact h
    · exact absurd h ((hrestore saved a).not_calls id)
  · intro h
    exact ⟨3, d, ⟨rfl, trivial⟩, (), d, ⟨rfl, trivial⟩, Prog.calls_bind.mpr (Or.inl h)⟩

lemma calls_startJob {kind' : PerfKind} {job' : PerfJobInfo} :
    (startJob kind job).Calls pedExecOk d (.perfStart kind' job') d' ↔
      kind' = kind ∧ job' = job ∧ d' = d := by
  simp only [startJob, Prog.perform_bind, Prog.calls_call, SysOp.perfStart.injEq, and_assoc]
  constructor
  · rintro (h | ⟨texts, d₁, _, h⟩)
    · exact h
    · exact absurd h ((quiet_printAll texts).not_calls id)
  · exact Or.inl

/-- A job is started exactly when every check passes, shifted by the partition's start. -/
lemma calls_perfRange {fd partToPerf : ℤ} {kind' : PerfKind} {job' : PerfJobInfo} :
    (perfRange fd kind partToPerf job).Calls pedExecOk d (.perfStart kind' job') d' ↔
      ∃ part, pedDiskGetPartition d.table (toU8 partToPerf) = some part ∧ job.Accepted part ∧
        kind' = kind ∧ job' = job.shift (toU64 part.geom.start) ∧ d' = d := by
  have hrefused := fun text => quiet_then (quiet_reply fd text) job
  unfold perfRange
  split_ifs with hbad
  · refine iff_of_false ((hrefused _).not_calls id) ?_
    rintro ⟨part, _, ⟨hle, hdur, _⟩, _⟩
    omega
  rw [nvmeCheckLbaRangeInPart, (returns_openPartition fun _ => returns_ret _).calls_bind]
  cases hpart : pedDiskGetPartition d.table (toU8 partToPerf) with
  | none =>
    -- NVME_STATUS_PART_DNE is let through here and stopped by nvmeGetStartLbaInPart
    refine iff_of_false ?_ (by simp)
    simp only [Option.elim_none, id_eq, reduceCtorEq, if_false, nvmeGetStartLbaInPart]
    rw [(returns_openPartition fun _ => returns_ret _).calls_bind, hpart]
    exact (hrefused _).not_calls id
  | some part =>
    simp only [Option.elim_some, Option.some.injEq, exists_eq_left']
    cases hbounds : lbaRangeInBounds part.geom job.lbaRange with
    | false =>
      simp only [Bool.false_eq_true, if_false, if_true]
      refine iff_of_false ((hrefused _).not_calls id) ?_
      rintro ⟨⟨_, _, h⟩, _⟩
      rw [hbounds] at h
      cases h
    | true =>
      have haccepted : job.Accepted part := ⟨by omega, by omega, hbounds⟩
      simp only [if_true, reduceCtorEq, if_false, nvmeGetStartLbaInPart, nvmeGetEndLbaInPart]
      rw [(returns_openPartition fun _ => returns_ret _).calls_bind, hpart]
      simp only [Option.elim_some, ne_eq, not_true_eq_false, if_false]
      rw [(returns_openPartition fun _ => returns_ret _).calls_bind, hpart]
      simp only [Option.elim_some, not_true_eq_false, if_false]
      rw [(returns_reply _ _).calls_bind, Prog.calls_bind, calls_redirected, calls_startJob]
      constructor
      · rintro (h | ⟨_, _, _, h⟩)
        · exact ⟨haccepted, h⟩
        · exact absurd h ((quiet_then (quiet_printAll _) _).not_calls id)
      · exact fun h => Or.inl h.2

/-- What the arguments of a performance command ask for: the partition and, relative to it, the
job. -/
def Command.perfRequest (c : Command) : Option (ℤ × PerfJobInfo) := do
  let arg1 ← c.arg1
  let arg2 ← c.arg2
  let arg3 ← c.arg3
  let extra ← c.extra
  return (atoi arg1, perfJobOf arg2 arg3 extra)

lemma Command.perfRequest_eq_none {c : Command}
    (h : c.arg1 = none ∨ c.arg2 = none ∨ c.arg3 = none ∨ c.extra = none) :
    c.perfRequest = none := by
  obtain h | h | h | h := h <;> simp [Command.perfRequest, h]

lemma Command.perfRequest_eq_some {c : Command} {arg1 arg2 arg3 extra : Text}
    (harg1 : c.arg1 = some arg1) (harg2 : c.arg2 = some arg2) (harg3 : c.arg3 = some arg3)
    (hextra : c.extra = some extra) :
    c.perfRequest = some (atoi arg1, perfJobOf arg2 arg3 extra) := by
  simp [Command.perfRequest, harg1, harg2, harg3, hextra]

lemma calls_perfCommand {fd : ℤ} {c : Command} {perfJob : PerfJobInfo} {kind' : PerfKind}
    {job' : PerfJobInfo} (hkind : kind.checksName = true) :
    (perfCommand fd kind c perfJob).Calls pedExecOk d (.perfStart kind' job') d' ↔
      ∃ partToPerf job part, c.perfRequest = some (partToPerf, job) ∧
        pedDiskGetPartition d.table (toU8 partToPerf) = some part ∧ part.isAesd = true ∧
        job.Accepted part ∧ kind' = kind ∧ job' = job.shift (toU64 part.geom.start) ∧ d' = d := by
  have hrefused := fun text (job : PerfJobInfo) => quiet_then (quiet_reply fd text) job
  have hmissing : ¬ (perfCommand.missing fd perfJob).Calls pedExecOk d
      (.perfStart kind' job') d' := (hrefused _ _).not_calls id
  obtain ⟨hnone, heq⟩ | ⟨arg1, arg2, arg3, extra, harg1, harg2, harg3, hextra, heq⟩ :=
    perfCommand_cases fd kind c perfJob
  · rw [heq]
    exact iff_of_false hmissing (by simp [Command.perfRequest_eq_none hnone])
  simp only [heq, hkind, if_true, nvmeCheckNameSafetyPartNumber,
    Command.perfRequest_eq_some harg1 harg2 harg3 hextra]
  rw [(returns_openPartition returns_nvmeCheckNameSafety).calls_bind]
  simp only [Option.some.injEq, Prod.mk.injEq, and_assoc, exists_and_left, exists_eq_left']
  cases hpart : pedDiskGetPartition d.table (toU8 (atoi arg1)) with
  | none => exact iff_of_false ((hrefused _ _).not_calls id) (by simp)
  | some part =>
    simp only [Option.elim_some, Option.some.injEq, exists_eq_left']
    by_cases haesd : part.isAesd = true
    · simp only [haesd, if_true, reduceCtorEq, if_false, ne_eq, not_true_eq_false,
        calls_perfRange, hpart, Option.some.injEq, exists_eq_left', true_and]
    · simp only [haesd, Bool.false_eq_true, if_false, if_true, false_and]
      exact iff_of_false ((hrefused _ _).not_calls id) id

/-- Whenever the command starts a job, the range it hands over lies inside the partition that
passed the name check, and is what was asked for plus the partition's start. -/
def PerfWriteContained (fd : ℤ) (kind : PerfKind) (c : Command) (perfJob : PerfJobInfo)
    (d : Device) : Prop :=
  ∀ kind' job' d',
    (perfCommand fd kind c perfJob).Calls pedExecOk d (.perfStart kind' job') d' →
    ∃ partToPerf job part, c.perfRequest = some (partToPerf, job) ∧
      pedDiskGetPartition d.table (toU8 partToPerf) = some part ∧ job'.lbaRange.Inside part ∧
      job'.lbaRange.startlba = part.geom.start + job.lbaRange.startlba ∧
      job'.lbaRange.endlba = part.geom.start + job.lbaRange.endlba

/-- The last sector asked for has a number of 32 bits, unless the request is refused. -/
def PerfWriteFits (c : Command) (d : Device) : Prop :=
  ∀ partToPerf job part, c.perfRequest = some (partToPerf, job) →
    pedDiskGetPartition d.table (toU8 partToPerf) = some part → part.isAesd = true →
    job.Accepted part → part.geom.start + job.lbaRange.endlba < 2 ^ 32

/-- The fields of a request are `uint32_t`. -/
lemma Command.perfRequest_nonneg {c : Command} {partToPerf : ℤ}
    (h : c.perfRequest = some (partToPerf, job)) :
    0 ≤ job.lbaRange.startlba ∧ 0 ≤ job.lbaRange.endlba := by
  simp only [Command.perfRequest, Option.bind_eq_bind, Option.bind_eq_some_iff, Option.pure_def,
    Option.some.injEq, Prod.mk.injEq] at h
  obtain ⟨_, _, arg2, _, arg3, _, extra, _, _, rfl⟩ := h
  exact ⟨toU32_nonneg _, toU32_nonneg _⟩

/-- Nothing is lost when the job is moved, as long as its last sector has 32 bits. -/
lemma PerfJobInfo.shift_eq {start : ℤ} (hstart : 0 ≤ start) (hpos : 0 ≤ job.lbaRange.startlba)
    (hle : job.lbaRange.startlba ≤ job.lbaRange.endlba)
    (hlt : start + job.lbaRange.endlba < 2 ^ 32) :
    (job.shift (toU64 start)).lbaRange =
      ⟨start + job.lbaRange.startlba, start + job.lbaRange.endlba⟩ := by
  rw [toU64_of_range hstart (by omega)]
  simp only [PerfJobInfo.shift, toU32_toU64]
  rw [toU32_of_range (by omega) (by omega), toU32_of_range (by omega) (by omega)]
  simp only [add_comm]

/-- An accepted job stays in the partition when it is moved, as long as its last sector has 32
bits. -/
lemma PerfJobInfo.Accepted.inside {part : PedPartition} (hjob : job.Accepted part)
    (hpos : 0 ≤ job.lbaRange.startlba) (haesd : part.isAesd = true)
    (hlt : part.geom.start + job.lbaRange.endlba < 2 ^ 32) :
    (job.shift (toU64 part.geom.start)).lbaRange.Inside part := by
  obtain ⟨hle, -, hbounds⟩ := hjob
  have hstart := part.geom.start_nonneg
  rw [PerfJobInfo.shift_eq hstart hpos hle hlt]
  simp only [lbaRangeInBounds, Bool.and_eq_true, Bool.not_eq_true', decide_eq_false_iff_not]
    at hbounds
  obtain ⟨⟨-, hend⟩, -⟩ := hbounds
  rw [toI64_of_range (by omega) (by omega)] at hend
  refine ⟨haesd, ?_, ?_, ?_⟩
  · show part.geom.start + job.lbaRange.startlba ≤ part.geom.start + job.lbaRange.endlba
    omega
  · show part.geom.start ≤ part.geom.start + job.lbaRange.startlba
    omega
  · show part.geom.start + job.lbaRange.endlba ≤ part.geom.end_
    omega

/-- A performance write stays in its partition exactly when the last sector it is asked for has a
number of 32 bits. -/
theorem perfWrite_contained_iff (fd : ℤ) (kind : PerfKind) (hkind : kind.checksName = true)
    (c : Command) (perfJob : PerfJobInfo) (d : Device) :
    PerfWriteContained fd kind c perfJob d ↔ PerfWriteFits c d := by
  constructor
  · intro h partToPerf job part hreq hpart haesd hjob
    have hcall : (perfCommand fd kind c perfJob).Calls pedExecOk d
        (.perfStart kind (job.shift (toU64 part.geom.start))) d :=
      (calls_perfCommand hkind).mpr
        ⟨partToPerf, job, part, hreq, hpart, haesd, hjob, rfl, rfl, rfl⟩
    obtain ⟨_, _, _, hreq', hpart', -, -, hend⟩ := h kind _ d hcall
    rw [hreq, Option.some.injEq, Prod.mk.injEq] at hreq'
    obtain ⟨rfl, rfl⟩ := hreq'
    rw [hpart, Option.some.injEq] at hpart'
    subst hpart'
    rw [← hend]
    exact toU32_lt _
  · intro h kind' job' d' hcalls
    obtain ⟨partToPerf, job, part, hreq, hpart, haesd, hjob, -, rfl, -⟩ :=
      (calls_perfCommand hkind).mp hcalls
    have hlt := h partToPerf job part hreq hpart haesd hjob
    have hpos := (Command.perfRequest_nonneg hreq).1
    have hshift := PerfJobInfo.shift_eq part.geom.start_nonneg hpos hjob.1 hlt
    refine ⟨partToPerf, job, part, hreq, hpart, hjob.inside hpos haesd hlt, ?_, ?_⟩
    · rw [hshift]
    · rw [hshift]

/-- A disk with one partition, an `AESD` one. -/
def aesdAt (geom : PedGeometry) : Device where
  dev := { length := geom.end_ + 100, sectorSize := 512, model := [] }
  table := [⟨1, str "AESD Part 1", geom⟩]
  sectors _ := []

/-- `sw 1 0 5 100`. -/
def seqWriteSix : Command where
  cmd := str "sw"
  arg1 := str "1"
  arg2 := str "0"
  arg3 := str "5"
  extra := str "100"

lemma seqWriteSix_request : seqWriteSix.perfRequest = some (1, ⟨⟨0, 5⟩, 100⟩) := by decide

theorem perfWrite_contained_seqWriteSix :
    PerfKind.seqWrite.checksName = true ∧
      PerfWriteContained 4 .seqWrite seqWriteSix ⟨⟨0, 0⟩, 0⟩
        (aesdAt { start := 2048, end_ := 2057 }) := by
  refine ⟨rfl, (perfWrite_contained_iff 4 .seqWrite rfl _ _ _).mpr ?_⟩
  intro partToPerf job part hreq hpart haesd hjob
  rw [seqWriteSix_request] at hreq
  cases hreq
  cases hpart
  decide

/-- Behind sector `2 ^ 32` the sectors at the front of the disk are overwritten instead. -/
theorem perfWrite_not_contained_large :
    ¬ PerfWriteContained 4 .seqWrite seqWriteSix ⟨⟨0, 0⟩, 0⟩
      (aesdAt { start := 2 ^ 32, end_ := 2 ^ 32 + 9 }) := by
  intro h
  obtain ⟨_, _, part, hreq, hpart, -, hstart, -⟩ := h .seqWrite _ _
    ((calls_perfCommand rfl).mpr
      ⟨1, ⟨⟨0, 5⟩, 100⟩, ⟨1, str "AESD Part 1", { start := 2 ^ 32, end_ := 2 ^ 32 + 9 }⟩,
        seqWriteSix_request, rfl, by decide, by decide, rfl, rfl, rfl⟩)
  rw [seqWriteSix_request] at hreq
  cases hreq
  cases hpart
  revert hstart
  decide

end Aesd
