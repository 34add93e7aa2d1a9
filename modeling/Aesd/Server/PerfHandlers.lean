import Aesd.Server.PerfWrite

/-!
# The performance handlers

The four branches for `seq_write`, `seq_read`, `rand_write` and `rand_read` are written out four
times. On a table that nobody changes, and with libparted doing what it is asked for, the two reads
start the same jobs, the two writes do, and a write starts the job of the read if the partition's
name allows it (`perfHandlers_agree`). What they share is a range check that mixes four C types and
still is exact (`nvmeCheckLbaRangeInPart_exact`).
-/

namespace Aesd

open Effect CInt

variable {α β : Type} {d d' : Device} {kind : PerfKind} {job : PerfJobInfo} {part : PedPartition}

/-! ### The range check -/

/-- The four comparisons come down to one: the last sector is in the partition. -/
lemma lbaRangeInBounds_iff {geom : PedGeometry} {range : LbaRange} (hend : geom.end_ < 2 ^ 62)
    (hstart : 0 ≤ range.startlba) (hle : range.startlba ≤ range.endlba)
    (hlt : range.endlba < 2 ^ 32) :
    lbaRangeInBounds geom range = true ↔ range.endlba < geom.length := by
  have hnonneg := geom.start_nonneg
  have hordered := geom.start_le_end
  have hlength : geom.length = geom.end_ - geom.start + 1 := rfl
  simp only [lbaRangeInBounds, Bool.and_eq_true, Bool.not_eq_true', decide_eq_false_iff_not]
  rw [toU32_of_range (by omega) (by omega), toU64_of_range (by omega) (by omega),
    toI64_of_range (by omega) (by omega), toI64_of_range (by omega) (by omega)]
  omega

/-- With libparted succeeding, the check of a partition returns `NVME_STATUS_OK` exactly if every
sector of the range is one of the partition, and `NVME_STATUS_ERROR` otherwise. -/
theorem nvmeCheckLbaRangeInPart_exact {partNumber : ℤ} {range : LbaRange}
    (hpart : pedDiskGetPartition d.table partNumber = some part) (hend : part.geom.end_ < 2 ^ 62)
    (hstart : 0 ≤ range.startlba) (hle : range.startlba ≤ range.endlba)
    (hlt : range.endlba < 2 ^ 32) :
    ∃ rc, (∀ rc' d', (nvmeCheckLbaRangeInPart partNumber range).Eval pedExecOk d rc' d' ↔
        rc' = rc ∧ d' = d) ∧
      (rc = .ok ↔ ∀ x, range.startlba ≤ x → x ≤ range.endlba → x < part.geom.length) ∧
      (rc = .ok ∨ rc = .error) := by
  have hreturns : Returns d (nvmeCheckLbaRangeInPart partNumber range) _ :=
    returns_openPartition fun _ => returns_ret _
  rw [hpart] at hreturns
  refine ⟨_, hreturns.eval, ?_, ?_⟩
  · have hsectors : (∀ x, range.startlba ≤ x → x ≤ range.endlba → x < part.geom.length) ↔
        range.endlba < part.geom.length := by
      constructor
      · intro h
        exact h _ hle le_rfl
      · intro h x _ hx
        exact hx.trans_lt h
    rw [hsectors, ← lbaRangeInBounds_iff hend hstart hle hlt]
    simp
  · rw [Option.elim_some]
    split_ifs
    · exact Or.inl rfl
    · exact Or.inr rfl

theorem nvmeCheckLbaRangeInPart_exact_lastSector :
    ∃ rc, (∀ rc' d', (nvmeCheckLbaRangeInPart 1 ⟨0, 9⟩).Eval pedExecOk
        (diskWith [aesdPart 1 (between 10 19)]) rc' d' ↔
        rc' = rc ∧ d' = diskWith [aesdPart 1 (between 10 19)]) ∧
      (rc = .ok ↔ ∀ x : ℤ, 0 ≤ x → x ≤ 9 → x < (between 10 19).length) ∧
      (rc = .ok ∨ rc = .error) :=
  have hpart : pedDiskGetPartition (diskWith [aesdPart 1 (between 10 19)]).table 1 =
    some (aesdPart 1 (between 10 19)) := by decide
  nvmeCheckLbaRangeInPart_exact hpart (by decide) (by decide) (by decide) (by decide)

/-! ### The jobs a program starts -/

/-- The jobs started in a run, in order. -/
def startedJobs (tr : List (Prog.Answered SysOp Answer)) : List (PerfKind × PerfJobInfo) :=
  tr.filterMap fun e =>
    match e with
    | ⟨.perfStart kind job, _⟩ => some (kind, job)
    | _                        => none

/-- The program returns, and every run of it starts the given job, or none. -/
structure Starts (d : Device) (p : Sys α) (kind : PerfKind) (job : Option PerfJobInfo) : Prop where
  returns : ∃ a d', p.Eval pedExecOk d a d'
  started : ∀ tr a d', p.EvalTrace pedExecOk d tr a d' →
    startedJobs tr = (job.map fun job => (kind, job)).toList

lemma startedJobs_append (tr tr' : List (Prog.Answered SysOp Answer)) :
    startedJobs (tr ++ tr') = startedJobs tr ++ startedJobs tr' := List.filterMap_append ..

/-- Without a call that starts a job none is started. -/
lemma startedJobs_eq_nil {p : Sys α} {tr : List (Prog.Answered SysOp Answer)} {a : α}
    (h : p.EvalTrace pedExecOk d tr a d')
    (hnone : ∀ kind job d', ¬ p.Calls pedExecOk d (.perfStart kind job) d') :
    startedJobs tr = [] := by
  rw [startedJobs, List.filterMap_eq_nil_iff]
  rintro ⟨op, r⟩ he
  obtain ⟨d₁, hcalls⟩ := h.calls he
  cases op with
  | perfStart kind job => exact absurd hcalls (hnone kind job d₁)
  | _ => rfl

lemma Quiet.startedJobs {p : Sys α} (hp : Quiet p) {tr : List (Prog.Answered SysOp Answer)} {a : α}
    (h : p.EvalTrace pedExecOk d tr a d') : startedJobs tr = [] :=
  startedJobs_eq_nil h fun _ _ _ => hp.not_calls id

lemma Returns.starts {p : Sys α} {a : α} (hp : Returns d p a) : Starts d p kind none :=
  ⟨⟨a, d, (hp.eval a d).mpr ⟨rfl, rfl⟩⟩, fun _ _ _ h => startedJobs_eq_nil h hp.no_start⟩

/-- A sequence starts what its second part does, if the first one only looks at the disk. -/
lemma Returns.starts_bind {p : Sys α} {f : α → Sys β} {a : α} {job : Option PerfJobInfo}
    (hp : Returns d p a) (hf : Starts d (f a) kind job) : Starts d (p >>= f) kind job := by
  constructor
  · obtain ⟨b, d', h⟩ := hf.returns
    exact ⟨b, d', Prog.eval_bind.mpr ⟨a, d, (hp.eval a d).mpr ⟨rfl, rfl⟩, h⟩⟩
  · intro tr b d' h
    obtain ⟨tr₁, tr₂, a', d₁, rfl, h₁, h₂⟩ := Prog.evalTrace_bind.mp h
    obtain ⟨rfl, rfl⟩ := (hp.eval a' d₁).mp h₁.eval
    rw [startedJobs_append, startedJobs_eq_nil h₁ hp.no_start, List.nil_append]
    exact hf.started tr₂ b d' h₂

/-- What is made of the result does not matter. -/
lemma Starts.map {p : Sys α} {f : α → β} {job : Option PerfJobInfo} (hp : Starts d p kind job) :
    Starts d (p >>= fun a => .ret (f a)) kind job := by
  constructor
  · obtain ⟨a, d', h⟩ := hp.returns
    exact ⟨f a, d', Prog.eval_bind.mpr ⟨a, d', h, rfl, rfl⟩⟩
  · intro tr b d' h
    obtain ⟨tr₁, tr₂, a, d₁, rfl, h₁, h₂⟩ := Prog.evalTrace_bind.mp h
    obtain ⟨rfl, rfl, rfl⟩ := h₂
    rw [List.append_nil]
    exact hp.started tr₁ a d' h₁

/-- There is only one job that a program starts. -/
lemma Starts.unique {p : Sys α} {job job' : Option PerfJobInfo}
    (h : Starts d p kind job) (h' : Starts d p kind job') : job = job' := by
  obtain ⟨a, d', heval⟩ := h.returns
  obtain ⟨tr, htr⟩ := heval.exists_trace
  have heq := (h.started tr a d' htr).symm.trans (h'.started tr a d' htr)
  cases job with
  | none =>
    cases job' with
    | none => rfl
    | some job' => cases heq
  | some job =>
    cases job' with
    | none => cases heq
    | some job' =>
      obtain ⟨⟨-, rfl⟩, -⟩ := List.cons.inj heq
      rfl

lemma returns_printAll (texts : List Text) : Returns d (printAll texts) () := by
  induction texts with
  | nil => exact returns_ret ()
  | cons text texts ih => exact (returns_printf text).bind ih

/-- The end of a handler starts the job. -/
lemma starts_redirected (fd : ℤ) (a : α) :
    Starts d (do redirected fd (startJob kind job); printAll kind.afterwards; return a) kind
      (some job) := by
  set rest : List Text → ℤ → Sys α := fun texts savedfd => do
    printAll texts
    sys (.dup2 savedfd stdoutFileno)
    printAll kind.afterwards
    return a with hrest
  have hprog : (do redirected fd (startJob kind job); printAll kind.afterwards; return a) =
      Prog.call (.dup stdoutFileno) fun savedfd => .call (.dup2 fd stdoutFileno) fun _ =>
        .call (.perfStart kind job) fun texts => rest texts savedfd := by
    simp only [redirected, startJob, Prog.perform_bind, Prog.call_bind, Prog.bind_assoc, hrest]
    rfl
  have hquiet : ∀ texts savedfd, Quiet (rest texts savedfd) := fun texts savedfd =>
    (quiet_printAll texts).bind fun _ => ⟨trivial, fun _ => quiet_then (quiet_printAll _) a⟩
  rw [hprog]
  constructor
  · have hprinted : Returns d (do printAll kind.afterwards; return a) a :=
      (returns_printAll _).bind (returns_ret a)
    exact ⟨a, d, (3 : ℤ), d, ⟨rfl, trivial⟩, (), d, ⟨rfl, trivial⟩, ([] : List Text), d,
      ⟨⟨rfl, rfl, fun _ _ => rfl⟩, trivial⟩, (), d, ⟨rfl, trivial⟩,
      (hprinted.eval a d).mpr ⟨rfl, rfl⟩⟩
  · rintro _ b d' ⟨savedfd, _, _, rfl, -, _, _, _, rfl, -, texts, d₁, tr, rfl, -, h⟩
    have hnone := (hquiet texts savedfd).startedJobs h
    show (kind, job) :: startedJobs tr = [(kind, job)]
    rw [hnone]

/-! ### The handlers -/

/-- The job that a handler starts once the name check is over. -/
def rangeJob (d : Device) (number : ℤ) (job : PerfJobInfo) : Option PerfJobInfo :=
  (pedDiskGetPartition d.table number).bind fun part =>
    if job.Accepted part then some (job.shift (toU64 part.geom.start)) else none

lemma starts_perfRange (fd partToPerf : ℤ) :
    Starts d (perfRange fd kind partToPerf job) kind (rangeJob d (toU8 partToPerf) job) := by
  have hrefused : ∀ text, Starts d (do reply fd text; return job) kind none :=
    fun text => ((returns_reply fd text).bind (returns_ret job)).starts
  unfold perfRange
  split_ifs with hbad
  · have hnone : rangeJob d (toU8 partToPerf) job = none := by
      simp only [rangeJob, Option.bind_eq_none_iff, ite_eq_right_iff, reduceCtorEq, imp_false]
      rintro part - ⟨hle, hdur, -⟩
      omega
    rw [hnone]
    exact hrefused _
  · refine (returns_openPartition fun _ => returns_ret _).starts_bind ?_
    rw [rangeJob]
    cases hpart : pedDiskGetPartition d.table (toU8 partToPerf) with
    | none =>
      -- NVME_STATUS_PART_DNE is let through here and stopped by nvmeGetStartLbaInPart
      refine (returns_openPartition fun _ => returns_ret _).starts_bind ?_
      rw [hpart]
      exact hrefused _
    | some part =>
      rw [Option.elim_some, Option.bind_some]
      by_cases hbounds : lbaRangeInBounds part.geom job.lbaRange = true
      · have haccepted : job.Accepted part := ⟨by omega, by omega, hbounds⟩
        rw [if_pos hbounds, if_neg (by decide), if_pos haccepted]
        refine (returns_openPartition fun _ => returns_ret _).starts_bind ?_
        rw [hpart]
        refine (returns_openPartition fun _ => returns_ret _).starts_bind ?_
        rw [hpart]
        exact (returns_reply _ _).starts_bind (starts_redirected fd _)
      · have hrejected : ¬ job.Accepted part := fun h => hbounds h.2.2
        rw [if_neg hbounds, if_pos rfl, if_neg hrejected]
        exact hrefused _

/-- The partition that the first argument addresses; the handlers pass its number on as a
`uint8_t`. -/
def Command.addressed (c : Command) (d : Device) : Option PedPartition :=
  c.perfRequest.bind fun request => pedDiskGetPartition d.table (toU8 request.1)

/-- The job that a read handler starts. -/
def Command.readJob (c : Command) (d : Device) : Option PerfJobInfo :=
  c.perfRequest.bind fun request => rangeJob d (toU8 request.1) request.2

/-- The job that a write handler starts. -/
def Command.writeJob (c : Command) (d : Device) : Option PerfJobInfo :=
  (c.addressed d).bind fun part => if part.isAesd then c.readJob d else none

lemma starts_perfCommand (fd : ℤ) (c : Command) (perfJob : PerfJobInfo) :
    Starts d (perfCommand fd kind c perfJob) kind
      (if kind.checksName then c.writeJob d else c.readJob d) := by
  have hrefused : ∀ text (job : PerfJobInfo), Starts d (do reply fd text; return job) kind none :=
    fun text job => ((returns_reply fd text).bind (returns_ret job)).starts
  have hmissing : c.perfRequest = none → Starts d (perfCommand.missing fd perfJob) kind
      (if kind.checksName then c.writeJob d else c.readJob d) := by
    intro hnone
    simp only [Command.writeJob, Command.addressed, Command.readJob, hnone, Option.bind_none,
      ite_self]
    exact hrefused _ _
  obtain ⟨hnone, heq⟩ | ⟨arg1, arg2, arg3, extra, harg1, harg2, harg3, hextra, heq⟩ :=
    perfCommand_cases fd kind c perfJob
  · rw [heq]
    exact hmissing (Command.perfRequest_eq_none hnone)
  have hrequest := Command.perfRequest_eq_some harg1 harg2 harg3 hextra
  have hread : c.readJob d = rangeJob d (toU8 (atoi arg1)) (perfJobOf arg2 arg3 extra) := by
    rw [Command.readJob, hrequest, Option.bind_some]
  have haddressed : c.addressed d = pedDiskGetPartition d.table (toU8 (atoi arg1)) := by
    rw [Command.addressed, hrequest, Option.bind_some]
  rw [heq, Command.writeJob, haddressed, hread]
  split_ifs with hkind
  · refine (returns_openPartition returns_nvmeCheckNameSafety).starts_bind ?_
    cases pedDiskGetPartition d.table (toU8 (atoi arg1)) with
    | none => exact hrefused _ _
    | some part =>
      rw [Option.elim_some, Option.bind_some]
      by_cases haesd : part.isAesd = true
      · rw [if_pos haesd, if_neg (by decide), if_neg (by decide), if_pos haesd]
        exact starts_perfRange fd _
      · rw [if_neg haesd, if_pos rfl, if_neg haesd]
        exact hrefused _ _
  · exact starts_perfRange fd _

/-- The four handlers agree. For every table and every arguments there is one job, or none, that
both reads start, whatever is in `perfJob` before, and one that both writes start: the same, if the
partition addressed has an `AESD` name, and none otherwise. -/
theorem perfHandlers_agree (d : Device) (c : Command) :
    ∃ readJob writeJob : Option PerfJobInfo,
      (∀ fd perfJob,
        Starts d (perfCommand fd .seqRead c perfJob) .seqRead readJob ∧
        Starts d (perfCommand fd .randRead c perfJob) .randRead readJob ∧
        Starts d (perfCommand fd .seqWrite c perfJob) .seqWrite writeJob ∧
        Starts d (perfCommand fd .randWrite c perfJob) .randWrite writeJob) ∧
      ∀ job, writeJob = some job ↔
        readJob = some job ∧ ∃ part, c.addressed d = some part ∧ part.isAesd = true := by
  refine ⟨c.readJob d, c.writeJob d, ?_, ?_⟩
  · intro fd perfJob
    exact ⟨starts_perfCommand fd c perfJob, starts_perfCommand fd c perfJob,
      starts_perfCommand fd c perfJob, starts_perfCommand fd c perfJob⟩
  · intro job
    simp only [Command.writeJob, Option.bind_eq_some_iff, Option.ite_none_right_eq_some]
    constructor
    · rintro ⟨part, hpart, haesd, hjob⟩
      exact ⟨hjob, part, hpart, haesd⟩
    · rintro ⟨hjob, part, hpart, haesd⟩
      exact ⟨part, hpart, haesd, hjob⟩

/-- For `1 0 5 100` the job is the one on the first six sectors of the partition. -/
theorem perfHandlers_agree_seqWriteSix : ∃ readJob writeJob : Option PerfJobInfo,
    (∀ fd perfJob,
      Starts (aesdAt { start := 2048, end_ := 2057 }) (perfCommand fd .seqRead seqWriteSix perfJob)
        .seqRead readJob ∧
      Starts (aesdAt { start := 2048, end_ := 2057 }) (perfCommand fd .seqWrite seqWriteSix perfJob)
        .seqWrite writeJob) ∧
    readJob = some ⟨⟨2048, 2053⟩, 100⟩ ∧ writeJob = some ⟨⟨2048, 2053⟩, 100⟩ := by
  obtain ⟨readJob, writeJob, hstarts, hagree⟩ :=
    perfHandlers_agree (aesdAt { start := 2048, end_ := 2057 }) seqWriteSix
  have hread : readJob = some ⟨⟨2048, 2053⟩, 100⟩ :=
    ((hstarts 4 ⟨⟨0, 0⟩, 0⟩).1.unique (starts_perfCommand 4 seqWriteSix ⟨⟨0, 0⟩, 0⟩)).trans
      (by decide)
  have haddressed : seqWriteSix.addressed (aesdAt { start := 2048, end_ := 2057 }) =
      some ⟨1, str "AESD Part 1", { start := 2048, end_ := 2057 }⟩ := by decide
  have hwrite := (hagree _).mpr ⟨hread, _, haddressed, by decide⟩
  exact ⟨readJob, writeJob, fun fd perfJob => ⟨(hstarts fd perfJob).1, (hstarts fd perfJob).2.2.1⟩,
    hread, hwrite⟩

end Aesd
