import Aesd.Server.PerfWrite

/-!
# Checking and using a partition among other clients

A performance write reads the partition table four times, in `nvmeCheckNameSafetyPartNumber`,
`nvmeCheckLbaRangeInPart`, `nvmeGetStartLbaInPart` and `nvmeGetEndLbaInPart`, before it starts.
What the four reads say is followed by a protocol (`perfUse`): the entry that the name check saw
is the one all later reads see. Of the range check's failures the handler stops on
`NVME_STATUS_ERROR` only, so the protocol also counts the calls of `ped_device_get`: the second
one, in the range check, must not fail.
-/

namespace Aesd

open Effect CInt

/-- What a performance write has seen so far: how often it called `ped_device_get`, and the
addressed entry of the table, once it has read one. -/
structure PerfView where
  gets : ℕ := 0
  seen : Option (Option PedPartition) := none

/-- A write is started only on the `AESD` partition that was seen. All reads see the same, on a
disk of less than `2 ^ 32` sectors, and the second `ped_device_get` succeeds. -/
def perfUse (partNumber : ℤ) : Protocol SysOp Answer PerfView where
  pre g op := match op with
    | .perfStart _ job => ∃ part, g.seen = some (some part) ∧ job.lbaRange.Inside part
    | _                => True
  post g op r := match op, r with
    | .pedDeviceGet, none    => g.gets ≠ 1
    | .pedDiskNew, some disk => (∀ p ∈ disk, p.geom.end_ < 2 ^ 32) ∧
        ∀ entry, g.seen = some entry → pedDiskGetPartition disk partNumber = entry
    | _, _                   => True
  next g op r := match op, r with
    | .pedDeviceGet, _       => { g with gets := g.gets + 1 }
    | .pedDiskNew, some disk => { g with seen := some (pedDiskGetPartition disk partNumber) }
    | _, _                   => g

variable {α β : Type} {g : PerfView} {partNumber : ℤ} {Q : PerfView → α → Prop}

/-- A part that leaves the disk alone can be skipped. -/
lemma perfUse_quiet {p : Sys α} (hp : Quiet p) (hQ : ∀ a, Q g a) :
    p.Obeys (perfUse partNumber) g Q := by
  refine hp.obeys ?_ ?_ hQ
  · intro op hop
    cases op <;> trivial
  · intro op r hop
    cases op <;> first | rfl | exact hop.elim

/-- The rule for a function that looks the partition up: it fails, for a reason that the protocol
admits, or works on the entry that was seen before. -/
lemma perfUse_openPartition {fail : NvmeStatus → α} {body : PedDevice → PedPartition → Sys α}
    (hfail : ∀ rc g', rc = .error ∨ (rc = .notFound ∧ g.gets ≠ 1) ∨
      (rc = .partDne ∧ ∀ part, g.seen ≠ some (some part)) → Q g' (fail rc))
    (hbody : ∀ dev part, part.geom.end_ < 2 ^ 32 →
      (∀ entry, g.seen = some entry → entry = some part) →
      (body dev part).Obeys (perfUse partNumber) ⟨g.gets + 1, some (some part)⟩ Q) :
    (openPartition partNumber fail body).Obeys (perfUse partNumber) g Q := by
  simp only [openPartition, openDisk, Prog.perform_bind]
  refine ⟨trivial, fun dev hdev => ?_⟩
  cases dev with
  | none => exact hfail _ _ (Or.inr (Or.inl ⟨rfl, hdev⟩))
  | some dev =>
    refine ⟨trivial, fun opened _ => ?_⟩
    cases opened with
    | false => exact hfail _ _ (Or.inl rfl)
    | true =>
      refine ⟨trivial, fun disk hdisk => ?_⟩
      cases disk with
      | none => exact hfail _ _ (Or.inl rfl)
      | some disk =>
        obtain ⟨hsize, hseen⟩ := hdisk
        dsimp only [perfUse]
        cases hpart : pedDiskGetPartition disk partNumber with
        | none =>
          rw [hpart] at hseen
          refine Prog.obeys_bind.mpr (perfUse_quiet (quiet_printf _) fun _ => ?_)
          refine hfail _ _ (Or.inr (Or.inr ⟨rfl, fun part hpart' => ?_⟩))
          cases hseen _ hpart'
        | some part =>
          rw [hpart] at hseen
          exact hbody dev part (hsize part (mem_of_pedDiskGetPartition hpart).1)
            fun entry h => (hseen entry h).symm

lemma perfUse_redirected {fd : ℤ} {body : Sys α} (h : body.Obeys (perfUse partNumber) g Q) :
    (redirected fd body).Obeys (perfUse partNumber) g Q := by
  simp only [redirected, Prog.perform_bind]
  refine ⟨trivial, fun saved _ => ⟨trivial, fun _ _ => ?_⟩⟩
  exact Prog.obeys_bind.mpr (h.mono fun g' a hQ => ⟨trivial, fun _ _ => hQ⟩)

/-! ### The handler -/

/-- A range that passes the check on a disk of less than `2 ^ 32` sectors ends before sector
`2 ^ 32`. -/
lemma PerfJobInfo.Accepted.endlba_lt {job : PerfJobInfo} {part : PedPartition}
    (hjob : job.Accepted part) (hnonneg : 0 ≤ job.lbaRange.endlba)
    (hlt : job.lbaRange.endlba < 2 ^ 32) (hend : part.geom.end_ < 2 ^ 32) :
    part.geom.start + job.lbaRange.endlba < 2 ^ 32 := by
  obtain ⟨-, -, hbounds⟩ := hjob
  have hstart := part.geom.start_nonneg
  have hle := part.geom.start_le_end
  simp only [lbaRangeInBounds, Bool.and_eq_true, Bool.not_eq_true', decide_eq_false_iff_not]
    at hbounds
  obtain ⟨⟨-, hin⟩, -⟩ := hbounds
  rw [toI64_of_range (by omega) (by omega)] at hin
  omega

lemma perfUse_refused (fd : ℤ) (text : Text) (job : PerfJobInfo) :
    (do reply fd text; return job : Sys PerfJobInfo).Obeys (perfUse partNumber) g
      fun _ _ => True :=
  perfUse_quiet (quiet_then (quiet_reply fd text) job) fun _ => trivial

/-- The part of the handler after the name check. -/
lemma perfUse_perfRange {fd partToPerf : ℤ} {kind : PerfKind} {job : PerfJobInfo}
    {part : PedPartition} (haesd : part.isAesd = true) (hstart : 0 ≤ job.lbaRange.startlba)
    (hend : job.lbaRange.endlba < 2 ^ 32) :
    (perfRange fd kind partToPerf job).Obeys (perfUse (toU8 partToPerf)) ⟨1, some (some part)⟩
      fun _ _ => True := by
  unfold perfRange
  split_ifs with hbad
  · exact perfUse_refused fd _ _
  refine Prog.obeys_bind.mpr (perfUse_openPartition ?_ ?_)
  · -- what the handler lets through cannot happen: there is a device, and the entry was seen
    rintro rc g' (rfl | ⟨_, hget⟩ | ⟨_, hseen⟩)
    · exact perfUse_refused fd _ _
    · exact absurd rfl hget
    · exact absurd rfl (hseen part)
  intro dev part' hsize hsame
  obtain rfl : part = part' := by simpa using hsame _ rfl
  cases hbounds : lbaRangeInBounds part.geom job.lbaRange with
  | false => exact perfUse_refused fd _ _
  | true =>
    have hjob : job.Accepted part := ⟨by omega, by omega, hbounds⟩
    have hinside := hjob.inside hstart haesd (hjob.endlba_lt (by omega) hend hsize)
    -- `nvmeGetStartLbaInPart`
    refine Prog.obeys_bind.mpr (perfUse_openPartition ?_ ?_)
    · rintro rc g' (rfl | ⟨rfl, _⟩ | ⟨rfl, _⟩) <;> exact perfUse_refused fd _ _
    intro dev part' hsize hsame
    obtain rfl : part = part' := by simpa using hsame _ rfl
    -- `nvmeGetEndLbaInPart`
    refine Prog.obeys_bind.mpr (perfUse_openPartition ?_ ?_)
    · rintro rc g' (rfl | ⟨rfl, _⟩ | ⟨rfl, _⟩) <;> exact perfUse_refused fd _ _
    intro dev part' hsize hsame
    obtain rfl : part = part' := by simpa using hsame _ rfl
    refine Prog.obeys_bind.mpr (perfUse_quiet (quiet_reply fd _) fun _ => ?_)
    refine Prog.obeys_bind.mpr (perfUse_redirected ⟨⟨part, rfl, hinside⟩, fun texts _ => ?_⟩)
    refine perfUse_quiet (quiet_printAll texts) fun _ => ?_
    exact perfUse_quiet (quiet_then (quiet_printAll _) _) fun _ => trivial

/-- The number of the partition that a performance command addresses. -/
def Command.perfPart (c : Command) : ℤ := toU8 (atoi (c.arg1.getD []))

/-- `seq_write` and `rand_write` start a job only on the `AESD` partition that they saw, inside
it. -/
lemma perfUse_perfCommand (fd : ℤ) {kind : PerfKind} (hkind : kind.checksName = true)
    (c : Command) (perfJob : PerfJobInfo) :
    (perfCommand fd kind c perfJob).Obeys (perfUse c.perfPart) {} fun _ _ => True := by
  have hmissing : (perfCommand.missing fd perfJob).Obeys (perfUse c.perfPart) {}
      fun _ _ => True := perfUse_refused fd _ _
  obtain ⟨-, heq⟩ | ⟨arg1, arg2, arg3, extra, harg1, -, -, -, heq⟩ :=
    perfCommand_cases fd kind c perfJob
  · rwa [heq]
  have hnum : toU8 (atoi arg1) = c.perfPart := by rw [Command.perfPart, harg1, Option.getD_some]
  simp only [heq, hkind, if_true, nvmeCheckNameSafetyPartNumber, hnum]
  -- `nvmeCheckNameSafetyPartNumber`
  refine Prog.obeys_bind.mpr (perfUse_openPartition ?_ ?_)
  · rintro rc g' (rfl | ⟨rfl, _⟩ | ⟨rfl, _⟩) <;> exact perfUse_refused fd _ _
  intro dev part _ _
  refine Prog.obeys_bind.mpr (perfUse_quiet (quiet_printf _) fun _ => ?_)
  refine Prog.obeys_bind.mpr (perfUse_quiet (quiet_printf _) fun _ => ?_)
  cases haesd : part.isAesd with
  | false => exact perfUse_refused fd _ _
  | true =>
    rw [← hnum]
    exact perfUse_perfRange haesd (toU32_nonneg _) (toU32_lt _)

/-! ### Runs -/

variable {Tid : Type} [DecidableEq Tid]

/-- The call is `ped_device_get`. -/
def SysOp.isDeviceGet : SysOp → Bool
  | .pedDeviceGet => true
  | _             => false

/-- How often the thread has called `ped_device_get`. -/
def deviceGets (t : Tid) (tr : List (Event SysOp Answer Tid)) : ℕ :=
  tr.countP fun e => e.tid = t && e.op.isDeviceGet

/-- The thread has read the partition table. -/
def hasRead (t : Tid) (tr : List (Event SysOp Answer Tid)) : Bool :=
  tr.any fun e => match e with
    | ⟨u, .pedDiskNew, some _⟩ => u = t
    | _                        => false

/-- The partitions of a table lie on the device. -/
def OnDevice (dev : PedDevice) (disk : PedDisk) : Prop := ∀ p ∈ disk, p.geom.end_ < dev.length

instance (dev : PedDevice) (disk : PedDisk) : Decidable (OnDevice dev disk) :=
  inferInstanceAs (Decidable (∀ p ∈ disk, _))

/-- What is assumed of libparted: the partitions of a table that is committed lie on the
device. -/
def commitsOnDevice (s : Device) : Event SysOp Answer Tid → Bool
  | ⟨_, .pedDiskCommitToDev disk, true⟩ => OnDevice s.dev disk
  | _                                   => true

/-- The steps that do not come between the checks of thread `t₀` and their use: its second
`ped_device_get` does not fail, and once it has read the table nobody commits another entry for
the partition. -/
def undisturbed (t₀ : Tid) (partNumber : ℤ) (tr : List (Event SysOp Answer Tid)) (s : Device) :
    Event SysOp Answer Tid → Bool
  | ⟨t, .pedDeviceGet, none⟩            => t ≠ t₀ || deviceGets t₀ tr ≠ 1
  | ⟨_, .pedDiskCommitToDev disk, true⟩ => !hasRead t₀ tr ||
      pedDiskGetPartition disk partNumber = pedDiskGetPartition s.table partNumber
  | _                                   => true

/-- How the view of thread `t₀` and the device are related at the end of `tr`. -/
structure PerfTracks (t₀ : Tid) (partNumber : ℤ) (tr : List (Event SysOp Answer Tid))
    (s : Device) (g : PerfView) : Prop where
  small : s.dev.length < 2 ^ 32
  onDevice : OnDevice s.dev s.table
  gets : g.gets = deviceGets t₀ tr
  read : ∀ entry, g.seen = some entry → hasRead t₀ tr = true
  entry : ∀ entry, g.seen = some entry → pedDiskGetPartition s.table partNumber = entry

section Step

variable {t t₀ : Tid} {tr : List (Event SysOp Answer Tid)} {s s' : Device} {op : SysOp}
  {r : Answer op}

lemma hasRead_append {e : Event SysOp Answer Tid} (h : hasRead t₀ tr = true) :
    hasRead t₀ (tr ++ [e]) = true := by
  simp only [hasRead, List.any_append] at h ⊢
  rw [h, Bool.true_or]

/-- What an admitted step does to the table. -/
lemma PerfTracks.table (h : PerfTracks t₀ partNumber tr s g) (hexec : pedExec op s r s')
    (hcommit : commitsOnDevice s ⟨t, op, r⟩ = true)
    (hC : undisturbed t₀ partNumber tr s ⟨t, op, r⟩ = true) :
    OnDevice s'.dev s'.table ∧
      ∀ entry, g.seen = some entry → pedDiskGetPartition s'.table partNumber = entry := by
  rw [pedExec_dev hexec]
  rcases pedExec_table t hexec with htab | ⟨disk, he, htab⟩
  · rw [htab]
    exact ⟨h.onDevice, h.entry⟩
  · -- a commit does not move the entry that has been read
    rw [htab]
    rw [he] at hcommit hC
    refine ⟨of_decide_eq_true hcommit, fun entry hentry => ?_⟩
    simp only [undisturbed, h.read entry hentry, Bool.not_true, Bool.false_or,
      decide_eq_true_eq] at hC
    rw [hC]
    exact h.entry entry hentry

/-- A step of another thread. -/
lemma PerfTracks.other (h : PerfTracks t₀ partNumber tr s g) (ht : t ≠ t₀)
    (hexec : pedExec op s r s') (hcommit : commitsOnDevice s ⟨t, op, r⟩ = true)
    (hC : undisturbed t₀ partNumber tr s ⟨t, op, r⟩ = true) :
    PerfTracks t₀ partNumber (tr ++ [⟨t, op, r⟩]) s' g := by
  obtain ⟨htable, hentry⟩ := h.table hexec hcommit hC
  refine ⟨?_, htable, ?_, fun entry he => hasRead_append (h.read entry he), hentry⟩
  · rw [pedExec_dev hexec]
    exact h.small
  · rw [h.gets]
    simp [deviceGets, ht]

/-- A step of the thread itself. -/
lemma PerfTracks.self (h : PerfTracks t₀ partNumber tr s g)
    (hexec : pedExec op s r s') (hcommit : commitsOnDevice s ⟨t₀, op, r⟩ = true)
    (hC : undisturbed t₀ partNumber tr s ⟨t₀, op, r⟩ = true) :
    (perfUse partNumber).post g op r ∧
      PerfTracks t₀ partNumber (tr ++ [⟨t₀, op, r⟩]) s' ((perfUse partNumber).next g op r) := by
  obtain ⟨htable, hentry⟩ := h.table hexec hcommit hC
  have hsmall : s'.dev.length < 2 ^ 32 := by
    rw [pedExec_dev hexec]
    exact h.small
  have hread := fun entry he => hasRead_append (e := ⟨t₀, op, r⟩) (h.read entry he)
  have hgets : op.isDeviceGet = false → g.gets = deviceGets t₀ (tr ++ [⟨t₀, op, r⟩]) := by
    intro hop
    rw [h.gets]
    simp [deviceGets, hop]
  cases op with
  | pedDeviceGet =>
    refine ⟨?_, hsmall, htable, ?_, hread, hentry⟩
    · cases r with
      | none =>
        show g.gets ≠ 1
        simpa [undisturbed, ← h.gets] using hC
      | some dev => trivial
    · show g.gets + 1 = _
      simp [deviceGets, h.gets, SysOp.isDeviceGet]
  | pedDiskNew =>
    obtain ⟨rfl, rfl | rfl⟩ := hexec
    · exact ⟨trivial, hsmall, htable, hgets rfl, hread, hentry⟩
    · refine ⟨⟨fun p hp => lt_trans (htable p hp) hsmall, hentry⟩, hsmall, htable,
        hgets rfl, fun entry _ => ?_, fun entry he => Option.some.inj he⟩
      simp [hasRead]
  | _ => exact ⟨trivial, hsmall, htable, hgets rfl, hread, hentry⟩

end Step

/-- The session of a client that gives one performance command. -/
def perfSession (fd : ℤ) (kind : PerfKind) (cmd : Command) (perfJob : PerfJobInfo) : Sys Unit := do
  let _ ← perfCommand fd kind cmd perfJob

/-- One client's performance write among any other clients: unless they commit another entry for
the addressed partition after the write has read the table, or the `ped_device_get` of the range
check fails, the job is started on an `AESD` partition that is then in the table, inside it. -/
theorem perfWrite_checked {t₀ : Tid} {fd : ℤ} {kind kind' : PerfKind} {cmd : Command}
    {perfJob job : PerfJobInfo} {others : Tid → Sys Unit} {d : Device}
    {tr : List (Event SysOp Answer Tid)} {c : Config SysOp Answer Unit Device Tid}
    {next : List Text → Sys Unit} (hkind : kind.checksName = true)
    (hsmall : d.dev.length < 2 ^ 32) (hdev : OnDevice d.dev d.table)
    (run : Run pedExec
      (fun tr s e => commitsOnDevice s e = true ∧ undisturbed t₀ cmd.perfPart tr s e = true)
      ⟨d, Function.update others t₀ (perfSession fd kind cmd perfJob)⟩ tr c)
    (hcall : c.pool t₀ = .call (.perfStart kind' job) next) :
    ∃ part, pedDiskGetPartition c.state.table cmd.perfPart = some part ∧
      job.lbaRange.Inside part := by
  have hinv := run.invariant
    (fun t => if t = t₀ then perfUse cmd.perfPart else Prog.free) (fun _ _ _ => True)
    (fun tr s g => PerfTracks t₀ cmd.perfPart tr s (g t₀)) (fun _ => {})
    ⟨hsmall, hdev, rfl, (fun _ h => by cases h), (fun _ h => by cases h)⟩ ?_ ?_
  · -- the thread is about to start the job
    obtain ⟨g, htracks, hobeys⟩ := hinv
    have ht₀ := hobeys t₀
    rw [hcall, if_pos rfl] at ht₀
    obtain ⟨part, hseen, hinside⟩ := ht₀.1
    exact ⟨part, htracks.entry _ hseen, hinside⟩
  · -- the thread keeps to its protocol, and the others are free
    intro t
    by_cases ht : t = t₀
    · subst ht
      simp only [Function.update_self, if_true]
      exact Prog.obeys_bind.mpr
        ((perfUse_perfCommand fd hkind cmd perfJob).mono fun _ _ _ => trivial)
    · simp only [Function.update_of_ne ht, if_neg ht]
      exact Prog.obeys_free _ _
  · rintro tr s g t op r s' htracks - ⟨hcommit, hC⟩ hexec
    by_cases ht : t = t₀
    · subst ht
      simp only [if_true, Function.update_self]
      exact htracks.self hexec hcommit hC
    · simp only [if_neg ht, Function.update_of_ne (Ne.symm ht)]
      exact ⟨trivial, htracks.other ht hexec hcommit hC⟩

/-! ### Two runs -/

/-- The job that the program is about to start. -/
def nextJob : Sys α → Option (PerfKind × PerfJobInfo)
  | .call (.perfStart kind job) _ => some (kind, job)
  | _                             => none

lemma eq_call_of_nextJob {p : Sys α} {kind : PerfKind} {job : PerfJobInfo}
    (h : nextJob p = some (kind, job)) : ∃ next, p = .call (.perfStart kind job) next := by
  cases p with
  | ret a => cases h
  | call op k =>
    cases op with
    | perfStart kind' job' =>
      cases h
      exact ⟨k, rfl⟩
    | _ => cases h

/-- One client starts `sw 1 0 5 100` on the partition at sectors 10 to 19, the other gives
`mkpart 5`. -/
def perfAndMkpart : Config SysOp Answer Unit Device Bool where
  state := aesdAt (between 10 19)
  pool := Function.update
    (fun _ => serve 5 [({ cmd := str "mkpart", arg1 := str "5" }, fun _ => 0)] ⟨⟨0, 0⟩, 0⟩) true
    (perfSession 4 .seqWrite seqWriteSix ⟨⟨0, 0⟩, 0⟩)

/-- `mkpart` runs from start to end between the name check and the range check. -/
def mkpartInBetween : List (Bool × Outcome) :=
  succeed true 5 ++ succeed false 12 ++ [(false, .place ⟨2, [], between 20 24⟩)] ++
  succeed false 5 ++ succeed true 12

theorem perfWrite_checked_mkpartInBetween :
    ∃ tr c next, Run pedExec (fun tr s e => commitsOnDevice s e = true ∧
        undisturbed true seqWriteSix.perfPart tr s e = true) perfAndMkpart tr c ∧
      c.pool true = .call (.perfStart .seqWrite ⟨⟨10, 15⟩, 100⟩) next ∧
      c.state.table.map (·.num) = [2, 1] ∧
      ∃ part, pedDiskGetPartition c.state.table seqWriteSix.perfPart = some part ∧
        LbaRange.Inside ⟨10, 15⟩ part := by
  obtain ⟨tr, c, run, htest⟩ := exists_run_of_play
    (fun tr s e => commitsOnDevice s e && undisturbed true seqWriteSix.perfPart tr s e)
    perfAndMkpart mkpartInBetween
    (fun x => nextJob (x.2.pool true) = some (.seqWrite, ⟨⟨10, 15⟩, 100⟩) &&
      x.2.state.table.map (·.num) = [2, 1]) pedRespond_exec
    (fun _ _ _ h => Bool.and_eq_true_iff.mp h) (by decide)
  simp only [Bool.and_eq_true, decide_eq_true_eq] at htest
  obtain ⟨hjob, htable⟩ := htest
  obtain ⟨next, hcall⟩ := eq_call_of_nextJob hjob
  exact ⟨tr, c, next, run, hcall, htable,
    perfWrite_checked rfl (by decide) (by decide) run hcall⟩

/-- `sw 1 0 1000 100`. -/
def seqWriteBeyond : Command := { seqWriteSix with arg3 := str "1000" }

/-- When the `ped_device_get` of the range check fails, a range of a thousand sectors is written
to a partition of ten. -/
theorem perfWrite_unchecked :
    (aesdAt (between 10 19)).dev.length < 2 ^ 32 ∧
    ∃ tr c next, Run pedExec (fun _ s e => commitsOnDevice s e = true)
        ⟨aesdAt (between 10 19),
          fun _ : Unit => perfSession 4 .seqWrite seqWriteBeyond ⟨⟨0, 0⟩, 0⟩⟩ tr c ∧
      c.pool () = .call (.perfStart .seqWrite ⟨⟨10, 1010⟩, 100⟩) next ∧
      ¬ ∃ part, pedDiskGetPartition c.state.table seqWriteBeyond.perfPart = some part ∧
        LbaRange.Inside ⟨10, 1010⟩ part := by
  refine ⟨by decide, ?_⟩
  obtain ⟨tr, c, run, htest⟩ := exists_run_of_play (fun _ s e => commitsOnDevice s e)
    ⟨aesdAt (between 10 19),
      fun _ : Unit => perfSession 4 .seqWrite seqWriteBeyond ⟨⟨0, 0⟩, 0⟩⟩
    (succeed () 5 ++ [((), .failure)] ++ succeed () 9)
    (fun x => nextJob (x.2.pool ()) = some (.seqWrite, ⟨⟨10, 1010⟩, 100⟩) &&
      x.2.state.table = (aesdAt (between 10 19)).table) pedRespond_exec
    (fun _ _ _ h => h) (by decide)
  simp only [Bool.and_eq_true, decide_eq_true_eq] at htest
  obtain ⟨hjob, htable⟩ := htest
  obtain ⟨next, hcall⟩ := eq_call_of_nextJob hjob
  refine ⟨tr, c, next, run, hcall, ?_⟩
  rintro ⟨part, hpart, hinside⟩
  rw [htable] at hpart
  cases hpart
  revert hinside
  decide

end Aesd
