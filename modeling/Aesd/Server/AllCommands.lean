import Aesd.Server.Process
import Aesd.Server.FreeSpace
import Aesd.Server.SafeMode
import Aesd.Server.TableUpdate

/-!
# The disk under all commands

The performance writes are not guarded as the other commands are: between their name check and the
job the table may change, and the job works on sectors and not on a partition. But they change
nothing else, and so it can be said of every process, whatever its clients do, what becomes of the
table and of the partitions of others (`process_keeps`).
-/

namespace Aesd

open Effect CInt

variable {α β : Type}

/-! ### What any command may do -/

/-- The use of the table when any job may be started. -/
def anyJobs : Protocol SysOp Answer TableView :=
  { tableUse False with
    pre := fun g op => match op with
      | .perfStart _ _ => True
      | op             => (tableUse False).pre g op }

/-- The program keeps to it from whatever it has read before. -/
def Lawful (p : Sys α) : Prop := ∀ g, p.Obeys anyJobs g fun _ _ => True

/-- Calls that neither commit a table nor write to a partition. -/
def SysOp.Harmless : SysOp → Prop
  | .pedDiskCommitToDev _ | .pedGeometryWrite _ _ _ _ => False
  | _ => True

abbrev Harmless (p : Sys α) : Prop := p.Only SysOp.Harmless

lemma Lawful.bind {p : Sys α} {f : α → Sys β} (hp : Lawful p) (hf : ∀ a, Lawful (f a)) :
    Lawful (p >>= f) := fun g =>
  Prog.obeys_bind.mpr ((hp g).mono fun g' a _ => hf a g')

/-- A program that starts no performance write may use the table as before. -/
lemma lawful_of_disciplined {p : Sys α} (hp : Disciplined p) : Lawful p := by
  intro g
  replace hp := hp g
  induction p generalizing g with
  | ret a => trivial
  | call op k ih =>
    refine ⟨?_, fun r hr => ih r _ (hp.2 r hr)⟩
    have hpre := hp.1
    cases op with
    | perfStart kind job => trivial
    | _ => exact hpre

lemma lawful_of_harmless {p : Sys α} (hp : Harmless p) : Lawful p := by
  intro g
  induction p generalizing g with
  | ret a => trivial
  | call op k ih =>
    refine ⟨?_, fun r _ => ih r (hp.2 r) _⟩
    have hop := hp.1
    cases op with
    | pedDiskCommitToDev disk => exact hop.elim
    | pedGeometryWrite geom buffer offset count => exact hop.elim
    | pedDiskNew => exact False.elim
    | _ => trivial

lemma harmless_of_quiet {p : Sys α} (hp : Quiet p) : Harmless p := by
  refine Prog.Only.mono hp fun op hop => ?_
  cases op <;> trivial

lemma harmless_ret (a : α) : Harmless (.ret a : Sys α) := trivial

lemma harmless_ite {b : Prop} [Decidable b] {p q : Sys α} (hp : Harmless p) (hq : Harmless q) :
    Harmless (if b then p else q) := by
  split
  · exact hp
  · exact hq

lemma harmless_openPartition {partNumber : ℤ} {fail : NvmeStatus → α}
    {body : PedDevice → PedPartition → Sys α} (hbody : ∀ dev part, Harmless (body dev part)) :
    Harmless (openPartition partNumber fail body) := by
  refine only_openDisk trivial trivial trivial (fun _ => trivial) fun dev disk => ?_
  cases pedDiskGetPartition disk partNumber with
  | none => exact (harmless_of_quiet (quiet_printf _)).bind fun _ => trivial
  | some part => exact hbody dev part

lemma harmless_perfRange (clientFD : ℤ) (kind : PerfKind) (partToPerf : ℤ)
    (perfJob : PerfJobInfo) : Harmless (perfRange clientFD kind partToPerf perfJob) := by
  have hrefuse := fun text (job : PerfJobInfo) =>
    harmless_of_quiet (quiet_then (quiet_reply clientFD text) job)
  have hjob : ∀ job, Harmless (redirected clientFD (startJob kind job)) := fun job =>
    ⟨trivial, fun _ => ⟨trivial, fun _ => ⟨trivial, fun texts =>
      (harmless_of_quiet (quiet_printAll texts)).bind fun _ => ⟨trivial, fun _ => trivial⟩⟩⟩⟩
  unfold perfRange
  refine harmless_ite (hrefuse _ _) ?_
  refine (harmless_openPartition fun _ _ => harmless_ret _).bind fun rc => ?_
  refine harmless_ite (hrefuse _ _) ?_
  refine (harmless_openPartition fun _ _ => harmless_ret _).bind fun x => ?_
  refine harmless_ite (hrefuse _ _) ?_
  refine (harmless_openPartition fun _ _ => harmless_ret _).bind fun y => ?_
  refine harmless_ite (hrefuse _ _) ?_
  exact (harmless_of_quiet (quiet_reply _ _)).bind fun _ => (hjob _).bind fun _ =>
    (harmless_of_quiet (quiet_printAll _)).bind fun _ => trivial

/-- A performance command checks, and starts its job; it neither commits nor writes itself. -/
lemma harmless_perfCommand (clientFD : ℤ) (kind : PerfKind) (c : Command)
    (perfJob : PerfJobInfo) : Harmless (perfCommand clientFD kind c perfJob) := by
  have hrefuse := fun text (job : PerfJobInfo) =>
    harmless_of_quiet (quiet_then (quiet_reply clientFD text) job)
  obtain ⟨-, heq⟩ | ⟨arg1, arg2, arg3, extra, -, -, -, -, heq⟩ :=
    perfCommand_cases clientFD kind c perfJob
  · rw [heq]
    exact hrefuse _ _
  · rw [heq]
    refine harmless_ite ?_ (harmless_perfRange _ _ _ _)
    refine (harmless_openPartition fun _ part =>
      harmless_of_quiet (quiet_nvmeCheckNameSafety part)).bind fun rc => ?_
    exact harmless_ite (hrefuse _ _) (harmless_ite (hrefuse _ _) (harmless_perfRange _ _ _ _))

/-- Every command keeps to the protocol. -/
lemma lawful_dispatch (clientFD : ℤ) (past : ℕ → Byte) (c : Command) (perfJob : PerfJobInfo) :
    Lawful (dispatch clientFD past c perfJob) := by
  have hthen : ∀ {p : Sys Unit} (x : Bool × PerfJobInfo), Disciplined p →
      Lawful (do p; return x : Sys (Bool × PerfJobInfo)) :=
    fun x hp => lawful_of_disciplined (hp.bind fun _ => disciplined_ret x)
  rw [dispatch_eq]
  refine (lawful_of_disciplined (disciplined_of_quiet (quiet_printf _))).bind fun _ => ?_
  cases c.kind with
  | help => exact hthen _ (disciplined_of_quiet (quiet_sendCommandUsage clientFD))
  | status =>
    exact lawful_of_disciplined ((disciplined_of_quiet
      (quiet_redirected quiet_nvmeGetStatus)).bind fun _ => disciplined_ret _)
  | listparts => exact hthen _ (disciplined_listparts clientFD)
  | quit => exact lawful_of_disciplined (disciplined_ret _)
  | mkpart => exact hthen _ (disciplined_mkpart clientFD c)
  | rmpart => exact hthen _ (disciplined_rmpart clientFD c)
  | write => exact hthen _ (disciplined_write clientFD past c)
  | read => exact hthen _ (disciplined_read clientFD c)
  | perf kind =>
    exact (lawful_of_harmless (harmless_perfCommand clientFD kind c perfJob)).bind fun _ =>
      lawful_of_disciplined (disciplined_ret _)
  | unknown => exact lawful_of_disciplined (disciplined_ret _)

lemma lawful_repsondingThread (clientFD : ℤ) (cmds : Commands) :
    Lawful (repsondingThread clientFD cmds) := by
  have hserve : ∀ (cmds : Commands) x, Lawful (serveNext clientFD cmds x) := by
    intro cmds
    induction cmds with
    | nil =>
      rintro ⟨active, job⟩
      cases active <;> exact lawful_of_disciplined (disciplined_ret _)
    | cons y cmds ih =>
      rintro ⟨active, job⟩
      cases active with
      | false => exact lawful_of_disciplined (disciplined_ret _)
      | true => exact (lawful_dispatch clientFD y.2 y.1 job).bind ih
  have hgreeting : Quiet (greeting clientFD) :=
    ⟨trivial, fun _ => (quiet_sendCommandUsage clientFD).bind fun _ => trivial⟩
  exact (lawful_of_disciplined (disciplined_of_quiet hgreeting)).bind (hserve cmds)

/-! ### What becomes of the disk -/

/-- The call starts a job that may write to the sector `x`. -/
def SysOp.WritesJob (x : ℤ) : SysOp → Prop
  | .perfStart kind job =>
    kind.checksName = true ∧ job.lbaRange.startlba ≤ x ∧ x ≤ job.lbaRange.endlba
  | _                   => False

/-- A table without overlaps, in which the numbers are distinct and the protected partitions of
`init` are kept. -/
structure Sane (init disk : PedDisk) : Prop where
  apart : NonOverlapping disk
  nums : (disk.map (·.num)).Nodup
  keeps : Keeps init disk

variable {init disk disk' : PedDisk} {op : SysOp} {d d' : Device} {r : Answer op} {g : TableView}

lemma Sane.edit (h : Sane init disk) (hedit : TableEdit disk disk') : Sane init disk' :=
  ⟨h.apart.edit hedit, hedit.nums h.nums, h.keeps.edit hedit⟩

/-- What one call of a thread does to the table, and to the sectors of protected partitions. -/
lemma pedExec_sane (hview : Sane init g.view) (htable : Sane init d.table)
    (hpre : anyJobs.pre g op) (hexec : pedExec op d r d') :
    Sane init d'.table ∧ ∀ q ∈ init, q.Protected → ∀ x, q.geom.Has x →
      d'.sectors x = d.sectors x ∨ op.WritesJob x := by
  have htable' : Sane init d'.table := by
    rcases pedExec_table () hexec with heq | ⟨disk, hcommit, heq⟩
    · rwa [heq]
    · cases hcommit
      rw [heq]
      exact hview.edit hpre.1
  refine ⟨htable', fun q hq hprot x hx => ?_⟩
  by_cases hperf : ∃ kind job, op = .perfStart kind job ∧ kind.checksName = true
  · obtain ⟨kind, job, rfl, hkind⟩ := hperf
    by_cases hrange : job.lbaRange.startlba ≤ x ∧ x ≤ job.lbaRange.endlba
    · exact Or.inr ⟨hkind, hrange⟩
    · exact Or.inl (hexec.2.2 x fun h => hrange h.2)
  · have hpre' : (tableUse False).pre g op := by
      cases op with
      | perfStart kind job =>
        show kind.checksName = false
        rw [← Bool.not_eq_true]
        exact fun hkind => hperf ⟨kind, job, rfl, hkind⟩
      | _ => exact hpre
    exact Or.inl ((pedExec_keeps hview.keeps htable.keeps hpre' hexec).2 q hq hprot x hx)

/-- Any number of threads, with any commands. -/
lemma sane_of_run {Tid : Type} [DecidableEq Tid] {clientFD : Tid → ℤ} {cmds : Tid → Commands}
    {tr : List (Event SysOp Answer Tid)} {c : Config SysOp Answer Unit Device Tid}
    (hapart : NonOverlapping d.table) (hnums : (d.table.map (·.num)).Nodup)
    (run : Run pedExec anyStep ⟨d, fun t => repsondingThread (clientFD t) (cmds t)⟩ tr c) :
    Sane d.table c.state.table ∧ ∀ q ∈ d.table, q.Protected → ∀ x, q.geom.Has x →
      c.state.sectors x = d.sectors x ∨ ∃ e ∈ tr, e.op.WritesJob x := by
  have hinit : Sane d.table d.table := ⟨hapart, hnums, keeps_self hapart⟩
  have hinv := run.invariant (fun _ => anyJobs) (fun _ _ _ => True)
    (fun tr s g => (Sane d.table s.table ∧ ∀ q ∈ d.table, q.Protected → ∀ x, q.geom.Has x →
      s.sectors x = d.sectors x ∨ ∃ e ∈ tr, e.op.WritesJob x) ∧ ∀ t, Sane d.table (g t).view)
    (fun _ => { view := d.table })
    ⟨⟨hinit, fun _ _ _ _ _ => Or.inl rfl⟩, fun _ => hinit⟩
    (fun t => lawful_repsondingThread (clientFD t) (cmds t) _) ?_
  · obtain ⟨g, ⟨h, -⟩, -⟩ := hinv
    exact h
  · rintro tr s g t op r s' ⟨⟨htable, hsectors⟩, hviews⟩ hpre - hexec
    obtain ⟨htable', hsame⟩ := pedExec_sane (hviews t) htable hpre hexec
    refine ⟨tableUse_post (g := g t) hexec False.elim, ⟨htable', fun q hq hprot x hx => ?_⟩,
      fun u => ?_⟩
    · rcases hsame q hq hprot x hx with heq | hjob
      · rcases hsectors q hq hprot x hx with hsector | ⟨e, he, hjob⟩
        · exact Or.inl (heq.trans hsector)
        · exact Or.inr ⟨e, List.mem_append_left _ he, hjob⟩
      · exact Or.inr ⟨_, List.mem_append_right _ List.mem_cons_self, hjob⟩
    · by_cases hu : u = t
      · subst hu
        rw [Function.update_self]
        rcases @tableUse_view False (g u) op s s' r hexec with hview | hview
        · rw [show (anyJobs.next (g u) op r).view = (g u).view from hview]
          exact hviews u
        · rw [show (anyJobs.next (g u) op r).view = s.table from hview]
          exact htable
      · rw [Function.update_of_ne hu]
        exact hviews u

namespace AesdSocket

/-- Whatever connections come and go, whatever bytes the clients send and whatever calls fail: no
two partitions of the table overlap or have the same number, each partition of the initial table
whose name does not start with `AESD` is still there as it was, and where its contents have changed,
a performance write was started on a range of sectors that goes over it. -/
theorem process_keeps {events : List ProcessEvent} {p : AesdSocket}
    (hapart : NonOverlapping d.table)
    (hnums : (d.table.map (·.num)).Nodup) (run : Runs d events p) :
    NonOverlapping p.device.table ∧ (p.device.table.map (·.num)).Nodup ∧
      ∀ q ∈ d.table, q.isAesd = false → q ∈ p.device.table ∧ ∀ x, q.geom.Has x →
        p.device.sectors x = d.sectors x ∨ ∃ e ∈ calls events, e.op.WritesJob x := by
  have hrun := run.run (fun c => (p.server.node c).clientfd) (fun _ _ => rfl) fun _ => []
  obtain ⟨hsane, hsectors⟩ := sane_of_run hapart hnums hrun
  refine ⟨hsane.apart, hsane.nums, fun q hq hprot => ⟨(hsane.keeps q hq hprot).1, ?_⟩⟩
  exact hsectors q hq hprot

/-- One client deletes the only `AESD` partition, while another one connects. -/
theorem process_keeps_rmpart : ∃ events p, Runs foreignAndOwn events p ∧
    p.device.table.map (·.num) = [1] ∧
    ⟨1, str "boot", between 0 9⟩ ∈ p.device.table := by
  have hplays : (play rmpartSession ([], { device := foreignAndOwn })).any
      (fun x => x.2.device.table.map (·.num) = [1]) = true := by decide
  obtain ⟨⟨events, p⟩, hplay, htest⟩ := (Option.any_eq_true _ _).mp hplays
  have run : Runs foreignAndOwn events p := Runs.start.play hplay
  have hkept := process_keeps (by decide) (by decide) run
  exact ⟨events, p, run, by simpa using htest, (hkept.2.2 _ (by decide) (by decide)).1⟩

end AesdSocket

end Aesd
