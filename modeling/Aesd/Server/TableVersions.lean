import Aesd.Server.AllCommands
import Aesd.Lib.Versions

/-!
# The partition table as a store of versions

`mkpart` and `rmpart` read the table, edit the copy and write it back, and nothing tells a thread
that somebody else has committed in between. So in any process each table on the disk comes from
the initial one by some of the commits, one after the other, as if the others had never been made:
these are lost. If no other thread commits while a command is between reading and committing, none
is lost: every command reads the table again before it commits.
-/

namespace Aesd

open Effect CInt Versions

variable {Tid : Type} [DecidableEq Tid]

/-! ### Commits -/

/-- A commit that succeeds. -/
def isCommit : Event SysOp Answer Tid → Bool
  | ⟨_, .pedDiskCommitToDev _, true⟩ => true
  | _                                => false

/-- What a call changes, after the calls `before`: a commit makes a change to the table that its
thread has read last. -/
def changeOf (init : PedDisk) (before : List (Event SysOp Answer Tid)) :
    Event SysOp Answer Tid → List (PedDisk × PedDisk)
  | ⟨t, .pedDiskCommitToDev disk, true⟩ => [((lastRead t before).getD init, disk)]
  | _                                   => []

/-- The changes that calls make after those in `before`. -/
def changesFrom (init : PedDisk) :
    List (Event SysOp Answer Tid) → List (Event SysOp Answer Tid) → List (PedDisk × PedDisk)
  | _, []             => []
  | before, e :: rest => changeOf init before e ++ changesFrom init (before ++ [e]) rest

/-- All changes of the table that calls make: for each commit that succeeds, the table its thread
has read last, which is the initial one if it has read none, and the one it has written. -/
def changes (init : PedDisk) (tr : List (Event SysOp Answer Tid)) : List (PedDisk × PedDisk) :=
  changesFrom init [] tr

/-- Another thread has committed since thread `t` has read the table last, or since the beginning
if it never has. -/
def overtaken (t : Tid) (tr : List (Event SysOp Answer Tid)) : Bool :=
  tr.foldl (fun b e => match e with
    | ⟨u, .pedDiskNew, some _⟩         => b && decide (u ≠ t)
    | ⟨u, .pedDiskCommitToDev _, true⟩ => b || decide (u ≠ t)
    | _                                => b) false

/-- Nobody else commits between the reading and the commit of a thread. -/
def Undisturbed (tr : List (Event SysOp Answer Tid)) : Prop :=
  ∀ before e after, tr = before ++ e :: after → isCommit e = true → overtaken e.tid before = false

variable {init : PedDisk} {tr before : List (Event SysOp Answer Tid)} {t u : Tid} {op : SysOp}
  {r : Answer op} {d d' : Device} {e : Event SysOp Answer Tid}

lemma changesFrom_concat (init : PedDisk) (before tr : List (Event SysOp Answer Tid))
    (e : Event SysOp Answer Tid) :
    changesFrom init before (tr ++ [e]) =
      changesFrom init before tr ++ changeOf init (before ++ tr) e := by
  induction tr generalizing before with
  | nil => simp [changesFrom]
  | cons x tr ih => simp [changesFrom, ih]

lemma changes_concat (init : PedDisk) (tr : List (Event SysOp Answer Tid))
    (e : Event SysOp Answer Tid) :
    changes init (tr ++ [e]) = changes init tr ++ changeOf init tr e :=
  changesFrom_concat init [] tr e

lemma Undisturbed.of_concat (h : Undisturbed (tr ++ [e])) : Undisturbed tr := by
  rintro before x after rfl hcommit
  exact h before x (after ++ [e]) (by simp) hcommit

lemma Undisturbed.not_overtaken (h : Undisturbed (tr ++ [e])) (he : isCommit e = true) :
    overtaken e.tid tr = false :=
  h tr e [] rfl he

/-! ### Calls -/

/-- What a call does to the versions. -/
inductive VersionStep (init : PedDisk) (tr : List (Event SysOp Answer Tid)) (d : Device) :
    Event SysOp Answer Tid → Device → Prop where
  | commit (t : Tid) (disk : PedDisk) {d' : Device} (htable : d'.table = disk) :
      VersionStep init tr d ⟨t, .pedDiskCommitToDev disk, true⟩ d'
  | read (t : Tid) : VersionStep init tr d ⟨t, .pedDiskNew, some d.table⟩ d
  | other {e : Event SysOp Answer Tid} {d' : Device} (htable : d'.table = d.table)
      (hchange : changeOf init tr e = [])
      (hnext : ∀ g : TableView, anyJobs.next g e.op e.res = g)
      (hread : ∀ u, lastRead u (tr ++ [e]) = lastRead u tr)
      (hovertaken : ∀ u, overtaken u (tr ++ [e]) = overtaken u tr) : VersionStep init tr d e d'

lemma versionStep_of_exec (hexec : pedExec op d r d') :
    VersionStep init tr d ⟨t, op, r⟩ d' := by
  cases op with
  | pedDiskNew =>
    obtain ⟨rfl, rfl | rfl⟩ := hexec
    · exact .other rfl rfl (fun _ => rfl) (fun u => by simp [lastRead]) fun u => by
        simp [overtaken]
    · exact .read t
  | pedDiskCommitToDev disk =>
    rcases hexec with ⟨rfl, rfl⟩ | ⟨rfl, rfl⟩
    · exact .commit t disk rfl
    · exact .other rfl rfl (fun _ => rfl) (fun u => by simp [lastRead]) fun u => by
        simp [overtaken]
  | _ =>
    refine .other ?_ rfl (fun _ => rfl) (fun u => by simp [lastRead]) fun u => by
      simp [overtaken]
    rcases pedExec_table t hexec with htable | ⟨disk, heq, -⟩
    · exact htable
    · cases heq

lemma lastRead_commit (disk : PedDisk) (done : Bool) :
    lastRead u (tr ++ [⟨t, .pedDiskCommitToDev disk, done⟩]) = lastRead u tr := by
  simp [lastRead]

lemma overtaken_commit (disk : PedDisk) :
    overtaken u (tr ++ [⟨t, .pedDiskCommitToDev disk, true⟩]) =
      (overtaken u tr || decide (t ≠ u)) := by
  simp [overtaken]

lemma overtaken_read (disk : PedDisk) :
    overtaken u (tr ++ [⟨t, .pedDiskNew, some disk⟩]) = (overtaken u tr && decide (t ≠ u)) := by
  simp [overtaken]

/-! ### Runs -/

/-- The table has the versions that the changes have made, and the threads have read some of them.
A thread that has read it since its own last commit, and has not been overtaken, has read the last
one. -/
structure Versioned (init : PedDisk) (tr : List (Event SysOp Answer Tid)) (d : Device)
    (g : Tid → TableView) : Prop where
  grown : Grown init (changes init tr) d.table
  edits : ∀ x ∈ changes init tr, TableEdit x.1 x.2
  views : ∀ t, (g t).view = (lastRead t tr).getD init
  read : ∀ t, (lastRead t tr).getD init ∈ versions init (changes init tr)
  latest : ∀ t, (g t).committed = none → overtaken t tr = false →
    (lastRead t tr).getD init = d.table
  line : Undisturbed tr → Line init (changes init tr) d.table

lemma versioned_init (d : Device) :
    Versioned d.table ([] : List (Event SysOp Answer Tid)) d fun _ => { view := d.table } := by
  refine ⟨.start, ?_, fun _ => rfl, fun _ => List.mem_singleton_self _, fun _ _ _ => rfl,
    fun _ => rfl⟩
  intro x hx
  cases hx

variable {g : Tid → TableView}

/-- A commit is a change of what its thread has read; it overtakes all other threads. -/
lemma Versioned.commit (h : Versioned init tr d g) {disk : PedDisk}
    (hedit : TableEdit (g t).view disk) (hfirst : (g t).committed = none)
    (htable : d'.table = disk) :
    Versioned init (tr ++ [⟨t, .pedDiskCommitToDev disk, true⟩]) d'
      (Function.update g t { g t with committed := some ((g t).view, disk) }) := by
  have hchanges : changes init (tr ++ [⟨t, .pedDiskCommitToDev disk, true⟩]) =
      changes init tr ++ [((lastRead t tr).getD init, disk)] := changes_concat ..
  constructor
  case grown =>
    rw [hchanges, htable]
    exact h.grown.change (h.read t) disk
  case edits =>
    rw [hchanges]
    intro x hx
    rcases List.mem_append.mp hx with hx | hx
    · exact h.edits x hx
    · rw [List.mem_singleton.mp hx, ← h.views t]
      exact hedit
  case views =>
    intro u
    rw [lastRead_commit, ← h.views u]
    by_cases hu : u = t
    · rw [hu, Function.update_self]
    · rw [Function.update_of_ne hu]
  case read =>
    intro u
    rw [lastRead_commit, hchanges, versions_concat]
    exact List.mem_append_left _ (h.read u)
  case latest =>
    intro u hnone hovertaken
    by_cases hu : u = t
    · -- the thread has committed, so nothing is claimed of what it has read
      rw [hu, Function.update_self] at hnone
      cases hnone
    · -- any other thread has been overtaken
      rw [overtaken_commit, decide_eq_true (Ne.symm hu), Bool.or_true] at hovertaken
      cases hovertaken
  case line =>
    intro hall
    -- the thread has read the latest table, and its change is put behind the others
    rw [hchanges, htable, h.latest t hfirst (hall.not_overtaken rfl)]
    exact (h.line hall.of_concat).concat disk

/-- A thread that reads the table has the last version. -/
lemma Versioned.readTable (h : Versioned init tr d g) (t : Tid) :
    Versioned init (tr ++ [⟨t, .pedDiskNew, some d.table⟩]) d
      (Function.update g t { view := d.table }) := by
  have hchanges : changes init (tr ++ [⟨t, .pedDiskNew, some d.table⟩]) = changes init tr := by
    rw [changes_concat]
    exact List.append_nil _
  constructor
  case grown =>
    rw [hchanges]
    exact h.grown
  case edits =>
    rw [hchanges]
    exact h.edits
  case views =>
    intro u
    rw [lastRead_read]
    by_cases hu : u = t
    · rw [hu, Function.update_self, if_pos rfl]
      rfl
    · rw [Function.update_of_ne hu, if_neg (Ne.symm hu)]
      exact h.views u
  case read =>
    intro u
    rw [lastRead_read, hchanges]
    split_ifs with hu
    · exact h.grown.mem
    · exact h.read u
  case latest =>
    intro u hnone hovertaken
    rw [lastRead_read]
    split_ifs with htu
    · rfl
    · rw [Function.update_of_ne (Ne.symm htu)] at hnone
      rw [overtaken_read, decide_eq_true htu, Bool.and_true] at hovertaken
      exact h.latest u hnone hovertaken
  case line =>
    intro hall
    rw [hchanges]
    exact h.line hall.of_concat

/-- Other calls make no version and read none. -/
lemma Versioned.other (h : Versioned init tr d g) (htable : d'.table = d.table)
    (hchange : changeOf init tr e = []) (hread : ∀ u, lastRead u (tr ++ [e]) = lastRead u tr)
    (hovertaken : ∀ u, overtaken u (tr ++ [e]) = overtaken u tr) :
    Versioned init (tr ++ [e]) d' g := by
  have hchanges : changes init (tr ++ [e]) = changes init tr := by
    rw [changes_concat, hchange, List.append_nil]
  constructor
  case grown =>
    rw [hchanges, htable]
    exact h.grown
  case edits =>
    rw [hchanges]
    exact h.edits
  case views =>
    intro u
    rw [hread]
    exact h.views u
  case read =>
    intro u
    rw [hread, hchanges]
    exact h.read u
  case latest =>
    intro u hnone hnot
    rw [hovertaken] at hnot
    rw [hread, htable]
    exact h.latest u hnone hnot
  case line =>
    intro hall
    rw [hchanges, htable]
    exact h.line hall.of_concat

/-- One call of a thread that keeps to the protocol. -/
lemma Versioned.step (h : Versioned init tr d g) (hpre : anyJobs.pre (g t) op)
    (hexec : pedExec op d r d') :
    Versioned init (tr ++ [⟨t, op, r⟩]) d'
      (Function.update g t (anyJobs.next (g t) op r)) := by
  cases (versionStep_of_exec hexec : VersionStep init tr d ⟨t, op, r⟩ d') with
  | commit t disk htable => exact h.commit hpre.1 hpre.2 htable
  | read t => exact h.readTable t
  | other htable hchange hnext hread hovertaken =>
    rw [hnext, Function.update_eq_self]
    exact h.other htable hchange hread hovertaken

namespace AesdSocket

/-- The run rule for whole processes. -/
lemma Runs.versioned {events : List ProcessEvent} {p : AesdSocket} (run : Runs d events p) :
    ∃ g, Versioned d.table (calls events) p.device g := by
  have hrun := run.run (fun c => (p.server.node c).clientfd) (fun _ _ => rfl) fun _ => []
  have hinv := hrun.invariant (fun _ => anyJobs) (fun _ _ _ => True)
    (fun tr s g => Versioned d.table tr s g) (fun _ => { view := d.table }) (versioned_init d)
    (fun t => lawful_repsondingThread _ _ _) ?_
  · obtain ⟨g, hversioned, -⟩ := hinv
    exact ⟨g, hversioned⟩
  · rintro tr s g t op r s' hversioned hpre - hexec
    exact ⟨tableUse_post (g := g t) hexec False.elim, hversioned.step hpre hexec⟩

/-- Whatever connections come and go, whatever bytes the clients send and whatever calls fail: every
commit makes one edit to what its thread has read last, and the table is the initial one after some
of these changes, one after the other. So is every table that a thread has read. If no other thread
commits between the reading and the commit of a thread, no change is lost. -/
theorem process_serializes {events : List ProcessEvent} {p : AesdSocket} (run : Runs d events p) :
    (∀ x ∈ changes d.table (calls events), TableEdit x.1 x.2) ∧
      (∃ line, line.Sublist (changes d.table (calls events)) ∧
        Line d.table line p.device.table) ∧
      (∀ t disk, lastRead t (calls events) = some disk →
        ∃ line, line.Sublist (changes d.table (calls events)) ∧ Line d.table line disk) ∧
      (Undisturbed (calls events) →
        Line d.table (changes d.table (calls events)) p.device.table) := by
  obtain ⟨g, h⟩ := run.versioned
  refine ⟨h.edits, h.grown.exists_line h.grown.mem, ?_, h.line⟩
  intro t disk ht
  have hread := h.read t
  rw [ht] at hread
  exact h.grown.exists_line hread

/-- Two clients create a partition each. Both read the table before either commits. -/
def mkpartSessions : List Choice :=
  connect 0 4 ++ [.server .visit fun _ => 0, .server .endOfSweep fun _ => 0] ++ connect 1 5 ++
  message 0 (str "mkpart 5\n") ++ message 1 (str "mkpart 7\n") ++
  succeeds 0 7 ++ succeeds 1 7 ++
  succeeds 0 5 ++ [.call 0 (.place ⟨2, [], between 20 24⟩)] ++ succeeds 0 3 ++
  succeeds 1 5 ++ [.call 1 (.place ⟨2, [], between 20 26⟩)] ++ succeeds 1 3

/-- There are two changes, but the table has only one partition more. -/
theorem process_serializes_mkpart : ∃ events p, Runs onePart events p ∧
    (changes onePart.table (calls events)).length = 2 ∧
    p.device.table.map (·.geom.end_) = [26, 19] ∧
    ∃ line, line.Sublist (changes onePart.table (calls events)) ∧
      Line onePart.table line p.device.table := by
  have hplays : (play mkpartSessions ([], { device := onePart })).any
      (fun x => decide ((changes onePart.table (calls x.1)).length = 2) &&
        decide (x.2.device.table.map (·.geom.end_) = [26, 19])) = true := by decide
  obtain ⟨⟨events, p⟩, hplay, htest⟩ := (Option.any_eq_true _ _).mp hplays
  rw [Bool.and_eq_true, decide_eq_true_eq, decide_eq_true_eq] at htest
  have run : Runs onePart events p := Runs.start.play hplay
  exact ⟨events, p, run, htest.1, htest.2, (process_serializes run).2.1⟩

end AesdSocket

end Aesd
