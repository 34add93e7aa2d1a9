import Aesd.Server.Acts
import Aesd.Server.PerfHandlers

/-!
# Partition numbers

`rmpart`, `write` and `read` look up the partition that has the number the client has given. The
performance commands pass the number on as an `uint8_t`, and look up what is left of it.
-/

namespace Aesd

open Effect CInt

/-- The kinds of commands whose first argument is the number of a partition. -/
def CommandKind.NamesPartition : CommandKind → Prop
  | .rmpart | .write | .read | .perf _ => True
  | _ => False

/-- A command does what it is to do. Whatever fails, it gets to no calls that work on the disk but
the ones intended. A command without a range check can get to all of them; a performance command
starts its job, or none, when no call to libparted fails. -/
structure Follows (d : Device) (c : Command) (run : Sys (Bool × PerfJobInfo))
    (Intended : SysOp → Prop) (job : PerfKind → Option PerfJobInfo) : Prop where
  calls : ∀ op : SysOp, op.Acts → (∃ d', run.Calls pedExec d op d') → Intended op
  reached : (∀ kind, c.kind ≠ .perf kind) → ∀ op : SysOp, op.Acts → Intended op →
    ∃ d', run.Calls pedExec d op d'
  starts : ∀ kind, c.kind = .perf kind → Starts d run kind (job kind)

/-- The device without the partitions that have another number. -/
def Device.onlyPart (d : Device) (num : ℤ) : Device :=
  { d with table := d.table.filter fun part => part.num = num }

/-- Partitions with other numbers have no say in whether the program gets to a call that works on
the disk. -/
def OnlyNamed {α : Type} (d : Device) (num : ℤ) (run : Sys α) : Prop :=
  (∃ op : SysOp, op.Acts ∧ ∃ d', run.Calls pedExec d op d') ↔
    ∃ op : SysOp, op.Acts ∧ ∃ d', run.Calls pedExec (d.onlyPart num) op d'

/-- The job that a performance command starts, if its checks are made against the partition with the
number `num`, and all pass. -/
def Command.jobOn (c : Command) (disk : PedDisk) (num : ℤ) (kind : PerfKind) :
    Option PerfJobInfo := do
  let job ← c.job atoi
  let part ← pedDiskGetPartition disk num
  if (kind.checksName = true → part.isAesd = true) ∧ job.Accepted part then
    some (job.shift (toU64 part.geom.start))
  else
    none

/-- Every command for the partition that a client names by `arg1` is for the partition with this
number: it works on this partition, within this partition if it has a range, and on none if there is
no such partition. No other partition has a say in it. -/
def NumberKept (d : Device) (arg1 : Text) : Prop :=
  ∀ (fd : ℤ) (past : ℕ → Byte) (c : Command) (perfJob : PerfJobInfo), c.arg1 = some arg1 →
    c.kind.NamesPartition →
    Follows d c (dispatch fd past c perfJob)
        (fun op => ∃ part, pedDiskGetPartition d.table (atoi arg1) = some part ∧
          c.ActsOn atoi d past part op)
        (c.jobOn d.table (atoi arg1)) ∧
      OnlyNamed d (atoi arg1) (dispatch fd past c perfJob)

variable {d : Device} {c : Command} {past : ℕ → Byte} {op : SysOp} {kind : PerfKind} {arg1 : Text}
  {num num' : ℤ} {fd : ℤ} {perfJob : PerfJobInfo}

/-! ### Jobs -/

lemma perfRequest_eq (harg1 : c.arg1 = some arg1) :
    c.perfRequest = (c.job atoi).map (Prod.mk (atoi arg1)) := by
  rw [Command.perfRequest, Command.job, harg1]
  cases c.arg2 with
  | none => rfl
  | some arg2 =>
    cases c.arg3 with
    | none => rfl
    | some arg3 =>
      cases c.extra with
      | none => rfl
      | some extra => rfl

/-- The job that a client's performance command starts. -/
lemma starts_dispatch (hkind : c.kind = .perf kind) : Starts d (dispatch fd past c perfJob) kind
    (c.arg1.bind fun arg1 => c.jobOn d.table (toU8 (atoi arg1)) kind) := by
  have hjob : (if kind.checksName then c.writeJob d else c.readJob d) =
      c.arg1.bind fun arg1 => c.jobOn d.table (toU8 (atoi arg1)) kind := by
    rw [Command.writeJob, Command.addressed, Command.readJob]
    cases harg1 : c.arg1 with
    | none => simp [Command.perfRequest_eq_none (Or.inl harg1)]
    | some arg1 =>
      rw [perfRequest_eq harg1, Option.bind_some, Command.jobOn]
      cases c.job atoi with
      | none => simp
      | some job =>
        simp only [Option.map_some, Option.bind_some, rangeJob]
        cases pedDiskGetPartition d.table (toU8 (atoi arg1)) with
        | none => simp
        | some part =>
          cases hname : kind.checksName with
          | false => simp
          | true =>
            by_cases haesd : part.isAesd = true
            · simp [haesd]
            · simp [haesd]
  rw [← hjob, dispatch_eq, hkind]
  exact (returns_printf _).starts_bind (starts_perfCommand fd c perfJob).map

/-! ### The rest of the table -/

lemma lookup_onlyPart (d : Device) (num num' : ℤ) :
    pedDiskGetPartition (d.onlyPart num).table num' =
      if num' = num then pedDiskGetPartition d.table num' else none := by
  rw [pedDiskGetPartition, Device.onlyPart, List.find?_filter]
  split_ifs with heq
  · subst heq
    simp [pedDiskGetPartition]
  · rw [List.find?_eq_none]
    intro part _
    simp only [decide_eq_true_eq, not_and]
    rintro rfl heq'
    exact heq heq'.symm

/-- The command has something to do with the partition. -/
def Command.Admits (d : Device) (past : ℕ → Byte) (c : Command) (part : PedPartition) : Prop :=
  ∃ op : SysOp, op.Acts ∧ c.ActsOn atoi d past part op

lemma admits_onlyPart {part : PedPartition} :
    c.Admits (d.onlyPart num) past part ↔ c.Admits d past part := by
  unfold Command.Admits Command.ActsOn
  cases c.kind with
  | rmpart =>
    -- the table that is committed is another one, but there is one
    constructor
    · rintro ⟨-, -, hpos, hname, -⟩
      exact ⟨.pedDiskDeletePartition d.table part, trivial, hpos, hname, Or.inl rfl⟩
    · rintro ⟨-, -, hpos, hname, -⟩
      exact ⟨.pedDiskDeletePartition (d.onlyPart num).table part, trivial, hpos, hname,
        Or.inl rfl⟩
  | _ => exact Iff.rfl

lemma acts_named (hnames : c.kind.NamesPartition) (harg1 : c.arg1 = some arg1) (hop : op.Acts) :
    (∃ d', (dispatch fd past c perfJob).Calls pedExec d op d') ↔
      ∃ part, pedDiskGetPartition d.table (c.kind.passNumber (atoi arg1)) = some part ∧
        c.ActsOn atoi d past part op := by
  have hold : ¬ c.ActsNew atoi d op := by
    rintro ⟨hmkpart, -⟩
    rw [hmkpart] at hnames
    exact hnames
  rw [acts_dispatch hop, or_iff_right hold, harg1]
  simp

lemma exists_acts_named (hnames : c.kind.NamesPartition) (harg1 : c.arg1 = some arg1) :
    (∃ op : SysOp, op.Acts ∧ ∃ d', (dispatch fd past c perfJob).Calls pedExec d op d') ↔
      ∃ part, pedDiskGetPartition d.table (c.kind.passNumber (atoi arg1)) = some part ∧
        c.Admits d past part := by
  constructor
  · rintro ⟨op, hop, hcalls⟩
    obtain ⟨part, hpart, hacts⟩ := (acts_named hnames harg1 hop).mp hcalls
    exact ⟨part, hpart, op, hop, hacts⟩
  · rintro ⟨part, hpart, op, hop, hacts⟩
    exact ⟨op, hop, (acts_named hnames harg1 hop).mpr ⟨part, hpart, hacts⟩⟩

/-- Only the partition that the client names has a say, if and only if the partition that the
command gets to is the one. -/
lemma onlyNamed_iff (hnames : c.kind.NamesPartition) (harg1 : c.arg1 = some arg1) :
    OnlyNamed d (atoi arg1) (dispatch fd past c perfJob) ↔
      ∀ part, pedDiskGetPartition d.table (c.kind.passNumber (atoi arg1)) = some part →
        c.Admits d past part → c.kind.passNumber (atoi arg1) = atoi arg1 := by
  rw [OnlyNamed, exists_acts_named hnames harg1, exists_acts_named hnames harg1]
  simp only [lookup_onlyPart, admits_onlyPart]
  split_ifs with heq
  · exact iff_of_true Iff.rfl fun _ _ _ => heq
  · constructor
    · intro h part hpart hadmits
      obtain ⟨_, hnone, -⟩ := h.mp ⟨part, hpart, hadmits⟩
      cases hnone
    · intro h
      refine iff_of_false ?_ (by simp)
      rintro ⟨part, hpart, hadmits⟩
      exact heq (h part hpart hadmits)

/-! ### A command for the first sector -/

/-- The short name of a performance command. -/
def PerfKind.word : PerfKind → String
  | .seqWrite  => "sw"
  | .seqRead   => "sr"
  | .randWrite => "rw"
  | .randRead  => "rr"

/-- A performance command for the first sector of a partition. -/
def firstSector (kind : PerfKind) (arg1 : Text) : Command where
  cmd := str kind.word
  arg1 := arg1
  arg2 := str "0"
  arg3 := str "0"
  extra := str "0"

def firstSectorJob : PerfJobInfo := ⟨⟨0, 0⟩, 0⟩

lemma firstSector_arg1 (kind : PerfKind) (arg1 : Text) :
    (firstSector kind arg1).arg1 = some arg1 := rfl

lemma kind_firstSector (kind : PerfKind) (arg1 : Text) :
    (firstSector kind arg1).kind = .perf kind := by
  cases kind with
  | seqWrite => rfl
  | seqRead => rfl
  | randWrite => rfl
  | randRead => rfl

lemma job_firstSector (kind : PerfKind) (arg1 : Text) :
    (firstSector kind arg1).job atoi = some firstSectorJob := by
  have hzero : atoi (str "0") = 0 := by decide
  simp only [Command.job, firstSector, hzero, Option.bind_eq_bind, Option.bind_some]
  rfl

lemma accepted_firstSectorJob (part : PedPartition) : firstSectorJob.Accepted part := by
  have hnonneg := part.geom.start_nonneg
  have hordered := part.geom.start_le_end
  have hlt := part.geom.end_lt
  have hlength : part.geom.length = part.geom.end_ - part.geom.start + 1 := rfl
  have hstart : toI64 (0 + part.geom.start) = part.geom.start := by
    rw [toI64_of_range (by omega) (by omega), zero_add]
  have hsize : toU32 (0 - 0) = 0 := rfl
  refine ⟨le_rfl, le_rfl, ?_⟩
  simp only [lbaRangeInBounds, firstSectorJob, hstart, hsize, Bool.and_eq_true, Bool.not_eq_true',
    decide_eq_false_iff_not]
  have hlength64 := toU64_nonneg part.geom.length
  omega

lemma admits_firstSector (part : PedPartition) :
    (firstSector .seqRead arg1).Admits d past part := by
  refine ⟨.perfStart .seqRead (firstSectorJob.shift (toU64 part.geom.start)), trivial, ?_⟩
  rw [Command.ActsOn, kind_firstSector]
  refine ⟨?_, _, job_firstSector _ _, ⟨le_rfl, le_rfl⟩, rfl⟩
  intro hchecks
  cases hchecks

lemma jobOn_firstSector (disk : PedDisk) (num : ℤ) :
    (firstSector .seqRead arg1).jobOn disk num .seqRead =
      (pedDiskGetPartition disk num).map fun part =>
        firstSectorJob.shift (toU64 part.geom.start) := by
  rw [Command.jobOn, job_firstSector]
  cases pedDiskGetPartition disk num with
  | none => rfl
  | some part => exact if_pos ⟨nofun, accepted_firstSectorJob part⟩

/-! ### The condition -/

/-- The number a client gives means the same to all commands if and only if it finds the same
partition as what is left of it in eight bits, or neither finds one. -/
theorem numberKept_iff (d : Device) (arg1 : Text) : NumberKept d arg1 ↔
    pedDiskGetPartition d.table (toU8 (atoi arg1)) = pedDiskGetPartition d.table (atoi arg1) := by
  constructor
  · intro h
    have hkind := kind_firstSector .seqRead arg1
    obtain ⟨hfollows, honly⟩ := h 0 (fun _ => 0) (firstSector .seqRead arg1) firstSectorJob
      (firstSector_arg1 _ _) (by rw [hkind]; trivial)
    rw [onlyNamed_iff (by rw [hkind]; trivial) (firstSector_arg1 _ _), hkind] at honly
    cases hleft : pedDiskGetPartition d.table (toU8 (atoi arg1)) with
    | some part =>
      -- the partition found has a say, so it is the one
      have heq : toU8 (atoi arg1) = atoi arg1 := honly part hleft (admits_firstSector part)
      rw [← hleft, heq]
    | none =>
      have hjob := (hfollows.starts .seqRead hkind).unique (starts_dispatch hkind)
      rw [firstSector_arg1, Option.bind_some, jobOn_firstSector, jobOn_firstSector, hleft,
        Option.map_none, Option.map_eq_none_iff] at hjob
      exact hjob.symm
  · intro hsame fd past c perfJob harg1 hnames
    have hpass : pedDiskGetPartition d.table (c.kind.passNumber (atoi arg1)) =
        pedDiskGetPartition d.table (atoi arg1) := by
      cases c.kind with
      | perf kind => exact hsame
      | _ => rfl
    refine ⟨⟨fun op hop hcalls => ?_, fun _ op hop hintended => ?_, fun kind hkind => ?_⟩, ?_⟩
    · rwa [acts_named hnames harg1 hop, hpass] at hcalls
    · rwa [acts_named hnames harg1 hop, hpass]
    · have hjob : c.jobOn d.table (atoi arg1) kind =
          c.arg1.bind fun arg1 => c.jobOn d.table (toU8 (atoi arg1)) kind := by
        rw [harg1, Option.bind_some, Command.jobOn, Command.jobOn, hsame]
      rw [hjob]
      exact starts_dispatch hkind
    · rw [onlyNamed_iff hnames harg1]
      intro part hpart _
      have hpart' := hpass.symm.trans hpart
      rw [← (mem_of_pedDiskGetPartition hpart).2, ← (mem_of_pedDiskGetPartition hpart').2]

/-- `sw 257 0 0 0` writes to the partition with the number 1, if there is none with the number
257. -/
theorem not_numberKept_257 : ¬ NumberKept firstPart (str "257") := by
  intro h
  let c := firstSector .seqWrite (str "257")
  have hkind : c.kind = .perf .seqWrite := kind_firstSector _ _
  have hnames : c.kind.NamesPartition := by rw [hkind]; trivial
  have hacts : (SysOp.perfStart .seqWrite ⟨⟨10, 10⟩, 0⟩).Acts := trivial
  have hfirst : pedDiskGetPartition firstPart.table (toU8 (atoi (str "257"))) =
      some (aesdPart 1 (between 10 19)) := by decide
  have hnone : pedDiskGetPartition firstPart.table (atoi (str "257")) = none := by decide
  have hstarts : ∃ d', (dispatch 4 (fun _ => 0) c firstSectorJob).Calls pedExec firstPart
      (.perfStart .seqWrite ⟨⟨10, 10⟩, 0⟩) d' := by
    rw [acts_named hnames (firstSector_arg1 _ _) hacts, hkind]
    refine ⟨_, hfirst, ?_⟩
    rw [Command.ActsOn, hkind]
    exact ⟨fun _ => by decide, _, job_firstSector _ _, ⟨le_rfl, le_rfl⟩, rfl⟩
  obtain ⟨part, hpart, -⟩ :=
    (h 4 (fun _ => 0) c firstSectorJob (firstSector_arg1 _ _) hnames).1.calls _ hacts hstarts
  rw [hnone] at hpart
  cases hpart

end Aesd
