import Aesd.Server.TableUse

/-!
# The space a new partition is asked for

`nvmeCreatePartition` asks for the sectors behind the partition with the highest number. That is
the last partition of the disk only while numbers follow the order on the disk, and a number that
was freed is given to a partition at the end. For the same reason a request may be refused when
there is more room than before (`getsToPartitionNew_without_iff`).
-/

namespace Aesd

open Effect CInt

/-! ### The request -/

/-- The partition with the highest number, if there is one. -/
def lastPartition (disk : PedDisk) : Option PedPartition :=
  if pedDiskGetLastPartitionNum disk = -1 then none
  else pedDiskGetPartition disk (pedDiskGetLastPartitionNum disk)

lemma lastPartition_mem {disk : PedDisk} {last : PedPartition}
    (h : lastPartition disk = some last) : last ∈ disk := by
  rw [lastPartition] at h
  split_ifs at h
  exact (mem_of_pedDiskGetPartition h).1

variable {d d' : Device} {size start end_ : ℤ}

/-- What is asked for, and when. -/
lemma requestRegion_ok :
    requestRegion d.dev d.table size = some (.ok (start, end_)) ↔
      ∃ last, lastPartition d.table = some last ∧
        toI64 (last.geom.end_ + size) ≤ d.dev.length - 1 ∧
        start = toI64 (last.geom.end_ + 1) ∧ end_ = toI64 (last.geom.end_ + size) := by
  unfold requestRegion lastPartition
  simp only
  by_cases hnum : pedDiskGetLastPartitionNum d.table = -1
  · simp [hnum]
  simp only [hnum, if_false]
  cases pedDiskGetPartition d.table (pedDiskGetLastPartitionNum d.table) with
  | none => simp
  | some last =>
    have hend : toI64 (toI64 (toI64 (last.geom.end_ + 1) + size) - 1) =
        toI64 (last.geom.end_ + size) := by
      rw [toI64_add, Int.sub_eq_add_neg, toI64_add]
      congr 1
      omega
    simp only [hend, Option.some.injEq, exists_eq_left']
    by_cases hroom : toI64 (last.geom.end_ + size) ≤ d.dev.length - 1
    · simp [not_lt.mpr hroom, hroom, eq_comm]
    · simp [not_le.mp hroom, hroom]

lemma not_calls_nameAndCommit {disk : PedDisk} {part : PedPartition} {d₁ : Device} :
    ¬ (nameAndCommit disk part).Calls pedExec d₁ (.pedPartitionNew start end_) d' := by
  have honly : (nameAndCommit disk part).Only fun op => ∀ a b, op ≠ .pedPartitionNew a b := by
    refine ⟨nofun, fun _ => ?_⟩
    show Prog.Only _ (ite _ _ _)
    split_ifs
    · trivial
    · refine ⟨nofun, fun named => ⟨nofun, fun committed => ?_⟩⟩
      cases committed with
      | false => trivial
      | true =>
        refine ⟨nofun, fun synced => ?_⟩
        cases synced <;> trivial
  exact honly.not_calls fun h => h start end_ rfl

/-- `ped_partition_new` is called with the region of the request. -/
lemma calls_pedPartitionNew :
    (nvmeCreatePartition size).Calls pedExec d (.pedPartitionNew start end_) d' ↔
      requestRegion d.dev d.table size = some (.ok (start, end_)) ∧ d' = d := by
  have hfault : ¬ (fault : Sys (NvmeStatus × Option PedPartition)).Calls pedExec d
      (.pedPartitionNew start end_) d' := quiet_fault.not_calls id
  simp only [nvmeCreatePartition, openDisk, printModel, printf, Prog.perform_bind,
    Prog.calls_call, pedExec, reduceCtorEq, false_and, false_or, and_assoc, or_and_right, exists_or,
    exists_eq_left, Bool.exists_bool, Option.exists, Prog.calls_ret, Prog.pure_eq_ret, hfault,
    exists_const]
  cases hreq : requestRegion d.dev d.table size with
  | none => simp [hfault]
  | some res =>
    cases res with
    | error rc => simp
    | ok region =>
      constructor
      · rintro (⟨h, rfl⟩ | ⟨made, d₁, -, h⟩)
        · cases h
          exact ⟨rfl, rfl⟩
        · cases made with
          | false => exact h.elim
          | true =>
            obtain ⟨_, _, -, h'⟩ := Prog.Calls.of_ne h nofun
            obtain ⟨newPart, _, -, h''⟩ := Prog.Calls.of_ne h' nofun
            cases newPart with
            | none => exact h''.elim
            | some newPart => exact absurd h'' not_calls_nameAndCommit
      · rintro ⟨h, rfl⟩
        cases h
        exact Or.inl ⟨rfl, rfl⟩

/-! ### Runs of successful commands -/

/-- A new partition gets the lowest number that is not in use. -/
def lowestNumber : (op : SysOp) → Answer op → Bool
  | .pedDiskAddPartition disk _ _, some part =>
    (List.range' 1 (part.num.toNat - 1)).all fun n => disk.any fun q => q.num = n
  | _, _ => true

/-- libparted as far as the numbers and sectors of partitions go. -/
def pedExecLowest (op : SysOp) (d : Device) (r : Answer op) (d' : Device) : Prop :=
  pedExec op d r d' ∧ lowestNumber op r = true

/-- One successful `mkpart` or `rmpart`. -/
inductive MkRm : Device → Device → Prop where
  | mkpart {d d' : Device} {part : PedPartition} (size : ℤ) (hpos : 1 ≤ size)
      (hlt : size < 2 ^ 32)
      (h : (nvmeCreatePartition size).Eval pedExecLowest d (.ok, some part) d') : MkRm d d'
  | rmpart {d d' : Device} (partNumber : ℤ)
      (h : (nvmeDeletePartition partNumber).Eval pedExecLowest d .ok d') : MkRm d d'

/-- An edit of a table without overlaps has none. -/
lemma NonOverlapping.edit {disk disk' : PedDisk} (h : NonOverlapping disk)
    (hedit : TableEdit disk disk') : NonOverlapping disk' := by
  cases hedit with
  | create part name hpart =>
    refine List.pairwise_cons.mpr ⟨fun q hq => ?_, h⟩
    exact (hpart.2.2 q hq).2.symm
  | delete part _ _ => exact List.Pairwise.sublist List.erase_sublist h
  | rewrite => exact h

/-- Neither the table nor a thread's copy of it has overlaps. -/
def BothApart (d : Device) (g : TableView) : Prop :=
  NonOverlapping d.table ∧ NonOverlapping g.view

lemma BothApart.step {op : SysOp} {r : Answer op} {g : TableView} (h : BothApart d g)
    (hpre : (tableUse False).pre g op) (hexec : pedExec op d r d') :
    (tableUse False).post g op r ∧ BothApart d' ((tableUse False).next g op r) := by
  refine ⟨tableUse_post hexec False.elim, ?_, ?_⟩
  · rcases pedExec_table () hexec with htab | ⟨disk, he, htab⟩
    · rw [htab]
      exact h.1
    · cases he
      rw [htab]
      exact h.2.edit hpre.1
  · rcases tableUse_view hexec with hview | hview
    · rw [hview]
      exact h.2
    · rw [hview]
      exact h.1

lemma MkRm.nonOverlapping (h : MkRm d d') (hd : NonOverlapping d.table) :
    NonOverlapping d'.table := by
  have hstep : ∀ s g op r s', BothApart s g → (tableUse False).pre g op →
      pedExecLowest op s r s' →
      (tableUse False).post g op r ∧ BothApart s' ((tableUse False).next g op r) :=
    fun s g op r s' hI hpre hexec => hI.step hpre hexec.1
  have hinit : BothApart d { view := d.table } := ⟨hd, hd⟩
  cases h with
  | mkpart _ _ _ h =>
    obtain ⟨g, hI, -⟩ := (tableUse_nvmeCreatePartition _ False.elim).eval hstep hinit h
    exact hI.1
  | rmpart _ h =>
    obtain ⟨g, hI, -⟩ := (tableUse_nvmeDeletePartition _ False.elim).eval hstep hinit h
    exact hI.1

lemma nonOverlapping_of_run (run : Relation.ReflTransGen MkRm d d')
    (hd : NonOverlapping d.table) : NonOverlapping d'.table := by
  induction run with
  | refl => exact hd
  | tail _ h ih => exact h.nonOverlapping ih

/-! ### When the space asked for is free -/

/-- Every region that `nvmeCreatePartition` passes to `ped_partition_new` has `size` sectors, all
on the device and none in a partition. -/
def RequestsFreeSpace (d : Device) (size : ℤ) : Prop :=
  ∀ start end_ d', (nvmeCreatePartition size).Calls pedExec d (.pedPartitionNew start end_) d' →
    end_ - start + 1 = size ∧ 0 ≤ start ∧ end_ ≤ d'.dev.length - 1 ∧
      ∀ p ∈ d'.table, end_ < p.geom.start ∨ p.geom.end_ < start

/-- Unless the request is refused, no partition starts among the `size` sectors behind the
partition with the highest number, and those sectors can be numbered. -/
def FreeBehindLast (d : Device) (size : ℤ) : Prop :=
  ∀ last, lastPartition d.table = some last →
    toI64 (last.geom.end_ + size) ≤ d.dev.length - 1 →
    last.geom.end_ + size < 2 ^ 63 ∧
      ∀ p ∈ d.table, ¬ (last.geom.end_ < p.geom.start ∧ p.geom.start ≤ last.geom.end_ + size)

/-- After every run of successful `mkpart` and `rmpart` commands, a further `mkpart` asks for free
space exactly when no partition starts among the sectors right behind the one with the highest
number. -/
theorem requestsFreeSpace_iff {d₀ : Device} (hapart : NonOverlapping d₀.table)
    (run : Relation.ReflTransGen MkRm d₀ d) (hpos : 1 ≤ size) (hlt : size < 2 ^ 32) :
    RequestsFreeSpace d size ↔ FreeBehindLast d size := by
  have hd := nonOverlapping_of_run run hapart
  constructor
  · -- there is a request, so it is the one behind the last partition
    intro h last hlast hroom
    obtain ⟨hsize, hstart, -, hfree⟩ := h _ _ d (calls_pedPartitionNew.mpr
      ⟨requestRegion_ok.mpr ⟨last, hlast, hroom, rfl, rfl⟩, rfl⟩)
    have hnonneg := last.geom.start_nonneg
    have hle := last.geom.start_le_end
    have hend := last.geom.end_lt
    have hsum : last.geom.end_ + size < 2 ^ 63 := by
      simp only [toI64] at hsize hstart
      omega
    refine ⟨hsum, fun p hp => ?_⟩
    have hp' := hfree p hp
    rw [toI64_of_range (by omega) hsum, toI64_of_range (by omega) (by omega)] at hp'
    have := p.geom.start_le_end
    omega
  · intro h start end_ d' hcalls
    obtain ⟨hreq, rfl⟩ := calls_pedPartitionNew.mp hcalls
    obtain ⟨last, hlast, hroom, rfl, rfl⟩ := requestRegion_ok.mp hreq
    obtain ⟨hsum, hfree⟩ := h last hlast hroom
    have hnonneg := last.geom.start_nonneg
    have hle := last.geom.start_le_end
    rw [toI64_of_range (by omega) hsum] at hroom ⊢
    rw [toI64_of_range (by omega) (by omega)]
    refine ⟨by omega, by omega, hroom, fun p hp => ?_⟩
    by_cases hne : p = last
    · subst hne
      omega
    · -- any other partition lies before the last one, or behind what is requested
      have hp' := hfree p hp
      have hpl := hd.apart hp (lastPartition_mem hlast) hne
      rw [PedGeometry.Apart] at hpl
      omega

/-! ### Two runs -/

/-- Two partitions, numbered in the order they have on the disk. -/
def twoParts : Device :=
  diskWith [aesdPart 1 (between 10 19), aesdPart 2 (between 20 29)]

/-- `twoParts` after `rmpart 2`. -/
def firstPart : Device := diskWith [aesdPart 1 (between 10 19)]

/-- `twoParts` after `rmpart 1`. -/
def secondPart : Device := diskWith [aesdPart 2 (between 20 29)]

/-- `secondPart` after `mkpart 5`: the freed number goes to a partition behind number 2. -/
def renumbered : Device :=
  diskWith [aesdPart 1 (between 30 34), aesdPart 2 (between 20 29)]

/-- The answers of `pedRespond` in which a new partition has the lowest free number. -/
def pedRespondLowest (op : SysOp) (d : Device) (o : Outcome) : Option (Answer op × Device) :=
  (pedRespond op d o).filter fun x => lowestNumber op x.1

lemma pedRespondLowest_exec (op : SysOp) (d : Device) (o : Outcome) (r : Answer op) (d' : Device)
    (h : pedRespondLowest op d o = some (r, d')) : pedExecLowest op d r d' := by
  obtain ⟨hresp, hlow⟩ := Option.filter_eq_some_iff.mp h
  exact ⟨pedRespond_exec op d o r d' hresp, hlow⟩

lemma mkRm_rmpart_last : MkRm twoParts firstPart :=
  .rmpart 2
    (Prog.eval_of_run pedRespondLowest_exec (List.replicate 8 .success) rfl)

lemma mkRm_rmpart_first : MkRm twoParts secondPart :=
  .rmpart 1
    (Prog.eval_of_run pedRespondLowest_exec (List.replicate 8 .success) rfl)

lemma mkRm_mkpart : MkRm secondPart renumbered :=
  .mkpart 5 (by decide) (by decide)
    (Prog.eval_of_run pedRespondLowest_exec (List.replicate 10 .success ++
      [.place ⟨1, [], between 30 34⟩] ++ List.replicate 4 .success) rfl)

theorem requestsFreeSpace_firstPart :
    NonOverlapping twoParts.table ∧ Relation.ReflTransGen MkRm twoParts firstPart ∧
      RequestsFreeSpace firstPart 5 := by
  have run := Relation.ReflTransGen.single mkRm_rmpart_last
  refine ⟨by decide, run, (requestsFreeSpace_iff (by decide) run (by decide) (by decide)).mpr ?_⟩
  intro last hlast _
  cases hlast
  decide

/-- After `rmpart 1` and `mkpart 5` the next `mkpart 5` asks for the sectors of the partition just
made. -/
theorem requestsFreeSpace_fails :
    NonOverlapping twoParts.table ∧ Relation.ReflTransGen MkRm twoParts renumbered ∧
      ¬ RequestsFreeSpace renumbered 5 := by
  refine ⟨by decide, .tail (.single mkRm_rmpart_first) mkRm_mkpart, fun h => ?_⟩
  have hreq : requestRegion renumbered.dev renumbered.table 5 = some (.ok (30, 34)) :=
    requestRegion_ok.mpr ⟨aesdPart 2 (between 20 29), by decide, by decide, by decide, by decide⟩
  obtain ⟨-, -, -, hfree⟩ := h 30 34 renumbered (calls_pedPartitionNew.mpr ⟨hreq, rfl⟩)
  revert hfree
  decide

/-! ### Removing a partition -/

lemma find?_erase_of_ne {disk : PedDisk} {p : PedPartition} {P : PedPartition → Bool}
    (hne : disk.find? P ≠ some p) : (disk.erase p).find? P = disk.find? P := by
  induction disk with
  | nil => rfl
  | cons q disk ih =>
    rw [List.erase_cons]
    cases hq : P q with
    | true =>
      rw [List.find?_cons_of_pos hq] at hne ⊢
      have hqp : (q == p) = false := beq_false_of_ne fun h => hne (congrArg some h)
      rw [if_neg (by simp [hqp]), List.find?_cons_of_pos hq]
    | false =>
      rw [List.find?_cons_of_neg (by simp [hq])] at hne ⊢
      split_ifs with hqp
      · rfl
      · rw [List.find?_cons_of_neg (by simp [hq])]
        exact ih hne

lemma num_le_last {disk : PedDisk} {p : PedPartition} (hp : p ∈ disk) :
    p.num ≤ pedDiskGetLastPartitionNum disk := by
  induction disk with
  | nil => cases hp
  | cons q disk ih =>
    show p.num ≤ max q.num (pedDiskGetLastPartitionNum disk)
    rcases List.mem_cons.mp hp with rfl | hp
    · exact le_max_left _ _
    · exact (ih hp).trans (le_max_right _ _)

lemma last_mono {disk disk' : PedDisk} (h : disk.Sublist disk') :
    pedDiskGetLastPartitionNum disk ≤ pedDiskGetLastPartitionNum disk' := by
  induction h with
  | slnil => exact le_rfl
  | cons q _ ih => exact ih.trans (le_max_right _ _)
  | cons_cons q _ ih => exact max_le_max le_rfl ih

lemma neg_one_le_last (disk : PedDisk) : -1 ≤ pedDiskGetLastPartitionNum disk :=
  last_mono (List.nil_sublist disk)

/-- Removing another partition than the last one leaves the last one. -/
lemma lastPartition_erase {disk : PedDisk} {p : PedPartition} (hne : lastPartition disk ≠ some p) :
    lastPartition (disk.erase p) = lastPartition disk := by
  have hmono := last_mono (List.erase_sublist (a := p) (l := disk))
  have hbound := neg_one_le_last (disk.erase p)
  by_cases hlast : pedDiskGetLastPartitionNum disk = -1
  · rw [lastPartition, lastPartition, if_pos hlast, if_pos (by omega)]
  · rw [lastPartition, if_neg hlast] at hne
    have hfind := find?_erase_of_ne hne
    have hsome : (pedDiskGetPartition disk (pedDiskGetLastPartitionNum disk)).isSome = true := by
      obtain ⟨q, hq, hnum⟩ := exists_num_eq_last hlast
      exact List.find?_isSome.mpr ⟨q, hq, decide_eq_true hnum⟩
    obtain ⟨q, hq⟩ := Option.isSome_iff_exists.mp hsome
    obtain ⟨hmem, hnum⟩ := mem_of_pedDiskGetPartition (hfind.trans hq)
    have hle := num_le_last hmem
    have hsame : pedDiskGetLastPartitionNum (disk.erase p) = pedDiskGetLastPartitionNum disk := by
      omega
    rw [lastPartition, lastPartition, hsame, if_neg hlast, if_neg hlast]
    exact hfind

/-- `nvmeCreatePartition` gets as far as `ped_partition_new`. -/
def GetsToPartitionNew (d : Device) (size : ℤ) : Prop :=
  ∃ start end_ d', (nvmeCreatePartition size).Calls pedExec d (.pedPartitionNew start end_) d'

/-- The device without one of its partitions. -/
def Device.without (d : Device) (p : PedPartition) : Device :=
  { d with table := d.table.erase p }

/-- There is room behind the last partition. -/
lemma getsToPartitionNew_iff : GetsToPartitionNew d size ↔
    ∃ last, lastPartition d.table = some last ∧
      toI64 (last.geom.end_ + size) ≤ d.dev.length - 1 := by
  simp only [GetsToPartitionNew, calls_pedPartitionNew, requestRegion_ok]
  constructor
  · rintro ⟨_, _, _, ⟨last, hlast, hroom, -, -⟩, -⟩
    exact ⟨last, hlast, hroom⟩
  · rintro ⟨last, hlast, hroom⟩
    exact ⟨_, _, d, ⟨last, hlast, hroom, rfl, rfl⟩, rfl⟩

/-- A request that can be made can be made after a partition has been removed, exactly if that was
not the one with the highest number, or if there is room behind the one that then has it. -/
theorem getsToPartitionNew_without_iff {p : PedPartition} (hbefore : GetsToPartitionNew d size) :
    GetsToPartitionNew (d.without p) size ↔
      lastPartition d.table ≠ some p ∨
        ∃ last, lastPartition (d.table.erase p) = some last ∧
          toI64 (last.geom.end_ + size) ≤ d.dev.length - 1 := by
  rw [getsToPartitionNew_iff]
  constructor
  · exact Or.inr
  · rintro (hne | hroom)
    · rw [getsToPartitionNew_iff] at hbefore
      rw [Device.without, lastPartition_erase hne]
      exact hbefore
    · exact hroom

/-- Numbers in the order of the disk: the first of two partitions is removed. -/
theorem getsToPartitionNew_without_first :
    GetsToPartitionNew (twoParts.without (aesdPart 1 (between 10 19))) 5 :=
  (getsToPartitionNew_without_iff
    (getsToPartitionNew_iff.mpr ⟨aesdPart 2 (between 20 29), by decide, by decide⟩)).mpr
      (Or.inl (by decide))

/-- After the only partition has been removed a request is refused that could be made before. -/
theorem not_getsToPartitionNew_without_only :
    NonOverlapping firstPart.table ∧ aesdPart 1 (between 10 19) ∈ firstPart.table ∧
      (aesdPart 1 (between 10 19)).isAesd = true ∧ GetsToPartitionNew firstPart 5 ∧
      ¬ GetsToPartitionNew (firstPart.without (aesdPart 1 (between 10 19))) 5 := by
  refine ⟨by decide, by decide, by decide,
    getsToPartitionNew_iff.mpr ⟨aesdPart 1 (between 10 19), by decide, by decide⟩, ?_⟩
  rw [getsToPartitionNew_iff]
  rintro ⟨last, hlast, -⟩
  cases hlast

end Aesd
