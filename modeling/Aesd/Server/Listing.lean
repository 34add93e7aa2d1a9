import Aesd.Server.CreateDelete

/-!
# The listing of the partitions

`nvmeListPartitions` looks up the numbers from 1 to 15. The numbers of new partitions come from
libparted, which has up to 128 of them to give.
-/

namespace Aesd

open Effect CInt

/-! ### What is listed -/

/-- What a run prints. -/
def printedTexts (tr : List (Prog.Answered SysOp Answer)) : List Text :=
  tr.filterMap fun e => match e.1 with
    | .printf text => some text
    | _            => none

/-- The record of a partition: its number, name, length, start and end. -/
def partitionRecord (part : PedPartition) : List Text :=
  [str "part " ++ dec part.num ++ str " name: " ++ part.name ++ str "\n",
   str "\tSize: " ++ dec part.geom.length ++ str " Sectors\n",
   str "\tStart: " ++ dec part.geom.start ++ str " | End: " ++ dec part.geom.end_ ++ str "\n"]

/-- Whenever the listing succeeds, it prints the model of the device and one record for each of the
given partitions. -/
def Lists (d : Device) (listed : List PedPartition) : Prop :=
  ∀ tr d', nvmeListPartitions.EvalTrace pedExec d tr .ok d' →
    printedTexts tr = (str "Parted device name: " ++ d.dev.model ++ str "\n") ::
      listed.flatMap partitionRecord

/-- The partitions that `nvmeListPartitions` looks up. -/
def window (disk : PedDisk) : List PedPartition :=
  (List.range' 1 15).filterMap fun i : ℕ => pedDiskGetPartition disk i

/-- All partitions have numbers among them. -/
def InWindow (disk : PedDisk) : Prop := ∀ p ∈ disk, 1 ≤ p.num ∧ p.num ≤ 15

variable {d d' : Device} {disk : PedDisk} {p : PedPartition}

lemma partitionInfo_eq (i : ℕ) :
    partitionInfo disk i = (pedDiskGetPartition disk i).elim [] partitionRecord := by
  rw [partitionInfo]
  cases hpart : pedDiskGetPartition disk i with
  | none => rfl
  | some part => rw [← (mem_of_pedDiskGetPartition hpart).2]; rfl

lemma flatMap_partitionInfo (is : List ℕ) : is.flatMap (partitionInfo disk) =
    (is.filterMap fun i : ℕ => pedDiskGetPartition disk i).flatMap partitionRecord := by
  induction is with
  | nil => rfl
  | cons i is ih =>
    rw [List.flatMap_cons, ih, partitionInfo_eq, List.filterMap_cons]
    cases pedDiskGetPartition disk i with
    | none => rfl
    | some part => rfl

lemma printAll_trace {texts : List Text} {tr : List (Prog.Answered SysOp Answer)} {u : Unit}
    (h : (printAll texts).EvalTrace pedExec d tr u d') : printedTexts tr = texts := by
  induction texts generalizing d tr with
  | nil =>
    obtain ⟨rfl, -⟩ := h
    rfl
  | cons text texts ih =>
    change (printf text >>= fun _ => printAll texts).EvalTrace pedExec d tr u d' at h
    obtain ⟨_, _, _, _, rfl, ⟨_, _, _, rfl, -, rfl, -⟩, hrest⟩ := Prog.evalTrace_bind.mp h
    exact congrArg (text :: ·) (ih hrest)

lemma eval_printAll (d : Device) (texts : List Text) : (printAll texts).Eval pedExec d () d := by
  induction texts with
  | nil => exact ⟨rfl, rfl⟩
  | cons text texts ih => exact ⟨(), d, rfl, ih⟩

/-- The listing prints what it looks up. -/
lemma lists_window : Lists d (window d.table) := by
  intro tr d' h
  simp only [nvmeListPartitions, openDisk, Prog.perform_bind] at h
  obtain ⟨_, d₁, _, rfl, ⟨hget, rfl | rfl⟩, hmodel⟩ := h
  · exact absurd hmodel.2.1 (by simp)
  obtain ⟨_, _, _, d₂, rfl, ⟨_, _, _, rfl, hprint, rfl, -, rfl⟩, hopened⟩ :=
    Prog.evalTrace_bind.mp hmodel
  obtain ⟨opened, d₃, _, rfl, hopen, hread⟩ := hopened
  obtain rfl : d = d₃ := hget.symm.trans (Eq.trans (Eq.symm hprint) (Eq.symm hopen))
  cases opened with
  | false => exact absurd hread.2.1 (by simp)
  | true =>
  obtain ⟨_, _, _, rfl, ⟨-, rfl | rfl⟩, hlisted⟩ := hread
  · exact absurd hlisted.2.1 (by simp)
  obtain ⟨_, _, _, _, rfl, hall, rfl, -⟩ := Prog.evalTrace_bind.mp hlisted
  rw [window, ← flatMap_partitionInfo, ← printAll_trace hall, List.append_nil]
  rfl

/-- The listing can succeed. -/
lemma exists_listing (d : Device) : ∃ tr, nvmeListPartitions.EvalTrace pedExec d tr .ok d := by
  apply Prog.Eval.exists_trace
  simp only [nvmeListPartitions, openDisk, Prog.perform_bind]
  refine ⟨some d.dev, d, ⟨rfl, Or.inr rfl⟩, (), d, rfl, true, d, rfl, some d.table, d,
    ⟨rfl, Or.inr rfl⟩, ?_⟩
  exact Prog.eval_bind.mpr ⟨(), d, eval_printAll d _, rfl, rfl⟩

/-! ### The window -/

lemma pedDiskGetPartition_of_mem (hnodup : (disk.map PedPartition.num).Nodup) (hp : p ∈ disk) :
    pedDiskGetPartition disk p.num = some p := by
  cases hfound : pedDiskGetPartition disk p.num with
  | none =>
    rw [pedDiskGetPartition, List.find?_eq_none] at hfound
    exact absurd (decide_eq_true rfl) (hfound p hp)
  | some q =>
    obtain ⟨hq, hnum⟩ := mem_of_pedDiskGetPartition hfound
    rw [List.inj_on_of_nodup_map hnodup hq hp hnum]

lemma nodup_window : (window disk).Nodup := by
  refine List.Nodup.filterMap (fun i j q hi hj => ?_) List.nodup_range'
  have hnum := (mem_of_pedDiskGetPartition hi).2.symm.trans (mem_of_pedDiskGetPartition hj).2
  exact Int.ofNat_inj.mp hnum

lemma mem_window (hnodup : (disk.map PedPartition.num).Nodup) :
    p ∈ window disk ↔ p ∈ disk ∧ 1 ≤ p.num ∧ p.num ≤ 15 := by
  simp only [window, List.mem_filterMap, List.mem_range'_1]
  constructor
  · rintro ⟨i, hi, hfound⟩
    obtain ⟨hp, hnum⟩ := mem_of_pedDiskGetPartition hfound
    exact ⟨hp, by omega⟩
  · rintro ⟨hp, hlow, hhigh⟩
    refine ⟨p.num.toNat, by omega, ?_⟩
    rw [Int.toNat_of_nonneg (by omega)]
    exact pedDiskGetPartition_of_mem hnodup hp

/-- The window shows the whole table if all numbers are in it. -/
lemma window_perm_iff (hnodup : (disk.map PedPartition.num).Nodup) :
    (window disk).Perm disk ↔ InWindow disk := by
  rw [List.perm_ext_iff_of_nodup nodup_window (List.Nodup.of_map _ hnodup)]
  refine forall_congr' fun p => ?_
  rw [mem_window hnodup, and_iff_left_iff_imp]

lemma length_flatMap_partitionRecord (parts : List PedPartition) :
    (parts.flatMap partitionRecord).length = 3 * parts.length := by
  induction parts with
  | nil => rfl
  | cons part parts ih =>
    rw [List.flatMap_cons, List.length_append, ih, List.length_cons]
    change 3 + 3 * parts.length = _
    ring

/-- A listing of the whole table has no more records than the window. -/
lemma inWindow_of_lists (hnodup : (d.table.map PedPartition.num).Nodup)
    {listed : List PedPartition} (hperm : listed.Perm d.table) (h : Lists d listed) :
    InWindow d.table := by
  obtain ⟨tr, htr⟩ := exists_listing d
  have heq := (List.cons.inj ((h tr d htr).symm.trans (lists_window tr d htr))).2
  have hlength := congrArg List.length heq
  rw [length_flatMap_partitionRecord, length_flatMap_partitionRecord, hperm.length_eq] at hlength
  have hsub : window d.table ⊆ d.table := fun p hp => ((mem_window hnodup).mp hp).1
  rw [← window_perm_iff hnodup]
  exact (nodup_window.subperm hsub).perm_of_length_le (by omega)

/-! ### Runs of successful commands -/

/-- libparted on a disk with a GPT label: a new partition gets the lowest unused number, which is at
most 128. -/
def pedExecGpt (op : SysOp) (d : Device) (r : Answer op) (d' : Device) : Prop :=
  pedExecLowest op d r d' ∧ gptNumber op r = true

inductive TableCommand where
  | mkpart (size : ℤ)
  | rmpart (partNumber : ℤ)

/-- The disk, and the numbers that `mkpart` has reported and that were not removed since. -/
structure MkRmState where
  device : Device
  reported : List ℤ := []

/-- The states of a run of successful commands, each with the command that was given next, and the
last state. -/
inductive MkRmRun (d₀ : Device) : List (TableCommand × MkRmState) → MkRmState → Prop where
  | start : MkRmRun d₀ [] { device := d₀ }
  | mkpart {tr : List (TableCommand × MkRmState)} {s : MkRmState} {part : PedPartition}
      {d' : Device} (run : MkRmRun d₀ tr s) (size : ℤ) (hpos : 1 ≤ size) (hlt : size < 2 ^ 32)
      (h : (nvmeCreatePartition size).Eval pedExecGpt s.device (.ok, some part) d') :
      MkRmRun d₀ (tr ++ [(.mkpart size, s)]) ⟨d', toU8 part.num :: s.reported⟩
  | rmpart {tr : List (TableCommand × MkRmState)} {s : MkRmState} {d' : Device}
      (run : MkRmRun d₀ tr s) (partNumber : ℤ)
      (h : (nvmeDeletePartition partNumber).Eval pedExecGpt s.device .ok d') :
      MkRmRun d₀ (tr ++ [(.rmpart partNumber, s)]) ⟨d', s.reported.filter (· ≠ partNumber)⟩

/-- The listing has exactly one record for each partition of the table, none for others, and one for
each number that was reported and not removed. -/
def MkRmState.Visible (s : MkRmState) : Prop :=
  ∃ listed : List PedPartition, listed.Perm s.device.table ∧ Lists s.device listed ∧
    ∀ k ∈ s.reported, ∃ part ∈ listed, part.num = k

/-- The command is not a `mkpart`, or there are less than 15 partitions. -/
def LeavesRoom : TableCommand × MkRmState → Prop
  | (.mkpart _, s) => s.device.table.length < 15
  | (.rmpart _, _) => True

/-- Partitions have different numbers, and the reported numbers are in use. -/
structure MkRmState.Sound (s : MkRmState) : Prop where
  nodup : (s.device.table.map PedPartition.num).Nodup
  reported : ∀ k ∈ s.reported, ∃ part ∈ s.device.table, part.num = k

variable {s : MkRmState} {part : PedPartition} {size partNumber : ℤ}

lemma MkRmState.Sound.visible_iff_inWindow (h : s.Sound) :
    s.Visible ↔ InWindow s.device.table := by
  constructor
  · rintro ⟨listed, hperm, hlists, -⟩
    exact inWindow_of_lists h.nodup hperm hlists
  · intro hwindow
    have hperm := (window_perm_iff h.nodup).mpr hwindow
    refine ⟨window s.device.table, hperm, lists_window, fun k hk => ?_⟩
    obtain ⟨part, hpart, hnum⟩ := h.reported k hk
    exact ⟨part, hperm.symm.subset hpart, hnum⟩

/-- What a successful `mkpart` does to the table. -/
lemma table_mkpart (h : (nvmeCreatePartition size).Eval pedExecGpt d (.ok, some part) d') :
    d'.table = part :: d.table ∧ 0 < part.num ∧ part.num ≤ 128 ∧
      (∀ q ∈ d.table, q.num ≠ part.num) ∧
      ∀ n : ℕ, 1 ≤ n → n < part.num → ∃ q ∈ d.table, q.num = n := by
  obtain ⟨start, end_, new, named, added, hadd, -, hadded, heq, rfl⟩ :=
    eval_nvmeCreatePartition (fun _ _ _ _ hexec => hexec.1.1) h
  obtain rfl := Option.some.inj heq
  have hnum : part.num = new.num := by
    rw [hadded]
    split_ifs <;> rfl
  obtain ⟨⟨⟨-, hplaced⟩, hlowest⟩, hgpt⟩ := hadd
  obtain ⟨-, hpos, hfree⟩ := hplaced new rfl
  rw [hnum]
  refine ⟨rfl, hpos, of_decide_eq_true hgpt, fun q hq => (hfree q hq).1, fun n hn hlt => ?_⟩
  rw [lowestNumber, List.all_eq_true] at hlowest
  have hany := hlowest n (List.mem_range'_1.mpr ⟨hn, by omega⟩)
  simpa using hany

/-- A successful `rmpart` takes away one partition at most, the one with the number. -/
lemma table_rmpart (h : (nvmeDeletePartition partNumber).Eval pedExecGpt d .ok d') :
    d'.table.Sublist d.table ∧ ∀ q ∈ d.table, q.num ≠ partNumber → q ∈ d'.table := by
  obtain ⟨part, deleted, hpart, -, rfl⟩ :=
    eval_nvmeDeletePartition (fun _ _ _ _ hexec => hexec.1.1) h
  cases deleted with
  | false => exact ⟨List.Sublist.refl _, fun q hq _ => hq⟩
  | true =>
    refine ⟨List.erase_sublist, fun q hq hne => (List.mem_erase_of_ne ?_).mpr hq⟩
    rintro rfl
    exact hne (mem_of_pedDiskGetPartition hpart).2

lemma length_le_of_inWindow (hnodup : (disk.map PedPartition.num).Nodup) (h : InWindow disk) :
    disk.length ≤ 15 := by
  rw [← ((window_perm_iff hnodup).mpr h).length_eq]
  exact (List.length_filterMap_le _ _).trans (by simp)

/-- A table that has all numbers up to a bound has that many partitions. -/
lemma le_length_of_numbers {m : ℕ} (h : ∀ n : ℕ, 1 ≤ n → n < m + 1 → ∃ q ∈ disk, q.num = n) :
    m ≤ disk.length := by
  have hnodup : ((List.range' 1 m).map Nat.cast : List ℤ).Nodup :=
    List.Nodup.map Nat.cast_injective List.nodup_range'
  have hsub : ((List.range' 1 m).map Nat.cast : List ℤ) ⊆ disk.map PedPartition.num := by
    intro k hk
    obtain ⟨n, hn, rfl⟩ := List.mem_map.mp hk
    rw [List.mem_range'_1] at hn
    obtain ⟨q, hq, hnum⟩ := h n hn.1 (by omega)
    exact List.mem_map.mpr ⟨q, hq, hnum⟩
  simpa using (hnodup.subperm hsub).length_le

lemma MkRmState.Sound.mkpart (hs : s.Sound)
    (h : (nvmeCreatePartition size).Eval pedExecGpt s.device (.ok, some part) d') :
    MkRmState.Sound ⟨d', toU8 part.num :: s.reported⟩ := by
  obtain ⟨htable, hpos, hgpt, hfree, -⟩ := table_mkpart h
  constructor
  · rw [htable, List.map_cons, List.nodup_cons]
    refine ⟨fun hmem => ?_, hs.nodup⟩
    obtain ⟨q, hq, hnum⟩ := List.mem_map.mp hmem
    exact hfree q hq hnum
  · intro k hk
    rw [htable]
    rcases List.mem_cons.mp hk with rfl | hk
    · exact ⟨part, List.mem_cons_self,
        ((toU8_eq_self_iff hpos).mpr (hgpt.trans (by decide))).symm⟩
    · obtain ⟨q, hq, hnum⟩ := hs.reported k hk
      exact ⟨q, List.mem_cons_of_mem _ hq, hnum⟩

lemma MkRmState.Sound.rmpart (hs : s.Sound)
    (h : (nvmeDeletePartition partNumber).Eval pedExecGpt s.device .ok d') :
    MkRmState.Sound ⟨d', s.reported.filter (· ≠ partNumber)⟩ := by
  obtain ⟨hsublist, hkept⟩ := table_rmpart h
  constructor
  · exact hs.nodup.sublist (hsublist.map _)
  · intro k hk
    obtain ⟨hk, hne⟩ := List.mem_filter.mp hk
    obtain ⟨q, hq, rfl⟩ := hs.reported k hk
    exact ⟨q, hkept q hq (of_decide_eq_true hne), rfl⟩

lemma MkRmRun.sound {d₀ : Device} {tr : List (TableCommand × MkRmState)}
    (hnodup : (d₀.table.map PedPartition.num).Nodup) (run : MkRmRun d₀ tr s) : s.Sound := by
  induction run with
  | start => exact ⟨hnodup, nofun⟩
  | mkpart run size hpos hlt h ih => exact ih.mkpart h
  | rmpart run partNumber h ih => exact ih.rmpart h

/-- The new partition is in the window if the others leave room for it. -/
lemma inWindow_mkpart (hs : s.Sound) (hwindow : InWindow s.device.table)
    (h : (nvmeCreatePartition size).Eval pedExecGpt s.device (.ok, some part) d') :
    InWindow d'.table ↔ s.device.table.length < 15 := by
  obtain ⟨htable, hpos, -, -, hlowest⟩ := table_mkpart h
  constructor
  · intro hwindow'
    have hlength := length_le_of_inWindow (hs.mkpart h).nodup hwindow'
    simp only [htable, List.length_cons] at hlength
    exact hlength
  · intro hroom
    have hlength := le_length_of_numbers (m := part.num.toNat - 1) fun n hn hlt =>
      hlowest n hn (by omega)
    rw [htable]
    refine List.forall_mem_cons.mpr ⟨by omega, hwindow⟩

/-- Along a run of successful commands every listing shows the whole table, if and only if all
numbers of the table at the beginning are listed and every `mkpart` finds less than 15
partitions. -/
theorem visible_iff {d₀ : Device} {tr : List (TableCommand × MkRmState)}
    (hnodup : (d₀.table.map PedPartition.num).Nodup) (run : MkRmRun d₀ tr s) :
    ((∀ x ∈ tr, x.2.Visible) ∧ s.Visible) ↔ InWindow d₀.table ∧ ∀ x ∈ tr, LeavesRoom x := by
  induction run with
  | start =>
    have hstart : MkRmState.Sound { device := d₀ } := ⟨hnodup, nofun⟩
    simp [hstart.visible_iff_inWindow]
  | @mkpart tr s part d' run size hpos hlt h ih =>
    have hs := run.sound hnodup
    simp only [List.forall_mem_append, List.forall_mem_singleton]
    rw [ih, and_assoc]
    refine and_congr_right fun hwindow₀ => and_congr_right fun hroom => ?_
    have hwindow := hs.visible_iff_inWindow.mp (ih.mpr ⟨hwindow₀, hroom⟩).2
    rw [(hs.mkpart h).visible_iff_inWindow, inWindow_mkpart hs hwindow h]
    rfl
  | @rmpart tr s d' run partNumber h ih =>
    have hs := run.sound hnodup
    simp only [List.forall_mem_append, List.forall_mem_singleton]
    rw [ih, and_assoc]
    refine and_congr_right fun hwindow₀ => and_congr_right fun hroom => ?_
    have hwindow := hs.visible_iff_inWindow.mp (ih.mpr ⟨hwindow₀, hroom⟩).2
    rw [(hs.rmpart h).visible_iff_inWindow]
    exact iff_of_true (fun p hp => hwindow p ((table_rmpart h).1.subset hp)) trivial

/-- The answers of `pedRespondLowest` with numbers of a GPT label. -/
def pedRespondLabel (op : SysOp) (d : Device) (o : Outcome) : Option (Answer op × Device) :=
  (pedRespondLowest op d o).filter fun x => gptNumber op x.1

lemma pedRespondLabel_exec (op : SysOp) (d : Device) (o : Outcome) (r : Answer op) (d' : Device)
    (h : pedRespondLabel op d o = some (r, d')) : pedExecGpt op d r d' := by
  obtain ⟨hresp, hnum⟩ := Option.filter_eq_some_iff.mp h
  exact ⟨pedRespondLowest_exec op d o r d' hresp, hnum⟩

lemma eval_mkpart_five : (nvmeCreatePartition 5).Eval pedExecGpt singlePart
    (.ok, some (aesdPart 2 (between 20 24))) addedPart :=
  Prog.eval_of_run pedRespondLabel_exec (List.replicate 10 .success ++
    [.place ⟨2, [], between 20 24⟩] ++ List.replicate 4 .success) rfl

lemma eval_rmpart_two : (nvmeDeletePartition 2).Eval pedExecGpt addedPart .ok singlePart :=
  Prog.eval_of_run pedRespondLabel_exec (List.replicate 8 .success) rfl

theorem visible_mkpart_rmpart : ∃ tr s, MkRmRun singlePart tr s ∧ tr.length = 2 ∧
    (∀ x ∈ tr, x.2.Visible) ∧ s.Visible := by
  have run := MkRmRun.rmpart (.mkpart .start 5 (by decide) (by decide) eval_mkpart_five) 2
    eval_rmpart_two
  refine ⟨_, _, run, rfl, (visible_iff (by decide) run).mpr ⟨?_, ?_⟩⟩
  · intro p hp
    obtain rfl := List.mem_singleton.mp hp
    decide
  · simp [LeavesRoom]

/-- Fifteen partitions of one sector each. -/
def fifteenParts : Device :=
  diskWith ((List.range 15).map fun i : ℕ =>
    aesdPart (i + 1) (between (.ofNat (10 + i)) (.ofNat (10 + i))))

/-- `fifteenParts` with one more. -/
def sixteenParts : Device := diskWith (aesdPart 16 (between 25 29) :: fifteenParts.table)

lemma eval_mkpart_sixteenth : (nvmeCreatePartition 5).Eval pedExecGpt fifteenParts
    (.ok, some (aesdPart 16 (between 25 29))) sixteenParts :=
  Prog.eval_of_run pedRespondLabel_exec (List.replicate 10 .success ++
    [.place ⟨16, [], between 25 29⟩] ++ List.replicate 4 .success) rfl

/-- The sixteenth partition that is created is reported, but not listed. -/
theorem sixteenth_not_visible : (fifteenParts.table.map PedPartition.num).Nodup ∧
    ∃ tr s, MkRmRun fifteenParts tr s ∧ 16 ∈ s.reported ∧ ¬ s.Visible := by
  have hnodup : (fifteenParts.table.map PedPartition.num).Nodup := by decide
  have run := MkRmRun.mkpart .start 5 (by decide) (by decide) eval_mkpart_sixteenth
  refine ⟨hnodup, _, _, run, List.mem_cons_self, fun h => ?_⟩
  have hwindow := (run.sound hnodup).visible_iff_inWindow.mp h
  exact absurd (hwindow _ List.mem_cons_self) (by decide)

end Aesd
