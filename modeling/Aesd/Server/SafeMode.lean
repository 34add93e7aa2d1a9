import Aesd.Server.TableUse

/-!
# SAFE_MODE

Partitions whose name does not start with `AESD` are out of the reach of every command except
the performance writes, whatever the other clients do in between.

The guard is repeated in each operation and looks at a copy of the table that may be stale. What
makes it sound is an invariant of the table and of all copies alike (`Keeps`): the protected
partitions of the initial table are in it, and no other partition of it overlaps them.
-/

namespace Aesd

open Effect CInt

/-- The partition is protected by SAFE_MODE. -/
def PedPartition.Protected (p : PedPartition) : Prop := p.isAesd = false

/-- A table, or a copy of it, that still has the protected partitions of `init`, with nothing on
their sectors. -/
def Keeps (init disk : PedDisk) : Prop :=
  ∀ p ∈ init, p.Protected → p ∈ disk ∧ ∀ q ∈ disk, q = p ∨ q.geom.Apart p.geom

variable {init disk : PedDisk}

lemma keeps_self (hapart : NonOverlapping init) : Keeps init init := by
  intro p hp _
  refine ⟨hp, fun q hq => ?_⟩
  by_cases h : q = p
  · exact Or.inl h
  · exact Or.inr (hapart.apart hq hp h)

/-- A partition that passes the name check is none of the protected ones. -/
lemma Keeps.apart_of_isAesd (h : Keeps init disk) {q : PedPartition} (hq : q ∈ disk)
    (haesd : q.isAesd = true) : ∀ p ∈ init, p.Protected → q.geom.Apart p.geom := by
  intro p hp hprot
  rcases (h p hp hprot).2 q hq with rfl | hapart
  · rw [PedPartition.Protected, haesd] at hprot
    cases hprot
  · exact hapart

/-- No edit that a command may commit touches the protected partitions. -/
lemma Keeps.edit {disk' : PedDisk} (h : Keeps init disk) (hedit : TableEdit disk disk') :
    Keeps init disk' := by
  intro p hp hprot
  obtain ⟨hmem, hothers⟩ := h p hp hprot
  cases hedit with
  | create part name hpart =>
    refine ⟨List.mem_cons_of_mem _ hmem, fun q hq => ?_⟩
    rcases List.mem_cons.mp hq with rfl | hq
    · exact Or.inr (hpart.2.2 p hmem).2.symm
    · exact hothers q hq
  | delete part _ haesd =>
    have hne : p ≠ part := by
      rintro rfl
      rw [PedPartition.Protected, haesd] at hprot
      cases hprot
    exact ⟨(List.mem_erase_of_ne hne).mpr hmem,
      fun q hq => hothers q (List.mem_of_mem_erase hq)⟩
  | rewrite => exact ⟨hmem, hothers⟩

/-- The sectors of the protected partitions of `init` are as they were. -/
def SameContents (init : PedDisk) (d d' : Device) : Prop :=
  ∀ p ∈ init, p.Protected → ∀ x, p.geom.Has x → d'.sectors x = d.sectors x

/-- A transfer inside a geometry apart from a partition does not reach the partition. -/
lemma writeSectors_of_apart {d : Device} {geom : PedGeometry} {p : PedPartition}
    {buffer : ℕ → Byte} {offset count x : ℤ} (hfits : geom.Fits offset count)
    (hapart : geom.Apart p.geom) (hx : p.geom.Has x) :
    (d.writeSectors buffer (geom.start + offset) count).sectors x = d.sectors x := by
  have hnot : ¬ geom.Has x := hapart.symm.not_has hx
  simp only [PedGeometry.Has, PedGeometry.Fits, PedGeometry.length] at hnot hfits
  exact if_neg (by omega)

/-- One call of a disciplined thread changes neither the protected partitions nor their
contents. -/
lemma pedExec_keeps {op : SysOp} {d d' : Device} {r : Answer op} {g : TableView}
    (hview : Keeps init g.view) (htable : Keeps init d.table)
    (hpre : (tableUse False).pre g op) (hexec : pedExec op d r d') :
    Keeps init d'.table ∧ SameContents init d d' := by
  have hsame : d' = d → Keeps init d'.table ∧ SameContents init d d' := by
    rintro rfl
    exact ⟨htable, fun _ _ _ _ _ => rfl⟩
  cases op with
  | pedDiskCommitToDev disk =>
    rcases hexec with ⟨-, rfl⟩ | ⟨-, rfl⟩
    · exact ⟨hview.edit hpre.1, fun _ _ _ _ _ => rfl⟩
    · exact hsame rfl
  | pedGeometryWrite geom buffer offset count =>
    obtain ⟨q, hq, haesd, rfl⟩ := hpre
    have hapart := hview.apart_of_isAesd hq haesd
    -- what is written lies in an `AESD` partition
    rcases hexec with ⟨-, hfits, rfl⟩ | ⟨-, -, htab, hsec⟩
    · exact ⟨htable, fun p hp hprot x hx => writeSectors_of_apart hfits (hapart p hp hprot) hx⟩
    · -- a write that fails stays inside the geometry as well
      rw [htab]
      exact ⟨htable, fun p hp hprot x hx => hsec x ((hapart p hp hprot).symm.not_has hx)⟩
  | perfStart kind job =>
    obtain ⟨-, htab, hsec⟩ := hexec
    rw [htab]
    -- a job that writes has not been started
    refine ⟨htable, fun p _ _ x _ => hsec x ?_⟩
    rintro ⟨rfl | rfl, -⟩ <;> cases hpre
  | pedDeviceGet => exact hsame hexec.1
  | pedDiskNew => exact hsame hexec.1
  | pedDiskAddPartition disk start end_ => exact hsame hexec.1
  | pedGeometryRead geom offset count => exact hsame hexec.1
  | _ => exact hsame hexec

/-- SAFE_MODE. In every interleaving of any number of sessions that run any commands with any
arguments, performance writes excepted, every partition of the initial table whose name does not
start with `AESD` keeps its entry (number, name, start and end) and the contents of its
sectors. -/
theorem safe_mode_frame {Tid : Type} [DecidableEq Tid] {d : Device} {clientFD : Tid → ℤ}
    {cmds : Tid → List (Command × (ℕ → Byte))} {perfJob : Tid → PerfJobInfo}
    {tr : List (Event SysOp Answer Tid)} {c : Config SysOp Answer Unit Device Tid}
    (hapart : NonOverlapping d.table)
    (hcmds : ∀ t, ∀ x ∈ cmds t, x.1.isPerfWrite = false)
    (run : Run pedExec anyStep ⟨d, fun t => serve (clientFD t) (cmds t) (perfJob t)⟩ tr c) :
    ∀ p ∈ d.table, p.isAesd = false →
      p ∈ c.state.table ∧ ∀ x, p.geom.Has x → c.state.sectors x = d.sectors x := by
  have hinv := run.invariant (fun _ => tableUse False) (fun _ _ _ => True)
    (fun _ s g => Keeps d.table s.table ∧ SameContents d.table d s ∧
      ∀ t, Keeps d.table (g t).view)
    (fun _ => { view := d.table })
    ⟨keeps_self hapart, fun _ _ _ _ _ => rfl, fun _ => keeps_self hapart⟩
    (fun t => disciplined_serve (clientFD t) (hcmds t) (perfJob t) _) ?_
  · obtain ⟨g, ⟨htable, hsame, -⟩, -⟩ := hinv
    exact fun p hp hprot => ⟨(htable p hp hprot).1, hsame p hp hprot⟩
  · rintro tr s g t op r s' ⟨htable, hsame, hviews⟩ hpre - hexec
    obtain ⟨htable', hsame'⟩ := pedExec_keeps (hviews t) htable hpre hexec
    refine ⟨tableUse_post hexec False.elim, htable', fun p hp hprot x hx => ?_, fun u => ?_⟩
    · rw [hsame' p hp hprot x hx, hsame p hp hprot x hx]
    · by_cases hu : u = t
      · subst hu
        rw [Function.update_self]
        rcases tableUse_view hexec with h | h
        · rw [h]
          exact hviews u
        · rw [h]
          exact htable
      · rw [Function.update_of_ne hu]
        exact hviews u

/-- A disk with a foreign partition in front of an `AESD` one. -/
def bootAndAesd : Device :=
  diskWith [⟨1, str "boot", between 0 9⟩, aesdPart 2 (between 10 19)]

/-- One client creates a partition of five sectors, the other deletes partition 2. -/
def mkpartAndRmpart : Bool → List (Command × (ℕ → Byte))
  | true  => [({ cmd := str "mkpart", arg1 := str "5" }, fun _ => 0)]
  | false => [({ cmd := str "rmpart", arg1 := str "2" }, fun _ => 0)]

/-- `mkpart` copies the table, `rmpart` runs from start to end, and then `mkpart` commits its
stale copy with partition 3 in it. -/
def staleCommit : List (Bool × Outcome) :=
  succeed true 12 ++ succeed false 11 ++
  [(true, .place ⟨3, [], between 20 24⟩)] ++ succeed true 5

theorem safe_mode_frame_staleCommit :
    ∃ tr c, Run pedExec anyStep
      ⟨bootAndAesd, fun t => serve 4 (mkpartAndRmpart t) ⟨⟨0, 0⟩, 0⟩⟩ tr c ∧
      c.state.table.map (·.num) = [3, 1, 2] ∧
      ⟨1, str "boot", between 0 9⟩ ∈ c.state.table ∧
      ∀ x, 0 ≤ x ∧ x ≤ 9 → c.state.sectors x = [] := by
  obtain ⟨tr, c, run, htest⟩ := exists_run_of_play (C := anyStep) (fun _ _ _ => true)
    ⟨bootAndAesd, fun t => serve 4 (mkpartAndRmpart t) ⟨⟨0, 0⟩, 0⟩⟩ staleCommit
    (fun x => x.2.state.table.map (·.num) = [3, 1, 2]) pedRespond_exec
    (fun _ _ _ _ => trivial) (by decide)
  have hframe := safe_mode_frame (by decide) (by decide) run
    ⟨1, str "boot", between 0 9⟩ (by decide) (by decide)
  exact ⟨tr, c, run, by simpa using htest, hframe.1, fun x hx => hframe.2 x hx⟩

end Aesd
