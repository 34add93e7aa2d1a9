import Aesd.Server.TableUse

/-!
# Updates of the partition table

Creating and deleting a partition reads the whole table, edits the copy and writes it back. An
update is lost when somebody else commits in between. As long as each commit finds the table that
its thread has read, every successful update is accounted for (`Accounted`) in the table or by
an update of the same partition number.
-/

namespace Aesd

open Effect CInt

/-! ### Changes of the table -/

/-- The change from `x.1` to `x.2` adds the partition `p`. -/
def Adds (x : PedDisk × PedDisk) (p : PedPartition) : Prop := x.2 = p :: x.1

/-- The change from `x.1` to `x.2` removes the partition `p`. -/
def Removes (x : PedDisk × PedDisk) (p : PedPartition) : Prop := p ∈ x.1 ∧ x.2 = x.1.erase p

variable {x : PedDisk × PedDisk} {p q : PedPartition}

lemma Adds.unique (h : Adds x p) (h' : Adds x q) : p = q :=
  (List.cons.inj (h.symm.trans h')).1

lemma Removes.unique (h : Removes x p) (h' : Removes x q) : p = q := by
  by_contra hne
  have hcount := congrArg (List.count p) (h.2.symm.trans h'.2)
  rw [List.count_erase_self, List.count_erase_of_ne hne] at hcount
  have hpos := List.count_pos_iff.mpr h.1
  omega

section Edit

variable {table table' : PedDisk}

/-- What an edit does not keep it removes. -/
lemma TableEdit.mem_or_removes (h : TableEdit table table') (hp : p ∈ table) :
    p ∈ table' ∨ Removes (table, table') p := by
  cases h with
  | create part name _ => exact Or.inl (List.mem_cons_of_mem _ hp)
  | delete part hmem _ =>
    by_cases hpart : p = part
    · subst hpart
      exact Or.inr ⟨hmem, rfl⟩
    · exact Or.inl ((List.mem_erase_of_ne hpart).mpr hp)
  | rewrite => exact Or.inl hp

/-- What is new after an edit it has added. -/
lemma TableEdit.mem_or_adds (h : TableEdit table table') (hp : p ∈ table') :
    p ∈ table ∨ Adds (table, table') p := by
  cases h with
  | create part name _ =>
    rcases List.mem_cons.mp hp with rfl | hp
    · exact Or.inr rfl
    · exact Or.inl hp
  | delete part _ _ => exact Or.inl (List.mem_of_mem_erase hp)
  | rewrite => exact Or.inl hp

/-- Numbers stay unique. -/
lemma TableEdit.nums (h : TableEdit table table') (hnums : (table.map (·.num)).Nodup) :
    (table'.map (·.num)).Nodup := by
  cases h with
  | create part name hpart =>
    refine List.nodup_cons.mpr ⟨fun hmem => ?_, hnums⟩
    obtain ⟨q, hq, hnum⟩ := List.mem_map.mp hmem
    exact (hpart.2.2 q hq).1 hnum
  | delete part _ _ => exact hnums.sublist (List.erase_sublist.map _)
  | rewrite => exact hnums

/-- A partition that was removed has left no other with its number. -/
lemma Removes.num_ne (h : Removes (table, table') q) (hnums : (table.map (·.num)).Nodup)
    (hp : p ∈ table') : p.num ≠ q.num := by
  obtain ⟨hq, herase⟩ := h
  rw [show table' = table.erase q from herase] at hp
  intro hnum
  obtain rfl := List.inj_on_of_nodup_map hnums (List.mem_of_mem_erase hp) hq hnum
  exact hnums.of_map.not_mem_erase hp

end Edit

/-! ### Accounting for changes -/

/-- Every change that was made, `done t` being the one of thread `t`, is still visible in the
table, or there is another change for the same partition number. -/
structure Accounted {Tid : Type} (table : PedDisk) (done : Tid → Option (PedDisk × PedDisk)) :
    Prop where
  nums : (table.map (·.num)).Nodup
  added : ∀ t x p, done t = some x → Adds x p →
    p ∈ table ∨ ∃ u y q, done u = some y ∧ Removes y q ∧ q.num = p.num
  removed : ∀ t x q, done t = some x → Removes x q →
    (∀ p ∈ table, p.num ≠ q.num) ∨ ∃ u y p, done u = some y ∧ Adds y p ∧ p.num = q.num

section Commit

variable {Tid : Type} [DecidableEq Tid] {table table' : PedDisk}
  {done : Tid → Option (PedDisk × PedDisk)} {t : Tid}

/-- One more change, by a thread that had made none. -/
lemma Accounted.commit (h : Accounted table done) (ht : done t = none)
    (hedit : TableEdit table table') :
    Accounted table' (Function.update done t (some (table, table'))) := by
  set done' := Function.update done t (some (table, table')) with hdone'
  have hself : done' t = some (table, table') := Function.update_self ..
  have hother : ∀ {u}, u ≠ t → done' u = done u := fun hu => Function.update_of_ne hu ..
  have hkeep : ∀ {u y}, done u = some y → done' u = some y := by
    intro u y hu
    rwa [hother]
    rintro rfl
    rw [ht] at hu
    cases hu
  refine ⟨hedit.nums h.nums, fun u x p hu hadds => ?_, fun u x q hu hrem => ?_⟩
  · -- what has been added is in the table, or has been taken away since
    by_cases hut : u = t
    · subst hut
      rw [hself, Option.some.injEq] at hu
      subst hu
      rw [show table' = p :: table from hadds]
      exact Or.inl List.mem_cons_self
    · rw [hother hut] at hu
      rcases h.added u x p hu hadds with hp | ⟨v, y, q, hv, hrem, hnum⟩
      · rcases hedit.mem_or_removes hp with hp | hrem
        · exact Or.inl hp
        · exact Or.inr ⟨t, _, p, hself, hrem, rfl⟩
      · exact Or.inr ⟨v, y, q, hkeep hv, hrem, hnum⟩
  · -- what has been taken away is not in the table, or its number has been given out again
    by_cases hut : u = t
    · subst hut
      rw [hself, Option.some.injEq] at hu
      subst hu
      exact Or.inl fun p hp => hrem.num_ne h.nums hp
    · rw [hother hut] at hu
      rcases h.removed u x q hu hrem with hnone | ⟨v, y, p, hv, hadds, hnum⟩
      · by_cases hback : ∃ p ∈ table', p.num = q.num
        · obtain ⟨p, hp, hnum⟩ := hback
          rcases hedit.mem_or_adds hp with hp | hadds
          · exact absurd hnum (hnone p hp)
          · exact Or.inr ⟨t, _, p, hself, hadds, hnum⟩
        · push Not at hback
          exact Or.inl hback
      · exact Or.inr ⟨v, y, p, hkeep hv, hadds, hnum⟩

end Commit

/-! ### Calls -/

/-- A call of `nvmeCreatePartition` or `nvmeDeletePartition`. -/
inductive TableCall where
  | create (size : ℤ)
  | delete (partNumber : ℤ)

/-- The call as a program: its status, and the partition it has created. -/
def TableCall.prog : TableCall → Sys (NvmeStatus × Option PedPartition)
  | .create size       => nvmeCreatePartition size
  | .delete partNumber => do
    let rc ← nvmeDeletePartition partNumber
    return (rc, none)

/-- What a call has done when it returns. -/
def TableCall.Done (g : TableView) : TableCall → NvmeStatus × Option PedPartition → Prop
  | .create _, res          => CreateDone True g res
  | .delete partNumber, res => DeleteDone True partNumber g res.1 ∧ res.2 = none

lemma TableCall.obeys (call : TableCall) (disk : PedDisk) :
    call.prog.Obeys (tableUse True) { view := disk } fun g res => call.Done g res := by
  cases call with
  | create size => exact tableUse_nvmeCreatePartition size fun _ => rfl
  | delete partNumber =>
    exact Prog.obeys_bind.mpr ((tableUse_nvmeDeletePartition partNumber fun _ => rfl).mono
      fun _ _ h => ⟨h, rfl⟩)

section Runs

variable {Tid : Type} [DecidableEq Tid]

/-- The table that the thread has read last. -/
def lastRead (t : Tid) (tr : List (Event SysOp Answer Tid)) : Option PedDisk :=
  tr.foldl (fun last e => match e with
    | ⟨u, .pedDiskNew, some disk⟩ => if u = t then some disk else last
    | _                           => last) none

/-- Whoever commits has read the table that it replaces. -/
def upToDate (tr : List (Event SysOp Answer Tid)) (s : Device) : Event SysOp Answer Tid → Bool
  | ⟨t, .pedDiskCommitToDev _, true⟩ => lastRead t tr = some s.table
  | _                                => true

/-- The views of the threads are what they have read, and their changes are accounted for. -/
structure Tracked (tr : List (Event SysOp Answer Tid)) (s : Device) (g : Tid → TableView) :
    Prop where
  views : ∀ t disk, lastRead t tr = some disk → (g t).view = disk
  accounted : Accounted s.table fun t => (g t).committed

variable {tr : List (Event SysOp Answer Tid)} {s s' : Device} {g : Tid → TableView} {t : Tid}
  {op : SysOp} {r : Answer op}

lemma lastRead_read (u : Tid) (disk : PedDisk) :
    lastRead u (tr ++ [⟨t, .pedDiskNew, some disk⟩]) =
      if t = u then some disk else lastRead u tr := by
  simp [lastRead]

/-- A step that changes neither the table nor what its thread has read and committed. -/
lemma Tracked.skip (h : Tracked tr s g) (htable : s'.table = s.table)
    (hnext : (tableUse True).next (g t) op r = g t)
    (hread : ∀ u, lastRead u (tr ++ [⟨t, op, r⟩]) = lastRead u tr) :
    Tracked (tr ++ [⟨t, op, r⟩]) s'
      (Function.update g t ((tableUse True).next (g t) op r)) := by
  rw [hnext, Function.update_eq_self]
  refine ⟨fun u disk hu => ?_, ?_⟩
  · rw [hread] at hu
    exact h.views u disk hu
  · rw [htable]
    exact h.accounted

lemma Tracked.step (h : Tracked tr s g) (hpre : (tableUse True).pre (g t) op)
    (hexec : pedExec op s r s') (hC : upToDate tr s ⟨t, op, r⟩ = true) :
    Tracked (tr ++ [⟨t, op, r⟩]) s'
      (Function.update g t ((tableUse True).next (g t) op r)) := by
  have hcommitted : ∀ g', (fun u => (Function.update g t g' u).committed) =
      Function.update (fun u => (g u).committed) t g'.committed := fun g' =>
    Function.comp_update TableView.committed g t g'
  cases op with
  | pedDiskNew =>
    obtain ⟨rfl, rfl | rfl⟩ := hexec
    · exact h.skip rfl rfl fun u => by simp [lastRead]
    · -- a thread that reads has committed nothing before
      have hnone : ((tableUse True).next (g t) .pedDiskNew (some s'.table)).committed =
          (g t).committed := (hpre trivial).symm
      refine ⟨fun u disk hu => ?_, ?_⟩
      · rw [lastRead_read] at hu
        by_cases hut : t = u
        · subst hut
          rw [if_pos rfl] at hu
          rw [Function.update_self]
          exact Option.some.inj hu
        · rw [if_neg hut] at hu
          rw [Function.update_of_ne (Ne.symm hut)]
          exact h.views u disk hu
      · rw [hcommitted, hnone, Function.update_eq_self]
        exact h.accounted
  | pedDiskCommitToDev disk =>
    rcases hexec with ⟨rfl, rfl⟩ | ⟨rfl, rfl⟩
    · obtain ⟨hedit, hnone⟩ := hpre
      -- the table is the one that the thread has read, so its change is made to it
      have hview : (g t).view = s.table := h.views t s.table (of_decide_eq_true hC)
      have hview' : ∀ u, (Function.update g t ((tableUse True).next (g t)
          (.pedDiskCommitToDev disk) true) u).view = (g u).view := by
        intro u
        by_cases hut : u = t
        · subst hut
          rw [Function.update_self]
          rfl
        · rw [Function.update_of_ne hut]
      refine ⟨fun u disk' hu => ?_, ?_⟩
      · rw [hview']
        exact h.views u disk' (by simpa [lastRead] using hu)
      · rw [hcommitted]
        show Accounted disk (Function.update _ t (some ((g t).view, disk)))
        rw [hview] at hedit ⊢
        exact h.accounted.commit hnone hedit
    · exact h.skip rfl rfl fun u => by simp [lastRead]
  | _ =>
    refine h.skip ?_ rfl fun u => by simp [lastRead]
    rcases pedExec_table t hexec with htab | ⟨disk, he, -⟩
    · exact htab
    · cases he

end Runs

/-! ### Two creations -/

/-- A disk with one partition. -/
def onePart : Device := diskWith [aesdPart 1 (between 10 19)]

end Aesd
