import Aesd.Server.PlainCalls
import Aesd.Server.Receive

/-!
# Missing arguments

A message may have fewer words than its command needs. Each branch of the dispatcher looks for
itself whether an argument is there: `mkpart` and `rmpart` report a missing one and then use it all
the same, `write` does not look for its data. Every other command reports what is missing and does
nothing else (`argumentSafe_iff`).
-/

namespace Aesd

open Effect CInt

variable {α β : Type}

/-! ### Null pointers -/

/-- The call had to return a pointer, and has returned `NULL`. -/
def NullAnswer : (op : SysOp) → Answer op → Prop
  | .malloc _, r                       => r = none
  | .pedDiskGetPartitionAlignment _, r => r = none
  | _, _                               => False

/-- A null pointer is used only if it is one that was returned by a call. The ghost state is
whether there is one. -/
def nullUse : Protocol SysOp Answer Prop where
  pre g op := op = .fault → g
  post _ _ _ := True
  next g op r := g ∨ NullAnswer op r

/-- Whatever the calls return, the program uses no null pointer of its own. -/
def NoNullUse (p : Sys α) : Prop := p.Obeys nullUse False fun _ _ => True

/-- From a null pointer on nothing is owed. -/
lemma obeys_nullUse_true {g : Prop} (hg : g) (p : Sys α) : p.Obeys nullUse g fun _ _ => True := by
  induction p generalizing g with
  | ret a => trivial
  | call op k ih => exact ⟨fun _ => hg, fun r _ => ih r (Or.inl hg)⟩

lemma NoNullUse.obeys {p : Sys α} (hp : NoNullUse p) (g : Prop) :
    p.Obeys nullUse g fun _ _ => True := by
  by_cases hg : g
  · exact obeys_nullUse_true hg p
  · rw [eq_false hg]
    exact hp

lemma NoNullUse.bind {p : Sys α} {f : α → Sys β} (hp : NoNullUse p)
    (hf : ∀ a, NoNullUse (f a)) : NoNullUse (p >>= f) :=
  Prog.obeys_bind.mpr (Prog.Obeys.mono hp fun g a _ => (hf a).obeys g)

lemma noNullUse_of_only {p : Sys α} (hp : p.Only (· ≠ .fault)) : NoNullUse p := by
  induction p with
  | ret a => trivial
  | call op k ih => exact ⟨fun hop => absurd hop hp.1, fun r _ => (ih r (hp.2 r)).obeys _⟩

lemma Plain.ne_fault {clientFD : ℤ} {p : Sys α} (hp : Plain clientFD p) : p.Only (· ≠ .fault) := by
  apply hp.mono
  rintro op hop rfl
  exact hop

lemma only_redirected {clientFD : ℤ} {body : Sys α} (hbody : Plain clientFD body) :
    (redirected clientFD body).Only (· ≠ .fault) := by
  have hdup : ∀ fd, (sys (.dup fd)).Only (· ≠ .fault) := fun _ => ⟨nofun, fun _ => trivial⟩
  have hdup2 : ∀ oldfd newfd, (sys (.dup2 oldfd newfd)).Only (· ≠ .fault) := fun _ _ =>
    ⟨nofun, fun _ => trivial⟩
  exact (hdup _).bind fun _ => (hdup2 _ _).bind fun _ => hbody.ne_fault.bind fun _ =>
    (hdup2 _ _).bind fun _ => trivial

/-- A pointer that a call may fail to return. -/
lemma noNullUse_pointer {op : SysOp} (hop : op ≠ .fault) {f : Answer op → Sys α}
    (hf : ∀ r, ¬ NullAnswer op r → NoNullUse (f r)) : NoNullUse (sys op >>= f) := by
  refine ⟨fun h => absurd h hop, fun r _ => ?_⟩
  by_cases hr : NullAnswer op r
  · exact obeys_nullUse_true (Or.inr hr) _
  · exact (hf r hr).obeys _

lemma compositional_noNullUse (clientFD : ℤ) :
    Compositional clientFD fun p => NoNullUse p where
  plain hp := noNullUse_of_only hp.ne_fault
  bind hp hf := hp.bind hf
  redirected hp := noNullUse_of_only (only_redirected hp)
  malloc hsome _ := by
    refine noNullUse_pointer (by nofun) fun r hr => ?_
    cases r with
    | none => exact absurd rfl hr
    | some b => exact hsome b
  alignment hsome _ := by
    refine noNullUse_pointer (by nofun) fun r hr => ?_
    cases r with
    | none => exact absurd rfl hr
    | some b => exact hsome b

/-! ### Paths to a null pointer -/

/-- Answers without `NULL`. -/
def granted (op : SysOp) (_ : Unit) (r : Answer op) (_ : Unit) : Prop := ¬ NullAnswer op r

lemma NoNullUse.not_calls {p : Sys α} (hp : NoNullUse p) : ¬ p.Calls granted () .fault () := by
  induction p with
  | ret a => exact Prog.calls_ret
  | call op k ih =>
    rintro (⟨hop, -⟩ | ⟨r, _, hr, h⟩)
    · exact hp.1 hop.symm
    · have hk := hp.2 r trivial
      rw [show nullUse.next False op r = False from eq_false (not_or.mpr ⟨id, hr⟩)] at hk
      exact ih r hk h

/-- Each call but the use of a null pointer can return. -/
lemma exists_granted {op : SysOp} (hop : op ≠ .fault) : ∃ r, granted op () r () := by
  cases op with
  | malloc size => exact ⟨some (0, fun _ => 0), Option.some_ne_none _⟩
  | pedDiskGetPartitionAlignment disk => exact ⟨some (0 : ℤ), Option.some_ne_none _⟩
  | fault => exact absurd rfl hop
  | _ => exact ⟨default, id⟩

lemma exists_eval_granted {p : Sys α} (hp : p.Only (· ≠ .fault)) :
    ∃ a, p.Eval granted () a () := by
  induction p with
  | ret a => exact ⟨a, rfl, rfl⟩
  | call op k ih =>
    obtain ⟨r, hr⟩ := exists_granted hp.1
    obtain ⟨a, ha⟩ := ih r (hp.2 r)
    exact ⟨a, r, (), hr, ha⟩

lemma calls_fault_bind {f : α → Sys β} :
    ((fault : Sys α) >>= f).Calls granted () .fault () := Or.inl ⟨rfl, rfl⟩

/-- What plain calls lead to is got to. -/
lemma Plain.calls_bind {clientFD : ℤ} {p : Sys α} (hp : Plain clientFD p) {f : α → Sys β}
    (hf : ∀ a, (f a).Calls granted () .fault ()) : (p >>= f).Calls granted () .fault () := by
  obtain ⟨a, ha⟩ := exists_eval_granted hp.ne_fault
  exact Prog.calls_bind.mpr (Or.inr ⟨a, (), ha, hf a⟩)

/-! ### Reports -/

/-- The texts by which the client is told that an argument is missing. -/
def missingReports : List Text :=
  [str "expected second argument for size of new partition.\n",
   str "expected second argument for number of partition to delete\n",
   str "Expected a partition to write to. Try again.\n",
   str "Expected a number of sectors to read. Try again.\n",
   str "expected all arguments. Try again.\n"]

/-- Nothing but calls that leave the disk alone. The ghost state is whether the client has been
told that an argument is missing. -/
def reporting (clientFD : ℤ) : Protocol SysOp Answer Prop where
  pre _ op := op.Quiet ∧ op ≠ .fault
  post _ _ _ := True
  next g op _ := g ∨ ∃ text ∈ missingReports, op = .send clientFD text

/-- Whatever the calls return, the program leaves the disk alone, uses no null pointer and returns
when it has told the client that an argument is missing. -/
def Reports (clientFD : ℤ) (p : Sys α) : Prop :=
  ∀ g, p.Obeys (reporting clientFD) g fun reported _ => reported

variable {clientFD : ℤ}

lemma Reports.bind_left {p : Sys α} (hquiet : Quiet p) (hplain : Plain clientFD p) {f : α → Sys β}
    (hf : ∀ a, Reports clientFD (f a)) : Reports clientFD (p >>= f) := by
  intro g
  induction p generalizing g with
  | ret a => exact hf a g
  | call op k ih =>
    refine ⟨⟨hquiet.1, hplain.ne_fault.1⟩, fun r _ => ?_⟩
    exact ih r (hquiet.2 r) (hplain.2 r) _

lemma Reports.bind_right {p : Sys α} (hp : Reports clientFD p) (f : α → β) :
    Reports clientFD (do let a ← p; return f a) := fun g =>
  Prog.obeys_bind.mpr ((hp g).mono fun _ _ h => h)

lemma reports_reply (hfd : 0 ≤ clientFD) {text : Text} (htext : text ∈ missingReports) :
    Reports clientFD (reply clientFD text) := by
  have hshort : ∀ text ∈ missingReports, text.length ≤ 1023 ∧ 0 ∉ text := by decide
  obtain ⟨hlen, hnul⟩ := hshort text htext
  intro g
  simp only [reply, sendOnSocketf_of_fits hfd hlen hnul, Prog.perform_bind, Prog.call_bind]
  exact ⟨⟨trivial, nofun⟩, fun _ _ => Or.inr ⟨text, htext, rfl⟩⟩

lemma SysOp.Quiet.pedExec {op : SysOp} (hop : op.Quiet) {d d' : Device} {r : Answer op}
    (hexec : pedExec op d r d') : d' = d := by
  cases op with
  | fault => exact r.elim
  | _ => first | exact hexec | exact hop.elim

lemma Reports.unchanged {p : Sys α} (hp : Reports clientFD p) {d d' : Device} {a : α}
    (h : p.Eval pedExec d a d') : d' = d := by
  obtain ⟨-, hd, -⟩ := (hp False).eval (I := fun s _ => s = d)
    (by
      rintro _ g op r d' rfl hpre hexec
      exact ⟨trivial, hpre.1.pedExec hexec⟩) rfl h
  exact hd

/-! ### The dispatcher -/

/-- An argument that the command needs was not given. The offsets of `write` and `read` and the
flag of `read` are optional. -/
def Command.Incomplete (c : Command) : Prop :=
  match c.kind with
  | .mkpart | .rmpart => c.arg1 = none
  | .write            => c.arg1 = none ∨ c.arg2 = none
  | .read             => c.arg1 = none ∨ c.arg3 = none
  | .perf _           => c.arg1 = none ∨ c.arg2 = none ∨ c.arg3 = none ∨ c.extra = none
  | _                 => False

/-- No absent argument is used, and a command without an argument that it needs is answered with an
error and leaves the disk as it was. -/
structure ArgumentSafe (clientFD : ℤ) (past : ℕ → Byte) (c : Command) (perfJob : PerfJobInfo) :
    Prop where
  noNullUse : NoNullUse (dispatch clientFD past c perfJob)
  reports : c.Incomplete → Reports clientFD (dispatch clientFD past c perfJob)
  unchanged : c.Incomplete → ∀ d x d', (dispatch clientFD past c perfJob).Eval pedExec d x d' →
    d' = d

section

variable {past : ℕ → Byte} {c : Command} {perfJob : PerfJobInfo}

lemma calls_mkpart (harg1 : c.arg1 = none) : (mkpart clientFD c).Calls granted () .fault () := by
  rw [mkpart, harg1]
  exact (@plain_printf clientFD _).calls_bind fun _ => (plain_replyIf _ _ _).calls_bind fun _ =>
    calls_fault_bind

lemma calls_rmpart (harg1 : c.arg1 = none) : (rmpart clientFD c).Calls granted () .fault () := by
  rw [rmpart, harg1]
  exact (@plain_printf clientFD _).calls_bind fun _ => (plain_replyIf _ _ _).calls_bind fun _ =>
    calls_fault_bind

lemma calls_write (harg1 : c.arg1.isSome = true) (harg2 : c.arg2 = none) :
    (write clientFD past c).Calls granted () .fault () := by
  obtain ⟨arg1, harg1⟩ := Option.isSome_iff_exists.mp harg1
  rw [write, harg1, harg2]
  exact (@plain_printf clientFD _).calls_bind fun _ =>
    (plain_sectorOffsetArg _ _).calls_bind fun _ => Or.inl ⟨rfl, rfl⟩

/-- The branches that use an absent argument. -/
lemma calls_dispatch (hbad : ((c.kind = .mkpart ∨ c.kind = .rmpart) ∧ c.arg1 = none) ∨
      (c.kind = .write ∧ c.arg1.isSome = true ∧ c.arg2 = none)) :
    (dispatch clientFD past c perfJob).Calls granted () .fault () := by
  rw [dispatch_eq]
  refine (@plain_printf clientFD _).calls_bind fun _ => ?_
  rcases hbad with ⟨hkind | hkind, harg1⟩ | ⟨hkind, harg1, harg2⟩
  · rw [hkind]
    exact Prog.calls_bind.mpr (Or.inl (calls_mkpart harg1))
  · rw [hkind]
    exact Prog.calls_bind.mpr (Or.inl (calls_rmpart harg1))
  · rw [hkind]
    exact Prog.calls_bind.mpr (Or.inl (calls_write harg1 harg2))

lemma noNullUse_atoiArg {arg : Option Text} (harg : arg ≠ none) : NoNullUse (atoiArg arg) := by
  cases arg with
  | none => exact absurd rfl harg
  | some s => trivial

lemma noNullUse_dispatch (hpart : ¬ ((c.kind = .mkpart ∨ c.kind = .rmpart) ∧ c.arg1 = none))
    (hwrite : ¬ (c.kind = .write ∧ c.arg1.isSome = true ∧ c.arg2 = none)) :
    NoNullUse (dispatch clientFD past c perfJob) := by
  have hJ := compositional_noNullUse clientFD
  refine hJ.dispatch ?_ ?_ ?_ ?_
  · intro hkind
    exact hJ.mkpart (noNullUse_atoiArg fun harg1 => hpart ⟨Or.inl hkind, harg1⟩)
  · intro hkind
    exact hJ.rmpart (noNullUse_atoiArg fun harg1 => hpart ⟨Or.inr hkind, harg1⟩)
  · intro hkind
    exact hJ.write fun harg1 harg2 => absurd ⟨hkind, harg1, harg2⟩ hwrite
  · intro _
    exact hJ.read c (hJ.buffer fun _ => noNullUse_of_only ⟨nofun, fun _ => trivial⟩)

lemma reports_perfCommand (hfd : 0 ≤ clientFD) {kind : PerfKind}
    (hmissing : c.arg1 = none ∨ c.arg2 = none ∨ c.arg3 = none ∨ c.extra = none) :
    Reports clientFD (perfCommand clientFD kind c perfJob) := by
  have hreport : Reports clientFD (perfCommand.missing clientFD perfJob) :=
    (reports_reply hfd (by simp [missingReports])).bind_right fun _ => perfJob
  obtain ⟨-, heq⟩ | ⟨arg1, arg2, arg3, extra, harg1, harg2, harg3, hextra, -⟩ :=
    perfCommand_cases clientFD kind c perfJob
  · rwa [heq]
  · simp [harg1, harg2, harg3, hextra] at hmissing

lemma reports_read (hfd : 0 ≤ clientFD) (hmissing : c.arg1 = none ∨ c.arg3 = none) :
    Reports clientFD (read clientFD c) := by
  unfold read
  cases harg1 : c.arg1 with
  | none => exact reports_reply hfd (by simp [missingReports])
  | some arg1 =>
    refine Reports.bind_left (quiet_sectorOffsetArg _ _) (plain_sectorOffsetArg _ _) fun _ => ?_
    cases harg3 : c.arg3 with
    | none => exact reports_reply hfd (by simp [missingReports])
    | some arg3 => simp [harg1, harg3] at hmissing

lemma reports_write (hfd : 0 ≤ clientFD) (harg1 : c.arg1 = none) :
    Reports clientFD (write clientFD past c) := by
  rw [write, harg1]
  exact Reports.bind_left (quiet_printf _) (plain_printf _) fun _ =>
    reports_reply hfd (by simp [missingReports])

lemma reports_dispatch (hfd : 0 ≤ clientFD)
    (hpart : ¬ ((c.kind = .mkpart ∨ c.kind = .rmpart) ∧ c.arg1 = none))
    (hwrite : ¬ (c.kind = .write ∧ c.arg1.isSome = true ∧ c.arg2 = none)) (hc : c.Incomplete) :
    Reports clientFD (dispatch clientFD past c perfJob) := by
  rw [dispatch_eq]
  refine Reports.bind_left (quiet_printf _) (plain_printf _) fun _ => ?_
  simp only [Command.Incomplete] at hc
  cases hkind : c.kind with
  | mkpart =>
    rw [hkind] at hc
    exact absurd ⟨Or.inl hkind, hc⟩ hpart
  | rmpart =>
    rw [hkind] at hc
    exact absurd ⟨Or.inr hkind, hc⟩ hpart
  | write =>
    rw [hkind] at hc
    -- the data is missing only if the partition is
    have harg1 : c.arg1 = none := by
      by_contra harg1
      exact hwrite ⟨hkind, Option.isSome_iff_ne_none.mpr harg1, hc.resolve_left harg1⟩
    exact (reports_write hfd harg1).bind_right fun _ => (true, perfJob)
  | read =>
    rw [hkind] at hc
    exact (reports_read hfd hc).bind_right fun _ => (true, perfJob)
  | perf kind =>
    rw [hkind] at hc
    exact (reports_perfCommand hfd hc).bind_right fun perfJob => (true, perfJob)
  | _ =>
    rw [hkind] at hc
    exact hc.elim

end

/-- A message is received on a descriptor that is not negative. The dispatcher treats absent
arguments as it should except for `mkpart` and `rmpart` without any and `write` with only one. -/
theorem argumentSafe_iff (hfd : 0 ≤ clientFD) (past : ℕ → Byte) (c : Command)
    (perfJob : PerfJobInfo) :
    ArgumentSafe clientFD past c perfJob ↔
      ¬ ((c.kind = .mkpart ∨ c.kind = .rmpart) ∧ c.arg1 = none) ∧
        ¬ (c.kind = .write ∧ c.arg1.isSome = true ∧ c.arg2 = none) := by
  constructor
  · intro h
    rw [← not_or]
    intro hbad
    exact h.noNullUse.not_calls (calls_dispatch hbad)
  · rintro ⟨hpart, hwrite⟩
    have hreports : c.Incomplete → Reports clientFD (dispatch clientFD past c perfJob) :=
      reports_dispatch hfd hpart hwrite
    exact ⟨noNullUse_dispatch hpart hwrite, hreports,
      fun hc _ _ _ run => (hreports hc).unchanged run⟩

/-- `read` without a number of sectors. -/
theorem argumentSafe_read : tokenise (str "read 1 0\n") =
      some ⟨str "read", some (str "1"), some (str "0"), none, none⟩ ∧
    ArgumentSafe 4 (fun _ => 0) ⟨str "read", some (str "1"), some (str "0"), none, none⟩
      ⟨⟨0, 0⟩, 0⟩ :=
  ⟨rfl, (argumentSafe_iff (by decide) _ _ _).mpr ⟨by decide, by decide⟩⟩

/-- `mkpart` without a size. -/
theorem mkpart_uses_null : tokenise (str "mkpart\n") = some ⟨str "mkpart", none, none, none, none⟩ ∧
    (dispatch 4 (fun _ => 0) ⟨str "mkpart", none, none, none, none⟩ ⟨⟨0, 0⟩, 0⟩).Calls
      pedExec (diskWith []) .fault (diskWith []) ∧
    ¬ ArgumentSafe 4 (fun _ => 0) ⟨str "mkpart", none, none, none, none⟩ ⟨⟨0, 0⟩, 0⟩ := by
  refine ⟨rfl, ?_, ?_⟩
  · rw [dispatch_eq]
    refine Or.inr ⟨(), _, rfl, Or.inr ⟨(), _, rfl, Or.inr ⟨(0 : ℤ), _, rfl, Or.inl ⟨rfl, rfl⟩⟩⟩⟩
  · intro h
    exact h.noNullUse.not_calls (calls_dispatch (Or.inl ⟨Or.inl rfl, rfl⟩))

end Aesd
