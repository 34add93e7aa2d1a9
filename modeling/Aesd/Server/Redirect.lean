import Aesd.Server.PlainCalls

/-!
# Redirected output

Standard output is one slot of the descriptor table, shared by all clients' threads. A thread that
wants to print to its client saves the slot, replaces it, prints, and puts it back (`redirected`).
The regions of different threads may overlap. The output of each reaches its own client as long as
the regions are nested: a thread touches the slot, or prints in its region, only while its region
is the one entered last.
-/

namespace Aesd

open Effect CInt

variable {α β F : Type}

/-! ### The descriptor table -/

/-- What each open descriptor refers to, and the text each file or socket has been sent through
standard output. -/
structure Descriptors (F : Type) where
  table : ℤ → Option F
  output : F → Text

/-- `dup`: the lowest, in any case an unused descriptor for the same file; -1 if it fails. -/
def Dups (d : Descriptors F) (fd r : ℤ) (d' : Descriptors F) : Prop :=
  (r = -1 ∧ d' = d) ∨
    (0 ≤ r ∧ d.table r = none ∧ d' = { d with table := Function.update d.table r (d.table fd) })

/-- `dup2`, which does nothing if `oldfd` is not open. -/
def Descriptors.dup2 (d : Descriptors F) (oldfd newfd : ℤ) : Descriptors F :=
  match d.table oldfd with
  | none   => d
  | some f => { d with table := Function.update d.table newfd (some f) }

/-- A text printed and flushed. -/
def Descriptors.print [DecidableEq F] (d : Descriptors F) (text : Text) : Descriptors F :=
  match d.table stdoutFileno with
  | none   => d
  | some f => { d with output := Function.update d.output f (d.output f ++ text) }

/-- The calls' effect on the descriptor table; nothing is said about what other calls return. -/
def fdExec [DecidableEq F] : (op : SysOp) → Descriptors F → Answer op → Descriptors F → Prop
  | .dup fd, d, r, d'            => Dups d fd r d'
  | .dup2 oldfd newfd, d, _, d'  => d' = d.dup2 oldfd newfd
  | .printf text, d, _, d'       => d' = d.print text
  | _, d, _, d'                  => d' = d

/-! ### How a thread redirects -/

/-- Where a thread is: outside a region, between its `dup` and `dup2`, or inside, with the
descriptor it has saved. -/
inductive Region where
  | outside
  | saved (fd : ℤ)
  | inside (fd : ℤ)
  deriving DecidableEq

def Region.isSaved : Region → Bool
  | .saved _ => true
  | _        => false

def Region.isInside : Region → Bool
  | .inside _ => true
  | _         => false

/-- What a call changes about that. -/
def Region.next (g : Region) : (op : SysOp) → Answer op → Region
  | .dup _, r     => .saved r
  | .dup2 _ _, _  =>
    match g with
    | .saved fd => .inside fd
    | _         => .outside
  | _, _          => g

/-- The obligation of a thread that serves `clientFD`: to save standard output, to replace it by
the client, and to put back what was saved. -/
def redirectUse (clientFD : ℤ) : Protocol SysOp Answer Region where
  pre g
    | .dup fd          => fd = stdoutFileno ∧ g = .outside
    | .dup2 oldfd newfd =>
      newfd = stdoutFileno ∧
        match g with
        | .outside   => False
        | .saved _   => oldfd = clientFD
        | .inside fd => oldfd = fd
    | _                => True
  post _ _ _ := True
  next g := g.next

/-- Calls that leave the descriptor table alone. -/
def SysOp.KeepsFds : SysOp → Prop
  | .dup _ | .dup2 _ _ => False
  | _ => True

/-- Programs that leave the descriptor table alone. -/
abbrev Stays (p : Sys α) : Prop := p.Only SysOp.KeepsFds

lemma Plain.stays {clientFD : ℤ} {p : Sys α} (hp : Plain clientFD p) : Stays p := by
  apply hp.mono
  intro op hop
  cases op <;> trivial

lemma stays_fault : Stays (fault : Sys α) := ⟨trivial, fun r => r.elim⟩

/-! ### Sessions -/

/-- The program's regions are complete: it starts outside of one and ends so. -/
def Redirects (clientFD : ℤ) (p : Sys α) : Prop :=
  p.Obeys (redirectUse clientFD) .outside fun g _ => g = .outside

variable {clientFD : ℤ}

/-- Calls that leave the descriptor table alone may be made in any region. -/
lemma Stays.obeys {p : Sys α} (hp : Stays p) (g : Region) :
    p.Obeys (redirectUse clientFD) g fun g' _ => g' = g := by
  apply Prog.Only.obeys hp
  · intro op hop
    cases op <;> trivial
  · intro op r hop
    cases op <;> first | rfl | exact hop.elim
  · intro _
    rfl

lemma redirects_ret (a : α) : Redirects clientFD (.ret a) := rfl

lemma redirects_of_stays {p : Sys α} (hp : Stays p) : Redirects clientFD p := hp.obeys _

lemma Redirects.bind {p : Sys α} {f : α → Sys β} (hp : Redirects clientFD p)
    (hf : ∀ a, Redirects clientFD (f a)) : Redirects clientFD (p >>= f) := by
  refine Prog.obeys_bind.mpr (Prog.Obeys.mono hp ?_)
  rintro g a rfl
  exact hf a

lemma redirects_ite {b : Prop} [Decidable b] {p q : Sys α} (hp : Redirects clientFD p)
    (hq : Redirects clientFD q) : Redirects clientFD (if b then p else q) := by
  split
  · exact hp
  · exact hq

/-- `dup`, `dup2`, the body and `dup2`. -/
lemma redirects_redirected {body : Sys α} (hbody : Stays body) :
    Redirects clientFD (redirected clientFD body) := by
  refine ⟨⟨rfl, rfl⟩, fun savedfd _ => ⟨⟨rfl, rfl⟩, fun _ _ => ?_⟩⟩
  have hrest : (body >>= fun a => do sys (.dup2 savedfd stdoutFileno); return a).Obeys
      (redirectUse clientFD) (.inside savedfd) fun g _ => g = .outside := by
    refine Prog.obeys_bind.mpr (Prog.Obeys.mono (Stays.obeys hbody (.inside savedfd)) ?_)
    rintro g a rfl
    exact ⟨⟨rfl, rfl⟩, fun _ _ => rfl⟩
  exact hrest

/-- A call whose answer does not matter. -/
lemma redirects_answer {op : SysOp} (hop : op.KeepsFds) {f : Answer op → Sys α}
    (hf : ∀ r, Redirects clientFD (f r)) : Redirects clientFD (sys op >>= f) :=
  (redirects_of_stays (show Stays (sys op) from ⟨hop, fun _ => trivial⟩)).bind hf

lemma compositional_redirects (clientFD : ℤ) :
    Compositional clientFD fun p => Redirects clientFD p where
  plain hp := redirects_of_stays hp.stays
  bind hp hf := hp.bind hf
  redirected hp := redirects_redirected hp.stays
  malloc hsome hnone := by
    refine redirects_answer (by trivial) fun b => ?_
    cases b with
    | none => exact hnone (redirects_of_stays stays_fault)
    | some b => exact hsome b
  alignment hsome hnone := by
    refine redirects_answer (by trivial) fun b => ?_
    cases b with
    | none => exact hnone (redirects_of_stays stays_fault)
    | some b => exact hsome b

lemma redirects_atoiArg (arg : Option Text) : Redirects clientFD (atoiArg arg) := by
  cases arg with
  | none => exact redirects_of_stays stays_fault
  | some s => exact redirects_ret _

lemma redirects_dispatch (past : ℕ → Byte) (c : Command) (perfJob : PerfJobInfo) :
    Redirects clientFD (dispatch clientFD past c perfJob) := by
  have hJ := compositional_redirects clientFD
  refine hJ.dispatch ?_ ?_ ?_ ?_
  · intro _
    exact hJ.mkpart (redirects_atoiArg _)
  · intro _
    exact hJ.rmpart (redirects_atoiArg _)
  · intro _
    exact hJ.write fun _ _ => redirects_of_stays stays_fault
  · intro _
    exact hJ.read c (hJ.buffer fun _ => redirects_of_stays ⟨trivial, fun _ => trivial⟩)

/-- The regions of a whole session. -/
theorem redirects_serve (clientFD : ℤ) (cmds : List (Command × (ℕ → Byte)))
    (perfJob : PerfJobInfo) : Redirects clientFD (serve clientFD cmds perfJob) := by
  induction cmds generalizing perfJob with
  | nil => exact redirects_ret _
  | cons x rest ih =>
    exact (redirects_dispatch x.2 x.1 perfJob).bind fun y =>
      redirects_ite (ih y.2) (redirects_ret _)

end Aesd
