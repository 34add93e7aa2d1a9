import Aesd.Server.Framing
import Aesd.Server.PlainCalls

/-!
# What a client thread holds

The descriptors and heap blocks that a client thread has got and not given back: its connection,
what `dup` returned, the buffer of the message, and the buffer of `read`. Nothing is done with the
buffer of a message that has been handled, and `savedfd` is not closed (`balanced_iff`). Memory of
libparted is not counted.
-/

namespace Aesd

open Effect CInt Bytes

/-! ### Resources -/

/-- Open descriptors and live blocks. -/
@[ext] structure Resources where
  fds : Set ℤ
  blocks : Set ℕ

namespace Resources

def addBlock (s : Resources) (block : ℕ) : Resources := { s with blocks := insert block s.blocks }

def removeBlock (s : Resources) (block : ℕ) : Resources := { s with blocks := s.blocks \ {block} }

def closeFd (s : Resources) (fd : ℤ) : Resources := { s with fds := s.fds \ {fd} }

end Resources

/-- The calls' effect on what the thread holds. `dup` returns a descriptor that was not open or
fails, and `malloc` a block that was not live or `NULL`. -/
def resourceExec : (op : SysOp) → Resources → Answer op → Resources → Prop
  | .dup _, s, r, s' =>
    (r = -1 ∧ s' = s) ∨ (0 ≤ r ∧ r ∉ s.fds ∧ s' = { s with fds := insert r s.fds })
  | .malloc _, s, r, s' =>
    (r = none ∧ s' = s) ∨
      ∃ block bytes, r = some (block, bytes) ∧ block ∉ s.blocks ∧ s' = s.addBlock block
  | .free none, s, _, s' => s' = s
  | .free (some block), s, _, s' => block ∈ s.blocks ∧ s' = s.removeBlock block
  | _, s, _, s' => s' = s

/-! ### A block that stays -/

/-- The obligation not to free a block, which `malloc` does not return again. -/
def sparesBlock (block : ℕ) : Protocol SysOp Answer Unit where
  pre
    | _, .free b => b ≠ some block
    | _, _       => True
  post
    | _, .malloc _, r => ∀ x, r = some x → x.1 ≠ block
    | _, _, _         => True
  next g _ _ := g

/-- The program does not free the block. -/
def Spares (block : ℕ) {α : Type} (p : Sys α) : Prop :=
  p.Obeys (sparesBlock block) () fun _ _ => True

variable {block : ℕ} {α : Type}

/-- Every call but `free` may be made. -/
lemma spares_of_only {p : Sys α} (hp : p.Only fun op => ∀ b, op ≠ .free b) : Spares block p := by
  refine hp.obeys ?_ (fun _ _ _ => rfl) fun _ => trivial
  intro op hop
  cases op with
  | free b => exact absurd rfl (hop b)
  | _ => trivial

lemma Spares.bind {β : Type} {p : Sys α} {f : α → Sys β} (hp : Spares block p)
    (hf : ∀ a, Spares block (f a)) : Spares block (p >>= f) :=
  Prog.obeys_bind.mpr (Prog.Obeys.mono hp fun _ a _ => hf a)

lemma Plain.ne_free {clientFD : ℤ} {p : Sys α} (hp : Plain clientFD p) :
    p.Only fun op => ∀ b, op ≠ .free b := by
  apply hp.mono
  rintro op hop b rfl
  exact hop

lemma compositional_spares (block : ℕ) (clientFD : ℤ) :
    Compositional clientFD fun p => Spares block p where
  plain hp := spares_of_only hp.ne_free
  bind hp hf := hp.bind hf
  redirected hp := by
    have hdup2 : ∀ oldfd newfd, (sys (.dup2 oldfd newfd)).Only fun op => ∀ b, op ≠ .free b :=
      fun _ _ => ⟨by nofun, fun _ => trivial⟩
    refine spares_of_only ⟨by nofun, fun savedfd => ?_⟩
    exact (hdup2 _ _).bind fun _ => hp.ne_free.bind fun _ => (hdup2 _ _).bind fun _ => trivial
  malloc hsome hnone := by
    refine ⟨trivial, fun r _ => ?_⟩
    cases r with
    | none => exact hnone (spares_of_only ⟨by nofun, fun r => r.elim⟩)
    | some b => exact hsome b
  alignment hsome hnone := by
    refine ⟨trivial, fun r _ => ?_⟩
    cases r with
    | none => exact hnone (spares_of_only ⟨by nofun, fun r => r.elim⟩)
    | some b => exact hsome b

lemma spares_fault : Spares block (fault : Sys α) := spares_of_only ⟨by nofun, fun r => r.elim⟩

lemma spares_atoiArg (arg : Option Text) : Spares block (atoiArg arg) := by
  cases arg with
  | none => exact spares_fault
  | some s => trivial

/-- A block that `malloc` returned is not the one to keep. -/
lemma spares_buffer {size : ℤ} {f : Option (ℕ × (ℕ → Byte)) → Sys Unit}
    (hf : ∀ r, Spares block (sys (.free (r.map (·.1)))) →
      (r = none → Spares block (fault : Sys Unit)) → Spares block (f r)) :
    Spares block (sys (.malloc size) >>= f) := by
  refine ⟨trivial, fun r hr => hf r ⟨?_, fun _ _ => trivial⟩ fun _ => spares_fault⟩
  cases r with
  | none => exact Option.some_ne_none block |>.symm
  | some x =>
    intro heq
    exact hr x rfl (Option.some.inj heq)

/-- No command frees the buffer that its message is in. -/
lemma spares_dispatch (clientFD : ℤ) (past : ℕ → Byte) (c : Command) (perfJob : PerfJobInfo) :
    Spares block (dispatch clientFD past c perfJob) := by
  have hJ := compositional_spares block clientFD
  refine hJ.dispatch ?_ ?_ ?_ ?_
  · intro _
    exact hJ.mkpart (spares_atoiArg _)
  · intro _
    exact hJ.rmpart (spares_atoiArg _)
  · intro _
    exact hJ.write fun _ _ => spares_fault
  · intro _
    exact hJ.read c spares_buffer

/-- The block is still held afterwards. -/
lemma Spares.mem_blocks {p : Sys α} (hp : Spares block p) {s s' : Resources} {a : α}
    (hs : block ∈ s.blocks) (heval : p.Eval resourceExec s a s') : block ∈ s'.blocks := by
  have hstep : ∀ s (g : Unit) op r s', block ∈ s.blocks → (sparesBlock block).pre g op →
      resourceExec op s r s' →
      (sparesBlock block).post g op r ∧ block ∈ s'.blocks := by
    intro s g op r s' hs hpre hexec
    cases op with
    | dup fd =>
      rcases hexec with ⟨-, rfl⟩ | ⟨-, -, rfl⟩
      · exact ⟨trivial, hs⟩
      · exact ⟨trivial, hs⟩
    | malloc size =>
      rcases hexec with ⟨rfl, rfl⟩ | ⟨b, bytes, rfl, hfresh, rfl⟩
      · exact ⟨by nofun, hs⟩
      · refine ⟨?_, Set.mem_insert_of_mem _ hs⟩
        rintro _ ⟨⟩ rfl
        exact hfresh hs  -- a new block is none of those in use
    | free b =>
      cases b with
      | none =>
        obtain rfl := hexec
        exact ⟨trivial, hs⟩
      | some b =>
        obtain ⟨-, rfl⟩ := hexec
        refine ⟨trivial, hs, ?_⟩
        rintro rfl
        exact hpre rfl
    | _ =>
      obtain rfl := hexec
      exact ⟨trivial, hs⟩
  obtain ⟨-, hmem, -⟩ := hp.eval (I := fun s _ => block ∈ s.blocks) hstep hs heval
  exact hmem

/-! ### The thread -/

/-- A thread between its calls: where it is, the block of the message buffer, the job left by the
last performance command, and what it holds. -/
structure ClientThread where
  session : Session := .starting
  buffer : ℕ := 0
  perfJob : PerfJobInfo := ⟨⟨0, 0⟩, 0⟩
  held : Resources

/-- A call in the loop returns, or `endProgram` is found set at the top of the loop. -/
inductive ThreadEvent where
  | input (input : SessionInput)
  | endProgram

/-- What is done with a message that was read completely; one without a command is skipped. -/
def handleMessage (clientFD : ℤ) (past : ℕ → Byte) (cmd : Option Command) (perfJob : PerfJobInfo) :
    Sys (Bool × PerfJobInfo) :=
  match cmd with
  | none   => return (true, perfJob)
  | some c => dispatch clientFD past c perfJob

lemma spares_handleMessage (clientFD : ℤ) (past : ℕ → Byte) (cmd : Option Command)
    (perfJob : PerfJobInfo) : Spares block (handleMessage clientFD past cmd perfJob) := by
  cases cmd with
  | none => trivial
  | some c => exact spares_dispatch clientFD past c perfJob

/-- What a thread holds when it has left its loop or goes back to the top of it. -/
def leaveLoop (clientFD : ℤ) (session : Session) (held : Resources) : Resources :=
  match session with
  | .ended => held.closeFd clientFD
  | _      => held

/-- One event. The thread gets memory for a message, or more of it; bytes arrive; a message is
handled; and the thread ends behind its loop, where it closes its connection, or when `recv`
fails. -/
inductive ClientThread.Step (clientFD : ℤ) (t : ClientThread) :
    ThreadEvent → ClientThread → Prop where
  | malloc {beyond : List Byte} {block : ℕ} (hs : t.session = .starting)
      (hfresh : block ∉ t.held.blocks) :
      Step clientFD t (.input (.malloc (some beyond))) { t with
        session := .receiving (.fresh beyond)
        buffer := block
        held := t.held.addBlock block }
  | realloc {r : Receiving} {memory : List Byte × List Byte} {s : Session} {block : ℕ}
      (hs : t.session = .growing r)
      (hstep : t.session.step (.realloc (some memory)) = some (s, []))
      (hblock : block = t.buffer ∨ block ∉ t.held.blocks) :
      Step clientFD t (.input (.realloc (some memory))) { t with
        session := s
        buffer := block
        held := (t.held.removeBlock t.buffer).addBlock block }
  | reallocFails {r : Receiving} (hs : t.session = .growing r) :
      Step clientFD t (.input (.realloc none)) { t with
        session := .starting
        held := t.held.removeBlock t.buffer }
  | recv {r : Receiving} {bytes : List Byte} {s : Session} (hs : t.session = .receiving r)
      (hstep : t.session.step (.recv bytes) = some (s, [])) (hstarting : s ≠ .starting)
      (hended : s ≠ .ended) :
      Step clientFD t (.input (.recv bytes)) { t with session := s }
  | message {r : Receiving} {bytes : List Byte} {cmd : Option Command} {past : ℕ → Byte}
      {res : Bool × PerfJobInfo} {held : Resources} (hs : t.session = .receiving r)
      (hstep : t.session.step (.recv bytes) = some (dispatchCommand cmd))
      (hrun : (handleMessage clientFD past cmd t.perfJob).Eval resourceExec t.held res held) :
      Step clientFD t (.input (.recv bytes)) { t with
        session := (dispatchCommand cmd).1
        perfJob := res.2
        held := leaveLoop clientFD (dispatchCommand cmd).1 held }
  | recvClosed {r : Receiving} {past : ℕ → Byte} {res : Bool × PerfJobInfo} {held : Resources}
      (hs : t.session = .receiving r)
      (hrun : (handleMessage clientFD past r.command t.perfJob).Eval resourceExec t.held res held) :
      Step clientFD t (.input .recvClosed) { t with
        session := .ended
        perfJob := res.2
        held := leaveLoop clientFD .ended held }
  | recvFailed {r : Receiving} (hs : t.session = .receiving r) :
      Step clientFD t (.input .recvFailed) { t with
        session := .ended
        held := t.held.removeBlock t.buffer }
  | endProgram (hs : t.session = .starting) :
      Step clientFD t .endProgram { t with
        session := .ended
        held := leaveLoop clientFD .ended t.held }

/-- A session: its events, each with the state it has led to, and the last state. -/
inductive SessionRun (clientFD : ℤ) : List (ThreadEvent × ClientThread) → ClientThread → Prop where
  | start : SessionRun clientFD [] { held := ⟨{clientFD}, ∅⟩ }
  | step {tr : List (ThreadEvent × ClientThread)} {t t' : ClientThread} {e : ThreadEvent}
      (run : SessionRun clientFD tr t) (hstep : t.Step clientFD e t') :
      SessionRun clientFD (tr ++ [(e, t')]) t'

/-! ### What a session leaves behind -/

/-- At the top of its loop the thread holds its connection only, and at its end nothing. -/
def Balanced (clientFD : ℤ) (t : ClientThread) : Prop :=
  (t.session = .starting → t.held = ⟨{clientFD}, ∅⟩) ∧ (t.session = .ended → t.held = ⟨∅, ∅⟩)

/-- The event neither completes a message nor ends the stream. -/
def ThreadEvent.Pending : ThreadEvent → Prop
  | .input (.recv bytes) => bytes.getLast? ≠ some newline
  | .input .recvClosed   => False
  | .input .recvFailed   => False
  | _                    => True

/-- What a thread holds that has had no complete message so far. -/
def Tidy (clientFD : ℤ) (t : ClientThread) : Prop :=
  match t.session with
  | .starting => t.held = ⟨{clientFD}, ∅⟩
  | .ended    => t.held = ⟨∅, ∅⟩
  | _         => t.held = ⟨{clientFD}, {t.buffer}⟩

variable {clientFD : ℤ} {t t' : ClientThread} {e : ThreadEvent}

lemma Tidy.balanced (h : Tidy clientFD t) : Balanced clientFD t := by
  rw [Tidy] at h
  constructor
  · intro hs
    rwa [hs] at h
  · intro hs
    rwa [hs] at h

/-- Bytes received complete a message exactly if the last one is a newline; the last alternative is
the overflow of `totalBytesRecvd`. -/
lemma recv_cases {r : Receiving} {bytes : List Byte} {s : Session} {out : List Command}
    (hstep : (Session.receiving r).step (.recv bytes) = some (s, out)) :
    (bytes.getLast? = some newline ∧ ∃ cmd, (s, out) = dispatchCommand cmd) ∨
      (bytes.getLast? ≠ some newline ∧ ∃ r', s = .receiving r' ∨ s = .growing r') ∨
      (s = .ended ∧ out = []) := by
  cases Session.steps_of_step hstep with
  | complete hne hfits hshort hlast =>
    rw [List.getLast?_append_of_ne_nil _ hne] at hlast
    exact Or.inl ⟨hlast, _, rfl⟩
  | full hne hfits hshort hlast hfull =>
    rw [List.getLast?_append_of_ne_nil _ hne] at hlast
    exact Or.inr (Or.inl ⟨hlast, _, Or.inr rfl⟩)
  | stored hne hfits hshort hlast hroom =>
    rw [List.getLast?_append_of_ne_nil _ hne] at hlast
    exact Or.inr (Or.inl ⟨hlast, _, Or.inl rfl⟩)
  | overflow hne hlong => exact Or.inr (Or.inr ⟨rfl, rfl⟩)

/-- A thread that has handled a message still holds its buffer. -/
lemma not_balanced_of_handled {s : Session} {held held' : Resources} {past : ℕ → Byte}
    {cmd : Option Command} {perfJob : PerfJobInfo} {res : Bool × PerfJobInfo}
    (hheld : held = ⟨{clientFD}, {block}⟩) (hs : s = .starting ∨ s = .ended)
    (hrun : (handleMessage clientFD past cmd perfJob).Eval resourceExec held res held') :
    ¬ Balanced clientFD { t with
      session := s, perfJob := res.2, held := leaveLoop clientFD s held' } := by
  have hmem : block ∈ held'.blocks :=
    (spares_handleMessage clientFD past cmd perfJob).mem_blocks (by rw [hheld]; rfl) hrun
  rintro ⟨hstarting, hended⟩
  rcases hs with rfl | rfl
  · have hempty := congrArg Resources.blocks (hstarting rfl)
    change held'.blocks = ∅ at hempty
    rw [hempty] at hmem
    exact hmem
  · have hempty := congrArg Resources.blocks (hended rfl)
    change held'.blocks = ∅ at hempty
    rw [hempty] at hmem
    exact hmem

/-- The step lemma: what the thread holds is in order as long as no message is complete, and not
any more afterwards. -/
lemma Tidy.step (h : Tidy clientFD t) (hstep : t.Step clientFD e t') :
    (e.Pending → Tidy clientFD t') ∧ (¬ e.Pending → ¬ Balanced clientFD t') := by
  rw [Tidy] at h
  cases hstep with
  | malloc hs hfresh =>
    rw [hs] at h
    refine ⟨fun _ => ?_, fun hpending => absurd trivial hpending⟩
    show t.held.addBlock _ = _
    rw [h]
    simp [Resources.addBlock]
  | @realloc r memory s block hs hrealloc hblock =>
    rw [hs] at h hrealloc
    refine ⟨fun _ => ?_, fun hpending => absurd trivial hpending⟩
    cases Session.steps_of_step hrealloc with
    | grown beyond hadded =>
      show (t.held.removeBlock t.buffer).addBlock block = ⟨{clientFD}, {block}⟩
      rw [show t.held = _ from h]
      simp [Resources.removeBlock, Resources.addBlock]
  | reallocFails hs =>
    rw [hs] at h
    refine ⟨fun _ => ?_, fun hpending => absurd trivial hpending⟩
    show t.held.removeBlock _ = _
    rw [show t.held = _ from h]
    simp [Resources.removeBlock]
  | recv hs hrecv hstarting hended =>
    rw [hs] at h hrecv
    rcases recv_cases hrecv with ⟨-, cmd, hcmd⟩ | ⟨hlast, r', hs'⟩ | ⟨hs', -⟩
    · rcases (dispatchCommand_cases cmd).1 with heq | heq
      · exact absurd ((congrArg Prod.fst hcmd).trans heq) hended
      · exact absurd ((congrArg Prod.fst hcmd).trans heq) hstarting
    · -- the message goes on, in the same buffer
      refine ⟨fun _ => ?_, fun hpending => absurd hlast hpending⟩
      rcases hs' with rfl | rfl
      · exact h
      · exact h
    · exact absurd hs' hended
  | @message r bytes cmd past res held hs hrecv hrun =>
    rw [hs] at h hrecv
    obtain ⟨hsession, hout⟩ := dispatchCommand_cases cmd
    refine ⟨fun hpending => ?_, fun _ => not_balanced_of_handled h hsession.symm hrun⟩
    obtain ⟨⟨s, out⟩, heq⟩ : ∃ x, dispatchCommand cmd = x := ⟨_, rfl⟩
    rw [heq] at hrecv hsession hout
    rcases recv_cases hrecv with ⟨hlast, -⟩ | ⟨-, r', hs' | hs'⟩ | ⟨hs', hnone⟩
    · exact absurd hlast hpending
    · rcases hsession with hsession | hsession <;> cases hs'.symm.trans hsession
    · rcases hsession with hsession | hsession <;> cases hs'.symm.trans hsession
    · cases cmd with
      | none => cases (congrArg Prod.fst heq).trans hs'
      | some c => cases hout.symm.trans hnone
  | recvClosed hs hrun =>
    rw [hs] at h
    exact ⟨False.elim, fun _ => not_balanced_of_handled h (Or.inr rfl) hrun⟩
  | recvFailed hs =>
    rw [hs] at h
    refine ⟨False.elim, fun _ hbalanced => ?_⟩
    have hempty := congrArg Resources.fds (hbalanced.2 rfl)
    change t.held.fds = ∅ at hempty
    rw [show t.held = _ from h] at hempty
    exact Set.singleton_ne_empty clientFD hempty
  | endProgram hs =>
    rw [hs] at h
    refine ⟨fun _ => ?_, fun hpending => absurd trivial hpending⟩
    show t.held.closeFd clientFD = _
    rw [h]
    simp [Resources.closeFd]

/-- The run lemma. -/
lemma SessionRun.holds {tr : List (ThreadEvent × ClientThread)} (run : SessionRun clientFD tr t)
    (hpending : ∀ x ∈ tr, x.1.Pending) : Tidy clientFD t := by
  induction run with
  | start => rfl
  | step run hstep ih =>
    have hholds := ih fun x hx => hpending x (List.mem_append_left _ hx)
    exact (hholds.step hstep).1 (hpending _ (List.mem_append_right _ (List.mem_singleton_self _)))

/-- A session holds its connection only whenever it is at the top of its loop, and nothing at its
end, if and only if no message of it is ever complete and its stream neither ends nor fails: each
message is given up for lack of memory, and the thread ends with the program. -/
theorem balanced_iff {tr : List (ThreadEvent × ClientThread)} (run : SessionRun clientFD tr t) :
    (∀ x ∈ tr, Balanced clientFD x.2) ↔ ∀ x ∈ tr, x.1.Pending := by
  induction run with
  | start => simp
  | @step tr t t' e run hstep ih =>
    simp only [List.forall_mem_append, List.forall_mem_singleton, ih]
    refine and_congr_right fun hpending => ?_
    obtain ⟨hholds, hleaks⟩ := (run.holds hpending).step hstep
    constructor
    · intro hbalanced
      by_contra hcomplete
      exact hleaks hcomplete hbalanced
    · intro he
      exact (hholds he).balanced

/-- The thread of connection 4 waits for its first message, with block 7 for it. -/
def waiting : ClientThread where
  session := .receiving (.fresh [])
  buffer := 7
  held := ⟨{4}, {7}⟩

lemma sessionRun_waiting : SessionRun 4 [(.input (.malloc (some [])), waiting)] waiting := by
  have hmalloc : ClientThread.Step 4 { held := ⟨{4}, ∅⟩ } (.input (.malloc (some [])))
      { session := .receiving (.fresh []), buffer := 7, held := ⟨{4}, insert 7 ∅⟩ } :=
    .malloc rfl (Set.notMem_empty 7)
  rw [insert_empty_eq] at hmalloc
  exact SessionRun.start.step hmalloc

/-- It gets a long message, there is no memory for all of it, and the program ends. -/
theorem balanced_iff_outOfMemory : ∃ tr t, SessionRun 4 tr t ∧
    tr.map Prod.fst = [.input (.malloc (some [])), .input (.recv (List.replicate 32 97)),
      .input (.realloc none), .endProgram] ∧
    t.held = ⟨∅, ∅⟩ ∧ ∀ x ∈ tr, Balanced 4 x.2 := by
  have hrecv : waiting.Step 4 (.input (.recv (List.replicate 32 97))) _ :=
    .recv rfl rfl (by nofun) (by nofun)
  have hrun := ((sessionRun_waiting.step hrecv).step (.reallocFails rfl)).step (.endProgram rfl)
  have hbalanced := (balanced_iff hrun).mpr (by simp [ThreadEvent.Pending, newline])
  have hlast := hbalanced _ (List.mem_append_right _ (List.mem_singleton_self _))
  exact ⟨_, _, hrun, rfl, hlast.2 rfl, hbalanced⟩

/-- It is asked for the status: the buffer of the message and the descriptor 9 that `dup` returned
are still held when the thread is back at the top of its loop. -/
theorem status_leaks : ∃ tr t, SessionRun 4 tr t ∧
    tr.map Prod.fst = [.input (.malloc (some [])), .input (.recv (str "status\n"))] ∧
    t.session = .starting ∧ t.held = ⟨{9, 4}, {7}⟩ ∧ ¬ Balanced 4 t := by
  have hrun : (handleMessage 4 (fun _ => 0) (some { cmd := str "status" }) waiting.perfJob).Eval
      resourceExec waiting.held (true, waiting.perfJob) ⟨{9, 4}, {7}⟩ := by
    rw [handleMessage, dispatch_eq, show Command.kind _ = .status from rfl]
    have hdup : resourceExec (.dup stdoutFileno) waiting.held 9 ⟨{9, 4}, {7}⟩ :=
      Or.inr ⟨by decide, by simp [waiting], rfl⟩
    exact ⟨(), _, rfl, 9, _, hdup, (), _, rfl, none, _, rfl, (), _, rfl, rfl, rfl⟩
  have hmessage : waiting.Step 4 (.input (.recv (str "status\n"))) _ := .message rfl rfl hrun
  refine ⟨_, _, sessionRun_waiting.step hmessage, rfl, rfl, rfl, fun hbalanced => ?_⟩
  have hblocks : ({7} : Set ℕ) = ∅ := congrArg Resources.blocks (hbalanced.1 rfl)
  exact Set.singleton_ne_empty 7 hblocks

end Aesd
