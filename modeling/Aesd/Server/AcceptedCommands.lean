import Aesd.Server.CommandQueue

/-!
# What becomes of accepted commands

A command that `enqueue_command` has accepted is in the queue until `processNextCommandInQueue`
takes it out, and then in the hands of that call until it is passed to one of the `execute_`
functions. A call that finds the machine in another state than the command needs returns with the
command still in its hands: it is lost. The machine never leaves `idle`, so no command is lost
exactly as long as none is taken out that needs another state (`accepted_not_lost`).
-/

namespace Aesd

open Effect

variable {Tid : Type} [DecidableEq Tid]

/-! ### Accounting for commands -/

/-- The command that an event puts in the queue. -/
def acceptedBy : Event QueueOp QueueAnswer Tid → Option CommandT
  | ⟨_, .enqueueLocked cmd, r⟩ => if r = ERROR_NONE then some cmd else none
  | _                          => none

/-- The command that an event passes to one of the `execute_` functions. -/
def handedBy : Event QueueOp QueueAnswer Tid → Option CommandT
  | ⟨_, .executeUserCommand cmd, _⟩  => some cmd
  | ⟨_, .executePerfCommand cmd, _⟩  => some cmd
  | ⟨_, .executeAdminCommand cmd, _⟩ => some cmd
  | _                                => none

/-- The commands in the hands of calls after one more event. -/
def hold (held : List (Tid × CommandT)) (e : Event QueueOp QueueAnswer Tid) :
    List (Tid × CommandT) :=
  match e with
  | ⟨t, .dequeueLocked, some cmd⟩ => (t, cmd) :: held
  | e                             =>
    match handedBy e with
    | some cmd => held.erase (e.tid, cmd)
    | none     => held

/-- The commands accepted so far. -/
def accepted (tr : List (Event QueueOp QueueAnswer Tid)) : List CommandT := tr.filterMap acceptedBy

/-- The commands executed so far, once for each time they were. -/
def handed (tr : List (Event QueueOp QueueAnswer Tid)) : List CommandT := tr.filterMap handedBy

/-- The commands that calls have taken out and not passed on. -/
def inHand (tr : List (Event QueueOp QueueAnswer Tid)) : List (Tid × CommandT) := tr.foldl hold []

/-- Every accepted command is once in the queue, executed, or in the hands of a call that has not
returned. -/
def NoneLost (tr : List (Event QueueOp QueueAnswer Tid)) (Q : List CommandT)
    (pool : Tid → QueueProg ℤ) : Prop :=
  (accepted tr).Perm (Q ++ handed tr ++ (inHand tr).map Prod.snd) ∧
    ∀ x ∈ inHand tr, (pool x.1).result = none

/-- A step that takes a command out of the queue finds one that needs no other state than the
machine is in. -/
def HeadReady (_ : List (Event QueueOp QueueAnswer Tid)) (q : CommandQueue)
    (e : Event QueueOp QueueAnswer Tid) : Prop :=
  e.op = .dequeueLocked → q.isQueueEmpty = false →
    (q.queue q.dequeueIndex).stateNeeded = .idle ∨ (q.queue q.dequeueIndex).stateNeeded = q.state

/-! ### What a call owes -/

/-- The ghost state of a call is the command in its hands. -/
def handProtocol : Protocol QueueOp QueueAnswer (Option CommandT) where
  pre
    | _, .enqueueLocked cmd       => validateCommand (some cmd) = ERROR_NONE
    | g, .dequeueLocked           => g = none
    | g, .executeUserCommand cmd  => g = some cmd
    | g, .executePerfCommand cmd  => g = some cmd
    | g, .executeAdminCommand cmd => g = some cmd
    | _, _                        => True
  post
    | _, .isInitComplete, r => r = true
    | _, .dequeueLocked, r  =>
      ∀ cmd, r = some cmd → validateCommand (some cmd) = ERROR_NONE ∧ cmd.stateNeeded = .idle
    | _, _, _               => True
  next
    | _, .dequeueLocked, r         => r
    | _, .executeUserCommand _, _  => none
    | _, .executePerfCommand _, _  => none
    | _, .executeAdminCommand _, _ => none
    | g, _, _                      => g

/-- A call returns with empty hands. -/
lemma QueueCall.body_emptyHanded (call : QueueCall) :
    call.body.Obeys handProtocol none fun g _ => g = none := by
  cases call with
  | enqueue cmd =>
    refine ⟨trivial, fun (isInitComplete : Bool) hinit => ?_⟩
    obtain rfl : isInitComplete = true := hinit
    simp only [Prog.bind, Bool.not_true, Bool.false_eq_true, if_false]
    split_ifs with hvalid
    · rfl
    · cases cmd with
      | none => rfl
      | some cmd => exact ⟨not_not.mp hvalid, fun r _ => rfl⟩
  | process =>
    refine ⟨trivial, fun (isInitComplete : Bool) hinit => ?_⟩
    obtain rfl : isInitComplete = true := hinit
    refine ⟨rfl, fun (next : Option CommandT) hnext => ?_⟩
    cases next with
    | none => rfl
    | some cmd =>
      obtain ⟨hvalid, hidle⟩ := hnext cmd rfl
      refine ⟨trivial, fun (state : SmState) _ => ?_⟩
      simp only [Prog.bind, hidle, ne_eq, not_true_eq_false, and_false, if_false]
      cases htype : cmd.cmdType with
      | userCommand => exact ⟨rfl, fun r _ => rfl⟩
      | perfCommand => exact ⟨rfl, fun r _ => rfl⟩
      | adminCommand => exact ⟨rfl, fun r _ => rfl⟩
      | other value => exact absurd htype (cmdType_ne_other hvalid value)
  | status =>
    refine ⟨trivial, fun (isInitComplete : Bool) hinit => ?_⟩
    obtain rfl : isInitComplete = true := hinit
    exact ⟨trivial, fun r _ => rfl⟩

/-! ### The invariant -/

/-- The ring holds the valid commands `Q`, all accepted commands are accounted for, and `g` says
what each thread has in its hands. -/
structure Accounts (tr : List (Event QueueOp QueueAnswer Tid)) (q : CommandQueue)
    (Q : List CommandT) (g : Tid → Option CommandT) : Prop where
  represents : Represents q Q
  valid : ∀ cmd ∈ Q, validateCommand (some cmd) = ERROR_NONE
  conserved : (accepted tr).Perm (Q ++ handed tr ++ (inHand tr).map Prod.snd)
  nodup : (inHand tr).Nodup
  held : ∀ t cmd, (t, cmd) ∈ inHand tr ↔ g t = some cmd

variable {tr : List (Event QueueOp QueueAnswer Tid)} {q q' : CommandQueue} {Q Q' : List CommandT}
  {g : Tid → Option CommandT} {t : Tid} {cmd : CommandT}

omit [DecidableEq Tid] in
lemma accepted_concat (e : Event QueueOp QueueAnswer Tid) :
    accepted (tr ++ [e]) = accepted tr ++ (acceptedBy e).toList := by
  rw [accepted, List.filterMap_append, ← accepted]
  cases hcmd : acceptedBy e with
  | none => simp [hcmd]
  | some cmd => simp [hcmd]

omit [DecidableEq Tid] in
lemma handed_concat (e : Event QueueOp QueueAnswer Tid) :
    handed (tr ++ [e]) = handed tr ++ (handedBy e).toList := by
  rw [handed, List.filterMap_append, ← handed]
  cases hcmd : handedBy e with
  | none => simp [hcmd]
  | some cmd => simp [hcmd]

lemma inHand_concat (e : Event QueueOp QueueAnswer Tid) :
    inHand (tr ++ [e]) = hold (inHand tr) e :=
  List.foldl_concat ..

/-- An event that neither accepts a command nor takes one out nor passes one on. -/
lemma Accounts.other (h : Accounts tr q Q g) {e : Event QueueOp QueueAnswer Tid}
    (haccepted : acceptedBy e = none) (hhanded : handedBy e = none)
    (hhold : hold (inHand tr) e = inHand tr) (hq : Represents q' Q) :
    Accounts (tr ++ [e]) q' Q g := by
  refine ⟨hq, h.valid, ?_, ?_, ?_⟩
  · rw [accepted_concat, handed_concat, inHand_concat, haccepted, hhanded, hhold]
    simpa using h.conserved
  · rw [inHand_concat, hhold]
    exact h.nodup
  · rw [inHand_concat, hhold]
    exact h.held

/-- A command goes to the end of the queue. -/
lemma Accounts.accept (h : Accounts tr q Q g)
    (hvalid : validateCommand (some cmd) = ERROR_NONE) (hq : Represents q' (Q ++ [cmd])) :
    Accounts (tr ++ [⟨t, .enqueueLocked cmd, ERROR_NONE⟩]) q' (Q ++ [cmd]) g := by
  have hhold : hold (inHand tr) ⟨t, .enqueueLocked cmd, ERROR_NONE⟩ = inHand tr := rfl
  refine ⟨hq, ?_, ?_, ?_, ?_⟩
  · intro cmd' hmem
    rcases List.mem_append.mp hmem with hmem | hmem
    · exact h.valid cmd' hmem
    · rw [List.mem_singleton.mp hmem]
      exact hvalid
  · -- the new command is accepted, and last in the queue
    rw [accepted_concat, handed_concat, inHand_concat, hhold]
    show (accepted tr ++ [cmd]).Perm (Q ++ [cmd] ++ (handed tr ++ []) ++ (inHand tr).map Prod.snd)
    rw [List.append_nil, List.append_assoc, List.append_assoc]
    refine (h.conserved.append_right [cmd]).trans ?_
    rw [List.append_assoc, List.append_assoc]
    refine List.Perm.append_left Q ?_
    rw [← List.append_assoc]
    exact List.perm_append_comm
  · rw [inHand_concat, hhold]
    exact h.nodup
  · rw [inHand_concat, hhold]
    exact h.held

/-- A thread with empty hands takes the oldest command. -/
lemma Accounts.take (h : Accounts tr q (cmd :: Q) g) (hempty : g t = none)
    (hq : Represents q' Q) :
    Accounts (tr ++ [⟨t, .dequeueLocked, some cmd⟩]) q' Q
      (Function.update g t (some cmd)) := by
  have hhold : hold (inHand tr) ⟨t, .dequeueLocked, some cmd⟩ = (t, cmd) :: inHand tr := rfl
  have hnone : ∀ cmd', (t, cmd') ∉ inHand tr := by
    intro cmd' hmem
    rw [h.held, hempty] at hmem
    cases hmem
  refine ⟨hq, fun cmd' hmem => h.valid cmd' (List.mem_cons_of_mem cmd hmem), ?_, ?_, ?_⟩
  · -- the oldest command moves from the queue to the hands of the call
    rw [accepted_concat, handed_concat, inHand_concat, hhold]
    show (accepted tr ++ []).Perm (Q ++ (handed tr ++ []) ++ cmd :: (inHand tr).map Prod.snd)
    rw [List.append_nil, List.append_nil]
    exact h.conserved.trans List.perm_middle.symm
  · rw [inHand_concat, hhold]
    exact List.nodup_cons.mpr ⟨hnone cmd, h.nodup⟩
  · intro u cmd'
    rw [inHand_concat, hhold, List.mem_cons, h.held, Prod.mk.injEq]
    by_cases hu : u = t
    · subst hu
      rw [Function.update_self, hempty]
      simp [eq_comm]
    · rw [Function.update_of_ne hu]
      simp [hu]

/-- A thread passes on the command in its hands. -/
lemma Accounts.hand (h : Accounts tr q Q g) (hcmd : g t = some cmd)
    {e : Event QueueOp QueueAnswer Tid} (haccepted : acceptedBy e = none)
    (hhanded : handedBy e = some cmd) (hhold : hold (inHand tr) e = (inHand tr).erase (t, cmd)) :
    Accounts (tr ++ [e]) q Q (Function.update g t none) := by
  have hmem := (h.held t cmd).mpr hcmd
  refine ⟨h.represents, h.valid, ?_, ?_, ?_⟩
  · -- the command moves from the hands of the call to those executed
    rw [accepted_concat, handed_concat, inHand_concat, haccepted, hhanded, hhold]
    have hperm := ((List.perm_cons_erase hmem).map Prod.snd).append_left (Q ++ handed tr)
    simpa using h.conserved.trans hperm
  · rw [inHand_concat, hhold]
    exact h.nodup.erase _
  · intro u cmd'
    rw [inHand_concat, hhold, h.nodup.mem_erase_iff, h.held]
    by_cases hu : u = t
    · subst hu
      rw [Function.update_self, hcmd]
      simp [eq_comm]
    · rw [Function.update_of_ne hu]
      simp [hu]

omit [DecidableEq Tid] in
/-- The command that is taken out is the oldest one, and it needs the state the machine is in. -/
lemma Represents.head_idle (hq : Represents q (cmd :: Q))
    (hready : HeadReady tr q ⟨t, .dequeueLocked, some cmd⟩) : cmd.stateNeeded = .idle := by
  have hhead : q.queue q.dequeueIndex = cmd := hq.contains.head
  have hnonempty : q.isQueueEmpty = false := by
    rw [← Bool.not_eq_true]
    intro hempty
    cases hq.isEmpty_iff.mp hempty
  have hneeded := hready rfl hnonempty
  rw [hhead, hq.idle, or_self] at hneeded
  exact hneeded

/-- One step of an obedient call keeps the account. -/
lemma Accounts.step (h : Accounts tr q Q g) (op : QueueOp) (r : QueueAnswer op)
    (hpre : handProtocol.pre (g t) op) (hready : HeadReady tr q ⟨t, op, r⟩)
    (hexec : queueExec op q r q') :
    handProtocol.post (g t) op r ∧ ∃ Q', Accounts (tr ++ [⟨t, op, r⟩]) q' Q'
      (Function.update g t (handProtocol.next (g t) op r)) := by
  obtain ⟨Q', hfifo, hQ'⟩ := h.represents.step op r hexec
  have hself : Function.update g t (g t) = g := Function.update_eq_self t g
  cases op with
  | isInitComplete =>
    obtain ⟨rfl, rfl⟩ := hfifo
    exact ⟨rfl, _, hself.symm ▸ h.other rfl rfl rfl hQ'⟩
  | enqueueLocked cmd =>
    rw [fifoExec] at hfifo
    split_ifs at hfifo with hroom
    · obtain ⟨rfl, rfl⟩ := hfifo
      exact ⟨trivial, _, hself.symm ▸ h.accept hpre hQ'⟩
    · obtain ⟨rfl, rfl⟩ := hfifo
      exact ⟨trivial, _, hself.symm ▸ h.other rfl rfl rfl hQ'⟩
  | dequeueLocked =>
    obtain ⟨rfl, rfl⟩ := hfifo
    have hempty : g t = none := hpre
    cases Q with
    | nil =>
      refine ⟨by simp [handProtocol], [], ?_⟩
      show Accounts _ q' [] (Function.update g t none)
      rw [← hempty, hself]
      exact h.other rfl rfl rfl hQ'
    | cons cmd Q =>
      refine ⟨?_, Q, h.take hempty hQ'⟩
      rintro cmd' ⟨⟩
      exact ⟨h.valid cmd List.mem_cons_self, h.represents.head_idle hready⟩
  | statusLocked | state =>
    obtain ⟨-, rfl⟩ := hfifo
    exact ⟨trivial, _, hself.symm ▸ h.other rfl rfl rfl hQ'⟩
  | executeUserCommand cmd =>
    obtain rfl := hexec
    exact ⟨trivial, Q, h.hand hpre rfl rfl rfl⟩
  | executePerfCommand cmd | executeAdminCommand cmd =>
    obtain ⟨-, rfl⟩ := hexec
    exact ⟨trivial, Q, h.hand hpre rfl rfl rfl⟩

variable {calls : Tid → QueueCall} {c : Config QueueOp QueueAnswer ℤ CommandQueue Tid}

/-- In every interleaving in which no command is taken out of the queue that needs another state
than the machine is in, no accepted command is lost. -/
theorem accepted_not_lost
    (run : Run queueExec HeadReady ⟨commandQueueInit, fun t => (calls t).body⟩ tr c) :
    ∃ Q, Represents c.state Q ∧ NoneLost tr Q c.pool := by
  obtain ⟨g, ⟨Q, h⟩, hobey⟩ := run.invariant (fun _ => handProtocol) (fun _ g _ => g = none)
    (fun tr q g => ∃ Q, Accounts tr q Q g) (fun _ => none)
    ⟨[], commandQueueInit_represents, by simp, by simp [accepted, handed, inHand], by simp [inHand],
      by simp [inHand]⟩ (fun t => (calls t).body_emptyHanded)
    (by
      rintro tr q g t op r q' ⟨Q, h⟩ hpre hready hexec
      exact h.step op r hpre hready hexec)
  refine ⟨Q, h.represents, h.conserved, ?_⟩
  rintro ⟨t, cmd⟩ hmem
  have hheld := (h.held t cmd).mp hmem
  -- the command belongs to a call, which has not returned with it
  cases hpool : c.pool t with
  | call op k => rfl
  | ret a =>
    have hempty := hobey t
    rw [hpool, hheld] at hempty
    cases hempty

/-- Of three commands one has been executed, one is in the hands of a call and one in the queue. -/
theorem accepted_not_lost_threeCommands : ∃ tr c,
    Run queueExec HeadReady ⟨commandQueueInit, fun t => (threeCommands t).body⟩ tr c ∧
    accepted tr = [{ cmdType := .userCommand }, { cmdType := .perfCommand },
      { cmdType := .userCommand, userCmdInfo := { sector := 1 } }] ∧
    handed tr = [{ cmdType := .perfCommand }] ∧
    inHand tr = [(3, { cmdType := .userCommand })] ∧
    Represents c.state [{ cmdType := .userCommand, userCmdInfo := { sector := 1 } }] ∧
    NoneLost tr [{ cmdType := .userCommand, userCmdInfo := { sector := 1 } }] c.pool := by
  obtain ⟨tr, c, run, htest⟩ := exists_run_of_play (C := HeadReady)
    (fun _ q _ => q.isQueueEmpty || (q.queue q.dequeueIndex).stateNeeded = .idle)
    ⟨commandQueueInit, fun t => (threeCommands t).body⟩
    [(1, 0), (0, 0), (0, 0), (4, 0), (1, 0), (3, 0), (3, 0), (2, 0), (4, 0), (4, 0), (4, 0), (2, 0),
      (3, 0)]
    (fun x => accepted x.1 = [{ cmdType := .userCommand }, { cmdType := .perfCommand },
        { cmdType := .userCommand, userCmdInfo := { sector := 1 } }] ∧
      handed x.1 = [{ cmdType := .perfCommand }] ∧
      inHand x.1 = [(3, { cmdType := .userCommand })] ∧ x.2.state.isQueueEmpty = false ∧
      x.2.state.enqueueIndex = queueNextIndex x.2.state.dequeueIndex ∧
      x.2.state.queue x.2.state.dequeueIndex =
        { cmdType := .userCommand, userCmdInfo := { sector := 1 } })
    queueExec_of_respond
    (by
      intro tr q e hcond _ hnonempty
      rw [hnonempty, Bool.false_or, decide_eq_true_eq] at hcond
      exact Or.inl hcond) rfl
  obtain ⟨haccepted, hhanded, hheld, hempty, hnext, hslot⟩ := of_decide_eq_true htest
  obtain ⟨Q, hQ, hnone⟩ := accepted_not_lost run
  obtain rfl := hQ.eq_singleton hempty hnext
  rw [hslot] at hQ hnone
  exact ⟨tr, c, run, haccepted, hhanded, hheld, hQ, hnone⟩

/-- One thread enqueues a command, another one processes it. -/
def enqueueThenProcess (cmd : CommandT) : Bool → QueueCall
  | true  => .enqueue (some cmd)
  | false => .process

/-- A command that needs `userMode` is accepted. The call that takes it out returns `ERROR_STATE`,
and the command is neither in the queue nor has it been executed. -/
theorem accepted_lost_wrongState : ∃ tr c,
    Run queueExec anyStep ⟨commandQueueInit, fun t => (enqueueThenProcess
      { cmdType := .userCommand, stateNeeded := .userMode } t).body⟩ tr c ∧
    (c.pool true).result = some ERROR_NONE ∧ (c.pool false).result = some ERROR_STATE ∧
    accepted tr = [{ cmdType := .userCommand, stateNeeded := .userMode }] ∧ handed tr = [] ∧
    c.state.isQueueEmpty = true ∧ ∀ Q, ¬ NoneLost tr Q c.pool := by
  obtain ⟨tr, c, run, htest⟩ := exists_run_of_play (C := anyStep) (fun _ _ _ => true)
    ⟨commandQueueInit, fun t => (enqueueThenProcess
      { cmdType := .userCommand, stateNeeded := .userMode } t).body⟩
    [(true, 0), (true, 0), (false, 0), (false, 0), (false, 0)]
    (fun x => (x.2.pool true).result = some ERROR_NONE ∧
      (x.2.pool false).result = some ERROR_STATE ∧
      accepted x.1 = [{ cmdType := .userCommand, stateNeeded := .userMode }] ∧ handed x.1 = [] ∧
      x.2.state.isQueueEmpty = true ∧
      inHand x.1 = [(false, { cmdType := .userCommand, stateNeeded := .userMode })])
    queueExec_of_respond (fun _ _ _ _ => trivial) rfl
  obtain ⟨htrue, hfalse, haccepted, hhanded, hempty, hheld⟩ := of_decide_eq_true htest
  refine ⟨tr, c, run, htrue, hfalse, haccepted, hhanded, hempty, ?_⟩
  rintro Q ⟨-, hreturned⟩
  have hnone := hreturned (false, { cmdType := .userCommand, stateNeeded := .userMode })
    (by rw [hheld]; exact List.mem_singleton_self _)
  rw [hfalse] at hnone
  cases hnone

end Aesd
