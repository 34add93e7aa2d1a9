import Aesd.Server.Shutdown
import Aesd.Server.Framing

/-!
# The whole process

The parts of the server together: the listener and the threads with their receive loops (`Server`),
the handlers that the threads execute (`dispatch`), and the disk. While a thread is in a handler it
makes one call after the other, between those of the other threads, and does nothing else; the
commands are the ones that its receive loop finds in the bytes it gets.

From the disk's side a process is an interleaving of `repsondingThread` programs, one for each
connection, over the commands that its client turned out to send (`process_refines`).
-/

namespace Aesd

open Effect CInt

/-! ### A thread -/

/-- The client's commands, each with what is in memory behind its `arg2`. -/
abbrev Commands := List (Command × (ℕ → Byte))

/-- `repsondingThread` before its loop, with its `threadActive` and `perfJob`. -/
def greeting (clientFD : ℤ) : Sys (Bool × PerfJobInfo) := do
  let _ ← sys (.send clientFD (str "Welcome to the NVME command server!\n\n\n"))
  sendCommandUsage clientFD
  return (true, { lbaRange := { startlba := 0, endlba := 0 }, durationMs := 0 })

/-- What a thread does about the commands that are still to come. -/
def serveNext (clientFD : ℤ) (cmds : Commands) (x : Bool × PerfJobInfo) : Sys Unit :=
  if x.1 then serve clientFD cmds x.2 else return ()

/-- `repsondingThread`, for a client that sends these commands. -/
def repsondingThread (clientFD : ℤ) (cmds : Commands) : Sys Unit :=
  greeting clientFD >>= serveNext clientFD cmds

lemma serve_cons (clientFD : ℤ) (x : Command × (ℕ → Byte)) (cmds : Commands)
    (perfJob : PerfJobInfo) :
    serve clientFD (x :: cmds) perfJob =
      dispatch clientFD x.2 x.1 perfJob >>= serveNext clientFD cmds := rfl

/-! ### The process -/

/-- The process. `handler c` is what is left of the handler that thread `c` is in, `perfJob c` its
variable of this name. `dispatched` is no variable of the program: it has the commands of each
thread so far. -/
structure AesdSocket where
  server : Server := {}
  device : Device
  handler : ℕ → Option (Sys (Bool × PerfJobInfo)) := fun _ => none
  perfJob : ℕ → PerfJobInfo := fun _ => ⟨⟨0, 0⟩, 0⟩
  dispatched : ℕ → Commands := fun _ => []

/-- What may happen next: an event of the listener or of a receive loop, with what is in memory
behind `arg2` if that completes a command; a call of a handler; or its return. -/
inductive ProcessEvent where
  | server (e : ServerEvent) (past : ℕ → Byte)
  | call (c : ℕ) (op : SysOp) (r : Answer op)
  | returns (c : ℕ)

/-- The thread whose event it is. -/
def ServerEvent.thread : ServerEvent → Option ℕ
  | .input c _  => some c
  | .endLoop c  => some c
  | .close c    => some c
  | .complete c => some c
  | _           => none

/-- The command that a thread finds in what it receives. -/
def Server.found (s : Server) : ServerEvent → Option (ℕ × Command)
  | .input c input =>
    match (s.node c).thread with
    | .serving session => do
      let (_, cmds) ← session.step input
      let cmd ← cmds.head?
      return (c, cmd)
    | _                => none
  | _              => none

namespace AesdSocket

/-- An event of the listener or of a receive loop. A new thread begins with the greeting, one that
has found a command with its handler. -/
def advance (p : AesdSocket) (e : ServerEvent) (past : ℕ → Byte) : Option AesdSocket :=
  -- a thread does nothing else while it is in its handler
  if e.thread.any fun c => (p.handler c).isSome then none
  else
    (p.server.step e).map fun server =>
      if p.server.started < server.started then
        { p with
          server := server
          handler := Function.update p.handler p.server.started
            (some (greeting (server.node p.server.started).clientfd)) }
      else
        match p.server.found e with
        | none          => { p with server := server }
        | some (c, cmd) => { p with
          server := server
          handler := Function.update p.handler c
            (some (dispatch (p.server.node c).clientfd past cmd (p.perfJob c)))
          dispatched := Function.update p.dispatched c (p.dispatched c ++ [(cmd, past)]) }

/-- One event. -/
inductive Step (p : AesdSocket) : ProcessEvent → AesdSocket → Prop where
  | server {e : ServerEvent} {past : ℕ → Byte} {p' : AesdSocket} (h : p.advance e past = some p') :
      Step p (.server e past) p'
  | call {c : ℕ} {op : SysOp} {k : Answer op → Sys (Bool × PerfJobInfo)} {r : Answer op}
      {device : Device} (hhandler : p.handler c = some (.call op k))
      (hexec : pedExec op p.device r device) :
      Step p (.call c op r) { p with
        device := device, handler := Function.update p.handler c (some (k r)) }
  | returns {c : ℕ} {active : Bool} {perfJob : PerfJobInfo}
      (hhandler : p.handler c = some (.ret (active, perfJob))) :
      Step p (.returns c) { p with
        handler := Function.update p.handler c none
        perfJob := Function.update p.perfJob c perfJob }

/-- The process after some events, which began with the disk `d`. -/
inductive Runs (d : Device) : List ProcessEvent → AesdSocket → Prop where
  | start : Runs d [] { device := d }
  | step {events : List ProcessEvent} {e : ProcessEvent} {p p' : AesdSocket} (run : Runs d events p)
      (hstep : p.Step e p') : Runs d (events ++ [e]) p'

/-! ### What the parts see -/

/-- The events of the listener and the receive loops. -/
def serverEvents (events : List ProcessEvent) : List ServerEvent :=
  events.filterMap fun
    | .server e _ => some e
    | _           => none

/-- What one thread receives. -/
def inputsOf (c : ℕ) (events : List ProcessEvent) : List SessionInput :=
  events.filterMap fun
    | .server (.input d input) _ => if d = c then some input else none
    | _                          => none

/-- The calls of all handlers. -/
def calls (events : List ProcessEvent) : List (Event SysOp Answer ℕ) :=
  events.filterMap fun
    | .call c op r => some ⟨c, op, r⟩
    | _            => none

end AesdSocket

/-! ### What a server event changes -/

/-- What comes of an input: the thread goes on with the session, or is past its loop; it finds at
most one command, in bytes that it received, and `quit` ends its loop. -/
lemma ThreadState.receive_spec {session : Session} {input : SessionInput} {thread : ThreadState}
    (h : receive session input = some thread) :
    ∃ session' out, session.step input = some (session', out) ∧
      (thread = .serving session' ∨ ∀ x, thread ≠ .serving x) ∧
      (out = [] ∨ ∃ cmd, out = [cmd] ∧ thread.holdsDescriptor = true ∧
        ((∃ bytes, input = .recv bytes) ∨ input = .recvClosed) ∧
        (cmd.is "quit" = true → ∀ x, thread ≠ .serving x)) := by
  cases hstep : session.step input with
  | none =>
    unfold receive at h
    rw [hstep] at h
    cases input <;> cases h
  | some x =>
    obtain ⟨session', out⟩ := x
    refine ⟨session', out, rfl, ?_⟩
    unfold receive at h
    rw [hstep] at h
    cases Session.steps_of_step hstep with
    -- the bytes that complete a message may be a command, and this may be `quit`
    | @complete r bytes hne hfits hshort hlast =>
      generalize (r.store bytes hfits).command = command at h
      cases command with
      | none =>
        cases h
        exact ⟨Or.inl rfl, Or.inl rfl⟩
      | some cmd =>
        rw [dispatchCommand] at h ⊢
        cases hquit : cmd.is "quit" with
        | true =>
          rw [hquit] at h
          cases h
          exact ⟨Or.inr (by simp), Or.inr ⟨cmd, rfl, rfl, Or.inl ⟨bytes, rfl⟩, by simp⟩⟩
        | false =>
          rw [hquit] at h
          cases h
          exact ⟨Or.inl rfl, Or.inr ⟨cmd, rfl, rfl, Or.inl ⟨bytes, rfl⟩, by simp [hquit]⟩⟩
    -- the end of the stream: what came before it may be a command as well
    | closed r =>
      cases h
      cases r.command with
      | none => exact ⟨Or.inr (by simp), Or.inl rfl⟩
      | some cmd => exact ⟨Or.inr (by simp), Or.inr ⟨cmd, rfl, rfl, Or.inr rfl, by simp⟩⟩
    | failed r =>
      cases h
      exact ⟨Or.inr (by simp), Or.inl rfl⟩
    | noMemory => cases h
    | overflow _ _ => cases h
    | ended =>
      cases input <;> cases h
      all_goals exact ⟨Or.inr (by simp), Or.inl rfl⟩
    | _ =>
      cases h
      exact ⟨Or.inl rfl, Or.inl rfl⟩

namespace Server

variable {s s' : Server} {e : ServerEvent} {c : ℕ}

/-- Only its own events change where a thread is, and nothing changes its descriptor. -/
lemma Steps.node_of_lt (h : s.Steps e s') (hlt : c < s.started) :
    (s'.node c).clientfd = (s.node c).clientfd ∧
      (e.thread ≠ some c → (s'.node c).thread = (s.node c).thread) := by
  have hinsert : ∀ clientfd, (s.insertNode clientfd).node c = s.node c :=
    fun clientfd => node_insertNode_of_ne clientfd hlt.ne
  have hremove : ∀ (s : Server) d, ((s.removeNode d).node c).clientfd = (s.node c).clientfd ∧
      ((s.removeNode d).node c).thread = (s.node c).thread := by
    intro s d
    by_cases hd : c = d
    · subst hd
      simp
    · rw [node_removeNode_of_ne hd]
      exact ⟨rfl, rfl⟩
  have hset : ∀ (d : ℕ) (n : ClientNode), n.clientfd = (s.node d).clientfd →
      ((s.setNode d n).node c).clientfd = (s.node c).clientfd ∧
        (some d ≠ some c → ((s.setNode d n).node c).thread = (s.node c).thread) := by
    intro d n hn
    by_cases hd : c = d
    · subst hd
      simpa using hn
    · simp [hd]
  cases h with
  | accept _ _ _ => exact ⟨congrArg _ (hinsert _), fun _ => congrArg _ (hinsert _)⟩
  | acceptFails _ => exact ⟨congrArg _ (hinsert _), fun _ => congrArg _ (hinsert _)⟩
  | remove _ _ _ => exact ⟨(hremove _ _).1, fun _ => (hremove _ _).2⟩
  | join _ _ => exact ⟨(hremove _ _).1, fun _ => (hremove _ _).2⟩
  | input _ _ _ _ => exact hset _ _ rfl
  | endLoop _ _ _ => exact hset _ _ rfl
  | close _ => exact hset _ _ rfl
  | complete _ => exact hset _ _ rfl
  | _ => exact ⟨rfl, fun _ => rfl⟩

/-- No thread is started, or one by the listener, which is at the start of its loop. -/
lemma Steps.started_cases (h : s.Steps e s') :
    s'.started = s.started ∨ (s'.started = s.started + 1 ∧ e.thread = none ∧
      (s'.node s.started).thread = .serving .starting) := by
  cases h with
  | accept _ _ _ => exact Or.inr ⟨rfl, rfl, congrArg _ (node_insertNode_self _)⟩
  | acceptFails _ => exact Or.inr ⟨rfl, rfl, congrArg _ (node_insertNode_self _)⟩
  | _ => exact Or.inl rfl

/-- A thread that is past its loop does not come back to it. -/
lemma Steps.not_serving (h : s.Steps e s') (hthread : e.thread = some c)
    (hnot : ∀ x, (s.node c).thread ≠ .serving x) : ∀ x, (s'.node c).thread ≠ .serving x := by
  cases h with
  | input hserving _ _ _ =>
    cases hthread
    exact absurd hserving (hnot _)
  | endLoop hserving _ _ =>
    cases hthread
    exact absurd hserving (hnot _)
  | close _ =>
    cases hthread
    simp
  | complete _ =>
    cases hthread
    simp
  | _ => cases hthread

/-- Only its own inputs move a thread in its loop. -/
lemma Steps.serving_of_other (h : s.Steps e s') (hs : s.Sound) (hs' : s'.Sound)
    (hother : ∀ input, e ≠ .input c input) {x : Session} (hx : (s'.node c).thread = .serving x) :
    (s.node c).thread = .serving x := by
  by_cases hlt : c < s.started
  · -- the thread's own events that are not inputs end its loop
    by_cases hthread : e.thread = some c
    · cases h with
      | @input d input _ _ _ _ _ _ =>
        cases hthread
        exact absurd rfl (hother input)
      | endLoop _ _ _ =>
        cases hthread
        simp at hx
      | close _ =>
        cases hthread
        simp at hx
      | complete _ =>
        cases hthread
        simp at hx
      | _ => cases hthread
    · rwa [← (h.node_of_lt hlt).2 hthread]
  · -- a thread that is not there, or a new one, is where every thread begins
    rw [hs.unused c (not_lt.mp hlt)]
    rw [← hx]
    rcases h.started_cases with hstarted | ⟨hstarted, -, hnew⟩
    · rw [hs'.unused c (by omega)]
    · by_cases hc : c = s.started
      · subst hc
        rw [hnew]
      · rw [hs'.unused c (by omega)]

/-- What comes of an input of thread `c`. -/
lemma Steps.input_spec {input : SessionInput} (h : s.Steps (.input c input) s') :
    ∃ session session' out, (s.node c).thread = .serving session ∧
      session.step input = some (session', out) ∧
      s.found (.input c input) = out.head?.map (fun cmd => (c, cmd)) ∧
      ((s'.node c).thread = .serving session' ∨ ∀ x, (s'.node c).thread ≠ .serving x) ∧
      (out = [] ∨ ∃ cmd, out = [cmd] ∧ (s'.node c).thread.holdsDescriptor = true ∧
        (s.node c).clientfd ≠ -1 ∧
        (cmd.is "quit" = true → ∀ x, (s'.node c).thread ≠ .serving x)) := by
  cases h with
  | @input _ _ session thread hthread hlt hadmits hreceive =>
    obtain ⟨session', out, hstep, hnext, hout⟩ := ThreadState.receive_spec hreceive
    refine ⟨session, session', out, hthread, hstep, ?_, ?_, ?_⟩
    · simp only [found, hthread, hstep]
      cases out <;> rfl
    · rwa [node_setNode_self]
    · rw [node_setNode_self]
      rcases hout with hout | ⟨cmd, hout, hholds, hinput, hquit⟩
      · exact Or.inl hout
      · refine Or.inr ⟨cmd, hout, hholds, ?_, hquit⟩
        rcases hinput with ⟨bytes, rfl⟩ | rfl <;> simpa [admits] using hadmits

end Server

/-! ### What a handler returns -/

/-- The word begins as the command does. -/
lemma Command.head_of_is {c : Command} {word : String} {b : Byte} {rest : Text}
    (h : c.is word = true) (hword : str word = b :: rest) (hb : b ≠ 0) : c.cmd.head? = some b := by
  rw [Command.is, hword, beq_iff_eq] at h
  cases hcmd : c.cmd with
  | nil =>
    rw [hcmd, strncmp] at h
    have hzero : b.toNat = (0 : Byte).toNat := by simpa using h
    exact absurd (UInt8.toNat.inj hzero) hb
  | cons x a =>
    rw [hcmd, strncmp] at h
    split_ifs at h with hx
    · rw [hx, List.head?_cons]
    · exact absurd (UInt8.toNat.inj (by omega)) hx

lemma Command.kind_eq_quit_iff (c : Command) : c.kind = .quit ↔ c.is "quit" = true := by
  constructor
  · intro h
    by_contra hquit
    have hbranch : ∀ {b : Bool} {k k' : CommandKind}, k ≠ .quit →
        (if b = true then k else k') = .quit → k' = .quit := by
      intro b k k' hk h
      cases b with
      | true => exact absurd h hk
      | false => exact h
    unfold Command.kind at h
    -- the branches that come before `quit`
    iterate 3 replace h := hbranch (by simp) h
    rw [if_neg hquit] at h
    -- the branches that come after it
    iterate 8 replace h := hbranch (by simp) h
    cases h
  · intro h
    have hhead := head_of_is (b := 113) h rfl (by decide)
    have hother : ∀ (word : String) (b : Byte) (rest : Text), str word = b :: rest → b ≠ 0 →
        b ≠ 113 → c.is word = false := by
      intro word b rest hword hb hne
      rw [← Bool.not_eq_true]
      intro his
      rw [head_of_is his hword hb] at hhead
      exact hne (Option.some.inj hhead)
    rw [kind, hother "?" 63 [] rfl (by decide) (by decide),
      hother "help" 104 (str "elp") rfl (by decide) (by decide),
      hother "status" 115 (str "tatus") rfl (by decide) (by decide),
      hother "listparts" 108 (str "istparts") rfl (by decide) (by decide),
      hother "ls" 108 (str "s") rfl (by decide) (by decide), h]
    rfl

/-- The program returns only values with `R`, whatever its calls answer. -/
abbrev ReturnsOnly {α : Type} (R : α → Prop) (p : Sys α) : Prop :=
  p.Obeys (Prog.free : Protocol SysOp Answer Unit) () fun _ a => R a

lemma returnsOnly_bind {α β : Type} {R : β → Prop} (p : Sys α) {f : α → Sys β}
    (h : ∀ a, ReturnsOnly R (f a)) : ReturnsOnly R (p >>= f) :=
  Prog.obeys_bind.mpr ((Prog.obeys_free p ()).mono fun _ a _ => h a)

/-- The dispatcher tells its thread to stop exactly for `quit`. -/
lemma returnsOnly_dispatch (clientFD : ℤ) (past : ℕ → Byte) (c : Command) (perfJob : PerfJobInfo) :
    ReturnsOnly (fun x => x.1 = true ↔ c.is "quit" = false) (dispatch clientFD past c perfJob) := by
  have hgoesOn : c.kind ≠ .quit → ∀ job : PerfJobInfo,
      ReturnsOnly (fun x => x.1 = true ↔ c.is "quit" = false) (.ret (true, job)) := by
    intro hkind job
    refine iff_of_true rfl ?_
    rw [← Bool.not_eq_true]
    exact fun hquit => hkind (c.kind_eq_quit_iff.mpr hquit)
  rw [dispatch_eq]
  refine returnsOnly_bind _ fun _ => ?_
  cases hkind : c.kind with
  | quit => exact iff_of_false Bool.false_ne_true (by simp [c.kind_eq_quit_iff.mp hkind])
  | unknown => exact hgoesOn (by simp [hkind]) _
  | _ => exact returnsOnly_bind _ fun _ => hgoesOn (by simp [hkind]) _

lemma returnsOnly_greeting (clientFD : ℤ) : ReturnsOnly (fun x => x.1 = true) (greeting clientFD) :=
  returnsOnly_bind _ fun _ => returnsOnly_bind _ fun _ => rfl

namespace AesdSocket

variable {p p' : AesdSocket} {e : ServerEvent} {past : ℕ → Byte}

/-- The events of the listener and of the receive loops, one by one. -/
inductive Advances (p : AesdSocket) (past : ℕ → Byte) : ServerEvent → AesdSocket → Prop where
  | connects {e : ServerEvent} {server : Server} (hstep : p.server.step e = some server)
      (hthread : e.thread = none) (hstarted : server.started = p.server.started + 1)
      (hnew : (server.node p.server.started).thread = .serving .starting) :
      Advances p past e { p with
        server := server
        handler := Function.update p.handler p.server.started
          (some (greeting (server.node p.server.started).clientfd)) }
  | passes {e : ServerEvent} {server : Server} (hstep : p.server.step e = some server)
      (hidle : ∀ c, e.thread = some c → p.handler c = none)
      (hstarted : server.started = p.server.started) (hnone : p.server.found e = none) :
      Advances p past e { p with server := server }
  | dispatches {c : ℕ} {input : SessionInput} {cmd : Command} {server : Server}
      (hstep : p.server.step (.input c input) = some server) (hidle : p.handler c = none)
      (hstarted : server.started = p.server.started)
      (hfound : p.server.found (.input c input) = some (c, cmd)) :
      Advances p past (.input c input) { p with
        server := server
        handler := Function.update p.handler c
          (some (dispatch (p.server.node c).clientfd past cmd (p.perfJob c)))
        dispatched := Function.update p.dispatched c (p.dispatched c ++ [(cmd, past)]) }

lemma advances_of_advance (h : p.advance e past = some p') : p.Advances past e p' := by
  unfold advance at h
  split_ifs at h with hidle
  obtain ⟨server, hstep, rfl⟩ := Option.map_eq_some_iff.mp h
  replace hidle : ∀ c, e.thread = some c → p.handler c = none := by
    intro c hc
    simpa [hc] using hidle
  have hsteps := Server.steps_of_step hstep
  rcases hsteps.started_cases with hstarted | ⟨hstarted, hthread, hnew⟩
  · rw [if_neg (by omega)]
    cases hfound : p.server.found e with
    | none => exact .passes hstep hidle hstarted hfound
    | some x =>
      obtain ⟨c, cmd⟩ := x
      cases e with
      | input d input =>
        obtain rfl : d = c := by
          simp only [Server.found] at hfound
          split at hfound
          · simp only [Option.bind_eq_bind, Option.bind_eq_some_iff] at hfound
            obtain ⟨_, -, _, -, heq⟩ := hfound
            cases heq
            rfl
          · cases hfound
        exact .dispatches hstep (hidle d rfl) hstarted hfound
      | _ => cases hfound
  · rw [if_pos (by omega)]
    exact .connects hstep hthread hstarted hnew

lemma Advances.step (h : p.Advances past e p') : p.server.step e = some p'.server := by
  cases h with
  | connects hstep _ _ _ => exact hstep
  | passes hstep _ _ _ => exact hstep
  | dispatches hstep _ _ _ => exact hstep

/-! ### The invariant -/

/-- The thread has found the command `quit`. -/
def Quits (p : AesdSocket) (c : ℕ) : Prop := ∃ x ∈ p.dispatched c, x.1.is "quit" = true

instance (p : AesdSocket) (c : ℕ) : Decidable (p.Quits c) :=
  inferInstanceAs (Decidable (∃ x ∈ p.dispatched c, _))

/-- A thread in a handler still has its descriptor, and the handler's result tells whether it was
given `quit`; the receive loop is over then. A thread without a connection gets no commands. -/
structure Inv (p : AesdSocket) : Prop where
  sound : p.server.Sound
  unstarted : ∀ c, p.server.started ≤ c → p.handler c = none ∧ p.dispatched c = []
  busy : ∀ c q, p.handler c = some q → (p.server.node c).thread.holdsDescriptor = true ∧
    ReturnsOnly (fun x => x.1 = true ↔ ¬ p.Quits c) q
  quit : ∀ c, p.Quits c → ∀ x, (p.server.node c).thread ≠ .serving x
  connected : ∀ c, p.dispatched c ≠ [] → (p.server.node c).clientfd ≠ -1

lemma inv_init (d : Device) : Inv { device := d } := by
  refine ⟨Server.sound_init, fun _ _ => ⟨rfl, rfl⟩, ?_, ?_, ?_⟩
  · rintro c q ⟨⟩
  · rintro c ⟨x, hx, -⟩
    cases hx
  · intro c hc
    exact absurd rfl hc

variable {c : ℕ}

lemma Inv.lt_of_handler (h : p.Inv) {q : Sys (Bool × PerfJobInfo)} (hq : p.handler c = some q) :
    c < p.server.started := by
  by_contra hlt
  rw [(h.unstarted c (not_lt.mp hlt)).1] at hq
  cases hq

lemma Inv.lt_of_dispatched (h : p.Inv) (hc : p.dispatched c ≠ []) : c < p.server.started := by
  by_contra hlt
  exact hc (h.unstarted c (not_lt.mp hlt)).2

lemma Quits.ne_nil (h : p.Quits c) : p.dispatched c ≠ [] := by
  obtain ⟨x, hx, -⟩ := h
  exact List.ne_nil_of_mem hx

/-- Only a thread that has been started receives anything. -/
lemma lt_of_input {input : SessionInput} {server : Server}
    (hstep : p.server.step (.input c input) = some server) : c < p.server.started := by
  cases Server.steps_of_step hstep with
  | input _ hlt _ _ => exact hlt

/-- The handlers after that of one thread has changed. -/
lemma update_handler_cases {c' : ℕ} {v : Option (Sys (Bool × PerfJobInfo))}
    {q : Sys (Bool × PerfJobInfo)} (hq : Function.update p.handler c' v c = some q) :
    (c = c' ∧ v = some q) ∨ (c ≠ c' ∧ p.handler c = some q) := by
  by_cases hc : c = c'
  · subst hc
    rw [Function.update_self] at hq
    exact Or.inl ⟨rfl, hq⟩
  · rw [Function.update_of_ne hc] at hq
    exact Or.inr ⟨hc, hq⟩

/-- The threads that have found `quit` after one more command. -/
lemma quits_append_iff {d : ℕ} {x : Command × (ℕ → Byte)}
    (hp' : p'.dispatched = Function.update p.dispatched c (p.dispatched c ++ [x])) :
    p'.Quits d ↔ p.Quits d ∨ (d = c ∧ x.1.is "quit" = true) := by
  rw [Quits, Quits, hp']
  by_cases hd : d = c
  · subst hd
    simp only [Function.update_self, List.mem_append, List.mem_singleton, true_and]
    constructor
    · rintro ⟨y, hy | rfl, hquit⟩
      · exact Or.inl ⟨y, hy, hquit⟩
      · exact Or.inr hquit
    · rintro (⟨y, hy, hquit⟩ | hquit)
      · exact ⟨y, Or.inl hy, hquit⟩
      · exact ⟨x, Or.inr rfl, hquit⟩
  · simp [hd]

/-- A thread begins with the greeting. -/
lemma Inv.connects (h : p.Inv) {server : Server} (hstep : p.server.step e = some server)
    (hthread : e.thread = none) (hstarted : server.started = p.server.started + 1)
    (hnew : (server.node p.server.started).thread = .serving .starting) :
    Inv { p with
      server := server
      handler := Function.update p.handler p.server.started
        (some (greeting (server.node p.server.started).clientfd)) } := by
  have hsteps := Server.steps_of_step hstep
  have hnode : ∀ c < p.server.started, (server.node c).clientfd = (p.server.node c).clientfd ∧
      (server.node c).thread = (p.server.node c).thread := by
    intro c hlt
    obtain ⟨hclient, hsame⟩ := hsteps.node_of_lt hlt
    exact ⟨hclient, hsame (by simp [hthread])⟩
  constructor
  case sound => exact h.sound.step hstep
  case unstarted =>
    intro c hc
    dsimp only at hc ⊢
    obtain ⟨hhandler, hdispatched⟩ := h.unstarted c (by omega)
    exact ⟨by rw [Function.update_of_ne (by omega), hhandler], hdispatched⟩
  case busy =>
    intro c q hq
    rcases update_handler_cases hq with ⟨rfl, heq⟩ | ⟨-, hq⟩
    · cases heq
      -- nothing has been found yet by the new thread
      have hquits : ¬ p.Quits p.server.started := fun hquit =>
        hquit.ne_nil (h.unstarted _ le_rfl).2
      refine ⟨?_, (returnsOnly_greeting _).mono fun _ x hx => iff_of_true hx hquits⟩
      dsimp only
      rw [hnew]
      rfl
    · dsimp only
      rw [(hnode c (h.lt_of_handler hq)).2]
      exact h.busy c q hq
  case quit =>
    intro c hquit
    dsimp only
    rw [(hnode c (h.lt_of_dispatched (Quits.ne_nil hquit))).2]
    exact h.quit c hquit
  case connected =>
    intro c hc
    dsimp only
    rw [(hnode c (h.lt_of_dispatched hc)).1]
    exact h.connected c hc

/-- An event that no handler comes of. -/
lemma Inv.passes (h : p.Inv) {server : Server} (hstep : p.server.step e = some server)
    (hidle : ∀ c, e.thread = some c → p.handler c = none)
    (hstarted : server.started = p.server.started) : Inv { p with server := server } := by
  have hsteps := Server.steps_of_step hstep
  constructor
  case sound => exact h.sound.step hstep
  case unstarted =>
    intro c hc
    exact h.unstarted c (hstarted ▸ hc)
  case busy =>
    intro c q hq
    have hthread : e.thread ≠ some c := by
      intro hthread
      rw [hidle c hthread] at hq
      cases hq
    dsimp only
    rw [(hsteps.node_of_lt (h.lt_of_handler hq)).2 hthread]
    exact h.busy c q hq
  case quit =>
    intro c hquit
    by_cases hthread : e.thread = some c
    · exact hsteps.not_serving hthread (h.quit c hquit)
    · dsimp only
      rw [(hsteps.node_of_lt (h.lt_of_dispatched (Quits.ne_nil hquit))).2 hthread]
      exact h.quit c hquit
  case connected =>
    intro c hc
    dsimp only
    rw [(hsteps.node_of_lt (h.lt_of_dispatched hc)).1]
    exact h.connected c hc

/-- A thread that has found a command goes on with its handler. -/
lemma Inv.dispatches (h : p.Inv) {input : SessionInput} {cmd : Command} {server : Server}
    (hstep : p.server.step (.input c input) = some server)
    (hstarted : server.started = p.server.started)
    (hfound : p.server.found (.input c input) = some (c, cmd)) :
    Inv { p with
      server := server
      handler := Function.update p.handler c
        (some (dispatch (p.server.node c).clientfd past cmd (p.perfJob c)))
      dispatched := Function.update p.dispatched c (p.dispatched c ++ [(cmd, past)]) } := by
  have hsteps := Server.steps_of_step hstep
  obtain ⟨session, session', out, hserving, hsession, hout, -, hspec⟩ := hsteps.input_spec
  rw [hfound] at hout
  rcases hspec with rfl | ⟨cmd', rfl, hholds, hclient, hended⟩
  · cases hout
  obtain rfl : cmd = cmd' := by simpa using hout
  have hnot : ¬ p.Quits c := fun hquit => h.quit c hquit session hserving
  have hother : ∀ d < p.server.started, d ≠ c →
      (server.node d).thread = (p.server.node d).thread := by
    intro d hd hdc
    exact (hsteps.node_of_lt hd).2 fun hcd => hdc (Option.some.inj hcd).symm
  constructor
  case sound => exact h.sound.step hstep
  case unstarted =>
    intro d hd
    have hd' : p.server.started ≤ d := hstarted ▸ hd
    have hdc : d ≠ c := ((lt_of_input hstep).trans_le hd').ne'
    dsimp only
    rw [Function.update_of_ne hdc, Function.update_of_ne hdc]
    exact h.unstarted d hd'
  case busy =>
    intro d q hq
    rcases update_handler_cases hq with ⟨rfl, heq⟩ | ⟨hdc, hq⟩
    · -- the thread now has a handler, which says whether the command was `quit`
      cases heq
      refine ⟨hholds, (returnsOnly_dispatch _ _ _ _).mono fun _ x hx => hx.trans ?_⟩
      rw [← Bool.not_eq_true]
      exact not_congr ((quits_append_iff rfl).trans (by simp [hnot])).symm
    · -- another thread has neither another handler nor another command
      dsimp only
      rw [hother d (h.lt_of_handler hq) hdc]
      refine ⟨(h.busy d q hq).1, (h.busy d q hq).2.mono fun _ x hx => hx.trans ?_⟩
      exact not_congr ((quits_append_iff rfl).trans (by simp [hdc])).symm
  case quit =>
    intro d hquits
    have hcases : p.Quits d ∨ (d = c ∧ cmd.is "quit" = true) :=
      (quits_append_iff (x := (cmd, past)) rfl).mp hquits
    rcases hcases with hquit | ⟨rfl, hquit⟩
    · -- a thread that has found `quit` before does not find a command now
      have hdc : d ≠ c := by
        rintro rfl
        exact hnot hquit
      dsimp only
      rw [hother d (h.lt_of_dispatched hquit.ne_nil) hdc]
      exact h.quit d hquit
    · -- `quit` has been found, and the loop is over
      exact hended hquit
  case connected =>
    intro d hd
    dsimp only at hd ⊢
    by_cases hdc : d = c
    · subst hdc
      rwa [(hsteps.node_of_lt (lt_of_input hstep)).1]
    · rw [Function.update_of_ne hdc] at hd
      rw [(hsteps.node_of_lt (h.lt_of_dispatched hd)).1]
      exact h.connected d hd

/-- A thread in a handler makes a call, or returns from it. -/
lemma Inv.handles (h : p.Inv) {q : Sys (Bool × PerfJobInfo)} (hq : p.handler c = some q)
    {v : Option (Sys (Bool × PerfJobInfo))}
    (hv : ∀ q', v = some q' → ReturnsOnly (fun x => x.1 = true ↔ ¬ p.Quits c) q')
    (device : Device) (perfJob : ℕ → PerfJobInfo) :
    Inv { p with
      device := device, handler := Function.update p.handler c v, perfJob := perfJob } := by
  constructor
  case sound => exact h.sound
  case unstarted =>
    intro d hd
    have hdc : d ≠ c := ((h.lt_of_handler hq).trans_le hd).ne'
    exact ⟨(Function.update_of_ne hdc ..).trans (h.unstarted d hd).1, (h.unstarted d hd).2⟩
  case busy =>
    intro d q' hq'
    rcases update_handler_cases hq' with ⟨rfl, heq⟩ | ⟨-, hq'⟩
    · exact ⟨(h.busy d q hq).1, hv q' heq⟩
    · exact h.busy d q' hq'
  case quit => exact h.quit
  case connected => exact h.connected

/-- Every step keeps the invariant. -/
lemma Inv.step {e : ProcessEvent} (h : p.Inv) (hstep : p.Step e p') : p'.Inv := by
  cases hstep with
  | server hadvance =>
    cases advances_of_advance hadvance with
    | connects hstep hthread hstarted hnew => exact h.connects hstep hthread hstarted hnew
    | passes hstep hidle hstarted _ => exact h.passes hstep hidle hstarted
    | dispatches hstep _ hstarted hfound => exact h.dispatches hstep hstarted hfound
  | @call c op k r device hhandler hexec =>
    refine h.handles hhandler ?_ device p.perfJob
    rintro q' ⟨⟩
    exact (h.busy c _ hhandler).2.2 r trivial
  | returns hhandler => exact h.handles hhandler (by rintro q' ⟨⟩) p.device _

variable {d : Device} {events : List ProcessEvent}

lemma Runs.inv (run : Runs d events p) : p.Inv := by
  induction run with
  | start => exact inv_init d
  | step run hstep ih => exact ih.step hstep

/-! ### The disk's view -/

/-- What thread `c` still has to do, if these are the commands to come. -/
def rest (p : AesdSocket) (clientFD : ℤ) (cmds : Commands) (c : ℕ) : Sys Unit :=
  if c < p.server.started then
    match p.handler c with
    | some q => q >>= serveNext clientFD cmds
    | none   => if p.Quits c then return () else serve clientFD cmds (p.perfJob c)
  else repsondingThread clientFD cmds

section Rest

variable {clientFD : ℤ} {cmds : Commands}

lemma rest_of_unstarted (hlt : ¬ c < p.server.started) :
    p.rest clientFD cmds c = repsondingThread clientFD cmds := if_neg hlt

lemma rest_of_busy (hlt : c < p.server.started) {q : Sys (Bool × PerfJobInfo)}
    (hq : p.handler c = some q) : p.rest clientFD cmds c = q >>= serveNext clientFD cmds := by
  rw [rest, if_pos hlt, hq]

lemma rest_of_idle (hlt : c < p.server.started) (hidle : p.handler c = none) :
    p.rest clientFD cmds c =
      if p.Quits c then return () else serve clientFD cmds (p.perfJob c) := by
  rw [rest, if_pos hlt, hidle]

/-- What a thread has to do depends on itself only. -/
lemma rest_congr (hlt : c < p.server.started ↔ c < p'.server.started)
    (hhandler : p'.handler c = p.handler c) (hperfJob : p'.perfJob c = p.perfJob c)
    (hdispatched : p'.dispatched c = p.dispatched c) :
    p'.rest clientFD cmds c = p.rest clientFD cmds c := by
  have hquits : p'.Quits c ↔ p.Quits c := by rw [Quits, hdispatched, Quits]
  simp only [rest, hlt, hhandler, hperfJob, hquits]

/-- A thread that begins had everything still to do. -/
lemma rest_connects {server : Server} {fd : ℤ} (hstarted : server.started = p.server.started + 1) :
    (rest { p with
      server := server
      handler := Function.update p.handler p.server.started (some (greeting fd)) }
      fd cmds p.server.started) = p.rest fd cmds p.server.started := by
  rw [rest_of_unstarted (lt_irrefl _), rest_of_busy (by dsimp only; omega)
    (Function.update_self ..)]
  rfl

/-- Before it was found, the command was the first of those to come. -/
lemma rest_dispatches {server : Server} {x : Command × (ℕ → Byte)} (hlt : c < p.server.started)
    (hstarted : server.started = p.server.started) (hidle : p.handler c = none)
    (hquits : ¬ p.Quits c) {dispatched : ℕ → Commands} :
    (rest { p with
      server := server
      handler := Function.update p.handler c (some (dispatch clientFD x.2 x.1 (p.perfJob c)))
      dispatched := dispatched } clientFD cmds c) = p.rest clientFD (x :: cmds) c := by
  rw [rest_of_idle hlt hidle, if_neg hquits, rest_of_busy (by dsimp only; omega)
    (Function.update_self ..), serve_cons]

/-- A handler that returns leaves its thread with the commands to come, or with nothing after
`quit`. -/
lemma rest_returns {active : Bool} {perfJob : PerfJobInfo} (hlt : c < p.server.started)
    (hhandler : p.handler c = some (.ret (active, perfJob)))
    (hactive : active = true ↔ ¬ p.Quits c) :
    (rest { p with
      handler := Function.update p.handler c none
      perfJob := Function.update p.perfJob c perfJob } clientFD cmds c) =
        p.rest clientFD cmds c := by
  rw [rest_of_busy hlt hhandler, rest_of_idle (by exact hlt) (Function.update_self ..)]
  dsimp only
  cases active with
  | true =>
    refine (if_neg (hactive.mp rfl)).trans ?_
    rw [Function.update_self]
    rfl
  | false =>
    have hquits : p.Quits c := by
      by_contra hquits
      exact Bool.false_ne_true (hactive.mpr hquits)
    exact if_pos hquits

end Rest

lemma calls_append_server (events : List ProcessEvent) (e : ServerEvent) (past : ℕ → Byte) :
    calls (events ++ [.server e past]) = calls events := by
  simp [calls]

lemma calls_append_call (events : List ProcessEvent) (c : ℕ) (op : SysOp) (r : Answer op) :
    calls (events ++ [.call c op r]) = calls events ++ [⟨c, op, r⟩] := by
  simp [calls]

lemma calls_append_returns (events : List ProcessEvent) (c : ℕ) :
    calls (events ++ [.returns c]) = calls events := by
  simp [calls]

/-- The process so far, seen as an interleaving of threads that know from the start what commands
they will get. -/
lemma Runs.run (run : Runs d events p) (clientFD : ℕ → ℤ)
    (hclient : ∀ c < p.server.started, clientFD c = (p.server.node c).clientfd)
    (cmds : ℕ → Commands) :
    Run pedExec anyStep
      ⟨d, fun c => repsondingThread (clientFD c) (p.dispatched c ++ cmds c)⟩ (calls events)
      ⟨p.device, fun c => p.rest (clientFD c) (cmds c) c⟩ := by
  induction run generalizing cmds with
  | start => exact .refl
  | @step events e p p' run hstep ih =>
    have hinv := run.inv
    cases hstep with
    | @server e past _ hadvance =>
      have hadv := advances_of_advance hadvance
      have hsteps := Server.steps_of_step hadv.step
      have hclient' : ∀ c < p.server.started, clientFD c = (p.server.node c).clientfd := by
        intro c hlt
        rw [← (hsteps.node_of_lt hlt).1]
        refine hclient c ?_
        rcases hsteps.started_cases with hstarted | ⟨hstarted, -, -⟩ <;> omega
      rw [calls_append_server]
      cases hadv with
      | connects hstep hthread hstarted hnew =>
        convert ih hclient' cmds using 3
        rename_i c
        dsimp only at hclient
        by_cases hc : c = p.server.started
        · subst hc
          rw [hclient _ (by omega)]
          exact rest_connects hstarted
        · refine rest_congr ?_ (Function.update_of_ne hc ..) rfl rfl
          dsimp only
          omega
      | passes hstep hidle hstarted hnone =>
        convert ih hclient' cmds using 3
        refine rest_congr ?_ rfl rfl rfl
        dsimp only
        omega
      | @dispatches c input cmd server hstep hidle hstarted hfound =>
        obtain ⟨session, -, -, hserving, -⟩ := hsteps.input_spec
        have hlt : c < p.server.started := lt_of_input hstep
        convert ih hclient' (Function.update cmds c ((cmd, past) :: cmds c)) using 3
        · rename_i d'
          dsimp only
          congr 1
          by_cases hd : d' = c
          · subst hd
            simp
          · simp [hd]
        · rename_i d'
          by_cases hd : d' = c
          · subst hd
            rw [Function.update_self, hclient' _ hlt]
            exact rest_dispatches (x := (cmd, past)) hlt hstarted hidle fun hquit =>
              hinv.quit _ hquit session hserving
          · rw [Function.update_of_ne hd]
            refine rest_congr ?_ (Function.update_of_ne hd ..) rfl (Function.update_of_ne hd ..)
            dsimp only
            omega
    | @call c op k r device hhandler hexec =>
      have hlt := hinv.lt_of_handler hhandler
      have hpool : p.rest (clientFD c) (cmds c) c =
          .call op fun r => k r >>= serveNext (clientFD c) (cmds c) := rest_of_busy hlt hhandler
      rw [calls_append_call]
      convert Run.step (ih hclient cmds) hpool hexec trivial using 2
      funext d'
      by_cases hd : d' = c
      · subst hd
        rw [Function.update_self]
        exact rest_of_busy (by exact hlt) (Function.update_self ..)
      · rw [Function.update_of_ne hd]
        exact rest_congr Iff.rfl (Function.update_of_ne hd ..) rfl rfl
    | @returns c active perfJob hhandler =>
      rw [calls_append_returns]
      convert ih hclient cmds using 3
      rename_i d'
      by_cases hd : d' = c
      · subst hd
        exact rest_returns (hinv.lt_of_handler hhandler) hhandler (hinv.busy d' _ hhandler).2
      · exact rest_congr Iff.rfl (Function.update_of_ne hd ..) (Function.update_of_ne hd ..) rfl

/-! ### The other views -/

lemma Runs.server (run : Runs d events p) : Server.run (serverEvents events) = some p.server := by
  induction run with
  | start => rfl
  | @step events e p p' run hstep ih =>
    cases hstep with
    | @server e past _ hadvance =>
      have happend : serverEvents (events ++ [.server e past]) = serverEvents events ++ [e] := by
        simp [serverEvents]
      rw [happend, Server.run_concat, ih]
      exact (advances_of_advance hadvance).step
    | call _ _ => simpa [serverEvents] using ih
    | returns _ => simpa [serverEvents] using ih

lemma inputsOf_append_input (events : List ProcessEvent) (c : ℕ) (input : SessionInput)
    (past : ℕ → Byte) :
    inputsOf c (events ++ [.server (.input c input) past]) = inputsOf c events ++ [input] := by
  simp [inputsOf]

lemma inputsOf_append_server (events : List ProcessEvent) {c : ℕ} {e : ServerEvent}
    (past : ℕ → Byte) (he : ∀ input, e ≠ .input c input) :
    inputsOf c (events ++ [.server e past]) = inputsOf c events := by
  cases e with
  | input d input =>
    have hd : d ≠ c := by
      rintro rfl
      exact he input rfl
    simp [inputsOf, hd]
  | _ => simp [inputsOf]

/-- An input of a thread gives it the command that comes of the input, if any. -/
lemma Advances.dispatched_of_input {input : SessionInput} {out : List Command}
    (h : p.Advances past (.input c input) p')
    (hfound : p.server.found (.input c input) = out.head?.map fun cmd => (c, cmd))
    (hout : out = [] ∨ ∃ cmd, out = [cmd]) :
    (p'.dispatched c).map (·.1) = (p.dispatched c).map (·.1) ++ out := by
  cases h with
  | connects _ hthread _ _ => cases hthread
  | passes _ _ _ hnone =>
    rw [hnone] at hfound
    cases out with
    | nil => simp
    | cons cmd out => cases hfound
  | dispatches _ _ _ hfound' =>
    rw [hfound'] at hfound
    rcases hout with rfl | ⟨cmd, rfl⟩
    · cases hfound
    · cases hfound
      simp

/-- Other events give it none. -/
lemma Advances.dispatched_of_other (h : p.Advances past e p')
    (hother : ∀ input, e ≠ .input c input) : p'.dispatched c = p.dispatched c := by
  cases h with
  | connects _ _ _ _ => rfl
  | passes _ _ _ _ => rfl
  | @dispatches d input _ _ _ _ _ _ =>
    refine Function.update_of_ne ?_ ..
    rintro rfl
    exact hother input rfl

/-- The commands of a thread are those that its receive loop dispatches for what it receives. -/
lemma Runs.serves (run : Runs d events p) (c : ℕ) :
    ∃ session, Serves (fun _ _ => True) (inputsOf c events) session
        ((p.dispatched c).map (·.1)) ∧
      ∀ x, (p.server.node c).thread = .serving x → x = session := by
  induction run with
  | start =>
    refine ⟨.starting, .start, fun x hx => ?_⟩
    cases hx
    rfl
  | @step events e p p' run hstep ih =>
    obtain ⟨session, hserves, hserving⟩ := ih
    cases hstep with
    | @server e past _ hadvance =>
      have hadv := advances_of_advance hadvance
      have hsteps := Server.steps_of_step hadv.step
      by_cases hinput : ∃ input, e = .input c input
      · obtain ⟨input, rfl⟩ := hinput
        obtain ⟨x, session', out, hx, hstep, hfound, hnext, hout⟩ := hsteps.input_spec
        obtain rfl := hserving x hx
        have hout' : out = [] ∨ ∃ cmd, out = [cmd] :=
          hout.imp_right fun ⟨cmd, hcmd, _⟩ => ⟨cmd, hcmd⟩
        rw [inputsOf_append_input, hadv.dispatched_of_input hfound hout']
        refine ⟨session', hserves.step input trivial hstep, fun y hy => ?_⟩
        rcases hnext with hnext | hnext
        · rw [hnext] at hy
          cases hy
          rfl
        · exact absurd hy (hnext y)
      · -- the loop of this thread does not see the event
        have hother : ∀ input, e ≠ .input c input := fun input he => hinput ⟨input, he⟩
        rw [inputsOf_append_server _ _ hother, hadv.dispatched_of_other hother]
        refine ⟨session, hserves, fun y hy => hserving y ?_⟩
        exact hsteps.serving_of_other run.inv.sound (run.inv.sound.step hadv.step) hother hy
    | call _ _ =>
      refine ⟨session, ?_, hserving⟩
      simpa [inputsOf] using hserves
    | returns _ =>
      refine ⟨session, ?_, hserving⟩
      simpa [inputsOf] using hserves

/-- The three views of one process. The listener and the receive loops do what `Server` does; the
commands of each thread are those its receive loop dispatches for the bytes it got; and the disk
and the calls of all threads are those of an interleaving of one `repsondingThread` for each
connection, over these commands. -/
theorem process_refines (run : Runs d events p) :
    Server.run (serverEvents events) = some p.server ∧
      (∀ c, ∃ session, Serves (fun _ _ => True) (inputsOf c events) session
        ((p.dispatched c).map (·.1))) ∧
      ∃ pool, Run pedExec anyStep
        ⟨d, fun c => repsondingThread (p.server.node c).clientfd (p.dispatched c)⟩ (calls events)
        ⟨p.device, pool⟩ := by
  refine ⟨run.server, fun c => ?_, ?_⟩
  · obtain ⟨session, hserves, -⟩ := run.serves c
    exact ⟨session, hserves⟩
  · have hrun := run.run (fun c => (p.server.node c).clientfd) (fun _ _ => rfl) fun _ => []
    simp only [List.append_nil] at hrun
    exact ⟨_, hrun⟩

/-! ### A process to run -/

/-- What happens next, and how a call turns out. -/
inductive Choice where
  | server (e : ServerEvent) (past : ℕ → Byte)
  | call (c : ℕ) (outcome : Outcome)
  | returns (c : ℕ)

/-- The event of a choice and the process after it. -/
def choose (p : AesdSocket) : Choice → Option (ProcessEvent × AesdSocket)
  | .server e past => (p.advance e past).map fun p' => (.server e past, p')
  | .call c outcome =>
    match p.handler c with
    | some (.call op k) =>
      (pedRespond op p.device outcome).map fun x => (.call c op x.1, { p with
        device := x.2, handler := Function.update p.handler c (some (k x.1)) })
    | _                 => none
  | .returns c =>
    match p.handler c with
    | some (.ret (_, perfJob)) => some (.returns c, { p with
        handler := Function.update p.handler c none
        perfJob := Function.update p.perfJob c perfJob })
    | _                        => none

lemma step_of_choose {choice : Choice} {e : ProcessEvent} (h : p.choose choice = some (e, p')) :
    p.Step e p' := by
  cases choice with
  | server e past =>
    obtain ⟨p', hadvance, heq⟩ := Option.map_eq_some_iff.mp h
    cases heq
    exact .server hadvance
  | call c outcome =>
    simp only [choose] at h
    split at h
    · rename_i op k hhandler
      obtain ⟨⟨r, device⟩, hrespond, heq⟩ := Option.map_eq_some_iff.mp h
      cases heq
      exact .call hhandler (pedRespond_exec _ _ _ _ _ hrespond)
    · cases h
  | returns c =>
    simp only [choose] at h
    split at h
    · rename_i active perfJob hhandler
      cases h
      exact .returns hhandler
    · cases h

/-- Make some choices. -/
def play : List Choice → List ProcessEvent × AesdSocket → Option (List ProcessEvent × AesdSocket)
  | [], x                        => some x
  | choice :: rest, (events, p) => do
    let (e, p) ← p.choose choice
    play rest (events ++ [e], p)

lemma Runs.play {choices : List Choice} {x : List ProcessEvent × AesdSocket} (run : Runs d events p)
    (h : AesdSocket.play choices (events, p) = some x) : Runs d x.1 x.2 := by
  induction choices generalizing events p with
  | nil =>
    cases h
    exact run
  | cons choice rest ih =>
    rw [AesdSocket.play, Option.bind_eq_bind, Option.bind_eq_some_iff] at h
    obtain ⟨⟨e, p'⟩, hchoose, hrest⟩ := h
    exact ih (run.step (step_of_choose hchoose)) hrest

/-- The next `n` calls of thread `c` succeed. -/
def succeeds (c n : ℕ) : List Choice := List.replicate n (.call c .success)

/-- A client connects and is greeted. -/
def connect (c : ℕ) (clientfd : ℤ) : List Choice :=
  .server (.accept clientfd) (fun _ => 0) :: succeeds c 16 ++ [.returns c]

/-- The client's next message arrives in one piece. -/
def message (c : ℕ) (text : Text) : List Choice :=
  [.server (.input c (.malloc (some []))) fun _ => 0,
    .server (.input c (.recv text)) fun _ => 0]

/-- One client deletes the only `AESD` partition, while another one connects. -/
def rmpartSession : List Choice :=
  connect 0 4 ++ message 0 (str "rmpart 2\n") ++ succeeds 0 8 ++
  [.server .visit fun _ => 0, .server .endOfSweep fun _ => 0,
    .server (.accept 5) fun _ => 0] ++ succeeds 1 3 ++ succeeds 0 3 ++ [.returns 0]

/-- A disk with a foreign partition in front of an `AESD` one. -/
def foreignAndOwn : Device :=
  diskWith [⟨1, str "boot", between 0 9⟩, aesdPart 2 (between 10 19)]

theorem process_refines_rmpart : ∃ events p pool, Runs foreignAndOwn events p ∧
    p.device.table.map (·.num) = [1] ∧
    Run pedExec anyStep
      ⟨foreignAndOwn, fun c => repsondingThread (p.server.node c).clientfd (p.dispatched c)⟩
      (calls events) ⟨p.device, pool⟩ := by
  have hplays : (play rmpartSession ([], { device := foreignAndOwn })).any
      (fun x => x.2.device.table.map (·.num) = [1]) = true := by decide
  obtain ⟨⟨events, p⟩, hplay, htest⟩ := (Option.any_eq_true _ _).mp hplays
  have run : Runs foreignAndOwn events p := Runs.start.play hplay
  obtain ⟨-, -, pool, hpool⟩ := process_refines run
  exact ⟨events, p, pool, run, by simpa using htest, hpool⟩

end AesdSocket

end Aesd
