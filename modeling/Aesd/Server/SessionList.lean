import Aesd.Server.Receive

/-!
# The list of sessions

`listenLoop` and the ends of `repsondingThread`. The listener inserts a node at the head of its
list for each connection, starts a thread on it, and then goes over the list and removes the nodes
whose thread has set `isThreadComplete`. The threads run between any two of its steps; each is at a
point of its receive loop, or on its way out. Storing `isThreadComplete` is the last thing that a
thread does to shared memory, and counted as its end.

The listener relies on `accept` not to fail and on every thread to pass the end of its function. A
failed `accept` is only reported, and a thread whose `recv` fails returns at once
(`sessionsOk_iff`). `malloc` of a node and `pthread_create` are taken to succeed.
-/

namespace Aesd

/-- Where a thread is: in its loop, past it, past `close`, or at its end. -/
inductive ThreadState where
  | serving (session : Session)
  | leaving
  | closed
  | returned

/-- `slist_data_t` with the thread it belongs to, and how often the listener has joined the thread
and freed the node. -/
structure ClientNode where
  clientfd : ℤ
  isThreadComplete : Bool := false
  thread : ThreadState := .serving .starting
  joined : ℕ := 0
  freed : ℕ := 0

/-- Where the listener is: before `accept`, in the sweep with some nodes left to visit, or in the
one behind its loop. -/
inductive ListenerState where
  | accepting
  | sweeping (left : List ℕ)
  | ending (left : List ℕ)

/-- The server. Nodes are numbered in the order in which they are made; `fds` says which connection
a descriptor refers to. `runningAtSweep` is no variable of the program: it tells for each thread
whether it was running when the last sweep began or, later, when the sweep came to its node. -/
structure Server where
  listener : ListenerState := .accepting
  head : List ℕ := []
  started : ℕ := 0
  node : ℕ → ClientNode := fun _ => { clientfd := -1 }
  fds : ℤ → Option ℕ := fun _ => none
  endProgram : Bool := false
  runningAtSweep : ℕ → Bool := fun _ => false

/-- What may happen next. `acceptFails true` is the signal that is caught while `accept` waits;
`signal` is one that is caught at any other moment, or by another thread. A thread gets the result
of the call it waits for, finds `endProgram` set at the top of its loop, closes its descriptor, or
completes. -/
inductive ServerEvent where
  | accept (clientfd : ℤ)
  | acceptFails (eintr : Bool)
  | visit
  | endOfSweep
  | signal
  | input (c : ℕ) (input : SessionInput)
  | endLoop (c : ℕ)
  | close (c : ℕ)
  | complete (c : ℕ)

namespace ThreadState

/-- The thread has not come to its end. -/
def running : ThreadState → Bool
  | .returned => false
  | _         => true

/-- The thread has not closed its descriptor yet. -/
def holdsDescriptor : ThreadState → Bool
  | .serving _ => true
  | .leaving   => true
  | _          => false

/-- A call in the loop returns. The loop is left at the end of the stream and behind `quit`, and
the function at once when `recv` fails. A fault has no next state. -/
def receive (session : Session) (input : SessionInput) : Option ThreadState :=
  match input, session.step input with
  -- `perror` and `return`: neither is the descriptor closed nor the flag set
  | .recvFailed, some _            => some .returned
  | .recvClosed, some _            => some .leaving
  | .recv _, some (.ended, _ :: _) => some .leaving
  | _, some (.ended, _)            => none
  | _, some (session, _)           => some (.serving session)
  | _, none                        => none

/-- Only a failed `recv` ends the thread at once; otherwise it still holds its descriptor. -/
lemma receive_cases {session : Session} {input : SessionInput} {thread : ThreadState}
    (h : receive session input = some thread) :
    (input = .recvFailed ∧ thread = .returned) ∨
      (input ≠ .recvFailed ∧ thread.running = true ∧ thread.holdsDescriptor = true) := by
  unfold receive at h
  split at h
  · cases h
    exact Or.inl ⟨rfl, rfl⟩
  · cases h
    exact Or.inr ⟨by simp, rfl, rfl⟩
  · cases h
    exact Or.inr ⟨by simp, rfl, rfl⟩
  · cases h
  · cases h
    refine Or.inr ⟨?_, rfl, rfl⟩
    assumption
  · cases h

end ThreadState

namespace Server

/-- A thread comes to `malloc` only if `endProgram` is not set, and a `recv` from descriptor `-1`
fails. -/
def admits (s : Server) (c : ℕ) : SessionInput → Bool
  | .malloc _   => !s.endProgram
  | .recv _     => (s.node c).clientfd ≠ -1
  | .recvClosed => (s.node c).clientfd ≠ -1
  | _           => true

/-- A change of one node. -/
def setNode (s : Server) (c : ℕ) (n : ClientNode) : Server :=
  { s with node := Function.update s.node c n }

/-- A node for what `accept` returned, at the head of the list, with its thread; the sweep
begins. -/
def insertNode (s : Server) (clientfd : ℤ) : Server :=
  let node := Function.update s.node s.started { clientfd := clientfd }
  { s with
    node := node
    head := s.started :: s.head
    started := s.started + 1
    listener := .sweeping (s.started :: s.head)
    runningAtSweep := fun c => decide (c < s.started + 1) && (node c).thread.running }

/-- A node is taken from the list, its thread joined, and the node freed. -/
def removeNode (s : Server) (c : ℕ) : Server :=
  { s.setNode c { s.node c with
      joined := (s.node c).joined + 1, freed := (s.node c).freed + 1 } with
    head := s.head.erase c }

/-- One event; `none` if it cannot happen. `accept` returns with `EINTR` only if the handler has
run in its caller while it waited, and then `endProgram` is set. `pthread_join` waits for the end of
the thread. -/
def step (s : Server) : ServerEvent → Option Server
  | .accept clientfd =>
    match s.listener with
    | .accepting =>
      if 0 ≤ clientfd ∧ s.fds clientfd = none then
        some { s.insertNode clientfd with
          fds := Function.update s.fds clientfd (some s.started) }
      else none
    | _          => none
  | .acceptFails eintr =>
    match s.listener with
    | .accepting =>
      -- the handler ran while `accept` waited, so the loop is left
      if eintr then some { s with listener := .ending s.head, endProgram := true }
      -- any other failure is only reported, and a node is made for -1
      else some (s.insertNode (-1))
    | _          => none
  | .visit =>
    match s.listener with
    | .sweeping (c :: left) =>
      let s := { s with
        listener := .sweeping left
        runningAtSweep := Function.update s.runningAtSweep c (s.node c).thread.running }
      if (s.node c).isThreadComplete then
        -- `pthread_join` waits
        if (s.node c).thread.running then none else some (s.removeNode c)
      else some s
    | .ending (c :: left)   =>
      if (s.node c).thread.running then none
      else some ({ s with listener := .ending left }.removeNode c)
    | _                     => none
  | .endOfSweep =>
    match s.listener with
    | .sweeping [] =>
      some { s with listener := if s.endProgram then .ending s.head else .accepting }
    | _            => none
  -- the handler ran at another moment, so `accept` does not return for it
  | .signal => some { s with endProgram := true }
  | .input c input =>
    match (s.node c).thread with
    | .serving session =>
      if c < s.started ∧ s.admits c input then
        (ThreadState.receive session input).map fun thread =>
          s.setNode c { s.node c with thread := thread }
      else none
    | _                => none
  | .endLoop c =>
    match (s.node c).thread with
    | .serving .starting =>
      if c < s.started ∧ s.endProgram then
        some (s.setNode c { s.node c with thread := .leaving })
      else none
    | _                  => none
  | .close c =>
    match (s.node c).thread with
    | .leaving =>
      some { s.setNode c { s.node c with thread := .closed } with
        fds := Function.update s.fds (s.node c).clientfd none }
    | _        => none
  | .complete c =>
    match (s.node c).thread with
    | .closed =>
      some (s.setNode c { s.node c with thread := .returned, isThreadComplete := true })
    | _       => none

/-- The server after some events, if they can happen. -/
def run (events : List ServerEvent) : Option Server := events.foldlM step {}

lemma run_concat (events : List ServerEvent) (e : ServerEvent) :
    run (events ++ [e]) = (run events).bind fun s => s.step e := by
  simp [run, List.foldlM_append]

/-! ### What a step can do -/

/-- The steps of the server. -/
inductive Steps (s : Server) : ServerEvent → Server → Prop where
  | accept {clientfd : ℤ} (hlistener : s.listener = .accepting) (hfd : 0 ≤ clientfd)
      (hunused : s.fds clientfd = none) :
      Steps s (.accept clientfd) { s.insertNode clientfd with
        fds := Function.update s.fds clientfd (some s.started) }
  | interrupted (hlistener : s.listener = .accepting) :
      Steps s (.acceptFails true) { s with listener := .ending s.head, endProgram := true }
  | acceptFails (hlistener : s.listener = .accepting) :
      Steps s (.acceptFails false) (s.insertNode (-1))
  | pass {c : ℕ} {left : List ℕ} (hlistener : s.listener = .sweeping (c :: left))
      (hflag : (s.node c).isThreadComplete = false) :
      Steps s .visit { s with
        listener := .sweeping left
        runningAtSweep := Function.update s.runningAtSweep c (s.node c).thread.running }
  | remove {c : ℕ} {left : List ℕ} (hlistener : s.listener = .sweeping (c :: left))
      (hflag : (s.node c).isThreadComplete = true) (hended : (s.node c).thread.running = false) :
      Steps s .visit ({ s with
        listener := .sweeping left
        runningAtSweep :=
          Function.update s.runningAtSweep c (s.node c).thread.running }.removeNode c)
  | join {c : ℕ} {left : List ℕ} (hlistener : s.listener = .ending (c :: left))
      (hended : (s.node c).thread.running = false) :
      Steps s .visit ({ s with listener := .ending left }.removeNode c)
  | endOfSweep (hlistener : s.listener = .sweeping []) :
      Steps s .endOfSweep { s with
        listener := if s.endProgram then .ending s.head else .accepting }
  | signal : Steps s .signal { s with endProgram := true }
  | input {c : ℕ} {input : SessionInput} {session : Session} {thread : ThreadState}
      (hthread : (s.node c).thread = .serving session) (hlt : c < s.started)
      (hadmits : s.admits c input = true)
      (hreceive : ThreadState.receive session input = some thread) :
      Steps s (.input c input) (s.setNode c { s.node c with thread := thread })
  | endLoop {c : ℕ} (hthread : (s.node c).thread = .serving .starting) (hlt : c < s.started)
      (hend : s.endProgram = true) :
      Steps s (.endLoop c) (s.setNode c { s.node c with thread := .leaving })
  | close {c : ℕ} (hthread : (s.node c).thread = .leaving) :
      Steps s (.close c) { s.setNode c { s.node c with thread := .closed } with
        fds := Function.update s.fds (s.node c).clientfd none }
  | complete {c : ℕ} (hthread : (s.node c).thread = .closed) :
      Steps s (.complete c)
        (s.setNode c { s.node c with thread := .returned, isThreadComplete := true })

variable {s s' : Server} {c : ℕ} {e : ServerEvent}

lemma steps_of_step (hstep : s.step e = some s') : s.Steps e s' := by
  cases e with
  | accept clientfd =>
    simp only [step] at hstep
    split at hstep
    · rename_i hlistener
      split_ifs at hstep with hfd
      cases hstep
      exact .accept hlistener hfd.1 hfd.2
    · cases hstep
  | acceptFails eintr =>
    simp only [step] at hstep
    split at hstep
    · rename_i hlistener
      cases eintr with
      | true =>
        cases hstep
        exact .interrupted hlistener
      | false =>
        cases hstep
        exact .acceptFails hlistener
    · cases hstep
  | visit =>
    simp only [step] at hstep
    split at hstep
    · rename_i c left hlistener
      split_ifs at hstep with hflag hended
      · cases hstep
        exact .remove hlistener hflag (by simpa using hended)
      · cases hstep
        exact .pass hlistener (by simpa using hflag)
    · rename_i c left hlistener
      split_ifs at hstep with hended
      cases hstep
      exact .join hlistener (by simpa using hended)
    · cases hstep
  | endOfSweep =>
    simp only [step] at hstep
    split at hstep
    · rename_i hlistener
      cases hstep
      exact .endOfSweep hlistener
    · cases hstep
  | signal =>
    cases hstep
    exact .signal
  | input c input =>
    simp only [step] at hstep
    split at hstep
    · rename_i session hthread
      split_ifs at hstep with hlt
      obtain ⟨thread, hreceive, rfl⟩ := Option.map_eq_some_iff.mp hstep
      exact .input hthread hlt.1 hlt.2 hreceive
    · cases hstep
  | endLoop c =>
    simp only [step] at hstep
    split at hstep
    · rename_i hthread
      split_ifs at hstep with hlt
      cases hstep
      exact .endLoop hthread hlt.1 hlt.2
    · cases hstep
  | close c =>
    simp only [step] at hstep
    split at hstep
    · rename_i hthread
      cases hstep
      exact .close hthread
    · cases hstep
  | complete c =>
    simp only [step] at hstep
    split at hstep
    · rename_i hthread
      cases hstep
      exact .complete hthread
    · cases hstep

@[simp] lemma node_insertNode_self (clientfd : ℤ) :
    (s.insertNode clientfd).node s.started = { clientfd := clientfd } := Function.update_self ..

lemma node_insertNode_of_ne (clientfd : ℤ) (hc : c ≠ s.started) :
    (s.insertNode clientfd).node c = s.node c := Function.update_of_ne hc ..

@[simp] lemma node_removeNode_self : (s.removeNode c).node c =
    { s.node c with joined := (s.node c).joined + 1, freed := (s.node c).freed + 1 } :=
  Function.update_self ..

lemma node_removeNode_of_ne {d : ℕ} (hd : d ≠ c) : (s.removeNode c).node d = s.node d :=
  Function.update_of_ne hd ..

/-! ### What should hold -/

/-- Every node is one of an accepted connection; a thread that has ended has closed its descriptor
and set its flag; a node is removed, joined and freed together and once; and after a sweep the list
has exactly one node for each thread that was running. -/
structure SessionsOk (s : Server) : Prop where
  accepted : ∀ c < s.started, (s.node c).clientfd ≠ -1
  ended : ∀ c < s.started, (s.node c).thread.running = false →
    (s.node c).isThreadComplete = true ∧ ∀ fd, s.fds fd ≠ some c
  kept : ∀ c ∈ s.head, (s.node c).joined = 0 ∧ (s.node c).freed = 0
  removed : ∀ c < s.started, c ∉ s.head → (s.node c).joined = 1 ∧ (s.node c).freed = 1
  swept : s.listener = .sweeping [] →
    ∀ c, s.head.count c = if c < s.started ∧ s.runningAtSweep c = true then 1 else 0

/-- The event is not a failure of `accept`, unless by the signal that ends the program, and not one
of `recv`. -/
def Admitted : ServerEvent → Prop
  | .acceptFails eintr    => eintr = true
  | .input _ .recvFailed  => False
  | _                     => True

/-- The invariant of runs without such failures. -/
structure Inv (s : Server) : Prop where
  nodup : s.head.Nodup
  mem_lt : ∀ c ∈ s.head, c < s.started
  accepted : ∀ c < s.started, (s.node c).clientfd ≠ -1
  complete : ∀ c, (s.node c).isThreadComplete = !(s.node c).thread.running
  holder : ∀ fd c, s.fds fd = some c →
    c < s.started ∧ (s.node c).clientfd = fd ∧ (s.node c).thread.holdsDescriptor = true
  kept : ∀ c ∈ s.head, (s.node c).joined = 0 ∧ (s.node c).freed = 0
  removed : ∀ c < s.started, c ∉ s.head →
    (s.node c).isThreadComplete = true ∧ (s.node c).joined = 1 ∧ (s.node c).freed = 1
  sweeping : ∀ left, s.listener = .sweeping left → left.Nodup ∧ left ⊆ s.head ∧
    ∀ c < s.started, c ∉ left → (c ∈ s.head ↔ s.runningAtSweep c = true)
  ending : ∀ left, s.listener = .ending left → left.Nodup ∧ left ⊆ s.head

lemma Inv.sessionsOk (h : s.Inv) : s.SessionsOk := by
  refine ⟨h.accepted, ?_, h.kept, fun c hc hmem => (h.removed c hc hmem).2, ?_⟩
  · -- a thread that has ended holds no descriptor
    intro c _ hended
    refine ⟨by simp [h.complete, hended], fun fd hfd => ?_⟩
    obtain ⟨-, -, hholds⟩ := h.holder fd c hfd
    cases hthread : (s.node c).thread with
    | returned => simp [hthread, ThreadState.holdsDescriptor] at hholds
    | _ => simp [hthread, ThreadState.running] at hended
  · -- after a sweep, the nodes are those of the threads that were running
    intro hlistener c
    obtain ⟨-, -, hiff⟩ := h.sweeping [] hlistener
    by_cases hmem : c ∈ s.head
    · have hlt := h.mem_lt c hmem
      rw [List.count_eq_one_of_mem h.nodup hmem,
        if_pos ⟨hlt, (hiff c hlt List.not_mem_nil).mp hmem⟩]
    · rw [List.count_eq_zero_of_not_mem hmem, if_neg]
      rintro ⟨hlt, hrunning⟩
      exact hmem ((hiff c hlt List.not_mem_nil).mpr hrunning)

lemma inv_init : ({} : Server).Inv := by
  refine ⟨List.nodup_nil, by simp, by simp, fun c => rfl, by simp, by simp, by simp, ?_, ?_⟩
  · rintro left ⟨⟩
  · rintro left ⟨⟩

@[simp] lemma node_setNode_self (n : ClientNode) : (s.setNode c n).node c = n :=
  Function.update_self ..

@[simp] lemma node_setNode_of_ne {d : ℕ} (n : ClientNode) (hd : d ≠ c) :
    (s.setNode c n).node d = s.node d := Function.update_of_ne hd ..

@[simp] lemma started_setNode (n : ClientNode) : (s.setNode c n).started = s.started := rfl

@[simp] lemma runningAtSweep_setNode (n : ClientNode) :
    (s.setNode c n).runningAtSweep = s.runningAtSweep := rfl

/-- A thread goes on, and perhaps gives up its descriptor. -/
lemma Inv.setThread (h : s.Inv) (thread : ThreadState) (complete : Bool) {fds : ℤ → Option ℕ}
    (hcomplete : complete = !thread.running)
    (hkept : (s.node c).isThreadComplete = true → complete = true)
    (hfds : ∀ fd d, fds fd = some d → s.fds fd = some d)
    (hholds : ∀ fd, fds fd = some c → thread.holdsDescriptor = true) :
    Inv { s.setNode c { s.node c with thread := thread, isThreadComplete := complete } with
      fds := fds } := by
  refine ⟨h.nodup, h.mem_lt, ?_, ?_, ?_, ?_, ?_, h.sweeping, h.ending⟩
  · intro d hd
    by_cases hdc : d = c
    · subst hdc
      simpa using h.accepted d hd
    · simpa [hdc] using h.accepted d hd
  · intro d
    by_cases hdc : d = c
    · subst hdc
      simpa using hcomplete
    · simpa [hdc] using h.complete d
  · -- which descriptors are open, and whose they are
    intro fd d hfd
    obtain ⟨hlt, hclient, hholder⟩ := h.holder fd d (hfds fd d hfd)
    by_cases hdc : d = c
    · subst hdc
      simpa [hlt, hclient] using hholds fd hfd
    · simpa [hdc] using ⟨hlt, hclient, hholder⟩
  · intro d hd
    by_cases hdc : d = c
    · subst hdc
      simpa using h.kept d hd
    · simpa [hdc] using h.kept d hd
  · -- what has been removed has its flag set, and keeps it
    intro d hlt hd
    obtain ⟨hflag, hjoined, hfreed⟩ := h.removed d hlt hd
    by_cases hdc : d = c
    · subst hdc
      simpa [hjoined, hfreed] using hkept hflag
    · simpa [hdc] using ⟨hflag, hjoined, hfreed⟩

/-- The listener goes on without changing its list. -/
lemma Inv.setListener (h : s.Inv) {listener : ListenerState} {endProgram : Bool}
    {runningAtSweep : ℕ → Bool}
    (hsweeping : ∀ left, listener = .sweeping left → left.Nodup ∧ left ⊆ s.head ∧
      ∀ c < s.started, c ∉ left → (c ∈ s.head ↔ runningAtSweep c = true))
    (hending : ∀ left, listener = .ending left → left.Nodup ∧ left ⊆ s.head) :
    Inv { s with
      listener := listener
      endProgram := endProgram
      runningAtSweep := runningAtSweep } :=
  ⟨h.nodup, h.mem_lt, h.accepted, h.complete, h.holder, h.kept, h.removed, hsweeping, hending⟩

/-- A node whose thread has ended is removed. -/
lemma Inv.removeNode (h : s.Inv) (hmem : c ∈ s.head)
    (hended : (s.node c).thread.running = false) :
    Inv { s.removeNode c with listener := .accepting } := by
  have hnode : ∀ d, d ≠ c → (s.removeNode c).node d = s.node d :=
    fun _ => node_removeNode_of_ne
  have hhead : ∀ d, d ∈ (s.removeNode c).head ↔ d ≠ c ∧ d ∈ s.head :=
    fun d => h.nodup.mem_erase_iff
  refine ⟨h.nodup.erase c, ?_, ?_, ?_, ?_, ?_, ?_, ?_, ?_⟩
  · intro d hd
    exact h.mem_lt d ((hhead d).mp hd).2
  · intro d hd
    by_cases hdc : d = c
    · subst hdc
      rw [node_removeNode_self]
      exact h.accepted d hd
    · rw [hnode d hdc]
      exact h.accepted d hd
  · intro d
    by_cases hdc : d = c
    · subst hdc
      rw [node_removeNode_self]
      exact h.complete d
    · rw [hnode d hdc]
      exact h.complete d
  · intro fd d hfd
    obtain ⟨hlt, hclient, hholds⟩ := h.holder fd d hfd
    by_cases hdc : d = c
    · subst hdc
      rw [node_removeNode_self]
      exact ⟨hlt, hclient, hholds⟩
    · rw [hnode d hdc]
      exact ⟨hlt, hclient, hholds⟩
  · intro d hd
    obtain ⟨hdc, hd⟩ := (hhead d).mp hd
    rw [hnode d hdc]
    exact h.kept d hd
  · -- the node is joined and freed, for the first time
    intro d hlt hd
    by_cases hdc : d = c
    · subst hdc
      obtain ⟨hjoined, hfreed⟩ := h.kept d hmem
      rw [node_removeNode_self]
      exact ⟨by simp [h.complete, hended], by simp [hjoined], by simp [hfreed]⟩
    · rw [hnode d hdc]
      exact h.removed d hlt fun hd' => hd ((hhead d).mpr ⟨hdc, hd'⟩)
  · rintro left ⟨⟩
  · rintro left ⟨⟩

/-- A node for a connection that was accepted. -/
lemma Inv.insertNode (h : s.Inv) {clientfd : ℤ} (hfd : 0 ≤ clientfd) :
    Inv { s.insertNode clientfd with
      fds := Function.update s.fds clientfd (some s.started) } := by
  have hnode : ∀ d, d ≠ s.started → (s.insertNode clientfd).node d = s.node d :=
    fun _ => node_insertNode_of_ne clientfd
  have hold : ∀ d, d < s.started + 1 → d ≠ s.started → d < s.started := fun d => by omega
  have hne : ∀ d ∈ s.head, d ≠ s.started := fun d hd => (h.mem_lt d hd).ne
  refine ⟨?_, ?_, ?_, ?_, ?_, ?_, ?_, ?_, ?_⟩
  · exact List.nodup_cons.mpr ⟨fun hmem => hne _ hmem rfl, h.nodup⟩
  · intro d hd
    show d < s.started + 1
    rcases List.mem_cons.mp hd with rfl | hd
    · exact Nat.lt_succ_self _
    · exact Nat.lt_succ_of_lt (h.mem_lt d hd)
  · intro d hd
    show ((s.insertNode clientfd).node d).clientfd ≠ -1
    by_cases hds : d = s.started
    · subst hds
      rw [node_insertNode_self]
      show clientfd ≠ -1
      omega
    · rw [hnode d hds]
      exact h.accepted d (hold d hd hds)
  · intro d
    show ((s.insertNode clientfd).node d).isThreadComplete =
      !((s.insertNode clientfd).node d).thread.running
    by_cases hds : d = s.started
    · subst hds
      rw [node_insertNode_self]
      rfl
    · rw [hnode d hds]
      exact h.complete d
  · -- the new descriptor is that of the new node, the others are as they were
    intro fd d hd
    show d < s.started + 1 ∧ ((s.insertNode clientfd).node d).clientfd = fd ∧
      ((s.insertNode clientfd).node d).thread.holdsDescriptor = true
    replace hd : Function.update s.fds clientfd (some s.started) fd = some d := hd
    by_cases hfd' : fd = clientfd
    · subst hfd'
      rw [Function.update_self, Option.some.injEq] at hd
      subst hd
      rw [node_insertNode_self]
      exact ⟨Nat.lt_succ_self _, rfl, rfl⟩
    · rw [Function.update_of_ne hfd'] at hd
      obtain ⟨hlt, hholder⟩ := h.holder fd d hd
      rw [hnode d hlt.ne]
      exact ⟨Nat.lt_succ_of_lt hlt, hholder⟩
  · intro d hd
    show ((s.insertNode clientfd).node d).joined = 0 ∧ ((s.insertNode clientfd).node d).freed = 0
    rcases List.mem_cons.mp hd with rfl | hd
    · rw [node_insertNode_self]
      exact ⟨rfl, rfl⟩
    · rw [hnode d (hne d hd)]
      exact h.kept d hd
  · intro d hlt hd
    show ((s.insertNode clientfd).node d).isThreadComplete = true ∧
      ((s.insertNode clientfd).node d).joined = 1 ∧ ((s.insertNode clientfd).node d).freed = 1
    obtain ⟨hds, hd⟩ := not_or.mp (mt List.mem_cons.mpr hd)
    rw [hnode d hds]
    exact h.removed d (hold d hlt hds) hd
  · -- no node has been visited yet, and those not in the list have ended
    rintro left ⟨⟩
    refine ⟨List.nodup_cons.mpr ⟨fun hmem => hne _ hmem rfl, h.nodup⟩, fun d hd => hd, ?_⟩
    intro d hlt hd
    refine ⟨fun hd' => absurd hd' hd, fun hrunning => ?_⟩
    have hrunning' : ((s.insertNode clientfd).node d).thread.running = true :=
      (Bool.and_eq_true_iff.mp hrunning).2
    obtain ⟨hds, hd⟩ := not_or.mp (mt List.mem_cons.mpr hd)
    obtain ⟨hcomplete, -⟩ := h.removed d (hold d hlt hds) hd
    rw [hnode d hds] at hrunning'
    rw [h.complete, hrunning'] at hcomplete
    cases hcomplete
  · rintro left ⟨⟩

/-- The nodes that are left to visit are in the list, also without the node visited. -/
lemma Inv.left_subset_erase (h : s.Inv) {left : List ℕ} (hnodup : (c :: left).Nodup)
    (hsub : c :: left ⊆ s.head) : left ⊆ s.head.erase c := by
  intro d hd
  have hdc : d ≠ c := fun hdc => (List.nodup_cons.mp hnodup).1 (hdc ▸ hd)
  exact h.nodup.mem_erase_iff.mpr ⟨hdc, hsub (List.mem_cons_of_mem _ hd)⟩

/-- The listener passes a node whose thread has not completed. -/
lemma Inv.pass (h : s.Inv) {left : List ℕ} (hlistener : s.listener = .sweeping (c :: left))
    (hflag : (s.node c).isThreadComplete = false) :
    Inv { s with
      listener := .sweeping left
      runningAtSweep := Function.update s.runningAtSweep c (s.node c).thread.running } := by
  obtain ⟨hnodup, hsub, hiff⟩ := h.sweeping _ hlistener
  have hrunning : (s.node c).thread.running = true := by
    have hcomplete := h.complete c
    rw [hflag] at hcomplete
    simpa using hcomplete.symm
  refine h.setListener ?_ (by rintro left' ⟨⟩)
  rintro _ ⟨⟩
  refine ⟨hnodup.of_cons, fun d hd => hsub (List.mem_cons_of_mem _ hd), fun d hlt hd => ?_⟩
  by_cases hdc : d = c
  · subst hdc
    simp [hsub List.mem_cons_self, hrunning]
  · simpa [hdc] using hiff d hlt (by simp [hdc, hd])

/-- The listener removes a node in the sweep. -/
lemma Inv.remove (h : s.Inv) {left : List ℕ} (hlistener : s.listener = .sweeping (c :: left))
    (hended : (s.node c).thread.running = false) :
    Inv ({ s with
      listener := .sweeping left
      runningAtSweep :=
        Function.update s.runningAtSweep c (s.node c).thread.running }.removeNode c) := by
  obtain ⟨hnodup, hsub, hiff⟩ := h.sweeping _ hlistener
  refine (h.removeNode (hsub List.mem_cons_self) hended).setListener ?_ (by rintro left' ⟨⟩)
  rintro _ ⟨⟩
  refine ⟨hnodup.of_cons, h.left_subset_erase hnodup hsub, fun d hlt hd => ?_⟩
  refine h.nodup.mem_erase_iff.trans ?_
  by_cases hdc : d = c
  · subst hdc
    simp [hended]
  · simpa [hdc] using hiff d hlt (by simp [hdc, hd])

/-- The listener removes a node behind its loop. -/
lemma Inv.join (h : s.Inv) {left : List ℕ} (hlistener : s.listener = .ending (c :: left))
    (hended : (s.node c).thread.running = false) :
    Inv ({ s with listener := .ending left }.removeNode c) := by
  obtain ⟨hnodup, hsub⟩ := h.ending _ hlistener
  refine (h.removeNode (hsub List.mem_cons_self) hended).setListener (by rintro left' ⟨⟩) ?_
  rintro _ ⟨⟩
  exact ⟨hnodup.of_cons, h.left_subset_erase hnodup hsub⟩

/-- The listener waits again, or goes on behind its loop. -/
lemma Inv.endOfSweep (h : s.Inv) :
    Inv { s with listener := if s.endProgram then .ending s.head else .accepting } := by
  apply h.setListener
  · intro left hleft
    split_ifs at hleft
  · intro left hleft
    split_ifs at hleft with hend
    cases hleft
    exact ⟨h.nodup, fun d hd => hd⟩

/-- A thread closes its descriptor. -/
lemma Inv.close (h : s.Inv) (hthread : (s.node c).thread = .leaving) :
    Inv { s.setNode c { s.node c with thread := .closed } with
      fds := Function.update s.fds (s.node c).clientfd none } := by
  have hcomplete := h.complete c
  rw [hthread] at hcomplete
  refine h.setThread .closed _ hcomplete id ?_ ?_
  · intro fd d hd
    by_cases hfd : fd = (s.node c).clientfd
    · rw [hfd, Function.update_self] at hd
      cases hd
    · rwa [Function.update_of_ne hfd] at hd
  · intro fd hd
    by_cases hfd : fd = (s.node c).clientfd
    · rw [hfd, Function.update_self] at hd
      cases hd
    · -- another descriptor does not refer to this connection
      rw [Function.update_of_ne hfd] at hd
      exact absurd (h.holder fd c hd).2.1.symm hfd

/-- The step lemma. -/
lemma Inv.step (h : s.Inv) (hadmitted : Admitted e) (hstep : s.step e = some s') : s'.Inv := by
  cases steps_of_step hstep with
  | accept _ hfd _ => exact h.insertNode hfd
  | interrupted _ =>
    refine h.setListener (by rintro left ⟨⟩) ?_
    rintro left ⟨⟩
    exact ⟨h.nodup, fun d hd => hd⟩
  | acceptFails _ => cases hadmitted
  | pass hlistener hflag => exact h.pass hlistener hflag
  | remove hlistener _ hended => exact h.remove hlistener hended
  | join hlistener hended => exact h.join hlistener hended
  | endOfSweep _ => exact h.endOfSweep
  | signal => exact h.setListener h.sweeping h.ending
  | @input c _ _ thread hthread _ _ hreceive =>
    have hcomplete := h.complete c
    rw [hthread] at hcomplete
    rcases ThreadState.receive_cases hreceive with ⟨rfl, -⟩ | ⟨-, hrunning, hholds⟩
    · -- `recv` fails, which is excluded
      exact hadmitted.elim
    · refine h.setThread thread _ ?_ id (fun _ _ hd => hd) fun _ _ => hholds
      rw [hcomplete, hrunning]
      rfl
  | @endLoop c hthread _ _ =>
    have hcomplete := h.complete c
    rw [hthread] at hcomplete
    exact h.setThread .leaving _ hcomplete id (fun _ _ hd => hd) fun _ _ => rfl
  | close hthread => exact h.close hthread
  | @complete c hthread =>
    refine h.setThread .returned true rfl (fun _ => rfl) (fun _ _ hd => hd) fun fd hfd => ?_
    obtain ⟨-, -, hholds⟩ := h.holder fd c hfd
    rw [hthread] at hholds
    cases hholds

/-- The run lemma. -/
lemma inv_of_run {events : List ServerEvent} (hrun : run events = some s)
    (hadmitted : ∀ e ∈ events, Admitted e) : s.Inv := by
  induction events using List.reverseRecOn generalizing s with
  | nil =>
    cases hrun
    exact inv_init
  | append_singleton events e ih =>
    rw [run_concat, Option.bind_eq_some_iff] at hrun
    obtain ⟨s₁, hrun, hstep⟩ := hrun
    have hinv := ih hrun fun e' he' => hadmitted e' (List.mem_append_left _ he')
    exact hinv.step (hadmitted e (List.mem_append_right _ List.mem_cons_self)) hstep

/-- A failure shows at once. -/
lemma Inv.not_sessionsOk (h : s.Inv) (hfailure : ¬ Admitted e) (hstep : s.step e = some s') :
    ¬ s'.SessionsOk := by
  intro hok
  cases steps_of_step hstep with
  | acceptFails _ =>
    apply hok.accepted s.started (Nat.lt_succ_self _)
    rw [node_insertNode_self]
  | @input c i session thread hthread hlt _ hreceive =>
    rcases ThreadState.receive_cases hreceive with ⟨-, rfl⟩ | ⟨hinput, -⟩
    · -- `recv` fails: the thread has ended, and its flag cannot be set
      have hended := (hok.ended c hlt (by simp [ThreadState.running])).1
      rw [node_setNode_self] at hended
      have hcomplete := h.complete c
      rw [hthread] at hcomplete
      exact absurd (hcomplete.symm.trans hended) (by simp [ThreadState.running])
    · exact hfailure (by cases i <;> trivial)
  | interrupted _ => exact hfailure rfl
  | _ => exact hfailure trivial

/-- Whatever order connections come and threads end in, the list is in order all the time if and
only if `accept` fails at most by the signal that ends the program and `recv` never fails. -/
theorem sessionsOk_iff {events : List ServerEvent} (hrun : run events = some s) :
    (∀ before s', before <+: events → run before = some s' → s'.SessionsOk) ↔
      ∀ e ∈ events, Admitted e := by
  constructor
  · induction events using List.reverseRecOn generalizing s with
    | nil =>
      intro _ e he
      cases he
    | append_singleton events e ih =>
      intro hok
      rw [run_concat, Option.bind_eq_some_iff] at hrun
      obtain ⟨s₁, hrun, hstep⟩ := hrun
      have hadmitted := ih hrun fun before s' hpre =>
        hok before s' (hpre.trans (List.prefix_append _ _))
      intro e' he'
      rcases List.mem_append.mp he' with he' | he'
      · exact hadmitted e' he'
      · -- the last event is the first failure there could be
        obtain rfl := List.mem_singleton.mp he'
        by_contra hfailure
        refine (inv_of_run hrun hadmitted).not_sessionsOk hfailure hstep
          (hok _ _ List.prefix_rfl ?_)
        rw [run_concat, hrun]
        exact hstep
  · intro hadmitted before s' hpre hbefore
    exact (inv_of_run hbefore fun e he => hadmitted e (hpre.subset he)).sessionsOk

/-- A client connects, its thread waits for a message, and the sweep leaves its node. -/
theorem sessionsOk_iff_connect : ∃ s,
    run [.accept 5, .visit, .input 0 (.malloc (some [])), .endOfSweep] = some s ∧
      s.head = [0] ∧ ∀ s', run [.accept 5, .visit] = some s' → s'.SessionsOk := by
  obtain ⟨s, hrun⟩ : ∃ s,
      run [.accept 5, .visit, .input 0 (.malloc (some [])), .endOfSweep] = some s := ⟨_, rfl⟩
  refine ⟨s, hrun, ?_, fun s' => (sessionsOk_iff hrun).mpr ?_ _ s' ?_⟩
  · cases hrun
    rfl
  · intro e he
    simp only [List.mem_cons, List.not_mem_nil, or_false] at he
    rcases he with rfl | rfl | rfl | rfl <;> trivial
  · exact ⟨[.input 0 (.malloc (some [])), .endOfSweep], rfl⟩

/-- The `recv` of a client's thread fails: the thread ends with its descriptor open and its flag
not set, and the next sweep leaves its node in the list. An `accept` that fails makes a node for
descriptor `-1`. -/
theorem failures_break_session_list :
    (∃ s, run [.accept 5, .visit, .endOfSweep, .input 0 (.malloc (some [])),
        .input 0 .recvFailed, .accept 6, .visit, .visit] = some s ∧
      (s.node 0).thread.running = false ∧ (s.node 0).isThreadComplete = false ∧
      s.fds 5 = some 0 ∧ s.listener = .sweeping [] ∧ s.head = [1, 0] ∧ ¬ s.SessionsOk) ∧
    ∃ s, run [.acceptFails false] = some s ∧ s.head = [0] ∧ (s.node 0).clientfd = -1 ∧
      ¬ s.SessionsOk := by
  refine ⟨⟨_, rfl, rfl, rfl, rfl, rfl, rfl, fun hok => ?_⟩, ⟨_, rfl, rfl, rfl, fun hok => ?_⟩⟩
  · exact absurd (hok.ended 0 (by decide) rfl).1 (by decide)
  · exact hok.accepted 0 (by decide) rfl

end Server

end Aesd
