import Aesd.Server.SessionList

/-!
# Shutting the server down

What holds of the list of sessions in every run, whatever fails (`Sound`): a node that has left the
list was joined and freed once, after its thread had ended, and a descriptor stays open as long as
its thread holds it, and for good if the thread's `recv` failed. Behind its loop `listenLoop`
leaves nothing else behind (`nothing_left`). Once the signal has been caught the server can get
there without a further connection or message, but not if the listener has come to wait in `accept`
by then: the signal is not caught a second time (`can_shut_down`).
-/

namespace Aesd

open CInt

/-- The thread's descriptor is open: the thread has not closed it, or has ended without. -/
def ClientNode.keepsDescriptor (n : ClientNode) : Bool :=
  n.thread.holdsDescriptor || (!n.thread.running && !n.isThreadComplete)

lemma ThreadState.running_of_holds {thread : ThreadState} (h : thread.holdsDescriptor = true) :
    thread.running = true := by
  cases thread with
  | returned => cases h
  | _ => rfl

namespace Server

variable {s s' : Server} {c : ℕ} {e : ServerEvent}

/-! ### The invariant of all runs -/

/-- What holds whatever fails. -/
structure Sound (s : Server) : Prop where
  nodup : s.head.Nodup
  mem_lt : ∀ c ∈ s.head, c < s.started
  kept : ∀ c ∈ s.head, (s.node c).joined = 0 ∧ (s.node c).freed = 0
  removed : ∀ c < s.started, c ∉ s.head →
    (s.node c).thread.running = false ∧ (s.node c).joined = 1 ∧ (s.node c).freed = 1
  complete : ∀ c, (s.node c).isThreadComplete = true → (s.node c).thread.running = false
  unused : ∀ c, s.started ≤ c → s.node c = { clientfd := -1 }
  descriptors : ∀ fd c, s.fds fd = some c ↔
    c < s.started ∧ (s.node c).clientfd = fd ∧ fd ≠ -1 ∧ (s.node c).keepsDescriptor = true
  sweeping : ∀ left, s.listener = .sweeping left → left.Nodup ∧ left ⊆ s.head
  ending : ∀ left, s.listener = .ending left → left = s.head ∧ s.endProgram = true

lemma sound_init : ({} : Server).Sound := by
  refine ⟨List.nodup_nil, by simp, by simp, by simp, by simp, fun _ _ => rfl, by simp, ?_, ?_⟩
  · rintro left ⟨⟩
  · rintro left ⟨⟩

/-- A thread that has not ended is in the list. -/
lemma Sound.mem_head (h : s.Sound) (hlt : c < s.started)
    (hrunning : (s.node c).thread.running = true) : c ∈ s.head := by
  by_contra hmem
  have hended := (h.removed c hlt hmem).1
  rw [hrunning] at hended
  cases hended

lemma Sound.flag_of_running (h : s.Sound) (hrunning : (s.node c).thread.running = true) :
    (s.node c).isThreadComplete = false := by
  rw [← Bool.not_eq_true]
  intro hflag
  rw [h.complete c hflag] at hrunning
  cases hrunning

/-- A thread that has got beyond the top of its loop belongs to a node. -/
lemma Sound.lt_started (h : s.Sound)
    (hthread : ∀ session, (s.node c).thread ≠ .serving session) : c < s.started := by
  by_contra hlt
  apply hthread .starting
  rw [h.unused c (not_lt.mp hlt)]

/-- A running thread goes on, and perhaps closes its descriptor. -/
lemma Sound.setThread (h : s.Sound) (thread : ThreadState) (complete : Bool) {fds : ℤ → Option ℕ}
    (hlt : c < s.started) (hrunning : (s.node c).thread.running = true)
    (hcomplete : complete = true → thread.running = false)
    (hother : ∀ fd d, d ≠ c → (fds fd = some d ↔ s.fds fd = some d))
    (hself : ∀ fd, fds fd = some c ↔ (s.node c).clientfd = fd ∧ fd ≠ -1 ∧
      (thread.holdsDescriptor || (!thread.running && !complete)) = true) :
    Sound { s.setNode c { s.node c with thread := thread, isThreadComplete := complete } with
      fds := fds } := by
  have hmem := h.mem_head hlt hrunning
  refine ⟨h.nodup, h.mem_lt, ?_, ?_, ?_, ?_, ?_, h.sweeping, h.ending⟩
  · intro d hd
    by_cases hdc : d = c
    · subst hdc
      simpa using h.kept d hd
    · simpa [hdc] using h.kept d hd
  · intro d hd hd'
    have hdc : d ≠ c := by
      rintro rfl
      exact hd' hmem
    simpa [hdc] using h.removed d hd hd'
  · intro d
    by_cases hdc : d = c
    · subst hdc
      simpa using hcomplete
    · simpa [hdc] using h.complete d
  · intro d hd
    have hdc : d ≠ c := fun hdc => absurd hlt (by rw [← hdc]; exact not_lt.mpr hd)
    simpa [hdc] using h.unused d hd
  · -- every open descriptor belongs to the node that has it
    intro fd d
    by_cases hdc : d = c
    · subst hdc
      simpa [ClientNode.keepsDescriptor, hlt] using hself fd
    · simpa [hdc] using (hother fd d hdc).trans (h.descriptors fd d)

/-- The listener goes on without changing its list. -/
lemma Sound.setListener (h : s.Sound) {listener : ListenerState} {endProgram : Bool}
    {runningAtSweep : ℕ → Bool}
    (hsweeping : ∀ left, listener = .sweeping left → left.Nodup ∧ left ⊆ s.head)
    (hending : ∀ left, listener = .ending left → left = s.head ∧ endProgram = true) :
    Sound { s with
      listener := listener
      endProgram := endProgram
      runningAtSweep := runningAtSweep } :=
  ⟨h.nodup, h.mem_lt, h.kept, h.removed, h.complete, h.unused, h.descriptors, hsweeping, hending⟩

/-- The node of a thread that has ended is removed. -/
lemma Sound.removeNode (h : s.Sound) (hmem : c ∈ s.head)
    (hended : (s.node c).thread.running = false) :
    Sound { s.removeNode c with listener := .accepting } := by
  have hnode : ∀ d, d ≠ c → (s.removeNode c).node d = s.node d :=
    fun _ => node_removeNode_of_ne
  have hhead : ∀ d, d ∈ (s.removeNode c).head ↔ d ≠ c ∧ d ∈ s.head :=
    fun d => h.nodup.mem_erase_iff
  refine ⟨h.nodup.erase c, ?_, ?_, ?_, ?_, ?_, ?_, ?_, ?_⟩
  · intro d hd
    exact h.mem_lt d ((hhead d).mp hd).2
  · intro d hd
    obtain ⟨hdc, hd⟩ := (hhead d).mp hd
    rw [hnode d hdc]
    exact h.kept d hd
  · -- what has been taken out has ended, and been joined and freed once
    intro d hlt hd
    by_cases hdc : d = c
    · subst hdc
      obtain ⟨hjoined, hfreed⟩ := h.kept d hmem
      rw [node_removeNode_self]
      exact ⟨hended, by simp [hjoined], by simp [hfreed]⟩
    · rw [hnode d hdc]
      exact h.removed d hlt fun hd' => hd ((hhead d).mpr ⟨hdc, hd'⟩)
  · intro d hd
    by_cases hdc : d = c
    · subst hdc
      rw [node_removeNode_self]
      exact hended
    · rw [hnode d hdc] at hd ⊢
      exact h.complete d hd
  · intro d hd
    have hdc : d ≠ c := fun hdc => absurd (h.mem_lt c hmem) (by rw [← hdc]; exact not_lt.mpr hd)
    rw [hnode d hdc]
    exact h.unused d hd
  · intro fd d
    by_cases hdc : d = c
    · subst hdc
      rw [node_removeNode_self]
      exact h.descriptors fd d
    · rw [hnode d hdc]
      exact h.descriptors fd d
  · rintro left ⟨⟩
  · rintro left ⟨⟩

/-- A node for what `accept` returned. -/
lemma Sound.insertNode (h : s.Sound) {clientfd : ℤ} (fds : ℤ → Option ℕ)
    (hother : ∀ fd d, d ≠ s.started → (fds fd = some d ↔ s.fds fd = some d))
    (hself : ∀ fd, fds fd = some s.started ↔ clientfd = fd ∧ fd ≠ -1) :
    Sound { s.insertNode clientfd with fds := fds } := by
  have hnode : ∀ d, d ≠ s.started → (s.insertNode clientfd).node d = s.node d :=
    fun _ => node_insertNode_of_ne clientfd
  have hne : ∀ d ∈ s.head, d ≠ s.started := fun d hd => (h.mem_lt d hd).ne
  have hold : ∀ d, d < s.started + 1 → d ≠ s.started → d < s.started := fun d => by omega
  have hnodup : (s.started :: s.head).Nodup :=
    List.nodup_cons.mpr ⟨fun hmem => hne _ hmem rfl, h.nodup⟩
  refine ⟨hnodup, ?_, ?_, ?_, ?_, ?_, ?_, ?_, ?_⟩
  · intro d hd
    show d < s.started + 1
    rcases List.mem_cons.mp hd with rfl | hd
    · exact Nat.lt_succ_self _
    · exact Nat.lt_succ_of_lt (h.mem_lt d hd)
  · intro d hd
    show ((s.insertNode clientfd).node d).joined = 0 ∧ ((s.insertNode clientfd).node d).freed = 0
    rcases List.mem_cons.mp hd with rfl | hd
    · rw [node_insertNode_self]
      exact ⟨rfl, rfl⟩
    · rw [hnode d (hne d hd)]
      exact h.kept d hd
  · intro d hlt hd
    show ((s.insertNode clientfd).node d).thread.running = false ∧
      ((s.insertNode clientfd).node d).joined = 1 ∧ ((s.insertNode clientfd).node d).freed = 1
    obtain ⟨hds, hd⟩ := not_or.mp (mt List.mem_cons.mpr hd)
    rw [hnode d hds]
    exact h.removed d (hold d hlt hds) hd
  · intro d hd
    replace hd : ((s.insertNode clientfd).node d).isThreadComplete = true := hd
    show ((s.insertNode clientfd).node d).thread.running = false
    by_cases hds : d = s.started
    · subst hds
      rw [node_insertNode_self] at hd
      cases hd
    · rw [hnode d hds] at hd ⊢
      exact h.complete d hd
  · intro d hd
    replace hd : s.started + 1 ≤ d := hd
    show (s.insertNode clientfd).node d = { clientfd := -1 }
    rw [hnode d (by omega)]
    exact h.unused d (by omega)
  · -- the new descriptor is that of the new node, the others are as they were
    intro fd d
    show fds fd = some d ↔ d < s.started + 1 ∧ ((s.insertNode clientfd).node d).clientfd = fd ∧
      fd ≠ -1 ∧ ((s.insertNode clientfd).node d).keepsDescriptor = true
    by_cases hds : d = s.started
    · subst hds
      rw [node_insertNode_self, hself]
      simp [ClientNode.keepsDescriptor, ThreadState.holdsDescriptor]
    · rw [hnode d hds, hother fd d hds, h.descriptors fd d]
      have hlt : d < s.started ↔ d < s.started + 1 := by omega
      rw [hlt]
  · rintro left ⟨⟩
    exact ⟨hnodup, fun d hd => hd⟩
  · rintro left ⟨⟩

/-- A connection is accepted on a descriptor that was not in use. -/
lemma Sound.accept (h : s.Sound) {clientfd : ℤ} (hfd : 0 ≤ clientfd)
    (hunused : s.fds clientfd = none) :
    Sound { s.insertNode clientfd with
      fds := Function.update s.fds clientfd (some s.started) } := by
  refine h.insertNode _ ?_ ?_
  · intro fd d hd
    by_cases hfd' : fd = clientfd
    · subst hfd'
      simp [hunused, hd.symm]
    · rw [Function.update_of_ne hfd']
  · intro fd
    by_cases hfd' : fd = clientfd
    · subst hfd'
      simp only [Function.update_self, true_and, true_iff]
      omega
    · -- no other descriptor refers to the new node
      rw [Function.update_of_ne hfd', h.descriptors]
      constructor
      · rintro ⟨hlt, -⟩
        exact absurd hlt (lt_irrefl _)
      · rintro ⟨rfl, -⟩
        exact absurd rfl hfd'

/-- A node for no connection. -/
lemma Sound.acceptFails (h : s.Sound) : Sound (s.insertNode (-1)) := by
  refine h.insertNode s.fds (fun _ _ _ => Iff.rfl) fun fd => ?_
  rw [h.descriptors]
  constructor
  · rintro ⟨hlt, -⟩
    exact absurd hlt (lt_irrefl _)
  · rintro ⟨rfl, hne⟩
    exact absurd rfl hne

/-- The listener removes a node in the sweep. -/
lemma Sound.remove (h : s.Sound) {left : List ℕ} {runningAtSweep : ℕ → Bool}
    (hlistener : s.listener = .sweeping (c :: left)) (hended : (s.node c).thread.running = false) :
    Sound ({ s with
      listener := .sweeping left, runningAtSweep := runningAtSweep }.removeNode c) := by
  obtain ⟨hnodup, hsub⟩ := h.sweeping _ hlistener
  refine (h.removeNode (hsub List.mem_cons_self) hended).setListener ?_ (by rintro left ⟨⟩)
  rintro left ⟨⟩
  refine ⟨hnodup.of_cons, fun d hd => ?_⟩
  have hdc : d ≠ c := fun hdc => (List.nodup_cons.mp hnodup).1 (hdc ▸ hd)
  exact h.nodup.mem_erase_iff.mpr ⟨hdc, hsub (List.mem_cons_of_mem _ hd)⟩

/-- The listener removes a node behind its loop. -/
lemma Sound.join (h : s.Sound) {left : List ℕ} (hlistener : s.listener = .ending (c :: left))
    (hended : (s.node c).thread.running = false) :
    Sound ({ s with listener := .ending left }.removeNode c) := by
  obtain ⟨hhead, hend⟩ := h.ending _ hlistener
  have hmem : c ∈ s.head := by
    rw [← hhead]
    exact List.mem_cons_self
  refine (h.removeNode hmem hended).setListener (by rintro left ⟨⟩) ?_
  rintro _ ⟨⟩
  refine ⟨?_, hend⟩
  show left = s.head.erase c
  rw [← hhead, List.erase_cons_head]

/-- A call in a thread's loop returns. -/
lemma Sound.input (h : s.Sound) {i : SessionInput} {session : Session} {thread : ThreadState}
    (hthread : (s.node c).thread = .serving session) (hlt : c < s.started)
    (hreceive : ThreadState.receive session i = some thread) :
    Sound (s.setNode c { s.node c with thread := thread }) := by
  have hrunning : (s.node c).thread.running = true := by rw [hthread]; rfl
  have hflag := h.flag_of_running hrunning
  refine h.setThread thread (s.node c).isThreadComplete hlt hrunning ?_
    (fun _ _ _ => Iff.rfl) fun fd => ?_
  · intro hflag'
    rw [hflag] at hflag'
    cases hflag'
  · -- the descriptor stays open, also if `recv` has failed
    rw [h.descriptors, ClientNode.keepsDescriptor, hthread, hflag]
    rcases ThreadState.receive_cases hreceive with ⟨-, rfl⟩ | ⟨-, -, hholds⟩
    · simp [hlt, ThreadState.holdsDescriptor, ThreadState.running]
    · rw [hholds]
      simp [hlt, ThreadState.holdsDescriptor]

/-- A thread finds `endProgram` set. -/
lemma Sound.endLoop (h : s.Sound) (hthread : (s.node c).thread = .serving .starting)
    (hlt : c < s.started) : Sound (s.setNode c { s.node c with thread := .leaving }) := by
  have hrunning : (s.node c).thread.running = true := by rw [hthread]; rfl
  refine h.setThread .leaving (s.node c).isThreadComplete hlt hrunning ?_
    (fun _ _ _ => Iff.rfl) fun fd => ?_
  · -- the flag is not set, since the thread is running
    intro hflag
    rw [h.complete c hflag] at hrunning
    cases hrunning
  · rw [h.descriptors, ClientNode.keepsDescriptor, hthread]
    simp [hlt, ThreadState.holdsDescriptor]

/-- A thread closes its descriptor, which no other thread has. -/
lemma Sound.close (h : s.Sound) (hthread : (s.node c).thread = .leaving) :
    Sound { s.setNode c { s.node c with thread := .closed } with
      fds := Function.update s.fds (s.node c).clientfd none } := by
  have hrunning : (s.node c).thread.running = true := by rw [hthread]; rfl
  have hlt : c < s.started := h.lt_started (by simp [hthread])
  have hkeeps : (s.node c).keepsDescriptor = true := by
    rw [ClientNode.keepsDescriptor, hthread]
    rfl
  refine h.setThread .closed (s.node c).isThreadComplete hlt hrunning ?_ ?_ ?_
  · intro hflag
    rw [h.complete c hflag] at hrunning
    cases hrunning
  · intro fd d hd
    by_cases hfd : fd = (s.node c).clientfd
    · subst hfd
      rw [Function.update_self]
      constructor
      · rintro ⟨⟩
      · intro hfd
        obtain ⟨-, -, hne, -⟩ := (h.descriptors _ d).mp hfd
        have hfd' := (h.descriptors _ c).mpr ⟨hlt, rfl, hne, hkeeps⟩
        rw [hfd, Option.some.injEq] at hfd'
        exact absurd hfd' hd
    · rw [Function.update_of_ne hfd]
  · intro fd
    by_cases hfd : fd = (s.node c).clientfd
    · subst hfd
      simp [ThreadState.holdsDescriptor, ThreadState.running]
    · rw [Function.update_of_ne hfd, h.descriptors]
      constructor
      · rintro ⟨-, rfl, -⟩
        exact absurd rfl hfd
      · rintro ⟨rfl, -⟩
        exact absurd rfl hfd

/-- A thread sets its flag and ends. -/
lemma Sound.threadCompletes (h : s.Sound) (hthread : (s.node c).thread = .closed) :
    Sound (s.setNode c { s.node c with thread := .returned, isThreadComplete := true }) := by
  have hrunning : (s.node c).thread.running = true := by rw [hthread]; rfl
  have hlt : c < s.started := h.lt_started (by simp [hthread])
  refine h.setThread .returned true hlt hrunning (fun _ => rfl) (fun _ _ _ => Iff.rfl)
    fun fd => ?_
  have hflag := h.flag_of_running hrunning
  rw [h.descriptors, ClientNode.keepsDescriptor, hthread, hflag]
  simp [ThreadState.holdsDescriptor, ThreadState.running]

/-- The step lemma. -/
lemma Sound.step (h : s.Sound) (hstep : s.step e = some s') : s'.Sound := by
  cases steps_of_step hstep with
  | accept _ hfd hunused => exact h.accept hfd hunused
  | interrupted _ =>
    refine h.setListener (by rintro left ⟨⟩) ?_
    rintro left ⟨⟩
    exact ⟨rfl, rfl⟩
  | acceptFails _ => exact h.acceptFails
  | pass hlistener _ =>
    obtain ⟨hnodup, hsub⟩ := h.sweeping _ hlistener
    refine h.setListener ?_ (by rintro left ⟨⟩)
    rintro left ⟨⟩
    exact ⟨hnodup.of_cons, fun d hd => hsub (List.mem_cons_of_mem _ hd)⟩
  | remove hlistener _ hended => exact h.remove hlistener hended
  | join hlistener hended => exact h.join hlistener hended
  | endOfSweep _ =>
    apply h.setListener
    · intro left hleft
      split_ifs at hleft
    · intro left hleft
      split_ifs at hleft with hend
      cases hleft
      exact ⟨rfl, hend⟩
  | signal => exact h.setListener h.sweeping fun left hleft => ⟨(h.ending left hleft).1, rfl⟩
  | input hthread hlt _ hreceive => exact h.input hthread hlt hreceive
  | endLoop hthread hlt _ => exact h.endLoop hthread hlt
  | close hthread => exact h.close hthread
  | complete hthread => exact h.threadCompletes hthread

/-- The run lemma. -/
lemma sound_of_run {events : List ServerEvent} (hrun : run events = some s) : s.Sound := by
  induction events using List.reverseRecOn generalizing s with
  | nil =>
    cases hrun
    exact sound_init
  | append_singleton events e ih =>
    rw [run_concat, Option.bind_eq_some_iff] at hrun
    obtain ⟨s₁, hrun, hstep⟩ := hrun
    exact (ih hrun).step hstep

/-! ### What is left behind -/

/-- The thread has ended without setting its flag. -/
def Unflagged (s : Server) (c : ℕ) : Prop :=
  (s.node c).thread.running = false ∧ (s.node c).isThreadComplete = false

lemma unflagged_insertNode (h : s.Sound) (clientfd : ℤ) :
    (s.insertNode clientfd).Unflagged c ↔ s.Unflagged c := by
  rw [Unflagged, Unflagged]
  by_cases hc : c = s.started
  · subst hc
    rw [node_insertNode_self, h.unused _ le_rfl]
  · rw [node_insertNode_of_ne _ hc]

lemma unflagged_removeNode {d : ℕ} : (s.removeNode d).Unflagged c ↔ s.Unflagged c := by
  rw [Unflagged, Unflagged]
  by_cases hc : c = d
  · subst hc
    rw [node_removeNode_self]
  · rw [node_removeNode_of_ne hc]

/-- A thread that goes on, or ends with its flag set. -/
lemma unflagged_setNode {d : ℕ} {thread : ThreadState} {complete : Bool}
    (hrunning : (s.node d).thread.running = true)
    (hproper : thread.running = true ∨ complete = true) :
    (s.setNode d { s.node d with thread := thread, isThreadComplete := complete }).Unflagged c ↔
      s.Unflagged c := by
  rw [Unflagged, Unflagged]
  by_cases hc : c = d
  · subst hc
    rcases hproper with hthread | hcomplete
    · simp [hrunning, hthread]
    · simp [hrunning, hcomplete]
  · simp [hc]

/-- A thread that has ended without setting its flag is one whose `recv` failed. -/
lemma unflagged_iff {events : List ServerEvent} (hrun : run events = some s) (c : ℕ) :
    s.Unflagged c ↔ .input c .recvFailed ∈ events := by
  induction events using List.reverseRecOn generalizing s with
  | nil =>
    cases hrun
    simp [Unflagged, ThreadState.running]
  | append_singleton events e ih =>
    rw [run_concat, Option.bind_eq_some_iff] at hrun
    obtain ⟨s₁, hrun, hstep⟩ := hrun
    have hsound := sound_of_run hrun
    rw [List.mem_append, List.mem_singleton, ← ih hrun]
    cases steps_of_step hstep with
    | accept _ _ _ => exact (unflagged_insertNode hsound _).trans (or_iff_left (by simp)).symm
    | acceptFails _ => exact (unflagged_insertNode hsound _).trans (or_iff_left (by simp)).symm
    | remove _ _ _ => exact unflagged_removeNode.trans (or_iff_left (by simp)).symm
    | join _ _ => exact unflagged_removeNode.trans (or_iff_left (by simp)).symm
    | @input d i session thread hthread hlt _ hreceive =>
      have hrunning : (s₁.node d).thread.running = true := by rw [hthread]; rfl
      rcases ThreadState.receive_cases hreceive with ⟨rfl, rfl⟩ | ⟨hi, hthread', -⟩
      · by_cases hc : c = d
        · subst hc
          simp [Unflagged, hsound.flag_of_running hrunning, ThreadState.running]
        · simp [Unflagged, hc]
      · have hne : ServerEvent.input c .recvFailed ≠ .input d i := by
          rintro ⟨⟩
          exact hi rfl
        exact (unflagged_setNode hrunning (Or.inl hthread')).trans (or_iff_left hne).symm
    | @endLoop d hthread _ _ =>
      have hrunning : (s₁.node d).thread.running = true := by rw [hthread]; rfl
      exact (unflagged_setNode hrunning (Or.inl rfl)).trans (or_iff_left (by simp)).symm
    | @close d hthread =>
      have hrunning : (s₁.node d).thread.running = true := by rw [hthread]; rfl
      exact (unflagged_setNode hrunning (Or.inl rfl)).trans (or_iff_left (by simp)).symm
    | @complete d hthread =>
      have hrunning : (s₁.node d).thread.running = true := by rw [hthread]; rfl
      exact (unflagged_setNode hrunning (Or.inr rfl)).trans (or_iff_left (by simp)).symm
    | _ => simp [Unflagged]

/-- Behind the last visit every thread has ended and its node was joined and freed. -/
lemma Sound.ended_of_done (h : s.Sound) (hdone : s.listener = .ending []) (hlt : c < s.started) :
    (s.node c).thread.running = false ∧ (s.node c).joined = 1 ∧ (s.node c).freed = 1 := by
  refine h.removed c hlt ?_
  rw [← (h.ending [] hdone).1]
  exact List.not_mem_nil

/-- Whatever failed before: when `listenLoop` has gone over its list for the last time, the list is
empty, every thread that was started has ended and was joined once, every node was freed once, and
the descriptors that are still open are those of the connections whose `recv` failed. -/
theorem nothing_left {events : List ServerEvent} (hrun : run events = some s)
    (hdone : s.listener = .ending []) :
    s.head = [] ∧
      (∀ c < s.started, (s.node c).thread.running = false ∧ (s.node c).joined = 1 ∧
        (s.node c).freed = 1) ∧
      ∀ fd c, s.fds fd = some c ↔ (s.node c).clientfd = fd ∧ fd ≠ -1 ∧
        .input c .recvFailed ∈ events := by
  have hsound := sound_of_run hrun
  refine ⟨(hsound.ending [] hdone).1.symm, fun c => hsound.ended_of_done hdone, fun fd c => ?_⟩
  rw [hsound.descriptors, ← unflagged_iff hrun]
  constructor
  · -- a descriptor that is still open: its thread has ended without its flag
    rintro ⟨hlt, hclient, hne, hkeeps⟩
    have hrunning := (hsound.ended_of_done hdone hlt).1
    refine ⟨hclient, hne, hrunning, ?_⟩
    cases hholds : (s.node c).thread.holdsDescriptor with
    | true =>
      rw [ThreadState.running_of_holds hholds] at hrunning
      cases hrunning
    | false => simpa [ClientNode.keepsDescriptor, hholds, hrunning] using hkeeps
  · -- such a thread has left its descriptor open
    rintro ⟨hclient, hne, hrunning, hflag⟩
    have hlt : c < s.started := by
      by_contra hlt
      rw [hsound.unused c (not_lt.mp hlt)] at hrunning
      cases hrunning
    exact ⟨hlt, hclient, hne, by simp [ClientNode.keepsDescriptor, hrunning, hflag]⟩

/-! ### Getting there -/

/-- Events that need neither a connection nor a message nor a signal: clients close their
connections, and what is underway is brought to its end. Only a `recv` from no connection at all
fails. -/
def Closing (s : Server) : ServerEvent → Prop
  | .accept _ | .acceptFails _ | .signal | .input _ (.malloc _) | .input _ (.recv _)
  | .input _ (.realloc none) => False
  | .input c .recvFailed     => (s.node c).clientfd = -1
  | _                        => True

/-- A step that is such an event. -/
def Winds (s s' : Server) : Prop := ∃ e, s.Closing e ∧ s.step e = some s'

/-- Such events bring one thread to its end and leave the listener where it is. -/
def ThreadEnds (s : Server) (c : ℕ) : Prop :=
  ∃ s', Relation.ReflTransGen Winds s s' ∧ (s'.node c).thread.running = false ∧
    s'.listener = s.listener ∧ s'.endProgram = s.endProgram

lemma ThreadEnds.head (hwinds : s.Winds s') (hlistener : s'.listener = s.listener)
    (hend : s'.endProgram = s.endProgram) (h : s'.ThreadEnds c) : s.ThreadEnds c := by
  obtain ⟨s₁, run, hended, hlistener', hend'⟩ := h
  exact ⟨s₁, run.head hwinds, hended, hlistener'.trans hlistener, hend'.trans hend⟩

lemma threadEnds_of_ended (h : (s.node c).thread.running = false) : s.ThreadEnds c :=
  ⟨s, .refl, h, rfl, rfl⟩

lemma threadEnds_of_closed (h : (s.node c).thread = .closed) : s.ThreadEnds c := by
  have hwinds : s.Winds
      (s.setNode c { s.node c with thread := .returned, isThreadComplete := true }) :=
    ⟨.complete c, trivial, by simp only [step, h]⟩
  exact .head hwinds rfl rfl (threadEnds_of_ended (by simp [ThreadState.running]))

lemma threadEnds_of_leaving (h : (s.node c).thread = .leaving) : s.ThreadEnds c := by
  have hwinds : s.Winds { s.setNode c { s.node c with thread := .closed } with
      fds := Function.update s.fds (s.node c).clientfd none } :=
    ⟨.close c, trivial, by simp only [step, h]⟩
  exact .head hwinds rfl rfl (threadEnds_of_closed (by simp))

/-- The client closes the connection, or there is none. -/
lemma threadEnds_of_receiving {session : Session} (h : (s.node c).thread = .serving session)
    (hlt : c < s.started) (hclosed : ∃ out, session.step .recvClosed = some (.ended, out))
    (hfailed : ∃ out, session.step .recvFailed = some (.ended, out)) : s.ThreadEnds c := by
  by_cases hfd : (s.node c).clientfd = -1
  · -- there is no connection, so `recv` fails
    obtain ⟨out, hstep⟩ := hfailed
    have hwinds : s.Winds (s.setNode c { s.node c with thread := .returned }) :=
      ⟨.input c .recvFailed, hfd, by simp [step, h, hlt, admits, ThreadState.receive, hstep]⟩
    exact .head hwinds rfl rfl (threadEnds_of_ended (by simp [ThreadState.running]))
  · obtain ⟨out, hstep⟩ := hclosed
    have hwinds : s.Winds (s.setNode c { s.node c with thread := .leaving }) :=
      ⟨.input c .recvClosed, trivial,
        by simp [step, h, hlt, admits, hfd, ThreadState.receive, hstep]⟩
    exact .head hwinds rfl rfl (threadEnds_of_leaving (by simp))

lemma threadEnds (hlt : c < s.started) (hend : s.endProgram = true) : s.ThreadEnds c := by
  cases h : (s.node c).thread with
  | returned => exact threadEnds_of_ended (by rw [h]; rfl)
  | closed => exact threadEnds_of_closed h
  | leaving => exact threadEnds_of_leaving h
  | serving session =>
    cases session with
    | starting =>
      have hwinds : s.Winds (s.setNode c { s.node c with thread := .leaving }) :=
        ⟨.endLoop c, trivial, by simp [step, h, hlt, hend]⟩
      exact .head hwinds rfl rfl (threadEnds_of_leaving (by simp))
    | receiving r => exact threadEnds_of_receiving h hlt ⟨_, rfl⟩ ⟨_, rfl⟩
    | ended => exact threadEnds_of_receiving h hlt ⟨_, rfl⟩ ⟨_, rfl⟩
    | growing r =>
      obtain ⟨added, hadded⟩ : ∃ added : List Byte, added.length = r.bufferCapacity :=
        ⟨List.replicate r.bufferCapacity 0, List.length_replicate⟩
      have hwinds : s.Winds
          (s.setNode c { s.node c with thread := .serving (.receiving (r.grow added [])) }) :=
        ⟨.input c (.realloc (some (added, []))), trivial,
          by simp [step, h, hlt, admits, ThreadState.receive, Session.step, hadded]⟩
      exact .head hwinds rfl rfl
        (threadEnds_of_receiving (c := c) (by simp; rfl) hlt ⟨_, rfl⟩ ⟨_, rfl⟩)

/-- The signal has come and the server can bring `listenLoop` to its end. -/
def CanShutDown (s : Server) : Prop :=
  ∃ s', Relation.ReflTransGen Winds s s' ∧ s'.listener = .ending []

lemma CanShutDown.head (run : Relation.ReflTransGen Winds s s') (h : s'.CanShutDown) :
    s.CanShutDown := by
  obtain ⟨s₁, run', hdone⟩ := h
  exact ⟨s₁, run.trans run', hdone⟩

lemma sound_of_winds (h : s.Sound) (run : Relation.ReflTransGen Winds s s') : s'.Sound := by
  induction run with
  | refl => exact h
  | tail _ hstep ih =>
    obtain ⟨e, -, hstep⟩ := hstep
    exact ih.step hstep

/-- Behind the loop each thread is waited for. -/
lemma canShutDown_of_ending {left : List ℕ} (h : s.Sound) (hlistener : s.listener = .ending left) :
    s.CanShutDown := by
  induction left generalizing s with
  | nil => exact ⟨s, .refl, hlistener⟩
  | cons c left ih =>
    obtain ⟨hhead, hend⟩ := h.ending _ hlistener
    have hlt : c < s.started := by
      apply h.mem_lt
      rw [← hhead]
      exact List.mem_cons_self
    obtain ⟨s₁, run, hended, hlistener', -⟩ := threadEnds hlt hend
    rw [hlistener] at hlistener'
    have hvisit : s₁.step .visit = some ({ s₁ with listener := .ending left }.removeNode c) := by
      simp [step, hlistener', hended]
    have hsound := sound_of_winds h run
    exact .head (run.tail ⟨.visit, trivial, hvisit⟩) (ih (hsound.step hvisit) rfl)

/-- The sweep comes to its end without waiting. -/
lemma canShutDown_of_sweeping {left : List ℕ} (h : s.Sound) (hend : s.endProgram = true)
    (hlistener : s.listener = .sweeping left) : s.CanShutDown := by
  induction left generalizing s with
  | nil =>
    have hstep : s.step .endOfSweep = some { s with listener := .ending s.head } := by
      simp [step, hlistener, hend]
    exact .head (.single ⟨.endOfSweep, trivial, hstep⟩)
      (canShutDown_of_ending (h.step hstep) rfl)
  | cons c left ih =>
    cases hflag : (s.node c).isThreadComplete with
    | true =>
      have hstep : s.step .visit = some ({ s with
          listener := .sweeping left
          runningAtSweep :=
            Function.update s.runningAtSweep c (s.node c).thread.running }.removeNode c) := by
        simp [step, hlistener, hflag, h.complete c hflag]
      exact .head (.single ⟨.visit, trivial, hstep⟩) (ih (h.step hstep) hend rfl)
    | false =>
      have hstep : s.step .visit = some { s with
          listener := .sweeping left
          runningAtSweep :=
            Function.update s.runningAtSweep c (s.node c).thread.running } := by
        simp [step, hlistener, hflag]
      exact .head (.single ⟨.visit, trivial, hstep⟩) (ih (h.step hstep) hend rfl)

/-- Without a connection or a signal the listener does not get out of `accept`, and `endProgram` is
not set. -/
lemma Winds.keeps (h : s.Winds s') : s'.endProgram = s.endProgram ∧
    (s.listener = .accepting → s'.listener = .accepting) := by
  obtain ⟨e, hclosing, hstep⟩ := h
  cases steps_of_step hstep with
  | accept _ _ _ => exact hclosing.elim
  | interrupted _ => exact hclosing.elim
  | acceptFails _ => exact hclosing.elim
  | signal => exact hclosing.elim
  | pass hlistener _ => exact ⟨rfl, by simp [hlistener]⟩
  | remove hlistener _ _ => exact ⟨rfl, by simp [hlistener]⟩
  | join hlistener _ => exact ⟨rfl, by simp [hlistener]⟩
  | endOfSweep hlistener => exact ⟨rfl, by simp [hlistener]⟩
  | _ => exact ⟨rfl, id⟩

lemma keeps_of_winds (run : Relation.ReflTransGen Winds s s') :
    s'.endProgram = s.endProgram ∧ (s.listener = .accepting → s'.listener = .accepting) := by
  induction run with
  | refl => exact ⟨rfl, id⟩
  | tail _ hstep ih => exact ⟨hstep.keeps.1.trans ih.1, fun h => hstep.keeps.2 (ih.2 h)⟩

/-- The states from which the server can come to its end by itself. -/
lemma Sound.canShutDown_iff (h : s.Sound) :
    s.CanShutDown ↔ s.endProgram = true ∧ s.listener ≠ .accepting := by
  constructor
  · -- without a signal, or from `accept`, there is no way out
    rintro ⟨s', run, hdone⟩
    obtain ⟨hend, haccepting⟩ := keeps_of_winds run
    constructor
    · rw [← hend]
      exact ((sound_of_winds h run).ending [] hdone).2
    · intro hlistener
      rw [haccepting hlistener] at hdone
      cases hdone
  · rintro ⟨hend, hlistener⟩
    cases hstate : s.listener with
    | accepting => exact absurd hstate hlistener
    | sweeping left => exact canShutDown_of_sweeping h hend hstate
    | ending left => exact canShutDown_of_ending h hstate

/-- In every reachable state, whatever the threads are doing and whatever has failed: the server can
come to its end with no other help than that its clients close their connections, if and only if the
signal has been caught and the listener does not wait in `accept`. It is enough that `accept`
returns then, with one more connection or a failure; or that the signal is caught while it waits. -/
theorem can_shut_down {events : List ServerEvent} (hrun : run events = some s) :
    ((∃ s', Relation.ReflTransGen Winds s s' ∧ s'.listener = .ending []) ↔
      s.endProgram = true ∧ s.listener ≠ .accepting) ∧
    ∀ e s₁, s.step e = some s₁ → e = .acceptFails true ∨
        s.endProgram = true ∧ (e = .acceptFails false ∨ ∃ clientfd, e = .accept clientfd) →
      ∃ s', Relation.ReflTransGen Winds s₁ s' ∧ s'.listener = .ending [] := by
  have hsound := sound_of_run hrun
  refine ⟨hsound.canShutDown_iff, fun e s₁ hstep hreturns => ?_⟩
  refine (hsound.step hstep).canShutDown_iff.mpr ?_
  cases steps_of_step hstep with
  | accept _ _ _ =>
    obtain heq | ⟨hend, -⟩ := hreturns
    · cases heq
    · exact ⟨hend, nofun⟩
  | interrupted _ => exact ⟨rfl, nofun⟩
  | acceptFails _ =>
    obtain heq | ⟨hend, -⟩ := hreturns
    · cases heq
    · exact ⟨hend, nofun⟩
  | _ => simp at hreturns

/-- The signal comes while the listener sweeps and the client has yet to be read from: the server
can end. If it comes before the listener gets to `accept`, or to another thread, it cannot. -/
theorem can_shut_down_connected :
    (∃ s, run [.accept 5, .signal] = some s ∧
      ∃ s', Relation.ReflTransGen Winds s s' ∧ s'.listener = .ending []) ∧
    ∃ s, run [.signal] = some s ∧
      ¬ ∃ s', Relation.ReflTransGen Winds s s' ∧ s'.listener = .ending [] := by
  obtain ⟨s, hrun, hend, hlistener⟩ : ∃ s, run [.accept 5, .signal] = some s ∧
      s.endProgram = true ∧ s.listener = .sweeping [0] := ⟨_, rfl, rfl, rfl⟩
  obtain ⟨s₁, hrun₁, hlistener₁⟩ : ∃ s, run [.signal] = some s ∧ s.listener = .accepting :=
    ⟨_, rfl, rfl⟩
  refine ⟨⟨s, hrun, (can_shut_down hrun).1.mpr ⟨hend, by simp [hlistener]⟩⟩, s₁, hrun₁, ?_⟩
  intro hcan
  exact ((can_shut_down hrun₁).1.mp hcan).2 hlistener₁

/-- The `recv` of the only client fails before the signal comes: its descriptor stays open. -/
theorem nothing_left_recvFailed : ∃ s,
    run [.accept 5, .visit, .endOfSweep, .input 0 (.malloc (some [])), .input 0 .recvFailed,
      .signal, .acceptFails true, .visit] = some s ∧ s.head = [] ∧ s.fds 5 = some 0 := by
  obtain ⟨s, hrun, hdone, hclient⟩ : ∃ s,
      run [.accept 5, .visit, .endOfSweep, .input 0 (.malloc (some [])), .input 0 .recvFailed,
        .signal, .acceptFails true, .visit] = some s ∧ s.listener = .ending [] ∧
      (s.node 0).clientfd = 5 := ⟨_, rfl, rfl, rfl⟩
  obtain ⟨hhead, -, hfds⟩ := nothing_left hrun hdone
  exact ⟨s, hrun, hhead, (hfds 5 0).mpr ⟨hclient, by decide, by simp⟩⟩

/-! ### Waiting for clients -/

/-- A thread that waits for its client is where it was after every event but one of its own. -/
lemma thread_of_not_input {r : Receiving} (hlt : c < s.started)
    (hthread : (s.node c).thread = .serving (.receiving r)) (hinput : ∀ i, e ≠ .input c i)
    (hstep : s.step e = some s') :
    c < s'.started ∧ (s'.node c).thread = .serving (.receiving r) := by
  have hinserted : ∀ clientfd, c < (s.insertNode clientfd).started ∧
      ((s.insertNode clientfd).node c).thread = .serving (.receiving r) := by
    intro clientfd
    rw [node_insertNode_of_ne _ hlt.ne]
    exact ⟨Nat.lt_succ_of_lt hlt, hthread⟩
  have hset : ∀ d n, c ≠ d → c < (s.setNode d n).started ∧
      ((s.setNode d n).node c).thread = .serving (.receiving r) := by
    intro d n hd
    rw [node_setNode_of_ne n hd]
    exact ⟨hlt, hthread⟩
  have hne : ∀ d, (s.node d).thread ≠ .serving (.receiving r) → c ≠ d := by
    rintro d hd rfl
    exact hd hthread
  have hremoved : ∀ d, (s.node d).thread.running = false → c < (s.removeNode d).started ∧
      ((s.removeNode d).node c).thread = .serving (.receiving r) := by
    intro d hended
    have hd := hne d fun hd => by rw [hd] at hended; cases hended
    rw [node_removeNode_of_ne hd]
    exact ⟨hlt, hthread⟩
  cases steps_of_step hstep with
  | accept _ _ _ => exact hinserted _
  | acceptFails _ => exact hinserted _
  | remove _ _ hended => exact hremoved _ hended
  | join _ hended => exact hremoved _ hended
  | @input d i _ _ _ _ _ _ =>
    refine hset _ _ ?_
    rintro rfl
    exact hinput i rfl
  | endLoop hthread' _ _ => exact hset _ _ (hne _ (by simp [hthread']))
  | close hthread' => exact hset _ _ (hne _ (by simp [hthread']))
  | complete hthread' => exact hset _ _ (hne _ (by simp [hthread']))
  | _ => exact ⟨hlt, hthread⟩

/-- A signal that another thread catches does not get a thread out of `recv`: as long as the call
does not return, because the client neither sends nor closes and `recv` does not fail, `listenLoop`
does not come to its end. -/
theorem held_up_by_client {events more : List ServerEvent} {r : Receiving}
    (hrun : run events = some s) (hlt : c < s.started)
    (hwaiting : (s.node c).thread = .serving (.receiving r))
    (hmore : run (events ++ more) = some s') (hsilent : ∀ i, .input c i ∉ more) :
    s'.listener ≠ .ending [] := by
  have hwaiting' : c < s'.started ∧ (s'.node c).thread = .serving (.receiving r) := by
    induction more using List.reverseRecOn generalizing s' with
    | nil =>
      rw [List.append_nil, hrun, Option.some.injEq] at hmore
      subst hmore
      exact ⟨hlt, hwaiting⟩
    | append_singleton more e ih =>
      rw [← List.append_assoc, run_concat, Option.bind_eq_some_iff] at hmore
      obtain ⟨s₁, hmore, hstep⟩ := hmore
      obtain ⟨hlt₁, hwaiting₁⟩ := ih hmore fun i hi => hsilent i (List.mem_append_left _ hi)
      refine thread_of_not_input hlt₁ hwaiting₁ (fun i hi => ?_) hstep
      exact hsilent i (List.mem_append_right _ (List.mem_singleton.mpr hi.symm))
  intro hdone
  have hended := ((sound_of_run hmore).ended_of_done hdone hwaiting'.1).1
  rw [hwaiting'.2] at hended
  cases hended

/-- A client that has connected says nothing; the signal comes and the sweep is over. -/
theorem held_up_by_client_silent : ∃ s,
    run ([.accept 5, .visit, .input 0 (.malloc (some []))] ++ [.signal, .endOfSweep]) = some s ∧
      s.listener ≠ .ending [] := by
  obtain ⟨s, r, hrun, hlt, hwaiting⟩ : ∃ s r,
      run [.accept 5, .visit, .input 0 (.malloc (some []))] = some s ∧ 0 < s.started ∧
        (s.node 0).thread = .serving (.receiving r) := ⟨_, _, rfl, Nat.one_pos, rfl⟩
  obtain ⟨s', hmore⟩ : ∃ s', run ([.accept 5, .visit, .input 0 (.malloc (some []))] ++
      [.signal, .endOfSweep]) = some s' := ⟨_, rfl⟩
  exact ⟨s', hmore, held_up_by_client hrun hlt hwaiting hmore (by simp)⟩

end Server

end Aesd
