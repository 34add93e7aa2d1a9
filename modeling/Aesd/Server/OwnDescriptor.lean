import Aesd.Server.PlainCalls
import Aesd.Server.Process

/-!
# Whom a thread talks to

A handler is given a descriptor number. By the time it sends its replies, other connections have
come and gone, and the numbers of their descriptors been given out again. But a thread closes its
descriptor only when it is done, and nothing else is closed or replaced but standard output: while
it is in a handler, the number still stands for its own connection (`sends_to_own_client`).
-/

namespace Aesd

open Effect CInt

variable {α : Type} {fd : ℤ}

/-! ### The calls of a handler -/

/-- A message goes to `fd`, and no descriptor is replaced but standard output. -/
def SysOp.Own (fd : ℤ) : SysOp → Prop
  | .send fd' _   => fd' = fd
  | .dup2 _ newfd => newfd = stdoutFileno
  | _             => True

/-- The program talks to `fd` only. -/
abbrev Own (fd : ℤ) (p : Sys α) : Prop := p.Only (SysOp.Own fd)

lemma Plain.own {p : Sys α} (hp : Plain fd p) : Own fd p := by
  apply hp.mono
  intro op hop
  cases op with
  | dup2 oldfd newfd => exact hop.elim
  | send fd' text => exact hop
  | _ => trivial

lemma own_fault : Own fd (fault : Sys α) := ⟨trivial, fun r => r.elim⟩

/-- The functions of the server send to the descriptor that they are given, and replace standard
output around what they redirect. -/
lemma compositional_own (fd : ℤ) : Compositional fd fun p => Own fd p where
  plain hp := hp.own
  bind hp hf := Prog.Only.bind hp hf
  redirected hp := ⟨trivial, fun _ => ⟨rfl, fun _ => hp.own.bind fun _ => ⟨rfl, fun _ => trivial⟩⟩⟩
  malloc hsome hnone := by
    refine ⟨trivial, fun block => ?_⟩
    cases block with
    | none => exact hnone own_fault
    | some b => exact hsome b
  alignment hsome hnone := by
    refine ⟨trivial, fun grainSize => ?_⟩
    cases grainSize with
    | none => exact hnone own_fault
    | some grainSize => exact hsome grainSize

lemma own_atoiArg (arg : Option Text) : Own fd (atoiArg arg) := by
  cases arg with
  | none => exact own_fault
  | some s => trivial

/-- Every command talks to its client only. -/
lemma own_dispatch (past : ℕ → Byte) (c : Command) (perfJob : PerfJobInfo) :
    Own fd (dispatch fd past c perfJob) := by
  have hJ := compositional_own fd
  refine hJ.dispatch ?_ ?_ ?_ ?_
  · intro _
    exact hJ.mkpart (own_atoiArg _)
  · intro _
    exact hJ.rmpart (own_atoiArg _)
  · intro _
    exact hJ.write fun _ _ => own_fault
  · intro _
    exact hJ.read c (hJ.buffer fun _ => ⟨trivial, fun _ => trivial⟩)

lemma own_greeting : Own fd (greeting fd) :=
  ⟨rfl, fun _ => (plain_sendCommandUsage fd).own.bind fun _ => trivial⟩

/-! ### The process -/

namespace AesdSocket

variable {d : Device} {events : List ProcessEvent} {p p' : AesdSocket} {c : ℕ}

/-- Every handler talks to the descriptor of its thread; without a connection there is only the
greeting. -/
def Talks (p : AesdSocket) : Prop :=
  ∀ c q, p.handler c = some q → Own (p.server.node c).clientfd q

lemma Runs.talks (run : Runs d events p) : p.Talks := by
  induction run with
  | start =>
    rintro c q ⟨⟩
  | @step events e p p' run hstep ih =>
    have hinv := run.inv
    intro c q hq
    cases hstep with
    | @server e past _ hadvance =>
      have hadv := advances_of_advance hadvance
      have hsteps := Server.steps_of_step hadv.step
      have hold : p.handler c = some q → Own (p'.server.node c).clientfd q := by
        intro hq
        rw [(hsteps.node_of_lt (hinv.lt_of_handler hq)).1]
        exact ih c q hq
      cases hadv with
      | connects _ _ _ _ =>
        rcases update_handler_cases hq with ⟨rfl, heq⟩ | ⟨-, hq⟩
        · -- the greeting goes to the descriptor of the new node
          cases heq
          exact own_greeting
        · exact hold hq
      | passes _ _ _ _ => exact hold hq
      | dispatches hstep _ _ _ =>
        rcases update_handler_cases hq with ⟨rfl, heq⟩ | ⟨-, hq⟩
        · -- so do the replies to a command, as a node keeps its descriptor
          cases heq
          dsimp only
          rw [(hsteps.node_of_lt (lt_of_input hstep)).1]
          exact own_dispatch _ _ _
        · exact hold hq
    | @call c' op k r device hhandler hexec =>
      rcases update_handler_cases hq with ⟨rfl, heq⟩ | ⟨-, hq⟩
      · cases heq
        exact (ih c _ hhandler).2 r
      · exact ih c q hq
    | returns _ =>
      rcases update_handler_cases hq with ⟨-, heq⟩ | ⟨-, hq⟩
      · cases heq
      · exact ih c q hq

/-- Whatever connections come and go and however descriptor numbers are used again: a message that
a thread sends goes to the descriptor of its own connection, which refers to that connection at this
moment, and its node is in the list and has not been freed. Without a connection, there is only the
greeting, to descriptor `-1`. -/
theorem sends_to_own_client (run : Runs d events p) {fd : ℤ} {text : Text} {r : ℤ}
    (hstep : p.Step (.call c (.send fd text) r) p') :
    fd = (p.server.node c).clientfd ∧
      (p.server.fds fd = some c ∨ (fd = -1 ∧ p.dispatched c = [])) ∧
      c ∈ p.server.head ∧ (p.server.node c).freed = 0 := by
  have hinv := run.inv
  cases hstep with
  | call hhandler _ =>
    have hfd : fd = (p.server.node c).clientfd := (run.talks c _ hhandler).1
    have hlt := hinv.lt_of_handler hhandler
    have hholds := (hinv.busy c _ hhandler).1
    have hmem := hinv.sound.mem_head hlt (ThreadState.running_of_holds hholds)
    refine ⟨hfd, ?_, hmem, (hinv.sound.kept c hmem).2⟩
    by_cases hclient : (p.server.node c).clientfd = -1
    · refine Or.inr ⟨hfd.trans hclient, ?_⟩
      by_contra hdispatched
      exact hinv.connected c hdispatched hclient
    · refine Or.inl ((hinv.sound.descriptors fd c).mpr ⟨hlt, hfd.symm, hfd ▸ hclient, ?_⟩)
      rw [ClientNode.keepsDescriptor, hholds]
      rfl

/-- The first client leaves, and the second one gets its descriptor number. -/
def reusedDescriptor : List Choice :=
  connect 0 4 ++ message 0 (str "quit\n") ++ succeeds 0 1 ++ [.returns 0] ++
  [.server (.close 0) fun _ => 0, .server (.complete 0) fun _ => 0, .server .visit fun _ => 0,
    .server .endOfSweep fun _ => 0, .server (.accept 4) fun _ => 0] ++ succeeds 1 2

/-- Thread `c` sends something to the descriptor `fd`. -/
def sendsTo (c : ℕ) (fd : ℤ) : ProcessEvent → Bool
  | .call d (.send fd' _) _ => d = c && fd' = fd
  | _                       => false

lemma exists_text_of_sendsTo {fd : ℤ} {e : ProcessEvent} (h : sendsTo c fd e = true) :
    ∃ text r, e = .call c (.send fd text) r := by
  unfold sendsTo at h
  split at h
  · rw [Bool.and_eq_true, decide_eq_true_eq, decide_eq_true_eq] at h
    obtain ⟨rfl, rfl⟩ := h
    exact ⟨_, _, rfl⟩
  · cases h

theorem sends_to_own_client_reused : ∃ events p p' text r, Runs foreignAndOwn events p ∧
    p.Step (.call 1 (.send 4 text) r) p' ∧ p.server.started = 2 ∧ p.server.fds 4 = some 1 := by
  have hplays : (play reusedDescriptor ([], { device := foreignAndOwn })).any (fun x =>
      x.2.server.started = 2 && (x.2.server.node 1).clientfd = 4 &&
      (x.2.choose (.call 1 .success)).any fun y => sendsTo 1 4 y.1) = true := by decide
  obtain ⟨⟨events, p⟩, hplay, htest⟩ := (Option.any_eq_true _ _).mp hplays
  have run : Runs foreignAndOwn events p := Runs.start.play hplay
  simp only [Bool.and_eq_true, decide_eq_true_eq] at htest
  obtain ⟨⟨hstarted, hclient⟩, hsends⟩ := htest
  obtain ⟨⟨e, p'⟩, hchoose, he⟩ := (Option.any_eq_true _ _).mp hsends
  have hstep := step_of_choose hchoose
  obtain ⟨text, r, rfl⟩ := exists_text_of_sendsTo he
  obtain ⟨-, hfds | ⟨hfd, -⟩, -⟩ := sends_to_own_client run hstep
  · exact ⟨events, p, p', text, r, run, hstep, hstarted, hfds⟩
  · cases hfd

end AesdSocket

end Aesd
