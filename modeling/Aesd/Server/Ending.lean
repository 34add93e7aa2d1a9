import Aesd.Server.Process
import Aesd.Server.MissingArguments

/-!
# The end of the process

A handler makes finitely many calls, and so it returns unless it uses a null pointer. If no call
has returned one and no client has sent a command that uses an argument it was not given, no
handler does (`never_uses_null`). So the process can be brought to its end once the signal has come,
unless the listener waits in `accept` by then (`process_can_end`): the handlers return, the clients
close their connections, and what they had sent of a last command is carried out as well.
-/

namespace Aesd

open Effect CInt

/-- The command uses an argument that it was not given: `mkpart` and `rmpart` without any, `write`
with only one. -/
def Command.UsesAbsent (c : Command) : Prop :=
  ((c.kind = .mkpart ∨ c.kind = .rmpart) ∧ c.arg1 = none) ∨
    (c.kind = .write ∧ c.arg1.isSome = true ∧ c.arg2 = none)

instance (c : Command) : Decidable c.UsesAbsent := inferInstanceAs (Decidable (_ ∨ _))

lemma noNullUse_greeting (clientFD : ℤ) : NoNullUse (greeting clientFD) := by
  refine noNullUse_of_only ⟨nofun, fun _ => ?_⟩
  exact (plain_sendCommandUsage clientFD).ne_fault.bind fun _ => trivial

lemma NoNullUse.answer {α : Type} {op : SysOp} {k : Answer op → Sys α}
    (h : NoNullUse (.call op k)) {r : Answer op} (hr : ¬ NullAnswer op r) : NoNullUse (k r) := by
  have hk := h.2 r trivial
  rwa [show nullUse.next False op r = False from eq_false (not_or.mpr ⟨id, hr⟩)] at hk

/-- A call that uses no null pointer can return, with one that is not null if it is to. -/
lemma exists_pedExec {op : SysOp} (hop : op ≠ .fault) (d : Device) :
    ∃ r d', pedExec op d r d' ∧ ¬ NullAnswer op r := by
  cases op with
  | fault => exact absurd rfl hop
  | malloc size => exact ⟨some (0, fun _ => 0), d, rfl, Option.some_ne_none _⟩
  | pedDiskGetPartitionAlignment disk => exact ⟨some (0 : ℤ), d, rfl, Option.some_ne_none _⟩
  | pedDeviceGet => exact ⟨none, d, ⟨rfl, Or.inl rfl⟩, id⟩
  | pedDiskNew => exact ⟨none, d, ⟨rfl, Or.inl rfl⟩, id⟩
  | pedDiskAddPartition disk start end_ => exact ⟨none, d, ⟨rfl, by simp⟩, id⟩
  | pedDiskCommitToDev disk => exact ⟨false, d, Or.inr ⟨rfl, rfl⟩, id⟩
  | pedGeometryWrite geom buffer offset count =>
    exact ⟨false, d, Or.inr ⟨rfl, rfl, rfl, fun _ _ => rfl⟩, id⟩
  | pedGeometryRead geom offset count => exact ⟨none, d, ⟨rfl, by simp⟩, id⟩
  | perfStart kind job => exact ⟨[], d, ⟨rfl, rfl, fun _ _ => rfl⟩, id⟩
  | _ => exact ⟨default, d, rfl, id⟩

namespace AesdSocket

variable {d : Device} {events more : List ProcessEvent} {p p' : AesdSocket} {c : ℕ}

/-- No call has returned a null pointer, and no client has sent a command that uses an argument it
was not given. -/
structure Healthy (events : List ProcessEvent) (p : AesdSocket) : Prop where
  answers : ∀ e ∈ calls events, ¬ NullAnswer e.op e.res
  commands : ∀ c, ∀ x ∈ p.dispatched c, ¬ x.1.UsesAbsent

/-! ### Null pointers -/

lemma Healthy.of_step {e : ProcessEvent} (h : Healthy (events ++ [e]) p') (hstep : p.Step e p') :
    Healthy events p := by
  refine ⟨fun e' he' => h.answers e' ?_, fun c x hx => h.commands c x ?_⟩
  · rw [calls, List.filterMap_append]
    exact List.mem_append_left _ he'
  · -- the commands before it are among those found up to now
    cases hstep with
    | server hadv =>
      cases advances_of_advance hadv with
      | connects _ _ _ _ => exact hx
      | passes _ _ _ _ => exact hx
      | @dispatches c' _ _ _ _ _ _ _ =>
        by_cases hc : c = c'
        · subst hc
          dsimp only
          rw [Function.update_self]
          exact List.mem_append_left _ hx
        · dsimp only
          rwa [Function.update_of_ne hc]
    | call _ _ => exact hx
    | returns _ => exact hx

/-- The run lemma: no handler of a healthy process gets to the use of a null pointer. -/
lemma Runs.noNullUse (run : Runs d events p) (h : Healthy events p)
    {q : Sys (Bool × PerfJobInfo)} (hq : p.handler c = some q) : NoNullUse q := by
  induction run generalizing c q with
  | start => cases hq
  | @step events e p p' run hstep ih =>
    have hbefore : ∀ {c q}, p.handler c = some q → NoNullUse q := ih (h.of_step hstep)
    cases hstep with
    | server hadv =>
      cases advances_of_advance hadv with
      | connects _ _ _ _ =>
        rcases update_handler_cases hq with ⟨-, heq⟩ | ⟨-, hq⟩
        · -- the greeting uses nothing
          cases heq
          exact noNullUse_greeting _
        · exact hbefore hq
      | passes _ _ _ _ => exact hbefore hq
      | @dispatches c' _ cmd _ _ _ _ _ =>
        rcases update_handler_cases hq with ⟨rfl, heq⟩ | ⟨-, hq⟩
        · -- the command has the arguments that its handler uses
          cases heq
          have hcmd : ¬ cmd.UsesAbsent := by
            apply h.commands c (cmd, _)
            dsimp only
            rw [Function.update_self]
            exact List.mem_append_right _ List.mem_cons_self
          exact noNullUse_dispatch (fun hpart => hcmd (Or.inl hpart)) fun hwrite =>
            hcmd (Or.inr hwrite)
        · exact hbefore hq
    | @call c' op k r device hhandler hexec =>
      rcases update_handler_cases hq with ⟨rfl, heq⟩ | ⟨-, hq⟩
      · -- what the call has returned is no null pointer
        cases heq
        refine (hbefore hhandler).answer (h.answers ⟨c, op, r⟩ ?_)
        rw [calls_append_call]
        exact List.mem_append_right _ List.mem_cons_self
      · exact hbefore hq
    | @returns c' active perfJob hhandler =>
      rcases update_handler_cases hq with ⟨-, heq⟩ | ⟨-, hq⟩
      · cases heq
      · exact hbefore hq

/-- As long as no call returns a null pointer and no client sends a command that uses an argument it
was not given, no thread uses a null pointer. -/
theorem never_uses_null (run : Runs d events p) (h : Healthy events p)
    (k : Answer .fault → Sys (Bool × PerfJobInfo)) : p.handler c ≠ some (.call .fault k) :=
  fun hq => (run.noNullUse h hq).1 rfl

/-! ### Handlers return -/

/-- A handler can make its remaining calls and return. -/
lemma exists_return (run : Runs d events p) (h : Healthy events p)
    {q : Sys (Bool × PerfJobInfo)} (hq : p.handler c = some q) :
    ∃ more p', Runs d (events ++ more) p' ∧ Healthy (events ++ more) p' ∧
      p'.server = p.server ∧ p'.handler = Function.update p.handler c none := by
  induction q generalizing p events with
  | ret x =>
    have hcalls : calls (events ++ [.returns c]) = calls events := calls_append_returns ..
    refine ⟨[.returns c], _, run.step (.returns hq), ⟨?_, h.commands⟩, rfl, rfl⟩
    rw [hcalls]
    exact h.answers
  | call op k ih =>
    have hop : op ≠ .fault := by
      rintro rfl
      exact (run.noNullUse h hq).1 rfl
    obtain ⟨r, device, hexec, hr⟩ := exists_pedExec hop p.device
    have run' := run.step (.call hq hexec)
    have h' : Healthy (events ++ [.call c op r]) { p with
        device := device, handler := Function.update p.handler c (some (k r)) } := by
      refine ⟨fun e he => ?_, h.commands⟩
      rw [calls_append_call] at he
      rcases List.mem_append.mp he with he | he
      · exact h.answers e he
      · rw [List.mem_singleton.mp he]
        exact hr
    obtain ⟨more, p', run'', h'', hserver, hhandler⟩ :=
      ih r run' h' (Function.update_self ..)
    rw [List.append_assoc] at run'' h''
    refine ⟨_, p', run'', h'', hserver, hhandler.trans ?_⟩
    exact Function.update_idem ..

/-- All handlers can. -/
lemma exists_settled (run : Runs d events p) (h : Healthy events p) :
    ∃ more p', Runs d (events ++ more) p' ∧ Healthy (events ++ more) p' ∧
      p'.server = p.server ∧ ∀ c, p'.handler c = none := by
  have hfirst : ∀ n, ∃ more p', Runs d (events ++ more) p' ∧ Healthy (events ++ more) p' ∧
      p'.server = p.server ∧ ∀ c < n, p'.handler c = none := by
    intro n
    induction n with
    | zero => exact ⟨[], p, by rwa [List.append_nil], by rwa [List.append_nil], rfl, by simp⟩
    | succ n ih =>
      obtain ⟨more, p₁, run₁, h₁, hserver₁, hidle₁⟩ := ih
      cases hn : p₁.handler n with
      | none =>
        refine ⟨more, p₁, run₁, h₁, hserver₁, fun c hc => ?_⟩
        rcases Nat.lt_succ_iff_lt_or_eq.mp hc with hc | rfl
        · exact hidle₁ c hc
        · exact hn
      | some q =>
        obtain ⟨more₂, p₂, run₂, h₂, hserver₂, hhandler⟩ := exists_return run₁ h₁ hn
        rw [List.append_assoc] at run₂ h₂
        refine ⟨_, p₂, run₂, h₂, hserver₂.trans hserver₁, fun c hc => ?_⟩
        rw [hhandler]
        rcases Nat.lt_succ_iff_lt_or_eq.mp hc with hc | rfl
        · rw [Function.update_of_ne hc.ne]
          exact hidle₁ c hc
        · exact Function.update_self ..
  obtain ⟨more, p', run', h', hserver, hidle⟩ := hfirst p.server.started
  refine ⟨more, p', run', h', hserver, fun c => ?_⟩
  by_cases hc : c < p.server.started
  · exact hidle c hc
  · exact (run'.inv.unstarted c (by rw [hserver]; omega)).1

/-! ### The end -/

/-- A client has sent a command that uses an argument it was not given. -/
def Misused (p : AesdSocket) : Prop := ∃ c, ∃ x ∈ p.dispatched c, x.1.UsesAbsent

/-- An event of the listener or of a receive loop can come when no thread is in a handler. -/
lemma exists_advance {e : ServerEvent} {server : Server} (hidle : ∀ c, p.handler c = none)
    (hstep : p.server.step e = some server) (past : ℕ → Byte) :
    ∃ p', p.advance e past = some p' ∧ p'.server = server := by
  have hthread : e.thread.any (fun c => (p.handler c).isSome) = false := by
    cases e.thread <;> simp [hidle]
  rw [advance, hthread, if_neg Bool.false_ne_true, hstep, Option.map_some]
  refine ⟨_, rfl, ?_⟩
  split_ifs
  · rfl
  · split <;> rfl

lemma exists_winds {server : Server} (run : Runs d events p) (h : Healthy events p)
    (hidle : ∀ c, p.handler c = none) (hwinds : p.server.Winds server) :
    ∃ more p', Runs d (events ++ more) p' ∧ p'.server = server ∧
      (Healthy (events ++ more) p' ∧ (∀ c, p'.handler c = none) ∨ p'.Misused) := by
  obtain ⟨e, -, hstep⟩ := hwinds
  obtain ⟨p₁, hadv, hserver⟩ := exists_advance hidle hstep fun _ => 0
  have run₁ := run.step (.server hadv)
  by_cases hmisused : p₁.Misused
  · -- the last thing a client has said
    exact ⟨_, p₁, run₁, hserver, Or.inr hmisused⟩
  · have h₁ : Healthy (events ++ [.server e fun _ => 0]) p₁ := by
      refine ⟨?_, fun c x hx habsent => hmisused ⟨c, x, hx, habsent⟩⟩
      rw [calls_append_server]
      exact h.answers
    obtain ⟨more, p₂, run₂, h₂, hserver₂, hidle₂⟩ := exists_settled run₁ h₁
    rw [List.append_assoc] at run₂ h₂
    exact ⟨_, p₂, run₂, hserver₂.trans hserver, Or.inl ⟨h₂, hidle₂⟩⟩

lemma exists_winded {server : Server} (run : Runs d events p) (h : Healthy events p)
    (hwinds : Relation.ReflTransGen Server.Winds p.server server) :
    ∃ more p', Runs d (events ++ more) p' ∧
      Relation.ReflTransGen Server.Winds p.server p'.server ∧
      (p'.server = server ∧ Healthy (events ++ more) p' ∧ (∀ c, p'.handler c = none) ∨
        p'.Misused) := by
  induction hwinds with
  | refl =>
    obtain ⟨more, p', run', h', hserver, hidle⟩ := exists_settled run h
    exact ⟨more, p', run', by rw [hserver], Or.inl ⟨hserver, h', hidle⟩⟩
  | tail _ hstep ih =>
    obtain ⟨more, p₁, run₁, hreach, ⟨rfl, h₁, hidle₁⟩ | hmisused⟩ := ih
    · -- each event of the server is followed by the handlers it starts
      obtain ⟨more₂, p₂, run₂, hserver₂, hout⟩ := exists_winds run₁ h₁ hidle₁ hstep
      rw [List.append_assoc] at run₂ hout
      refine ⟨_, p₂, run₂, ?_, ?_⟩
      · rw [hserver₂]
        exact hreach.tail hstep
      · exact hout.imp_left fun hsettled => ⟨hserver₂, hsettled⟩
    · exact ⟨more, p₁, run₁, hreach, Or.inr hmisused⟩

/-- From every state in which the signal has been caught and the listener does not wait in `accept`,
whatever the threads are doing, the process can come to its end if no call has returned a null
pointer and no client has sent a command that uses an argument it was not given: the handlers return
and the clients close their connections. Only the beginning of a last command that a client has sent
by then can still be such a command. -/
theorem process_can_end (run : Runs d events p) (hend : p.server.endProgram = true)
    (hlistener : p.server.listener ≠ .accepting) (h : Healthy events p) :
    ∃ more p', Runs d (events ++ more) p' ∧
      Relation.ReflTransGen Server.Winds p.server p'.server ∧
      (p'.server.listener = .ending [] ∧ (∀ c, p'.handler c = none) ∨ p'.Misused) := by
  obtain ⟨server, hwinds, hdone⟩ :=
    (Server.sound_of_run run.server).canShutDown_iff.mpr ⟨hend, hlistener⟩
  obtain ⟨more, p', run', hreach, hout⟩ := exists_winded run h hwinds
  refine ⟨more, p', run', hreach, hout.imp_left ?_⟩
  rintro ⟨hserver, -, hidle⟩
  exact ⟨hserver ▸ hdone, hidle⟩

/-- The signal comes while a client's partition is being deleted. -/
def interruptedSession : List Choice :=
  connect 0 4 ++ message 0 (str "rmpart 2\n") ++ succeeds 0 8 ++ [.server .signal fun _ => 0]

/-- The listener waits in `accept`. -/
def waits : ListenerState → Bool
  | .accepting => true
  | _          => false

/-- The call returns a pointer, or an alignment. -/
def allocates : SysOp → Bool
  | .malloc _ | .pedDiskGetPartitionAlignment _ => true
  | _                                           => false

lemma exists_interrupted : ∃ events p, Runs foreignAndOwn events p ∧ Healthy events p ∧
    p.server.endProgram = true ∧ p.server.listener ≠ .accepting ∧
    (p.handler 0).isSome = true := by
  have hplays : (play interruptedSession ([], { device := foreignAndOwn })).any
      (fun x => decide (x.2.server.endProgram = true) && !waits x.2.server.listener &&
        (x.2.handler 0).isSome && decide (x.2.server.started = 1) &&
        (x.2.dispatched 0).all (fun y => decide (¬ y.1.UsesAbsent)) &&
        (calls x.1).all fun e => !allocates e.op) = true := by decide
  obtain ⟨⟨events, p⟩, hplay, htest⟩ := (Option.any_eq_true _ _).mp hplays
  simp only [Bool.and_eq_true, Bool.not_eq_true', decide_eq_true_eq, List.all_eq_true] at htest
  obtain ⟨⟨⟨⟨⟨hend, hwaits⟩, hsome⟩, hstarted⟩, hcommands⟩, hanswers⟩ := htest
  have run : Runs foreignAndOwn events p := Runs.start.play hplay
  have hlistener : p.server.listener ≠ .accepting := by
    intro hlistener
    rw [hlistener] at hwaits
    cases hwaits
  refine ⟨events, p, run, ⟨?_, ?_⟩, hend, hlistener, hsome⟩
  · rintro ⟨t, op, r⟩ he hnull
    have hop := hanswers _ he
    cases op with
    | malloc _ => cases hop
    | pedDiskGetPartitionAlignment _ => cases hop
    | _ => exact hnull
  · intro c x hx
    rcases Nat.eq_zero_or_pos c with rfl | hc
    · exact hcommands x hx
    · rw [(run.inv.unstarted c (by omega)).2] at hx
      cases hx

theorem never_uses_null_interrupted : ∃ events p q, Runs foreignAndOwn events p ∧
    p.handler 0 = some q ∧ ∀ k, q ≠ .call .fault k := by
  obtain ⟨events, p, run, h, -, -, hsome⟩ := exists_interrupted
  obtain ⟨q, hq⟩ := Option.isSome_iff_exists.mp hsome
  refine ⟨events, p, q, run, hq, ?_⟩
  rintro k rfl
  exact never_uses_null run h k hq

theorem process_can_end_interrupted : ∃ events p, Runs foreignAndOwn events p ∧
    (p.handler 0).isSome = true ∧ ∃ more p', Runs foreignAndOwn (events ++ more) p' ∧
      (p'.server.listener = .ending [] ∧ (∀ c, p'.handler c = none) ∨ p'.Misused) := by
  obtain ⟨events, p, run, h, hend, hlistener, hsome⟩ := exists_interrupted
  obtain ⟨more, p', run', -, hout⟩ := process_can_end run hend hlistener h
  exact ⟨events, p, run, hsome, more, p', run', hout⟩

end AesdSocket

end Aesd
