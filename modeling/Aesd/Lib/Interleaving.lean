import Aesd.Lib.Prog

/-!
# Interleavings of programs over a shared state

A pool of threads, one program each, works on one shared state. A step lets one thread make its
next call. A run records its calls as a list of events, oldest first, and may be restricted by a
condition on each step that sees the events before it, the state it is taken in and its event.

`Run.invariant` is the proof rule: if every step of an obedient thread keeps a global invariant
and delivers what the thread relies on, then the invariant holds along every run and every
thread stays obedient. `play` executes a schedule, so that concrete runs can be computed.
-/

namespace Effect

variable {Op : Type} {Res : Op → Type} {α S G Tid : Type}

/-- A shared state and, for each thread, what it still has to do. -/
structure Config (Op : Type) (Res : Op → Type) (α S Tid : Type) where
  state : S
  pool : Tid → Prog Op Res α

/-- One call: who made it, which operation, and its answer. -/
structure Event (Op : Type) (Res : Op → Type) (Tid : Type) where
  tid : Tid
  op : Op
  res : Res op

variable [DecidableEq Tid]

/-- `Run exec C c tr c'`: some interleaving leads from `c` to `c'` with the events `tr`, every
one of them admitted by the condition `C`. -/
inductive Run (exec : (op : Op) → S → Res op → S → Prop)
    (C : List (Event Op Res Tid) → S → Event Op Res Tid → Prop) (c : Config Op Res α S Tid) :
    List (Event Op Res Tid) → Config Op Res α S Tid → Prop where
  | refl : Run exec C c [] c
  | step {tr : List (Event Op Res Tid)} {c₁ : Config Op Res α S Tid} {t : Tid} {op : Op}
      {k : Res op → Prog Op Res α} {r : Res op} {s' : S}
      (run : Run exec C c tr c₁) (hpool : c₁.pool t = .call op k)
      (hexec : exec op c₁.state r s') (hC : C tr c₁.state ⟨t, op, r⟩) :
      Run exec C c (tr ++ [⟨t, op, r⟩]) ⟨s', Function.update c₁.pool t (k r)⟩

/-- The condition that admits every step. -/
def anyStep : List (Event Op Res Tid) → S → Event Op Res Tid → Prop := fun _ _ _ => True

variable {exec : (op : Op) → S → Res op → S → Prop}
  {C : List (Event Op Res Tid) → S → Event Op Res Tid → Prop}
  {c c' : Config Op Res α S Tid} {tr : List (Event Op Res Tid)}

/-- The invariant rule. Each thread `t` follows its own protocol `P t`; one step of an obedient
thread keeps the invariant `I` of events, state and ghost states, and its answer is one the
thread may rely on. -/
theorem Run.invariant (P : Tid → Protocol Op Res G) (Q : Tid → G → α → Prop)
    (I : List (Event Op Res Tid) → S → (Tid → G) → Prop) (g₀ : Tid → G)
    (hinit : I [] c.state g₀) (hobey : ∀ t, (c.pool t).Obeys (P t) (g₀ t) (Q t))
    (hstep : ∀ tr s g t op r s', I tr s g → (P t).pre (g t) op → C tr s ⟨t, op, r⟩ →
      exec op s r s' →
      (P t).post (g t) op r ∧
        I (tr ++ [⟨t, op, r⟩]) s' (Function.update g t ((P t).next (g t) op r)))
    (run : Run exec C c tr c') :
    ∃ g, I tr c'.state g ∧ ∀ t, (c'.pool t).Obeys (P t) (g t) (Q t) := by
  induction run with
  | refl => exact ⟨g₀, hinit, hobey⟩
  | @step tr c₁ t op k r s' run hpool hexec hC ih =>
    obtain ⟨g, hI, hob⟩ := ih
    have ht := hob t
    rw [hpool, Prog.obeys_call] at ht
    obtain ⟨hpost, hI'⟩ := hstep tr c₁.state g t op r s' hI ht.1 hC hexec
    refine ⟨_, hI', fun u => ?_⟩
    by_cases hu : u = t
    · subst hu
      simpa using ht.2 r hpost
    · simpa [Function.update_of_ne hu] using hob u

/-- The simulation rule. If each step of `exec` can be matched on related states of another machine
with the same answer, then so can every run, with the same events. -/
theorem Run.simulate {S₂ : Type} {exec₂ : (op : Op) → S₂ → Res op → S₂ → Prop}
    (R : S → S₂ → Prop) {s₂ : S₂} (hinit : R c.state s₂)
    (hstep : ∀ op s r s' a, R s a → exec op s r s' → ∃ a', exec₂ op a r a' ∧ R s' a')
    (run : Run exec C c tr c') :
    ∃ a, R c'.state a ∧ Run exec₂ anyStep ⟨s₂, c.pool⟩ tr ⟨a, c'.pool⟩ := by
  induction run with
  | refl => exact ⟨s₂, hinit, .refl⟩
  | step run hpool hexec hC ih =>
    obtain ⟨a, hR, run₂⟩ := ih
    obtain ⟨a', hexec₂, hR'⟩ := hstep _ _ _ _ a hR hexec
    exact ⟨a', hR', .step run₂ hpool hexec₂ trivial⟩

/-! ### The calls of one thread -/

/-- The calls of thread `t` and their answers, in order. -/
def eventsOf (t : Tid) (tr : List (Event Op Res Tid)) : List (Prog.Answered Op Res) :=
  tr.filterMap fun e => if e.tid = t then some ⟨e.op, e.res⟩ else none

lemma eventsOf_concat (t u : Tid) (tr : List (Event Op Res Tid)) (op : Op) (r : Res op) :
    eventsOf t (tr ++ [⟨u, op, r⟩]) =
      if u = t then eventsOf t tr ++ [⟨op, r⟩] else eventsOf t tr := by
  rw [eventsOf, List.filterMap_append]
  split_ifs with hu
  · simp [eventsOf, hu]
  · simp [eventsOf, hu]

/-- The ghost state is the list of the calls made so far; `pre` is owed and `post` may be relied
on whatever they were. -/
def recording (pre : Op → Prop) (post : (op : Op) → Res op → Prop) :
    Protocol Op Res (List (Prog.Answered Op Res)) where
  pre _ op := pre op
  post _ op r := post op r
  next g op r := g ++ [⟨op, r⟩]

/-- The rule of outcomes: what a thread's program returns, given the answers that an invariant of
the shared state ensures, is related to the calls that the thread has made. -/
theorem Run.outcome (pre : Op → Prop) (post : (op : Op) → Res op → Prop) (I : S → Prop)
    (Out : Tid → List (Prog.Answered Op Res) → α → Prop) (hinit : I c.state)
    (hstep : ∀ op s r s', I s → pre op → exec op s r s' → post op r ∧ I s')
    (hobey : ∀ t, (c.pool t).Obeys (recording pre post) [] (Out t)) (run : Run exec C c tr c')
    {t : Tid} {a : α} (ht : c'.pool t = .ret a) : Out t (eventsOf t tr) a := by
  have hrun := run.invariant (fun _ => recording pre post) Out
    (fun tr s g => I s ∧ ∀ t, g t = eventsOf t tr) (fun _ => []) ⟨hinit, fun _ => rfl⟩ hobey
    (by
      rintro tr s g u op r s' ⟨hI, hg⟩ hpre - hexec
      obtain ⟨hpost, hI'⟩ := hstep op s r s' hI hpre hexec
      refine ⟨hpost, hI', fun t => ?_⟩
      rw [eventsOf_concat]
      split_ifs with hu
      · subst hu
        rw [Function.update_self, hg]
        rfl
      · rw [Function.update_of_ne (Ne.symm hu), hg])
  obtain ⟨g, ⟨-, hg⟩, hob⟩ := hrun
  have hout := hob t
  rw [ht, hg] at hout
  exact hout

/-- The rule of obligations. All threads follow one protocol, each with the ghost state that its
own calls have led to. If the invariant delivers what the threads rely on, each call of a run was
one that its thread was allowed to make then. -/
theorem Run.owed (P : Protocol Op Res G) (g₀ : G) (I : List (Event Op Res Tid) → S → Prop)
    (hinit : I [] c.state) (hobey : ∀ t, (c.pool t).Obeys P g₀ fun _ _ => True)
    (hstep : ∀ tr s t op r s', I tr s → P.pre (P.after g₀ (eventsOf t tr)) op → exec op s r s' →
      P.post (P.after g₀ (eventsOf t tr)) op r ∧ I (tr ++ [⟨t, op, r⟩]) s')
    (run : Run exec C c tr c') :
    I tr c'.state ∧ ∀ before e after, tr = before ++ e :: after →
      P.pre (P.after g₀ (eventsOf e.tid before)) e.op := by
  have hrun := run.invariant (fun _ => P) (fun _ _ _ => True)
    (fun tr s g => I tr s ∧ (∀ t, g t = P.after g₀ (eventsOf t tr)) ∧
      ∀ before e after, tr = before ++ e :: after →
        P.pre (P.after g₀ (eventsOf e.tid before)) e.op)
    (fun _ => g₀) ⟨hinit, fun _ => rfl, by simp⟩ hobey ?_
  · obtain ⟨g, ⟨hI, -, howed⟩, -⟩ := hrun
    exact ⟨hI, howed⟩
  · rintro tr s g t op r s' ⟨hI, hg, howed⟩ hpre - hexec
    rw [hg] at hpre ⊢
    obtain ⟨hpost, hI'⟩ := hstep tr s t op r s' hI hpre hexec
    refine ⟨hpost, hI', fun u => ?_, fun before e after heq => ?_⟩
    · -- the state of the protocol is that of the thread's own events
      rw [eventsOf_concat]
      split_ifs with hu
      · subst hu
        rw [Function.update_self, P.after_concat]
      · rw [Function.update_of_ne (Ne.symm hu), hg]
    · -- the last event, or one before it
      rcases after.eq_nil_or_concat' with rfl | ⟨after, x, rfl⟩
      · obtain ⟨rfl, rfl⟩ := List.append_singleton_inj.mp heq
        exact hpre
      · rw [← List.cons_append, ← List.append_assoc, List.append_singleton_inj] at heq
        exact howed before e after heq.1

/-! ### Executing a schedule -/

/-- Let the threads of a schedule make their next calls, `respond` answering each with the help
of a choice; `none` if a scheduled thread has returned, a choice is not possible, or a step is
not admitted by `cond`. The events so far are carried along. -/
def play {Choice : Type} (respond : (op : Op) → S → Choice → Option (Res op × S))
    (cond : List (Event Op Res Tid) → S → Event Op Res Tid → Bool) :
    List (Event Op Res Tid) → Config Op Res α S Tid → List (Tid × Choice) →
      Option (List (Event Op Res Tid) × Config Op Res α S Tid)
  | tr, c, []              => some (tr, c)
  | tr, c, (t, ch) :: rest =>
    match c.pool t with
    | .ret _     => none
    | .call op k =>
      match respond op c.state ch with
      | none         => none
      | some (r, s') =>
        if cond tr c.state ⟨t, op, r⟩ then
          play respond cond (tr ++ [⟨t, op, r⟩]) ⟨s', Function.update c.pool t (k r)⟩ rest
        else none

section

variable {Choice : Type} {respond : (op : Op) → S → Choice → Option (Res op × S)}
  {cond : List (Event Op Res Tid) → S → Event Op Res Tid → Bool} {c₀ : Config Op Res α S Tid}

/-- What a schedule plays continues a run, when the answers given are possible ones. -/
lemma Run.play (hresp : ∀ op s ch r s', respond op s ch = some (r, s') → exec op s r s')
    (hcond : ∀ tr s e, cond tr s e = true → C tr s e) {sched : List (Tid × Choice)}
    {tr' : List (Event Op Res Tid)} (run : Run exec C c₀ tr c)
    (h : play respond cond tr c sched = some (tr', c')) : Run exec C c₀ tr' c' := by
  induction sched generalizing c tr with
  | nil =>
    simp only [Effect.play, Option.some.injEq, Prod.mk.injEq] at h
    obtain ⟨rfl, rfl⟩ := h
    exact run
  | cons x rest ih =>
    obtain ⟨t, ch⟩ := x
    simp only [Effect.play] at h
    split at h
    · cases h
    · rename_i op k hpool
      split at h
      · cases h
      · rename_i r s' hr
        split_ifs at h with hc
        exact ih (.step run hpool (hresp op c.state ch r s' hr) (hcond _ _ _ hc)) h

/-- A schedule that plays, with a result that passes a test, is a run with such a result. -/
theorem exists_run_of_play (cond : List (Event Op Res Tid) → S → Event Op Res Tid → Bool)
    (c : Config Op Res α S Tid) (sched : List (Tid × Choice))
    (test : List (Event Op Res Tid) × Config Op Res α S Tid → Bool)
    (hresp : ∀ op s ch r s', respond op s ch = some (r, s') → exec op s r s')
    (hcond : ∀ tr s e, cond tr s e = true → C tr s e)
    (h : (play respond cond [] c sched).any test = true) :
    ∃ tr c', Run exec C c tr c' ∧ test (tr, c') = true := by
  cases hplay : play respond cond [] c sched with
  | none =>
    rw [hplay] at h
    cases h
  | some x =>
    rw [hplay] at h
    exact ⟨x.1, x.2, Run.refl.play hresp hcond hplay, h⟩

end

end Effect
