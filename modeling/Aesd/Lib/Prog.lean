import Mathlib

/-!
# Programs over an operation signature

A program either returns or calls an operation of its environment and continues with the
answer. The text of such a program is written once; what an operation does is said separately,
by a relation `exec op s r s'` ("in state `s` the operation may answer `r` and leave `s'`").

`Prog.Eval` is a whole run of one program, `Prog.Calls` says which operations a run can get to,
and `Prog.Obeys` is a Hoare-style judgement: every call meets an obligation, given what may be
relied on about the answers so far.
-/

namespace Effect

/-- Programs that call operations `op : Op`, each answered by a value of type `Res op`. -/
inductive Prog (Op : Type) (Res : Op → Type) (α : Type) : Type where
  | ret : α → Prog Op Res α
  | call : (op : Op) → (Res op → Prog Op Res α) → Prog Op Res α

variable {Op : Type} {Res : Op → Type} {α β S G : Type}

namespace Prog

/-- Sequencing: graft the continuation onto every leaf. -/
def bind : Prog Op Res α → (α → Prog Op Res β) → Prog Op Res β
  | .ret a, f     => f a
  | .call op k, f => .call op fun r => (k r).bind f

instance : Monad (Prog Op Res) where
  pure := .ret
  bind := bind

/-- The program that makes one call and returns its answer. -/
def perform (op : Op) : Prog Op Res (Res op) := .call op .ret

@[simp] lemma pure_eq_ret (a : α) : (pure a : Prog Op Res α) = .ret a := rfl

@[simp] lemma ret_bind (a : α) (f : α → Prog Op Res β) : (Prog.ret a >>= f) = f a := rfl

@[simp] lemma call_bind (op : Op) (k : Res op → Prog Op Res α) (f : α → Prog Op Res β) :
    (Prog.call op k >>= f) = .call op fun r => k r >>= f := rfl

@[simp] lemma perform_bind (op : Op) (f : Res op → Prog Op Res β) :
    (perform op >>= f) = .call op f := rfl

lemma bind_assoc {γ : Type} (p : Prog Op Res α) (f : α → Prog Op Res β) (g : β → Prog Op Res γ) :
    (p >>= f) >>= g = p >>= fun a => f a >>= g := by
  induction p with
  | ret a => rfl
  | call op k ih =>
    simp only [call_bind]
    congr 1
    funext r
    exact ih r

/-- The value of a program that has returned. -/
def result : Prog Op Res α → Option α
  | .ret a    => some a
  | .call _ _ => none

lemma eq_ret_of_result {p : Prog Op Res α} {a : α} (h : p.result = some a) : p = .ret a := by
  cases p with
  | ret b => rw [Option.some.inj h]
  | call op k => cases h

/-! ### Runs of one program -/

/-- `p.Eval exec s a s'`: started in `s`, the program may return `a` and leave `s'`. -/
def Eval (exec : (op : Op) → S → Res op → S → Prop) : Prog Op Res α → S → α → S → Prop
  | .ret a, s, b, s'     => b = a ∧ s' = s
  | .call op k, s, b, s' => ∃ r s₁, exec op s r s₁ ∧ (k r).Eval exec s₁ b s'

variable {exec : (op : Op) → S → Res op → S → Prop}

@[simp] lemma eval_ret {a b : α} {s s' : S} :
    (Prog.ret a : Prog Op Res α).Eval exec s b s' ↔ b = a ∧ s' = s := Iff.rfl

@[simp] lemma eval_call {op : Op} {k : Res op → Prog Op Res α} {b : α} {s s' : S} :
    (Prog.call op k).Eval exec s b s' ↔ ∃ r s₁, exec op s r s₁ ∧ (k r).Eval exec s₁ b s' :=
  Iff.rfl

/-- A run of a sequence is a run of its first part followed by a run of the rest. -/
lemma eval_bind {p : Prog Op Res α} {f : α → Prog Op Res β} {b : β} {s s' : S} :
    (p >>= f).Eval exec s b s' ↔
      ∃ a s₁, p.Eval exec s a s₁ ∧ (f a).Eval exec s₁ b s' := by
  induction p generalizing s with
  | ret a =>
    simp only [ret_bind, eval_ret]
    constructor
    · intro h
      exact ⟨a, s, ⟨rfl, rfl⟩, h⟩
    · rintro ⟨_, _, ⟨rfl, rfl⟩, h⟩
      exact h
  | call op k ih =>
    simp only [call_bind, eval_call, ih]
    constructor
    · rintro ⟨r, s₁, hop, a, s₂, hk, hf⟩
      exact ⟨a, s₂, ⟨r, s₁, hop, hk⟩, hf⟩
    · rintro ⟨a, s₂, ⟨r, s₁, hop, hk⟩, hf⟩
      exact ⟨r, s₁, hop, a, s₂, hk, hf⟩

/-- Run the program with `respond` answering each call with the help of a choice; `none` if the
choices do not fit its calls. -/
def run {Choice : Type} (respond : (op : Op) → S → Choice → Option (Res op × S)) :
    Prog Op Res α → S → List Choice → Option (α × S)
  | .ret a, s, []              => some (a, s)
  | .ret _, _, _ :: _          => none
  | .call _ _, _, []           => none
  | .call op k, s, ch :: rest  =>
    match respond op s ch with
    | none         => none
    | some (r, s') => (k r).run respond s' rest

lemma eval_of_run {Choice : Type} {respond : (op : Op) → S → Choice → Option (Res op × S)}
    (hresp : ∀ op s ch r s', respond op s ch = some (r, s') → exec op s r s') (chs : List Choice)
    {p : Prog Op Res α} {s s' : S} {a : α} (h : p.run respond s chs = some (a, s')) :
    p.Eval exec s a s' := by
  induction p generalizing s chs with
  | ret b =>
    cases chs with
    | nil =>
      cases h
      exact ⟨rfl, rfl⟩
    | cons ch rest => cases h
  | call op k ih =>
    cases chs with
    | nil => cases h
    | cons ch rest =>
      simp only [run] at h
      split at h
      · cases h
      · rename_i r s₁ hr
        exact ⟨r, s₁, hresp op s ch r s₁ hr, ih r rest h⟩

/-! ### Runs with their calls -/

/-- One call and its answer. -/
abbrev Answered (Op : Type) (Res : Op → Type) := (op : Op) × Res op

/-- A run as in `Eval`, with the calls it makes and their answers, in order. -/
def EvalTrace (exec : (op : Op) → S → Res op → S → Prop) :
    Prog Op Res α → S → List (Answered Op Res) → α → S → Prop
  | .ret a, s, tr, b, s'     => tr = [] ∧ b = a ∧ s' = s
  | .call op k, s, tr, b, s' =>
    ∃ r s₁ rest, tr = ⟨op, r⟩ :: rest ∧ exec op s r s₁ ∧ (k r).EvalTrace exec s₁ rest b s'

lemma EvalTrace.eval {p : Prog Op Res α} {s s' : S} {tr : List (Answered Op Res)} {a : α}
    (h : p.EvalTrace exec s tr a s') : p.Eval exec s a s' := by
  induction p generalizing s tr with
  | ret b => exact h.2
  | call op k ih =>
    obtain ⟨r, s₁, rest, -, hexec, h⟩ := h
    exact ⟨r, s₁, hexec, ih r h⟩

/-- Every run makes some calls. -/
lemma Eval.exists_trace {p : Prog Op Res α} {s s' : S} {a : α} (h : p.Eval exec s a s') :
    ∃ tr, p.EvalTrace exec s tr a s' := by
  induction p generalizing s with
  | ret b => exact ⟨[], rfl, h⟩
  | call op k ih =>
    obtain ⟨r, s₁, hexec, h⟩ := h
    obtain ⟨tr, h⟩ := ih r h
    exact ⟨⟨op, r⟩ :: tr, r, s₁, tr, rfl, hexec, h⟩

/-- The calls of a sequence are those of its first part followed by those of the rest. -/
lemma evalTrace_bind {p : Prog Op Res α} {f : α → Prog Op Res β} {s s' : S}
    {tr : List (Answered Op Res)} {b : β} :
    (p >>= f).EvalTrace exec s tr b s' ↔ ∃ tr₁ tr₂ a s₁, tr = tr₁ ++ tr₂ ∧
      p.EvalTrace exec s tr₁ a s₁ ∧ (f a).EvalTrace exec s₁ tr₂ b s' := by
  induction p generalizing s tr with
  | ret a =>
    constructor
    · intro h
      exact ⟨[], tr, a, s, rfl, ⟨rfl, rfl, rfl⟩, h⟩
    · rintro ⟨_, _, _, _, rfl, ⟨rfl, rfl, rfl⟩, h⟩
      exact h
  | call op k ih =>
    simp only [call_bind, EvalTrace, ih]
    constructor
    · rintro ⟨r, s₁, _, rfl, hexec, tr₁, tr₂, a, s₂, rfl, hp, hf⟩
      exact ⟨_ :: tr₁, tr₂, a, s₂, rfl, ⟨r, s₁, tr₁, rfl, hexec, hp⟩, hf⟩
    · rintro ⟨_, tr₂, a, s₂, rfl, ⟨r, s₁, tr₁, rfl, hexec, hp⟩, hf⟩
      exact ⟨r, s₁, tr₁ ++ tr₂, rfl, hexec, tr₁, tr₂, a, s₂, rfl, hp, hf⟩

/-- `run` with the calls made and their answers. -/
def runTrace {Choice : Type} (respond : (op : Op) → S → Choice → Option (Res op × S)) :
    Prog Op Res α → S → List Choice → Option (List (Answered Op Res) × α × S)
  | .ret a, s, []             => some ([], a, s)
  | .ret _, _, _ :: _         => none
  | .call _ _, _, []          => none
  | .call op k, s, ch :: rest =>
    match respond op s ch with
    | none         => none
    | some (r, s') =>
      ((k r).runTrace respond s' rest).map fun x => (⟨op, r⟩ :: x.1, x.2)

lemma evalTrace_of_run {Choice : Type} {respond : (op : Op) → S → Choice → Option (Res op × S)}
    (hresp : ∀ op s ch r s', respond op s ch = some (r, s') → exec op s r s') (chs : List Choice)
    {p : Prog Op Res α} {s s' : S} {tr : List (Answered Op Res)} {a : α}
    (h : p.runTrace respond s chs = some (tr, a, s')) : p.EvalTrace exec s tr a s' := by
  induction p generalizing s chs tr with
  | ret b =>
    cases chs with
    | nil =>
      cases h
      exact ⟨rfl, rfl, rfl⟩
    | cons ch rest => cases h
  | call op k ih =>
    cases chs with
    | nil => cases h
    | cons ch rest =>
      simp only [runTrace] at h
      split at h
      · cases h
      · rename_i r s₁ hr
        obtain ⟨⟨tr, a, s'⟩, hrest, heq⟩ := Option.map_eq_some_iff.mp h
        cases heq
        exact ⟨r, s₁, tr, rfl, hresp op s ch r s₁ hr, ih r rest hrest⟩

/-! ### Operations a run gets to -/

/-- `p.Calls exec s op s'`: started in `s`, a run of `p` may get to a call of `op`, made in the
state `s'`. -/
def Calls (exec : (op : Op) → S → Res op → S → Prop) : Prog Op Res α → S → Op → S → Prop
  | .ret _, _, _, _      => False
  | .call op k, s, o, s' =>
    (o = op ∧ s' = s) ∨ ∃ r s₁, exec op s r s₁ ∧ (k r).Calls exec s₁ o s'

@[simp] lemma calls_ret {a : α} {s s' : S} {o : Op} :
    ¬ (Prog.ret a : Prog Op Res α).Calls exec s o s' := fun h => h

@[simp] lemma calls_call {op o : Op} {k : Res op → Prog Op Res α} {s s' : S} :
    (Prog.call op k).Calls exec s o s' ↔
      (o = op ∧ s' = s) ∨ ∃ r s₁, exec op s r s₁ ∧ (k r).Calls exec s₁ o s' := Iff.rfl

/-- A call of another operation is got to after the first one is answered. -/
lemma Calls.of_ne {op o : Op} {k : Res op → Prog Op Res α} {s s' : S}
    (h : (Prog.call op k).Calls exec s o s') (hne : o ≠ op) :
    ∃ r s₁, exec op s r s₁ ∧ (k r).Calls exec s₁ o s' :=
  h.resolve_left fun ho => hne ho.1

/-- A call made by a sequence is made by its first part, or by the rest after it. -/
lemma calls_bind {p : Prog Op Res α} {f : α → Prog Op Res β} {o : Op} {s s' : S} :
    (p >>= f).Calls exec s o s' ↔
      p.Calls exec s o s' ∨ ∃ a s₁, p.Eval exec s a s₁ ∧ (f a).Calls exec s₁ o s' := by
  induction p generalizing s with
  | ret a =>
    simp only [ret_bind, calls_ret, eval_ret, false_or]
    constructor
    · intro h
      exact ⟨a, s, ⟨rfl, rfl⟩, h⟩
    · rintro ⟨_, _, ⟨rfl, rfl⟩, h⟩
      exact h
  | call op k ih =>
    simp only [call_bind, calls_call, eval_call, ih]
    constructor
    · rintro (h | ⟨r, s₁, hop, hk | ⟨a, s₂, hk, hf⟩⟩)
      · exact Or.inl (Or.inl h)
      · exact Or.inl (Or.inr ⟨r, s₁, hop, hk⟩)
      · exact Or.inr ⟨a, s₂, ⟨r, s₁, hop, hk⟩, hf⟩
    · rintro ((h | ⟨r, s₁, hop, hk⟩) | ⟨a, s₂, ⟨r, s₁, hop, hk⟩, hf⟩)
      · exact Or.inl h
      · exact Or.inr ⟨r, s₁, hop, Or.inl hk⟩
      · exact Or.inr ⟨r, s₁, hop, Or.inr ⟨a, s₂, hk, hf⟩⟩

/-- The calls of a run are calls that a run may get to. -/
lemma EvalTrace.calls {exec : (op : Op) → S → Res op → S → Prop} {p : Prog Op Res α} {s s' : S}
    {tr : List (Answered Op Res)} {a : α} (h : p.EvalTrace exec s tr a s')
    {e : Answered Op Res} (he : e ∈ tr) : ∃ s₁, p.Calls exec s e.1 s₁ := by
  induction p generalizing s tr with
  | ret b =>
    obtain ⟨rfl, -⟩ := h
    cases he
  | call op k ih =>
    obtain ⟨r, s₁, rest, rfl, hexec, h⟩ := h
    rcases List.mem_cons.mp he with rfl | he
    · exact ⟨s, Or.inl ⟨rfl, rfl⟩⟩
    · obtain ⟨s₂, hcalls⟩ := ih r h he
      exact ⟨s₂, Or.inr ⟨r, s₁, hexec, hcalls⟩⟩

/-- What every call that a run may get to keeps, the run keeps. -/
lemma Eval.of_calls {exec : (op : Op) → S → Res op → S → Prop} {I : S → Prop} {p : Prog Op Res α}
    {s s' : S} {a : α}
    (hstep : ∀ op s₁ r s₂, p.Calls exec s op s₁ → I s₁ → exec op s₁ r s₂ → I s₂) (hI : I s)
    (h : p.Eval exec s a s') : I s' := by
  induction p generalizing s with
  | ret b =>
    obtain ⟨-, rfl⟩ := h
    exact hI
  | call op k ih =>
    obtain ⟨r, s₁, hexec, h⟩ := h
    refine ih r ?_ (hstep op s r s₁ (Or.inl ⟨rfl, rfl⟩) hI hexec) h
    intro op' s₂ r' s₃ hcalls
    exact hstep op' s₂ r' s₃ (Or.inr ⟨r, s₁, hexec, hcalls⟩)

/-! ### Handlers -/

section Handler

variable {Op' : Type} {Res' : Op' → Type} {h : (op : Op) → S → Prog Op' Res' (Res op × S)}

/-- Carry out the calls of a program by programs over another signature, which share a state. -/
def handle (h : (op : Op) → S → Prog Op' Res' (Res op × S)) :
    Prog Op Res α → S → Prog Op' Res' (α × S)
  | .ret a, s     => .ret (a, s)
  | .call op k, s => h op s >>= fun x => (k x.1).handle h x.2

@[simp] lemma handle_ret {a : α} {s : S} :
    (Prog.ret a : Prog Op Res α).handle h s = .ret (a, s) := rfl

@[simp] lemma handle_call {op : Op} {k : Res op → Prog Op Res α} {s : S} :
    (Prog.call op k).handle h s = h op s >>= fun x => (k x.1).handle h x.2 := rfl

/-- If what carries out a call does what the call may do, seen through `f`, so does what carries out
the program. -/
lemma Eval.of_handle {T S' : Type} {f : S → S'} {exec : (op : Op) → S' → Res op → S' → Prop}
    {exec' : (op : Op') → T → Res' op → T → Prop}
    (hexec : ∀ op s r s' t t', (h op s).Eval exec' t (r, s') t' → exec op (f s) r (f s'))
    {p : Prog Op Res α} {s s' : S} {t t' : T} {a : α}
    (hrun : (p.handle h s).Eval exec' t (a, s') t') : p.Eval exec (f s) a (f s') := by
  induction p generalizing s t with
  | ret b =>
    obtain ⟨heq, -⟩ := hrun
    cases heq
    exact ⟨rfl, rfl⟩
  | call op k ih =>
    obtain ⟨⟨r, s₁⟩, t₁, hop, hrest⟩ := eval_bind.mp hrun
    exact ⟨r, f s₁, hexec op s r s₁ t t₁ hop, ih r hrest⟩

end Handler

end Prog

/-! ### Obligations and reliances -/

/-- What a program owes and may count on, call by call, with a ghost state `G` that records the
answers so far: a call of `op` needs `pre g op`, its answer may be assumed to satisfy
`post g op r`, and the ghost state moves to `next g op r`. -/
structure Protocol (Op : Type) (Res : Op → Type) (G : Type) where
  pre : G → Op → Prop
  post : G → (op : Op) → Res op → Prop
  next : G → (op : Op) → Res op → G

/-- The ghost state after some calls. -/
def Protocol.after (P : Protocol Op Res G) (g : G) (tr : List (Prog.Answered Op Res)) : G :=
  tr.foldl (fun g e => P.next g e.1 e.2) g

lemma Protocol.after_concat (P : Protocol Op Res G) (g : G) (tr : List (Prog.Answered Op Res))
    (e : Prog.Answered Op Res) : P.after g (tr ++ [e]) = P.next (P.after g tr) e.1 e.2 := by
  rw [after, List.foldl_append]
  rfl

namespace Prog

variable {P : Protocol Op Res G}

/-- Every call the program makes from ghost state `g` meets its obligation, and `Q` holds of the
ghost state and value it returns with. -/
def Obeys (P : Protocol Op Res G) : G → Prog Op Res α → (G → α → Prop) → Prop
  | g, .ret a, Q     => Q g a
  | g, .call op k, Q => P.pre g op ∧ ∀ r, P.post g op r → (k r).Obeys P (P.next g op r) Q

@[simp] lemma obeys_ret {g : G} {a : α} {Q : G → α → Prop} :
    (Prog.ret a : Prog Op Res α).Obeys P g Q ↔ Q g a := Iff.rfl

@[simp] lemma obeys_call {g : G} {op : Op} {k : Res op → Prog Op Res α} {Q : G → α → Prop} :
    (Prog.call op k).Obeys P g Q ↔
      P.pre g op ∧ ∀ r, P.post g op r → (k r).Obeys P (P.next g op r) Q := Iff.rfl

/-- The rule of sequencing. -/
lemma obeys_bind {p : Prog Op Res α} {f : α → Prog Op Res β} {g : G} {Q : G → β → Prop} :
    (p >>= f).Obeys P g Q ↔ p.Obeys P g fun g' a => (f a).Obeys P g' Q := by
  induction p generalizing g with
  | ret a => rfl
  | call op k ih => simp only [call_bind, obeys_call, ih]

/-- The protocol that asks for nothing and promises nothing. -/
def free : Protocol Op Res G where
  pre _ _ := True
  post _ _ _ := True
  next g _ _ := g

lemma obeys_free (p : Prog Op Res α) (g : G) : p.Obeys free g fun _ _ => True := by
  induction p with
  | ret a => trivial
  | call op k ih => exact ⟨trivial, fun r _ => ih r⟩

/-- The rule of consequence. -/
lemma Obeys.mono {p : Prog Op Res α} {g : G} {Q Q' : G → α → Prop} (h : p.Obeys P g Q)
    (hQ : ∀ g' a, Q g' a → Q' g' a) : p.Obeys P g Q' := by
  induction p generalizing g with
  | ret a => exact hQ g a h
  | call op k ih => exact ⟨h.1, fun r hr => ih r (h.2 r hr)⟩

/-- What an obedient program keeps, a run of it keeps, and the ghost state it returns with is the
one after the calls it made. -/
theorem Obeys.evalTrace {exec : (op : Op) → S → Res op → S → Prop} {I : S → G → Prop}
    (hstep : ∀ s g op r s', I s g → P.pre g op → exec op s r s' →
      P.post g op r ∧ I s' (P.next g op r))
    {p : Prog Op Res α} {g : G} {Q : G → α → Prop} {s s' : S} {tr : List (Answered Op Res)} {a : α}
    (hp : p.Obeys P g Q) (hI : I s g) (h : p.EvalTrace exec s tr a s') :
    I s' (P.after g tr) ∧ Q (P.after g tr) a := by
  induction p generalizing s g tr with
  | ret b =>
    obtain ⟨rfl, rfl, rfl⟩ := h
    exact ⟨hI, hp⟩
  | call op k ih =>
    obtain ⟨r, s₁, rest, rfl, hexec, h⟩ := h
    obtain ⟨hpost, hI₁⟩ := hstep s g op r s₁ hI hp.1 hexec
    show I s' (P.after (P.next g op r) rest) ∧ Q (P.after (P.next g op r) rest) a
    exact ih r (hp.2 r hpost) hI₁ h

theorem Obeys.eval {exec : (op : Op) → S → Res op → S → Prop} {I : S → G → Prop}
    (hstep : ∀ s g op r s', I s g → P.pre g op → exec op s r s' →
      P.post g op r ∧ I s' (P.next g op r))
    {p : Prog Op Res α} {g : G} {Q : G → α → Prop} {s s' : S} {a : α} (hp : p.Obeys P g Q)
    (hI : I s g) (h : p.Eval exec s a s') : ∃ g', I s' g' ∧ Q g' a := by
  obtain ⟨tr, h⟩ := h.exists_trace
  exact ⟨_, hp.evalTrace hstep hI h⟩

/-- A call that a run of an obedient program gets to meets its obligation. -/
theorem Obeys.calls {exec : (op : Op) → S → Res op → S → Prop} {I : S → G → Prop}
    (hstep : ∀ s g op r s', I s g → P.pre g op → exec op s r s' →
      P.post g op r ∧ I s' (P.next g op r))
    {p : Prog Op Res α} {g : G} {Q : G → α → Prop} {s s' : S} {o : Op} (hp : p.Obeys P g Q)
    (hI : I s g) (h : p.Calls exec s o s') : ∃ g', I s' g' ∧ P.pre g' o := by
  induction p generalizing s g with
  | ret a => exact h.elim
  | call op k ih =>
    rcases h with ⟨rfl, rfl⟩ | ⟨r, s₁, hexec, h⟩
    · exact ⟨g, hI, hp.1⟩
    · obtain ⟨hpost, hI₁⟩ := hstep s g op r s₁ hI hp.1 hexec
      exact ih r (hp.2 r hpost) hI₁ h

/-! ### Programs that make only some calls -/

/-- Whatever the answers, the program calls only operations in `A`. -/
def Only (A : Op → Prop) : Prog Op Res α → Prop
  | .ret _     => True
  | .call op k => A op ∧ ∀ r, (k r).Only A

variable {A : Op → Prop}

@[simp] lemma only_ret (a : α) : (Prog.ret a : Prog Op Res α).Only A := trivial

@[simp] lemma only_call {op : Op} {k : Res op → Prog Op Res α} :
    (Prog.call op k).Only A ↔ A op ∧ ∀ r, (k r).Only A := Iff.rfl

@[simp] lemma only_perform {op : Op} : (perform op : Prog Op Res (Res op)).Only A ↔ A op :=
  ⟨fun h => h.1, fun h => ⟨h, fun _ => trivial⟩⟩

lemma Only.mono {B : Op → Prop} {p : Prog Op Res α} (hp : p.Only A) (hB : ∀ op, A op → B op) :
    p.Only B := by
  induction p with
  | ret a => trivial
  | call op k ih => exact ⟨hB op hp.1, fun r => ih r (hp.2 r)⟩

lemma Only.bind {p : Prog Op Res α} {f : α → Prog Op Res β} (hp : p.Only A)
    (hf : ∀ a, (f a).Only A) : (p >>= f).Only A := by
  induction p with
  | ret a => exact hf a
  | call op k ih => exact ⟨hp.1, fun r => ih r (hp.2 r)⟩

lemma only_forM {γ : Type} {f : γ → Prog Op Res PUnit} (xs : List γ) (hf : ∀ x, (f x).Only A) :
    (xs.forM f).Only A := by
  induction xs with
  | nil => trivial
  | cons x xs ih =>
    rw [List.forM_eq_forM, List.forM_cons]
    exact (hf x).bind fun _ => ih

/-- A program that keeps to the operations in `A` gets to no other. -/
lemma Only.not_calls {p : Prog Op Res α} (hp : p.Only A)
    {exec : (op : Op) → S → Res op → S → Prop} {o : Op} (ho : ¬ A o) {s s' : S} :
    ¬ p.Calls exec s o s' := by
  induction p generalizing s with
  | ret a => exact calls_ret
  | call op k ih =>
    rintro (⟨rfl, _⟩ | ⟨r, s₁, _, h⟩)
    · exact ho hp.1
    · exact ih r (hp.2 r) h

/-- The calls of a run are in `A`. -/
lemma Only.evalTrace {p : Prog Op Res α} (hp : p.Only A)
    {exec : (op : Op) → S → Res op → S → Prop} {tr : List (Answered Op Res)} {a : α} {s s' : S}
    (h : p.EvalTrace exec s tr a s') : ∀ e ∈ tr, A e.1 := by
  intro e he
  by_contra hop
  obtain ⟨s₁, hcalls⟩ := h.calls he
  exact hp.not_calls hop hcalls

/-- An obedient program returns if each of its calls, made as it should be, has an answer. -/
theorem Obeys.exists_eval {exec : (op : Op) → S → Res op → S → Prop} {I : S → G → Prop}
    (hstep : ∀ s g op r s', I s g → P.pre g op → exec op s r s' →
      P.post g op r ∧ I s' (P.next g op r))
    (hanswer : ∀ s g op, A op → I s g → P.pre g op → ∃ r s', exec op s r s')
    {p : Prog Op Res α} {g : G} {Q : G → α → Prop} {s : S} (hp : p.Obeys P g Q) (honly : p.Only A)
    (hI : I s g) : ∃ a s', p.Eval exec s a s' := by
  induction p generalizing s g with
  | ret a => exact ⟨a, s, rfl, rfl⟩
  | call op k ih =>
    obtain ⟨r, s₁, hexec⟩ := hanswer s g op honly.1 hI hp.1
    obtain ⟨hpost, hI₁⟩ := hstep s g op r s₁ hI hp.1 hexec
    obtain ⟨a, s', h⟩ := ih r (hp.2 r hpost) (honly.2 r) hI₁
    exact ⟨a, s', r, s₁, hexec, h⟩

/-- Calls that owe nothing and leave the ghost state alone may be made anywhere. -/
lemma Only.obeys {p : Prog Op Res α} (hp : p.Only A) {g : G} {Q : G → α → Prop}
    (hpre : ∀ op, A op → P.pre g op) (hnext : ∀ op r, A op → P.next g op r = g)
    (hQ : ∀ a, Q g a) : p.Obeys P g Q := by
  induction p with
  | ret a => exact hQ a
  | call op k ih =>
    refine ⟨hpre op hp.1, fun r _ => ?_⟩
    rw [hnext op r hp.1]
    exact ih r (hp.2 r)

/-! ### Larger signatures -/

section Embed

variable {Op' : Type} {Res' : Op' → Type} {f : Op → Op'} {φ : (op : Op) → Res' (f op) → Res op}

/-- Make the calls of a program as calls of another signature. -/
def embed (f : Op → Op') (φ : (op : Op) → Res' (f op) → Res op) : Prog Op Res α → Prog Op' Res' α
  | .ret a     => .ret a
  | .call op k => .call (f op) fun r => (k (φ op r)).embed f φ

/-- A protocol on the larger signature, as it is for the calls of the smaller one, is obeyed as
before. -/
lemma Obeys.embed {P' : Protocol Op' Res' G} {p : Prog Op Res α} {g : G} {Q : G → α → Prop}
    (hpre : ∀ g op, P.pre g op → P'.pre g (f op))
    (hpost : ∀ g op r, P'.post g (f op) r → P.post g op (φ op r))
    (hnext : ∀ g op r, P'.next g (f op) r = P.next g op (φ op r)) (hp : p.Obeys P g Q) :
    (p.embed f φ).Obeys P' g Q := by
  induction p generalizing g with
  | ret a => exact hp
  | call op k ih =>
    refine ⟨hpre g op hp.1, fun r hr => ?_⟩
    rw [hnext]
    exact ih _ (hp.2 _ (hpost g op r hr))

end Embed

end Prog

end Effect
