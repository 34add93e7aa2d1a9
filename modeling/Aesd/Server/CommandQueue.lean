import Aesd.Lib.Interleaving
import Aesd.Lib.BoundedQueue

/-!
# The command queue

`commandQueue.c`. Threads call `enqueue_command`, `processNextCommandInQueue` and
`get_queue_status` on one queue. What a call does with the mutex held is one operation; the flag
`isInitComplete` and the field `state` are read without it. The `execute_` functions do not use the
queue. An enumeration of the source may also hold a number that is none of its members.

The queue refines a bounded list (`commandQueue_refines_fifo`).
-/

namespace Aesd

open Effect

/-- `MAX_QUEUE_SIZE`. -/
abbrev maxQueueSize : ℕ := 10

instance : NeZero maxQueueSize := ⟨by decide⟩

def ERROR_NONE : ℤ := 0

def ERROR_STATE : ℤ := -1

def ERROR_INPUT : ℤ := -2

def ERROR_EMPTY_QUEUE : ℤ := -4

def ERROR_NO_INIT : ℤ := -6

def ERROR_FULL_QUEUE : ℤ := -7

def ERROR_NOT_SUPPORTED : ℤ := -8

/-! ### Data -/

/-- `smState_t`. -/
inductive SmState where
  | idle
  | userMode
  | perfMode
  | error
  | other (value : ℕ)
  deriving DecidableEq

/-- `enum commandType_e`. -/
inductive CommandType where
  | adminCommand
  | userCommand
  | perfCommand
  | other (value : ℕ)
  deriving DecidableEq

/-- `ioType_t`. -/
inductive IoType where
  | readToFile
  | writeFromFile
  | readToBuffer
  | writeToBuffer
  | status
  | other (value : ℕ)
  deriving DecidableEq

/-- `userCommandType_t`. -/
inductive UserCommandType where
  | io
  | listNs
  | createNs
  | removeNs
  | getStatus
  | other (value : ℕ)
  deriving DecidableEq

/-- `userCommandInfo_t`; pointers are numbers, `NULL` being zero. -/
structure UserCommandInfo where
  userCommandType : UserCommandType := .io
  ioType : IoType := .readToFile
  partnum : ℕ := 0
  sector : ℕ := 0
  pathToFile : ℕ := 0
  pathToFileLength : ℕ := 0
  buffer : ℕ := 0
  bufferLength : ℕ := 0
  deriving DecidableEq

/-- `command_t`. The defaults are what `memset` to zero leaves. -/
structure CommandT where
  stateNeeded : SmState := .idle
  cmdType : CommandType := .adminCommand
  userCmdInfo : UserCommandInfo := {}
  perCmdInfo : UserCommandInfo := {}
  deriving DecidableEq

/-- `CommandQueue_t`, at first with every field zero. -/
structure CommandQueue where
  queue : Fin maxQueueSize → CommandT := fun _ => {}
  enqueueIndex : Fin maxQueueSize := 0
  dequeueIndex : Fin maxQueueSize := 0
  state : SmState := .idle
  isQueueEmpty : Bool := false
  isInitComplete : Bool := false

/-! ### The parts with the mutex held -/

/-- `queue_next_index`. -/
def queueNextIndex (index : Fin maxQueueSize) : Fin maxQueueSize := index + 1

namespace CommandQueue

/-- `queue_is_full_locked`. -/
def queueIsFullLocked (q : CommandQueue) : Bool :=
  !q.isQueueEmpty && q.enqueueIndex = q.dequeueIndex

/-- `queue_is_empty_locked`. -/
def queueIsEmptyLocked (q : CommandQueue) : Bool := q.isQueueEmpty

/-- The part of `enqueue_command`. -/
def enqueueLocked (q : CommandQueue) (cmd : CommandT) : ℤ × CommandQueue :=
  if q.queueIsFullLocked then (ERROR_FULL_QUEUE, q)
  else (ERROR_NONE, { q with
    queue := Function.update q.queue q.enqueueIndex cmd
    enqueueIndex := queueNextIndex q.enqueueIndex
    isQueueEmpty := false })

/-- The part of `processNextCommandInQueue`: the command that is taken out of the queue, if any. -/
def dequeueLocked (q : CommandQueue) : Option CommandT × CommandQueue :=
  if q.queueIsEmptyLocked then (none, q)
  else
    let nextCommand := q.queue q.dequeueIndex
    let dequeueIndex := queueNextIndex q.dequeueIndex
    (some nextCommand, { q with
      queue := Function.update q.queue q.dequeueIndex {}
      dequeueIndex := dequeueIndex
      isQueueEmpty := if dequeueIndex = q.enqueueIndex then true else q.isQueueEmpty })

/-- The part of `get_queue_status`. -/
def statusLocked (q : CommandQueue) : ℤ :=
  if q.queueIsEmptyLocked then ERROR_EMPTY_QUEUE
  else if q.queueIsFullLocked then ERROR_FULL_QUEUE
  else ERROR_NONE

end CommandQueue

/-- `commandQueueInit`, if the mutex can be initialised. -/
def commandQueueInit : CommandQueue :=
  { enqueueIndex := 0, dequeueIndex := 0, isQueueEmpty := true, isInitComplete := true,
    state := .idle }

/-! ### Operations and programs -/

/-- The steps of a call. The `execute` operations are the calls of `execute_user_command`,
`execute_perf_command` and `execute_admin_command` for the command in `nextCommand`; the first one
is passed its `userCmdInfo`. -/
inductive QueueOp where
  | isInitComplete
  | enqueueLocked (cmd : CommandT)
  | dequeueLocked
  | statusLocked
  | state
  | executeUserCommand (nextCommand : CommandT)
  | executePerfCommand (nextCommand : CommandT)
  | executeAdminCommand (nextCommand : CommandT)

@[reducible] def QueueAnswer : QueueOp → Type
  | .isInitComplete        => Bool
  | .enqueueLocked _       => ℤ
  | .dequeueLocked         => Option CommandT
  | .statusLocked          => ℤ
  | .state                 => SmState
  | .executeUserCommand _  => ℤ
  | .executePerfCommand _  => ℤ
  | .executeAdminCommand _ => ℤ

/-- Programs on the queue. -/
abbrev QueueProg (α : Type) := Prog QueueOp QueueAnswer α

/-- One operation, as a program. -/
abbrev queueOp (op : QueueOp) : QueueProg (QueueAnswer op) := Prog.perform op

/-- The operations' effect on the queue. What `execute_user_command` returns depends on the
drive. -/
def queueExec : (op : QueueOp) → CommandQueue → QueueAnswer op → CommandQueue → Prop
  | .isInitComplete, q, r, q'        => r = q.isInitComplete ∧ q' = q
  | .enqueueLocked cmd, q, r, q'     => (r, q') = q.enqueueLocked cmd
  | .dequeueLocked, q, r, q'         => (r, q') = q.dequeueLocked
  | .statusLocked, q, r, q'          => r = q.statusLocked ∧ q' = q
  | .state, q, r, q'                 => r = q.state ∧ q' = q
  | .executeUserCommand _, q, _, q'  => q' = q
  | .executePerfCommand _, q, r, q'  => r = ERROR_NOT_SUPPORTED ∧ q' = q
  | .executeAdminCommand _, q, r, q' => r = ERROR_NOT_SUPPORTED ∧ q' = q

/-- `validate_command`. -/
def validateCommand : Option CommandT → ℤ
  | none     => ERROR_INPUT
  | some cmd =>
    match cmd.cmdType with
    | .other _ => ERROR_INPUT
    | _        =>
      match cmd.stateNeeded with
      | .other _ => ERROR_INPUT
      | _        => ERROR_NONE

/-- `enqueue_command`. -/
def enqueueCommand (cmd : Option CommandT) : QueueProg ℤ := do
  let isInitComplete ← queueOp .isInitComplete
  if !isInitComplete then
    return ERROR_NO_INIT
  let ret := validateCommand cmd
  if ret ≠ ERROR_NONE then
    return ret
  match cmd with
  | none     => return ret
  | some cmd => queueOp (.enqueueLocked cmd)

/-- `processNextCommandInQueue`. -/
def processNextCommandInQueue : QueueProg ℤ := do
  let isInitComplete ← queueOp .isInitComplete
  if !isInitComplete then
    return ERROR_NO_INIT
  let next ← queueOp .dequeueLocked
  match next with
  | none             => return ERROR_EMPTY_QUEUE
  | some nextCommand =>
    let state ← queueOp .state
    if nextCommand.stateNeeded ≠ state ∧ nextCommand.stateNeeded ≠ .idle then
      return ERROR_STATE
    match nextCommand.cmdType with
    | .userCommand  => queueOp (.executeUserCommand nextCommand)
    | .perfCommand  => queueOp (.executePerfCommand nextCommand)
    | .adminCommand => queueOp (.executeAdminCommand nextCommand)
    | .other _      => return ERROR_INPUT

/-- `get_queue_status`. -/
def getQueueStatus : QueueProg ℤ := do
  let isInitComplete ← queueOp .isInitComplete
  if !isInitComplete then
    return ERROR_NO_INIT
  queueOp .statusLocked

/-- A call of one of the three functions. -/
inductive QueueCall where
  | enqueue (cmd : Option CommandT)
  | process
  | status

/-- Its program. -/
def QueueCall.body : QueueCall → QueueProg ℤ
  | .enqueue cmd => enqueueCommand cmd
  | .process     => processNextCommandInQueue
  | .status      => getQueueStatus

/-! ### The bounded list -/

/-- What the operations do to a list of at most `MAX_QUEUE_SIZE` commands. -/
def fifoExec : (op : QueueOp) → List CommandT → QueueAnswer op → List CommandT → Prop
  | .isInitComplete, Q, r, Q'        => r = true ∧ Q' = Q
  | .enqueueLocked cmd, Q, r, Q'     =>
    if Q.length < maxQueueSize then r = ERROR_NONE ∧ Q' = Q ++ [cmd]
    else r = ERROR_FULL_QUEUE ∧ Q' = Q
  | .dequeueLocked, Q, r, Q'         => r = Q.head? ∧ Q' = Q.tail
  | .statusLocked, Q, r, Q'          =>
    r = (if Q = [] then ERROR_EMPTY_QUEUE
      else if Q.length = maxQueueSize then ERROR_FULL_QUEUE else ERROR_NONE) ∧ Q' = Q
  | .state, Q, r, Q'                 => r = .idle ∧ Q' = Q
  | .executeUserCommand _, Q, _, Q'  => Q' = Q
  | .executePerfCommand _, Q, r, Q'  => r = ERROR_NOT_SUPPORTED ∧ Q' = Q
  | .executeAdminCommand _, Q, r, Q' => r = ERROR_NOT_SUPPORTED ∧ Q' = Q

/-- The ring with its flag. -/
def CommandQueue.ring (q : CommandQueue) : BoundedQueue maxQueueSize CommandT :=
  ⟨q.queue, q.enqueueIndex, q.dequeueIndex, q.isQueueEmpty⟩

/-- The queue has been initialised, its machine is idle and the commands in it are `Q`. -/
structure Represents (q : CommandQueue) (Q : List CommandT) : Prop where
  contains : q.ring.Contains Q
  initComplete : q.isInitComplete = true
  idle : q.state = .idle

variable {q q' : CommandQueue} {Q Q' : List CommandT} {cmd : CommandT}

lemma commandQueueInit_represents : Represents commandQueueInit [] :=
  ⟨BoundedQueue.contains_nil, rfl, rfl⟩

lemma Represents.isFull_iff (h : Represents q Q) :
    q.queueIsFullLocked = true ↔ Q.length = maxQueueSize := h.contains.isFull_iff

lemma Represents.isEmpty_iff (h : Represents q Q) :
    q.queueIsEmptyLocked = true ↔ Q = [] := h.contains.isEmpty

lemma Represents.eq_singleton (h : Represents q Q) (hempty : q.isQueueEmpty = false)
    (hnext : q.enqueueIndex = queueNextIndex q.dequeueIndex) : Q = [q.queue q.dequeueIndex] :=
  h.contains.eq_singleton hempty hnext

lemma Represents.enqueueLocked (h : Represents q Q) (cmd : CommandT) :
    ∃ Q', fifoExec (.enqueueLocked cmd) Q (q.enqueueLocked cmd).1 Q' ∧
      Represents (q.enqueueLocked cmd).2 Q' := by
  have hle := h.contains.length_le
  rw [CommandQueue.enqueueLocked]
  split_ifs with hfull
  · rw [h.isFull_iff] at hfull
    refine ⟨Q, ?_, h⟩
    rw [fifoExec, if_neg (by omega)]
    exact ⟨rfl, rfl⟩
  · rw [h.isFull_iff] at hfull
    have hroom : Q.length < maxQueueSize := by omega
    refine ⟨Q ++ [cmd], ?_, h.contains.enqueue hroom cmd, h.initComplete, h.idle⟩
    rw [fifoExec, if_pos hroom]
    exact ⟨rfl, rfl⟩

lemma Represents.dequeueLocked (h : Represents q Q) :
    q.dequeueLocked.1 = Q.head? ∧ Represents q.dequeueLocked.2 Q.tail := by
  rw [CommandQueue.dequeueLocked]
  split_ifs with hempty
  · rw [h.isEmpty_iff] at hempty
    subst hempty
    exact ⟨rfl, h⟩
  · rw [h.isEmpty_iff] at hempty
    obtain ⟨cmd, rest, rfl⟩ := List.exists_cons_of_ne_nil hempty
    exact ⟨congrArg some h.contains.head, h.contains.dequeue {}, h.initComplete, h.idle⟩

lemma Represents.statusLocked (h : Represents q Q) :
    q.statusLocked = if Q = [] then ERROR_EMPTY_QUEUE
      else if Q.length = maxQueueSize then ERROR_FULL_QUEUE else ERROR_NONE := by
  rw [CommandQueue.statusLocked]
  simp only [h.isEmpty_iff, h.isFull_iff]

/-- One operation: the list does the same. -/
lemma Represents.step (op : QueueOp) (r : QueueAnswer op) (h : Represents q Q)
    (hexec : queueExec op q r q') : ∃ Q', fifoExec op Q r Q' ∧ Represents q' Q' := by
  cases op with
  | isInitComplete =>
    obtain ⟨rfl, rfl⟩ := hexec
    exact ⟨Q, ⟨h.initComplete, rfl⟩, h⟩
  | enqueueLocked cmd =>
    obtain ⟨rfl, rfl⟩ := Prod.mk.inj hexec
    exact h.enqueueLocked cmd
  | dequeueLocked =>
    obtain ⟨rfl, rfl⟩ := Prod.mk.inj hexec
    exact ⟨Q.tail, ⟨h.dequeueLocked.1, rfl⟩, h.dequeueLocked.2⟩
  | statusLocked =>
    obtain ⟨rfl, rfl⟩ := hexec
    exact ⟨Q, ⟨h.statusLocked, rfl⟩, h⟩
  | state =>
    obtain ⟨rfl, rfl⟩ := hexec
    exact ⟨Q, ⟨h.idle, rfl⟩, h⟩
  | executeUserCommand cmd =>
    obtain rfl := hexec
    exact ⟨Q, rfl, h⟩
  | executePerfCommand cmd =>
    obtain ⟨hr, rfl⟩ := hexec
    exact ⟨Q, ⟨hr, rfl⟩, h⟩
  | executeAdminCommand cmd =>
    obtain ⟨hr, rfl⟩ := hexec
    exact ⟨Q, ⟨hr, rfl⟩, h⟩

/-- After any operations there is a list that the ring represents. -/
lemma Represents.eval {α : Type} {p : QueueProg α} {a : α} (h : Represents q Q)
    (hrun : p.Eval queueExec q a q') : ∃ Q', Represents q' Q' := by
  refine hrun.of_calls (I := fun q => ∃ Q, Represents q Q) ?_ ⟨Q, h⟩
  rintro op q₁ r q₂ - ⟨Q₁, h₁⟩ hexec
  obtain ⟨Q', -, hQ'⟩ := h₁.step op r hexec
  exact ⟨Q', hQ'⟩

/-! ### What a call returns -/

/-- The operations of a call that has returned, and what it returned. -/
inductive CallOutcome : QueueCall → List (Prog.Answered QueueOp QueueAnswer) → ℤ → Prop where
  | invalid {cmd : Option CommandT} (hinvalid : validateCommand cmd ≠ ERROR_NONE) :
      CallOutcome (.enqueue cmd) [⟨.isInitComplete, true⟩] ERROR_INPUT
  | enqueue {cmd : CommandT} {r : ℤ} (hvalid : validateCommand (some cmd) = ERROR_NONE) :
      CallOutcome (.enqueue (some cmd)) [⟨.isInitComplete, true⟩, ⟨.enqueueLocked cmd, r⟩] r
  | empty :
      CallOutcome .process [⟨.isInitComplete, true⟩, ⟨.dequeueLocked, none⟩] ERROR_EMPTY_QUEUE
  | wrongState {cmd : CommandT} {state : SmState} (hstate : cmd.stateNeeded ≠ state)
      (hidle : cmd.stateNeeded ≠ .idle) :
      CallOutcome .process
        [⟨.isInitComplete, true⟩, ⟨.dequeueLocked, some cmd⟩, ⟨.state, state⟩] ERROR_STATE
  | user {cmd : CommandT} {state : SmState} {r : ℤ} (htype : cmd.cmdType = .userCommand) :
      CallOutcome .process [⟨.isInitComplete, true⟩, ⟨.dequeueLocked, some cmd⟩, ⟨.state, state⟩,
        ⟨.executeUserCommand cmd, r⟩] r
  | perf {cmd : CommandT} {state : SmState} {r : ℤ} (htype : cmd.cmdType = .perfCommand) :
      CallOutcome .process [⟨.isInitComplete, true⟩, ⟨.dequeueLocked, some cmd⟩, ⟨.state, state⟩,
        ⟨.executePerfCommand cmd, r⟩] r
  | admin {cmd : CommandT} {state : SmState} {r : ℤ} (htype : cmd.cmdType = .adminCommand) :
      CallOutcome .process [⟨.isInitComplete, true⟩, ⟨.dequeueLocked, some cmd⟩, ⟨.state, state⟩,
        ⟨.executeAdminCommand cmd, r⟩] r
  | status {r : ℤ} :
      CallOutcome .status [⟨.isInitComplete, true⟩, ⟨.statusLocked, r⟩] r

/-- Only valid commands are put in the queue. -/
def queuePre : QueueOp → Prop
  | .enqueueLocked cmd => validateCommand (some cmd) = ERROR_NONE
  | _                  => True

/-- The queue has been initialised, and what is taken out of it is valid. -/
def queuePost : (op : QueueOp) → QueueAnswer op → Prop
  | .isInitComplete, r => r = true
  | .dequeueLocked, r  => ∀ cmd, r = some cmd → validateCommand (some cmd) = ERROR_NONE
  | _, _               => True

lemma validateCommand_cases (cmd : Option CommandT) :
    validateCommand cmd = ERROR_NONE ∨ validateCommand cmd = ERROR_INPUT := by
  rcases cmd with _ | ⟨stateNeeded, cmdType, _, _⟩
  · exact Or.inr rfl
  · cases cmdType <;> cases stateNeeded <;> simp [validateCommand]

/-- A command is valid if both its enumerations hold one of their members. -/
lemma validateCommand_eq_none_iff (cmd : Option CommandT) :
    validateCommand cmd = ERROR_NONE ↔ ∃ cmd', cmd = some cmd' ∧
      cmd'.cmdType ∈ [.adminCommand, .userCommand, .perfCommand] ∧
      cmd'.stateNeeded ∈ [.idle, .userMode, .perfMode, .error] := by
  rcases cmd with _ | ⟨stateNeeded, cmdType, _, _⟩
  · simp [validateCommand, ERROR_INPUT, ERROR_NONE]
  · cases cmdType <;> cases stateNeeded <;> simp [validateCommand, ERROR_INPUT, ERROR_NONE]

lemma cmdType_ne_other (hvalid : validateCommand (some cmd) = ERROR_NONE) (value : ℕ) :
    cmd.cmdType ≠ .other value := by
  obtain ⟨cmd', heq, htype, -⟩ := (validateCommand_eq_none_iff _).mp hvalid
  obtain rfl := Option.some_inj.mp heq
  intro hother
  rw [hother] at htype
  simp at htype

lemma enqueueCommand_outcome (cmd : Option CommandT) :
    (enqueueCommand cmd).Obeys (recording queuePre queuePost) []
      (CallOutcome (.enqueue cmd)) := by
  refine ⟨trivial, fun (isInitComplete : Bool) hinit => ?_⟩
  obtain rfl : isInitComplete = true := hinit
  simp only [Prog.bind, Bool.not_true, Bool.false_eq_true, if_false]
  split_ifs with hvalid
  · rw [(validateCommand_cases cmd).resolve_left hvalid]
    exact .invalid hvalid
  · rw [not_not] at hvalid
    cases cmd with
    | none => cases hvalid
    | some cmd => exact ⟨hvalid, fun r _ => .enqueue hvalid⟩

lemma processNextCommandInQueue_outcome :
    processNextCommandInQueue.Obeys (recording queuePre queuePost) [] (CallOutcome .process) := by
  refine ⟨trivial, fun (isInitComplete : Bool) hinit => ?_⟩
  obtain rfl : isInitComplete = true := hinit
  refine ⟨trivial, fun (next : Option CommandT) hnext => ?_⟩
  cases next with
  | none => exact .empty
  | some cmd =>
    have hvalid := hnext cmd rfl
    refine ⟨trivial, fun (state : SmState) _ => ?_⟩
    simp only [Prog.bind]
    split_ifs with hstate
    · -- the command is out of the queue, but is not executed
      exact .wrongState hstate.1 hstate.2
    · cases htype : cmd.cmdType with
      | userCommand => exact ⟨trivial, fun r _ => .user htype⟩
      | perfCommand => exact ⟨trivial, fun r _ => .perf htype⟩
      | adminCommand => exact ⟨trivial, fun r _ => .admin htype⟩
      | other value => exact absurd htype (cmdType_ne_other hvalid value)

lemma getQueueStatus_outcome :
    getQueueStatus.Obeys (recording queuePre queuePost) [] (CallOutcome .status) := by
  refine ⟨trivial, fun (isInitComplete : Bool) hinit => ?_⟩
  obtain rfl : isInitComplete = true := hinit
  exact ⟨trivial, fun r _ => .status⟩

lemma QueueCall.body_outcome (call : QueueCall) :
    call.body.Obeys (recording queuePre queuePost) [] (CallOutcome call) := by
  cases call with
  | enqueue cmd => exact enqueueCommand_outcome cmd
  | process => exact processNextCommandInQueue_outcome
  | status => exact getQueueStatus_outcome

/-- The commands in the queue stay valid. -/
lemma fifoExec_valid {op : QueueOp} {r : QueueAnswer op} (hexec : fifoExec op Q r Q')
    (hpre : queuePre op) (hQ : ∀ cmd ∈ Q, validateCommand (some cmd) = ERROR_NONE) :
    queuePost op r ∧ ∀ cmd ∈ Q', validateCommand (some cmd) = ERROR_NONE := by
  cases op with
  | isInitComplete =>
    obtain ⟨rfl, rfl⟩ := hexec
    exact ⟨rfl, hQ⟩
  | enqueueLocked cmd =>
    refine ⟨trivial, ?_⟩
    rw [fifoExec] at hexec
    split_ifs at hexec
    · obtain ⟨-, rfl⟩ := hexec
      intro cmd' hmem
      rcases List.mem_append.mp hmem with hmem | hmem
      · exact hQ cmd' hmem
      · rw [List.mem_singleton.mp hmem]
        exact hpre
    · obtain ⟨-, rfl⟩ := hexec
      exact hQ
  | dequeueLocked =>
    obtain ⟨rfl, rfl⟩ := hexec
    exact ⟨fun cmd hcmd => hQ cmd (List.mem_of_head? hcmd),
      fun cmd hmem => hQ cmd (List.mem_of_mem_tail hmem)⟩
  | statusLocked | state | executePerfCommand _ | executeAdminCommand _ =>
    obtain ⟨-, rfl⟩ := hexec
    exact ⟨trivial, hQ⟩
  | executeUserCommand cmd =>
    obtain rfl := hexec
    exact ⟨trivial, hQ⟩

/-! ### The refinement -/

/-- An operation that leaves the queue as it is: all but those that put a command in or take one
out. -/
def Unchanging : Prog.Answered QueueOp QueueAnswer → Prop
  | ⟨.enqueueLocked _, r⟩ => r ≠ ERROR_NONE
  | ⟨.dequeueLocked, r⟩   => r = none
  | _                     => True

lemma Unchanging.eq {e : Prog.Answered QueueOp QueueAnswer} (he : Unchanging e)
    (hexec : queueExec e.1 q e.2 q') : q' = q := by
  obtain ⟨op, r⟩ := e
  cases op with
  | enqueueLocked cmd =>
    simp only [queueExec, CommandQueue.enqueueLocked] at hexec
    -- a full queue is not written to
    split_ifs at hexec with hfull
    · cases hexec
      rfl
    · cases hexec
      exact absurd rfl he
  | dequeueLocked =>
    simp only [queueExec, CommandQueue.dequeueLocked] at hexec
    split_ifs at hexec with hempty hlast
    · cases hexec
      rfl
    · cases hexec
      cases he
    · cases hexec
      cases he
  | executeUserCommand cmd => exact hexec
  | isInitComplete | statusLocked | state | executePerfCommand _ | executeAdminCommand _ =>
    exact hexec.2

variable {Tid : Type} [DecidableEq Tid] {calls : Tid → QueueCall}
  {tr : List (Event QueueOp QueueAnswer Tid)} {c : Config QueueOp QueueAnswer ℤ CommandQueue Tid}

/-- After any interleaving of calls on an initialised queue there is a list of at most
`MAX_QUEUE_SIZE` commands that the ring represents, and the same interleaving is one on lists.
Every call that has returned made the operations it should, and returned what it should for their
answers; those that put nothing in the queue and take nothing out leave it as it was. -/
theorem commandQueue_refines_fifo
    (run : Run queueExec anyStep ⟨commandQueueInit, fun t => (calls t).body⟩ tr c) :
    (∃ Q, Q.length ≤ maxQueueSize ∧ Represents c.state Q ∧
      Run fifoExec anyStep ⟨[], fun t => (calls t).body⟩ tr ⟨Q, c.pool⟩) ∧
    (∀ t r, c.pool t = .ret r → CallOutcome (calls t) (eventsOf t tr) r) ∧
    ∀ e, Unchanging e → ∀ q q', queueExec e.1 q e.2 q' → q' = q := by
  refine ⟨?_, ?_, fun e he q q' hexec => he.eq hexec⟩
  · -- each operation does to a list what it does to the ring
    obtain ⟨Q, hQ, run'⟩ := run.simulate Represents commandQueueInit_represents
      fun op q r q' Q hQ hexec => hQ.step op r hexec
    exact ⟨Q, hQ.contains.length_le, hQ, run'⟩
  · -- what is in the queue is valid, so a command that is taken out has a known type
    intro t r ht
    refine run.outcome queuePre queuePost
      (fun q => ∃ Q, Represents q Q ∧ ∀ cmd ∈ Q, validateCommand (some cmd) = ERROR_NONE)
      (fun t => CallOutcome (calls t)) ⟨[], commandQueueInit_represents, by simp⟩ ?_
      (fun t => (calls t).body_outcome) ht
    rintro op q r q' ⟨Q, hQ, hvalid⟩ hpre hexec
    obtain ⟨Q', hfifo, hQ'⟩ := hQ.step op r hexec
    obtain ⟨hpost, hvalid'⟩ := fifoExec_valid hfifo hpre hvalid
    exact ⟨hpost, Q', hQ', hvalid'⟩

/-- The answer to each operation; what `execute_user_command` returns is chosen. -/
def queueRespond : (op : QueueOp) → CommandQueue → ℤ → Option (QueueAnswer op × CommandQueue)
  | .isInitComplete, q, _        => some (q.isInitComplete, q)
  | .enqueueLocked cmd, q, _     => some (q.enqueueLocked cmd)
  | .dequeueLocked, q, _         => some q.dequeueLocked
  | .statusLocked, q, _          => some (q.statusLocked, q)
  | .state, q, _                 => some (q.state, q)
  | .executeUserCommand _, q, r  => some (r, q)
  | .executePerfCommand _, q, _  => some (ERROR_NOT_SUPPORTED, q)
  | .executeAdminCommand _, q, _ => some (ERROR_NOT_SUPPORTED, q)

lemma queueExec_of_respond (op : QueueOp) (q : CommandQueue) (ch : ℤ) (r : QueueAnswer op)
    (q' : CommandQueue) (hr : queueRespond op q ch = some (r, q')) : queueExec op q r q' := by
  cases op with
  | enqueueLocked cmd => exact (Option.some.inj hr).symm
  | dequeueLocked => exact (Option.some.inj hr).symm
  | executeUserCommand cmd =>
    cases hr
    rfl
  | isInitComplete | statusLocked | state | executePerfCommand _ | executeAdminCommand _ =>
    cases hr
    exact ⟨rfl, rfl⟩

/-- Two user commands and one for performance are enqueued, and two threads process. -/
def threeCommands : Fin 5 → QueueCall
  | 0 => .enqueue (some { cmdType := .userCommand })
  | 1 => .enqueue (some { cmdType := .perfCommand })
  | 2 => .enqueue (some { cmdType := .userCommand, userCmdInfo := { sector := 1 } })
  | _ => .process

/-- The first two commands that were put in the queue have been executed, each in the thread that
took it out, and the third one is in it. -/
theorem commandQueue_refines_fifo_threeCommands : ∃ tr c,
    Run queueExec anyStep ⟨commandQueueInit, fun t => (threeCommands t).body⟩ tr c ∧
    Represents c.state [{ cmdType := .userCommand, userCmdInfo := { sector := 1 } }] ∧
    Run fifoExec anyStep ⟨[], fun t => (threeCommands t).body⟩ tr
      ⟨[{ cmdType := .userCommand, userCmdInfo := { sector := 1 } }], c.pool⟩ ∧
    CallOutcome .process (eventsOf 3 tr) 7 ∧
    CallOutcome .process (eventsOf 4 tr) ERROR_NOT_SUPPORTED := by
  obtain ⟨tr, c, run, htest⟩ := exists_run_of_play (C := anyStep) (fun _ _ _ => true)
    ⟨commandQueueInit, fun t => (threeCommands t).body⟩
    [(1, 0), (0, 0), (0, 0), (4, 0), (1, 0), (3, 0), (3, 0), (2, 0), (4, 0), (4, 0), (4, 0), (2, 0),
      (3, 0), (3, 7)]
    (fun x => (x.2.pool 3).result = some 7 ∧ (x.2.pool 4).result = some ERROR_NOT_SUPPORTED ∧
      x.2.state.isQueueEmpty = false ∧
      x.2.state.enqueueIndex = queueNextIndex x.2.state.dequeueIndex ∧
      x.2.state.queue x.2.state.dequeueIndex =
        { cmdType := .userCommand, userCmdInfo := { sector := 1 } })
    queueExec_of_respond (fun _ _ _ _ => trivial) rfl
  obtain ⟨hthird, hfourth, hempty, hnext, hslot⟩ := of_decide_eq_true htest
  obtain ⟨⟨Q, -, hQ, run'⟩, houtcome, -⟩ := commandQueue_refines_fifo run
  obtain rfl := hQ.eq_singleton hempty hnext
  rw [hslot] at hQ run'
  exact ⟨tr, c, run, hQ, run', houtcome 3 7 (Prog.eq_ret_of_result hthird),
    houtcome 4 _ (Prog.eq_ret_of_result hfourth)⟩

end Aesd
