import Aesd.Server.Shutdown
import Aesd.Lib.LinkedList

/-!
# The list of sessions in memory

`listenLoop` keeps its nodes in a singly linked list of `queue.h`: each is a block from `malloc`
with the link to the next in it, the threads have pointers to their own, and `free` may give a
block's address to a later node. `SlistServer` executes the macros on such a memory; a use of a
pointer that does not lead to a live node is a fault.

However the threads and connections turn out, nothing of the sort happens, and the list in memory is
at every moment the one that `Server` has (`slist_refines`); and each run of `Server` is one of the
program in memory (`slist_complete`). As there, `malloc` and `pthread_create` are taken to succeed.
-/

namespace Aesd

open LinkedList

/-! ### The macros -/

/-- `slist_data_t`; `entries` is the link. -/
structure SlistData where
  thread : ℕ := 0
  isThreadComplete : Bool := false
  clientfd : ℤ := 0
  entries : Option ℕ := none

/-- The live nodes. -/
abbrev NodeHeap := ℕ → Option SlistData

/-- `SLIST_NEXT`; `none` if the pointer leads to no live node. -/
def slistNext (heap : NodeHeap) (elm : Option ℕ) : Option (Option ℕ) := do
  let p ← elm
  let node ← heap p
  return node.entries

/-- `SLIST_NEXT(elm) = next`. -/
def setSlistNext (heap : NodeHeap) (elm next : Option ℕ) : Option NodeHeap := do
  let p ← elm
  let node ← heap p
  return Function.update heap p (some { node with entries := next })

/-- `SLIST_INSERT_HEAD`: the memory and the first element behind it. -/
def slistInsertHead (heap : NodeHeap) (head elm : Option ℕ) : Option (NodeHeap × Option ℕ) := do
  let heap ← setSlistNext heap elm head
  return (heap, elm)

/-- `SLIST_REMOVE_AFTER`. -/
def slistRemoveAfter (heap : NodeHeap) (elm : Option ℕ) : Option NodeHeap := do
  let next ← slistNext heap elm
  let afterNext ← slistNext heap next
  setSlistNext heap elm afterNext

/-- `while (SLIST_NEXT(curelm) != elm) curelm = SLIST_NEXT(curelm);` for so many tests of its
condition. -/
def slistFind (heap : NodeHeap) (elm : Option ℕ) : ℕ → Option ℕ → Option (Option ℕ)
  | 0, _              => none
  | tests + 1, curelm => do
    let next ← slistNext heap curelm
    if next = elm then
      return curelm
    else
      slistFind heap elm tests next

/-- `SLIST_REMOVE`, on a list of at most `count` nodes: its loop tests the link of each node at most
once, or does not end. -/
def slistRemove (count : ℕ) (heap : NodeHeap) (head elm : Option ℕ) :
    Option (NodeHeap × Option ℕ) :=
  if head = elm then do
    -- SLIST_REMOVE_HEAD
    let head ← slistNext heap head
    return (heap, head)
  else do
    let curelm ← slistFind heap elm count head
    let heap ← slistRemoveAfter heap curelm
    return (heap, head)

/-! ### The server -/

/-- Where a thread is: not yet past the first line of `repsondingThread`, or at a later point. -/
inductive RespondingState where
  | created
  | entered (thread : ThreadState)

/-- A thread with its argument, its `clientFD` and whether it has been joined. -/
structure RespondingThread where
  arg : ℕ := 0
  clientFD : ℤ := -1
  state : RespondingState := .created
  joined : Bool := false

/-- The thread has not come to its end. -/
def RespondingThread.running (t : RespondingThread) : Bool :=
  match t.state with
  | .created        => true
  | .entered thread => thread.running

/-- Where the listener is; in a sweep with its `dataptr`. -/
inductive SlistListener where
  | accepting
  | sweeping (dataptr : Option ℕ)
  | ending (dataptr : Option ℕ)

/-- The server with its memory. Threads are numbered as `pthread_create` makes them. -/
structure SlistServer where
  listener : SlistListener := .accepting
  head : Option ℕ := none
  heap : NodeHeap := fun _ => none
  started : ℕ := 0
  thread : ℕ → RespondingThread := fun _ => {}
  fds : ℤ → Option ℕ := fun _ => none
  endProgram : Bool := false

/-- What may happen next: as for `Server`, with the address that `malloc` returns for a new node,
and the first line of a thread. -/
inductive SlistEvent where
  | accept (clientfd : ℤ) (address : ℕ)
  | acceptFails (eintr : Bool) (address : ℕ)
  | visit
  | endOfSweep
  | signal
  | enter (c : ℕ)
  | input (c : ℕ) (input : SessionInput)
  | endLoop (c : ℕ)
  | close (c : ℕ)
  | complete (c : ℕ)

namespace SlistServer

/-- A change of one thread. -/
def setThread (s : SlistServer) (c : ℕ) (t : RespondingThread) : SlistServer :=
  { s with thread := Function.update s.thread c t }

/-- `malloc` of a node, `memset`, the insertion, `pthread_create`, and the start of the sweep. -/
def insertNode (s : SlistServer) (clientfd : ℤ) (address : ℕ) : Option SlistServer := do
  let heap := Function.update s.heap address (some { clientfd := clientfd })
  let (heap, head) ← slistInsertHead heap s.head (some address)
  let node ← heap address
  return { s with
    heap := Function.update heap address (some { node with thread := s.started })
    head := head
    started := s.started + 1
    thread := Function.update s.thread s.started { arg := address }
    listener := .sweeping head }

/-- `SLIST_REMOVE`, `pthread_join` and `free` of the node at `p`. Outside, `none` if the thread to
join has not ended; inside, for a fault. A thread can be joined once. -/
def removeNode (s : SlistServer) (p : ℕ) (listener : SlistListener) : Option (Option SlistServer) :=
  match slistRemove s.started s.heap s.head (some p) with
  | none              => some none
  | some (heap, head) =>
    match heap p with
    | none      => some none
    | some node =>
      -- a thread is joined once, and `pthread_join` waits for its end
      if (s.thread node.thread).joined then some none
      else if (s.thread node.thread).running then none
      else some (some { s.setThread node.thread
          { s.thread node.thread with joined := true } with
        heap := Function.update heap p none
        head := head
        listener := listener })

/-- What thread `c` may get from the call it waits for. -/
def admits (s : SlistServer) (c : ℕ) : SessionInput → Bool
  | .malloc _   => !s.endProgram
  | .recv _     => (s.thread c).clientFD ≠ -1
  | .recvClosed => (s.thread c).clientFD ≠ -1
  | _           => true

/-- One event. Outside, `none` if it cannot happen; inside, for a fault. -/
def step (s : SlistServer) : SlistEvent → Option (Option SlistServer)
  | .accept clientfd address =>
    match s.listener with
    | .accepting =>
      if 0 ≤ clientfd ∧ s.fds clientfd = none ∧ (s.heap address).isNone then
        some ((s.insertNode clientfd address).map fun s' =>
          { s' with fds := Function.update s.fds clientfd (some s.started) })
      else none
    | _          => none
  | .acceptFails eintr address =>
    match s.listener with
    | .accepting =>
      -- the listener leaves its loop
      if eintr then some (some { s with listener := .ending s.head, endProgram := true })
      else if (s.heap address).isNone then some (s.insertNode (-1) address)
      else none
    | _          => none
  | .visit =>
    match s.listener with
    | .sweeping (some p) =>
      match s.heap p with
      | none      => some none
      | some node =>
        -- `SLIST_FOREACH_SAFE` has read the link before the node is removed
        if node.isThreadComplete then s.removeNode p (.sweeping node.entries)
        else some (some { s with listener := .sweeping node.entries })
    | .ending (some p)   =>
      match s.heap p with
      | none      => some none
      | some node => s.removeNode p (.ending node.entries)
    | _                  => none
  | .endOfSweep =>
    match s.listener with
    | .sweeping none =>
      some (some { s with listener := if s.endProgram then .ending s.head else .accepting })
    | _              => none
  | .signal => some (some { s with endProgram := true })
  | .enter c =>
    match (s.thread c).state with
    | .created =>
      if c < s.started then
        -- `clientFD` is read from the node, which must still be there
        some ((s.heap (s.thread c).arg).map fun node =>
          s.setThread c { s.thread c with
            clientFD := node.clientfd, state := .entered (.serving .starting) })
      else none
    | _        => none
  | .input c input =>
    match (s.thread c).state with
    | .entered (.serving session) =>
      if s.admits c input then
        (ThreadState.receive session input).map fun thread =>
          some (s.setThread c { s.thread c with state := .entered thread })
      else none
    | _                           => none
  | .endLoop c =>
    match (s.thread c).state with
    | .entered (.serving .starting) =>
      if s.endProgram then
        some (some (s.setThread c { s.thread c with state := .entered .leaving }))
      else none
    | _                             => none
  | .close c =>
    match (s.thread c).state with
    | .entered .leaving =>
      some (some { s.setThread c { s.thread c with state := .entered .closed } with
        fds := Function.update s.fds (s.thread c).clientFD none })
    | _                 => none
  | .complete c =>
    match (s.thread c).state with
    | .entered .closed =>
      -- the flag is in the node as well
      some ((s.heap (s.thread c).arg).map fun node =>
        { s.setThread c { s.thread c with state := .entered .returned } with
          heap := Function.update s.heap (s.thread c).arg
            (some { node with isThreadComplete := true }) })
    | _                => none

/-- Some events, if they can happen; nothing happens after a fault. -/
def steps (s : SlistServer) (events : List SlistEvent) : Option (Option SlistServer) :=
  events.foldlM (fun s? e => s?.elim (some none) fun s => s.step e) (some s)

/-- The server after some events. -/
def run (events : List SlistEvent) : Option (Option SlistServer) := steps {} events

end SlistServer

/-- The event of `Server`; the first line of a thread is none. -/
def SlistEvent.toServer : SlistEvent → Option ServerEvent
  | .accept clientfd _   => some (.accept clientfd)
  | .acceptFails eintr _ => some (.acceptFails eintr)
  | .visit               => some .visit
  | .endOfSweep          => some .endOfSweep
  | .signal              => some .signal
  | .enter _             => none
  | .input c i           => some (.input c i)
  | .endLoop c           => some (.endLoop c)
  | .close c             => some (.close c)
  | .complete c          => some (.complete c)

/-! ### What the macros do to a list -/

/-- The links of the live nodes. -/
def links (heap : NodeHeap) : Links ℕ := fun p => (heap p).map (·.entries)

/-- The other fields of a node. -/
def SlistData.fields (node : SlistData) : ℕ × Bool × ℤ :=
  (node.thread, node.isThreadComplete, node.clientfd)

variable {heap heap' : NodeHeap} {p q : Option ℕ} {x y : ℕ} {xs ys : List ℕ}

lemma links_update (heap : NodeHeap) (x : ℕ) (node : Option SlistData) :
    links (Function.update heap x node) =
      Function.update (links heap) x (node.map (·.entries)) := by
  funext y
  by_cases hy : y = x
  · subst hy
    simp [links]
  · simp [links, hy]

lemma slistNext_some (heap : NodeHeap) (x : ℕ) : slistNext heap (some x) = links heap x := by
  cases h : heap x with
  | none => simp [slistNext, links, h]
  | some node => simp [slistNext, links, h]

lemma slistFind_eq (heap : NodeHeap) (x tests : ℕ) (p : Option ℕ) :
    slistFind heap (some x) tests p = (findPrev (links heap) x tests p).map some := by
  induction tests generalizing p with
  | zero => rfl
  | succ tests ih =>
    cases p with
    | none => rfl
    | some y =>
      rw [slistFind, slistNext_some, findPrev]
      cases links heap y with
      | none => rfl
      | some next =>
        by_cases hnext : next = some x
        · simp [hnext]
        · simp [hnext, ih]

/-- The other fields stay as they are. -/
lemma setSlistNext_eq {r : Option ℕ} (h : links heap x = some r) (next : Option ℕ) :
    ∃ heap', setSlistNext heap (some x) next = some heap' ∧
      links heap' = Function.update (links heap) x (some next) ∧
      (∀ y, (heap' y).map SlistData.fields = (heap y).map SlistData.fields) ∧
      ∀ y, y ≠ x → heap' y = heap y := by
  obtain ⟨node, hnode, -⟩ := Option.map_eq_some_iff.mp h
  refine ⟨_, by rw [setSlistNext]; simp [hnode]; rfl, ?_, fun y => ?_, fun y hy => ?_⟩
  · rw [links_update]
    rfl
  · by_cases hy : y = x
    · subst hy
      rw [Function.update_self, hnode]
      rfl
    · rw [Function.update_of_ne hy]
  · exact Function.update_of_ne hy ..

/-- `SLIST_REMOVE` of an element of the list unlinks it, writes to no node behind it, and uses no
other pointers than those of the list. -/
lemma slistRemove_eq {count : ℕ} (h : Chain (links heap) p (xs ++ x :: ys))
    (hnodup : (xs ++ x :: ys).Nodup) (hcount : xs.length ≤ count) :
    ∃ heap' p', slistRemove count heap p (some x) = some (heap', p') ∧
      Chain (links heap') p' (xs ++ ys) ∧
      (∀ y, (heap' y).map SlistData.fields = (heap y).map SlistData.fields) ∧
      ∀ y, y ∉ xs → heap' y = heap y := by
  rcases List.eq_nil_or_concat xs with rfl | ⟨xs, b, rfl⟩
  · -- it is the first one, and `SLIST_REMOVE_HEAD` is used
    obtain ⟨rfl, r, hr, hys⟩ := h
    refine ⟨heap, r, ?_, hys, fun _ => rfl, fun _ _ => rfl⟩
    simp [slistRemove, slistNext_some, hr]
  · rw [List.concat_eq_append] at *
    obtain ⟨s, hxs, rfl, r, hr, hys⟩ := path_append.mp h
    have hx : x ∉ xs ++ [b] := by
      intro hx
      exact (List.nodup_append.mp hnodup).2.2 x hx x List.mem_cons_self rfl
    have hne : p ≠ some x := by
      rintro rfl
      cases xs with
      | nil => exact hx (by simp [Option.some.inj hxs.1])
      | cons c xs => exact hx (by simp [Option.some.inj hxs.1])
    have hfind : slistFind heap (some x) count p = some (some b) := by
      rw [slistFind_eq, findPrev_eq hxs hx (by simpa using hcount)]
      rfl
    have hb : links heap b = some (some x) := by
      obtain ⟨t, -, rfl, u, hu, rfl⟩ := path_append.mp hxs
      exact hu
    obtain ⟨heap', hset, hlinks, hfields, hother⟩ := setSlistNext_eq hb r
    refine ⟨heap', p, ?_, ?_, hfields, fun y hy => hother y ?_⟩
    · simp [slistRemove, hne, hfind, slistRemoveAfter, slistNext_some, hb, hr, hset]
    · rw [hlinks, List.append_assoc, List.singleton_append]
      rw [List.append_assoc, List.singleton_append] at h hnodup
      exact h.unlink hnodup hr
    · rintro rfl
      exact hy (by simp)

/-! ### The list of the server -/

/-- A thread is where its node of `Server` says. -/
def RespondingThread.Matches (t : RespondingThread) (n : ClientNode) : Prop :=
  match t.state with
  | .created        => n.thread = .serving .starting
  | .entered thread => n.thread = thread ∧ t.clientFD = n.clientfd

lemma RespondingThread.Matches.running {t : RespondingThread} {n : ClientNode} (h : t.Matches n) :
    t.running = n.thread.running := by
  rw [RespondingThread.running]
  rw [RespondingThread.Matches] at h
  cases ht : t.state with
  | created =>
    rw [ht] at h
    rw [h]
    rfl
  | entered thread =>
    rw [ht] at h
    rw [h.1]

namespace SlistServer

/-- Where the node of a thread is. -/
def address (s : SlistServer) (c : ℕ) : ℕ := (s.thread c).arg

/-- From `p` on the nodes are those that are left of the list. -/
def Rest (s : SlistServer) (head : List ℕ) (p : Option ℕ) (left : List ℕ) : Prop :=
  (∃ before, head = before ++ left) ∧ Chain (links s.heap) p (left.map s.address)

/-- The listener of `Server` is at the same point; in a sweep `dataptr` starts the rest of the
list. -/
def ListenerMatches (s : SlistServer) (head : List ℕ) : SlistListener → ListenerState → Prop
  | .accepting, .accepting      => True
  | .sweeping p, .sweeping left => s.Rest head p left
  | .ending p, .ending left     => s.Rest head p left
  | _, _                        => False

/-- The server in memory is the given one of `Server`: the list from `head` on has its nodes, in
this order, and no other node is live. -/
structure Represents (s : SlistServer) (a : Server) : Prop where
  started : s.started = a.started
  fds : s.fds = a.fds
  endProgram : s.endProgram = a.endProgram
  list : Chain (links s.heap) s.head (a.head.map s.address)
  distinct : (a.head.map s.address).Nodup
  live : ∀ x, (s.heap x).isSome = true → x ∈ a.head.map s.address
  nodes : ∀ c ∈ a.head, (s.heap (s.address c)).map SlistData.fields =
    some (c, (a.node c).isThreadComplete, (a.node c).clientfd)
  threads : ∀ c < a.started, (s.thread c).Matches (a.node c)
  unused : ∀ c, a.started ≤ c → s.thread c = {}
  joined : ∀ c < a.started, (s.thread c).joined = false ↔ (a.node c).joined = 0
  listener : s.ListenerMatches a.head s.listener a.listener

lemma represents_init : Represents {} {} := by
  refine ⟨rfl, rfl, rfl, rfl, List.nodup_nil, by simp, by simp, by simp, by simp, by simp, trivial⟩

variable {s s' : SlistServer} {a a' : Server} {c : ℕ}

/-- The node of a thread that has not ended is live. -/
lemma Represents.exists_node (h : s.Represents a) (hc : c ∈ a.head) :
    ∃ node, s.heap (s.address c) = some node ∧ node.thread = c ∧
      node.isThreadComplete = (a.node c).isThreadComplete ∧
      node.clientfd = (a.node c).clientfd := by
  obtain ⟨node, hnode, hfields⟩ := Option.map_eq_some_iff.mp (h.nodes c hc)
  simp only [SlistData.fields, Prod.mk.injEq] at hfields
  exact ⟨node, hnode, hfields⟩

/-- What `listenLoop` has done when it has started a thread. -/
lemma insertNode_spec (s : SlistServer) (clientfd : ℤ) (x : ℕ) :
    ∃ s', s.insertNode clientfd x = some s' ∧
      s'.heap = Function.update s.heap x (some ⟨s.started, false, clientfd, s.head⟩) ∧
      s'.head = some x ∧ s'.started = s.started + 1 ∧
      s'.thread = Function.update s.thread s.started { arg := x } ∧
      s'.fds = s.fds ∧ s'.endProgram = s.endProgram ∧ s'.listener = .sweeping (some x) := by
  simp [SlistServer.insertNode, slistInsertHead, setSlistNext]

/-- A node for a new connection; the descriptor is entered behind it. -/
lemma Represents.insertNode (h : s.Represents a) (ha : a.Sound) (clientfd : ℤ) {x : ℕ}
    (hx : s.heap x = none) :
    ∃ s', s.insertNode clientfd x = some s' ∧ s'.fds = s.fds ∧
      ∀ fds, Represents { s' with fds := fds } { a.insertNode clientfd with fds := fds } := by
  obtain ⟨s', heq, hheap, hhead, hstarted, hthread, hfds, hend, hlistener⟩ :=
    insertNode_spec s clientfd x
  refine ⟨s', heq, hfds, fun fds => ?_⟩
  rw [h.started] at hstarted hthread hheap
  have hthread_self : s'.thread a.started = { arg := x } := by
    rw [hthread, Function.update_self]
  have hthread_ne : ∀ c, c ≠ a.started → s'.thread c = s.thread c := by
    intro c hc
    rw [hthread, Function.update_of_ne hc]
  have hheap_ne : ∀ y, y ≠ x → s'.heap y = s.heap y := by
    intro y hy
    rw [hheap, Function.update_of_ne hy]
  have haddress : ∀ c ∈ a.head, s'.address c = s.address c := by
    intro c hc
    rw [address, hthread_ne c (ha.mem_lt c hc).ne, address]
  have hmap : (a.started :: a.head).map s'.address = x :: a.head.map s.address := by
    rw [List.map_cons, List.map_congr_left haddress, address, hthread_self]
  have hfresh : x ∉ a.head.map s.address := by
    intro hmem
    obtain ⟨r, hr⟩ := h.list.exists_link hmem
    simp [links, hx] at hr
  have hlist : Chain (links s'.heap) s'.head ((a.started :: a.head).map s'.address) := by
    rw [hmap, hheap, hhead, links_update]
    exact h.list.push hfresh
  refine ⟨hstarted, rfl, hend.trans h.endProgram, hlist, ?distinct, ?live, ?nodes, ?threads,
    ?unused, ?joined, ?listener⟩
  case distinct =>
    show ((a.started :: a.head).map s'.address).Nodup
    rw [hmap]
    exact List.nodup_cons.mpr ⟨hfresh, h.distinct⟩
  case live =>
    intro y hy
    show y ∈ (a.started :: a.head).map s'.address
    rw [hmap]
    by_cases hyx : y = x
    · exact hyx ▸ List.mem_cons_self
    · exact List.mem_cons_of_mem _ (h.live y (by rwa [← hheap_ne y hyx]))
  case nodes =>
    intro c hc
    show (s'.heap (s'.address c)).map SlistData.fields = some (c,
      ((a.insertNode clientfd).node c).isThreadComplete, ((a.insertNode clientfd).node c).clientfd)
    rcases List.mem_cons.mp hc with rfl | hc
    · -- the node was filled before the thread was created, and names it
      rw [Server.node_insertNode_self, address, hthread_self, hheap, Function.update_self]
      rfl
    · have hne : s.address c ≠ x := fun hcx => hfresh (hcx ▸ List.mem_map_of_mem hc)
      rw [Server.node_insertNode_of_ne _ (ha.mem_lt c hc).ne, haddress c hc, hheap_ne _ hne]
      exact h.nodes c hc
  case threads =>
    intro c hlt
    show (s'.thread c).Matches ((a.insertNode clientfd).node c)
    by_cases hc : c = a.started
    · subst hc
      rw [hthread_self, Server.node_insertNode_self]
      rfl
    · rw [hthread_ne c hc, Server.node_insertNode_of_ne _ hc]
      exact h.threads c (lt_of_le_of_ne (Nat.lt_succ_iff.mp hlt) hc)
  case unused =>
    intro c hle
    replace hle : a.started + 1 ≤ c := hle
    show s'.thread c = {}
    rw [hthread_ne c (by omega)]
    exact h.unused c (by omega)
  case joined =>
    intro c hlt
    show (s'.thread c).joined = false ↔ ((a.insertNode clientfd).node c).joined = 0
    by_cases hc : c = a.started
    · subst hc
      rw [hthread_self, Server.node_insertNode_self]
      simp
    · rw [hthread_ne c hc, Server.node_insertNode_of_ne _ hc]
      exact h.joined c (lt_of_le_of_ne (Nat.lt_succ_iff.mp hlt) hc)
  case listener =>
    show ListenerMatches _ (a.started :: a.head) s'.listener (.sweeping (a.started :: a.head))
    rw [hlistener]
    exact ⟨⟨[], rfl⟩, by rw [← hhead]; exact hlist⟩

/-- What `SLIST_REMOVE` of a node of the list does: the node itself is as it was, and its thread has
not been joined. -/
lemma Represents.slistRemove (h : s.Represents a) (ha : a.Sound) {before left : List ℕ}
    (hhead : a.head = before ++ c :: left) :
    (∃ heap' head', slistRemove s.started s.heap s.head (some (s.address c)) = some (heap', head') ∧
      Chain (links heap') head' ((before ++ left).map s.address) ∧
      (∀ y, (heap' y).map SlistData.fields = (s.heap y).map SlistData.fields) ∧
      (∀ y, y ∉ before.map s.address → heap' y = s.heap y) ∧
      ∃ node, heap' (s.address c) = some node ∧ node.thread = c) ∧
    (s.thread c).joined = false := by
  have hc : c ∈ a.head := by simp [hhead]
  have hlist := h.list
  have hdistinct := h.distinct
  rw [hhead, List.map_append, List.map_cons] at hlist hdistinct
  have hbefore : s.address c ∉ before.map s.address := fun hmem =>
    (List.nodup_append.mp hdistinct).2.2 _ hmem _ List.mem_cons_self rfl
  have hcount : (before.map s.address).length ≤ s.started := by
    have hsub : a.head ⊆ List.range a.started := fun d hd => List.mem_range.mpr (ha.mem_lt d hd)
    have hle := (List.subperm_of_subset ha.nodup hsub).length_le
    rw [hhead, List.length_append, List.length_range] at hle
    rw [List.length_map, h.started]
    omega
  obtain ⟨heap', head', hremove, hlist', hfields, hother⟩ :=
    slistRemove_eq hlist hdistinct hcount
  obtain ⟨node, hnode, hthread, -⟩ := h.exists_node hc
  refine ⟨⟨heap', head', hremove, ?_, hfields, hother, node, ?_, hthread⟩, ?_⟩
  · rw [List.map_append]
    exact hlist'
  · rw [hother _ hbefore, hnode]
  · exact (h.joined c (ha.mem_lt c hc)).mpr (ha.kept c hc).1

/-- `pthread_join` waits for a thread that has not ended. -/
lemma Represents.removeNode_of_running (h : s.Represents a) (ha : a.Sound)
    {before left : List ℕ} {listener : SlistListener} (hhead : a.head = before ++ c :: left)
    (hrunning : (a.node c).thread.running = true) :
    s.removeNode (s.address c) listener = none := by
  obtain ⟨⟨heap', head', hremove, -, -, -, node, hnode, hthread⟩, hjoined⟩ :=
    h.slistRemove ha hhead
  have hrunning' : (s.thread c).running = true :=
    (h.threads c (ha.mem_lt c (by simp [hhead]))).running.trans hrunning
  simp [SlistServer.removeNode, hremove, hnode, hthread, hjoined, hrunning']

/-- `SLIST_REMOVE`, the join and the free succeed if the thread has ended. -/
lemma Represents.removeNode_spec (h : s.Represents a) (ha : a.Sound) {before left : List ℕ}
    (listener : SlistListener) (hhead : a.head = before ++ c :: left)
    (hended : (a.node c).thread.running = false) :
    ∃ heap' head', s.removeNode (s.address c) listener = some (some
        { s.setThread c { s.thread c with joined := true } with
          heap := Function.update heap' (s.address c) none, head := head', listener := listener }) ∧
      Chain (links heap') head' ((before ++ left).map s.address) ∧
      (∀ y, (heap' y).map SlistData.fields = (s.heap y).map SlistData.fields) ∧
      ∀ y, y ∉ before.map s.address → heap' y = s.heap y := by
  have hlt := ha.mem_lt c (by simp [hhead])
  obtain ⟨⟨heap', head', hremove, hlist', hfields, hother, node, hnode, hthread⟩, hjoined⟩ :=
    h.slistRemove ha hhead
  have hrunning : (s.thread c).running = false := (h.threads c hlt).running.trans hended
  refine ⟨heap', head', ?_, hlist', hfields, hother⟩
  simp [SlistServer.removeNode, hremove, hnode, hthread, hjoined, hrunning]

/-- The nodes before and after one of the list are other ones, at other addresses. -/
lemma Represents.address_ne (h : s.Represents a) {before left : List ℕ}
    (hhead : a.head = before ++ c :: left) {d : ℕ} (hd : d ∈ before ++ left) :
    s.address d ≠ s.address c ∧ d ≠ c := by
  have hdistinct := h.distinct
  rw [hhead, List.map_append, List.map_cons, List.nodup_middle, ← List.map_append] at hdistinct
  have haddress : s.address d ≠ s.address c := fun hdc =>
    (List.nodup_cons.mp hdistinct).1 (hdc ▸ List.mem_map_of_mem hd)
  exact ⟨haddress, fun hdc => haddress (by rw [hdc])⟩

/-- What is still live when a node has been freed. -/
lemma Represents.live_removed (h : s.Represents a) {heap' : NodeHeap}
    (hfields : ∀ y, (heap' y).map SlistData.fields = (s.heap y).map SlistData.fields) {y : ℕ}
    (hy : (Function.update heap' (s.address c) none y).isSome = true) :
    y ∈ (a.head.erase c).map s.address := by
  have hyc : y ≠ s.address c := by
    rintro rfl
    rw [Function.update_self] at hy
    cases hy
  have hy' : (s.heap y).isSome = true := by
    rw [Function.update_of_ne hyc, ← Option.isSome_map (f := SlistData.fields), hfields,
      Option.isSome_map] at hy
    exact hy
  obtain ⟨d, hd, rfl⟩ := List.mem_map.mp (h.live y hy')
  have hdc : d ≠ c := fun hdc => hyc (by rw [hdc])
  exact List.mem_map_of_mem ((List.mem_erase_of_ne hdc).mpr hd)

/-- Behind the node that has been freed the list is as it was. -/
lemma Represents.rest_removed (h : s.Represents a) {before left : List ℕ} {node : SlistData}
    {heap' : NodeHeap} (hhead : a.head = before ++ c :: left)
    (hrest : Chain (links s.heap) node.entries (left.map s.address))
    (hother : ∀ y, y ∉ before.map s.address → heap' y = s.heap y) :
    Chain (Function.update (links heap') (s.address c) none) node.entries
      (left.map s.address) := by
  have hdistinct := h.distinct
  rw [hhead, List.map_append, List.map_cons] at hdistinct
  obtain ⟨-, hnodup, hdisjoint⟩ := List.nodup_append.mp hdistinct
  refine Chain.update (hrest.congr fun y hy => ?_) (List.nodup_cons.mp hnodup).1 none
  have hyb : y ∉ before.map s.address := fun hyb =>
    hdisjoint y hyb y (List.mem_cons_of_mem _ hy) rfl
  rw [links, hother y hyb, links]

/-- The node at `dataptr` is taken out of the list, joined and freed. -/
lemma Represents.removeNode (h : s.Represents a) (ha : a.Sound) {before left : List ℕ}
    {node : SlistData} {listener : SlistListener} {listener' : ListenerState}
    (runningAtSweep : ℕ → Bool) (hhead : a.head = before ++ c :: left)
    (hrest : Chain (links s.heap) node.entries (left.map s.address))
    (hended : (a.node c).thread.running = false)
    (hlistener : (listener = .sweeping node.entries ∧ listener' = .sweeping left) ∨
      (listener = .ending node.entries ∧ listener' = .ending left)) :
    ∃ s', s.removeNode (s.address c) listener = some (some s') ∧
      Represents s' ({ a with
        listener := listener', runningAtSweep := runningAtSweep }.removeNode c) := by
  have hlt := ha.mem_lt c (by simp [hhead])
  obtain ⟨heap', head', hstep, hlist', hfields, hother⟩ :=
    h.removeNode_spec ha listener hhead hended
  have hne : ∀ d ∈ before ++ left, s.address d ≠ s.address c ∧ d ≠ c := fun d hd =>
    h.address_ne hhead hd
  have herase : a.head.erase c = before ++ left := by
    rw [hhead, List.erase_append_right _ fun hmem =>
      (hne c (List.mem_append_left _ hmem)).2 rfl, List.erase_cons_head]
  let s' : SlistServer := { s.setThread c { s.thread c with joined := true } with
    heap := Function.update heap' (s.address c) none, head := head', listener := listener }
  have hself : s'.thread c = { s.thread c with joined := true } := Function.update_self ..
  have hthread_ne : ∀ d, d ≠ c → s'.thread d = s.thread d := fun d hd => Function.update_of_ne hd ..
  have haddress : s'.address = s.address := by
    funext d
    by_cases hd : d = c
    · subst hd
      rw [address, hself, address]
    · rw [address, hthread_ne d hd, address]
  have hlinks : links s'.heap = Function.update (links heap') (s.address c) none :=
    links_update heap' (s.address c) none
  refine ⟨s', hstep, h.started, h.fds, h.endProgram, ?list, ?distinct, ?live, ?nodes, ?threads,
    ?unused, ?joined, ?listener⟩
  case list =>
    show Chain (links s'.heap) head' ((a.head.erase c).map s'.address)
    rw [herase, haddress, hlinks]
    refine hlist'.update ?_ none
    intro hmem
    obtain ⟨d, hd, hdc⟩ := List.mem_map.mp hmem
    exact (hne d hd).1 hdc
  case distinct =>
    show ((a.head.erase c).map s'.address).Nodup
    rw [haddress]
    exact h.distinct.sublist (List.Sublist.map _ List.erase_sublist)
  case live =>
    intro y hy
    show y ∈ (a.head.erase c).map s'.address
    rw [haddress]
    exact h.live_removed hfields hy
  case nodes =>
    intro d hd
    replace hd : d ∈ a.head.erase c := hd
    obtain ⟨hdaddress, hdc⟩ := hne d (herase ▸ hd)
    rw [haddress, Server.node_removeNode_of_ne hdc]
    show (Function.update heap' (s.address c) none (s.address d)).map _ = _
    rw [Function.update_of_ne hdaddress, hfields]
    exact h.nodes d (List.mem_of_mem_erase hd)
  case threads =>
    intro d hd
    by_cases hdc : d = c
    · -- the thread goes on as it was, but for being joined
      subst hdc
      rw [hself, Server.node_removeNode_self]
      exact h.threads d hd
    · rw [hthread_ne d hdc, Server.node_removeNode_of_ne hdc]
      exact h.threads d hd
  case unused =>
    intro d hd
    have hdc : d ≠ c := (hlt.trans_le hd).ne'
    rw [hthread_ne d hdc]
    exact h.unused d hd
  case joined =>
    intro d hd
    by_cases hdc : d = c
    · subst hdc
      rw [hself, Server.node_removeNode_self]
      simp
    · rw [hthread_ne d hdc, Server.node_removeNode_of_ne hdc]
      exact h.joined d hd
  case listener =>
    have hrest' : Chain (links s'.heap) node.entries (left.map s'.address) := by
      rw [haddress, hlinks]
      exact h.rest_removed hhead hrest hother
    show s'.ListenerMatches (a.head.erase c) listener listener'
    rw [herase]
    rcases hlistener with ⟨rfl, rfl⟩ | ⟨rfl, rfl⟩
    · exact ⟨⟨before, rfl⟩, hrest'⟩
    · exact ⟨⟨before, rfl⟩, hrest'⟩

/-- A thread goes on; it may write to its own node, but not the link. -/
lemma Represents.setThread (h : s.Represents a) (ha : a.Sound) {t : RespondingThread}
    {n : ClientNode} {heap : NodeHeap} {fds fds' : ℤ → Option ℕ} (hmem : c ∈ a.head)
    (harg : t.arg = (s.thread c).arg) (hjoined : t.joined = (s.thread c).joined)
    (hjoined' : n.joined = (a.node c).joined) (hmatches : t.Matches n)
    (hlinks : links heap = links s.heap)
    (hother : ∀ x, x ≠ s.address c → heap x = s.heap x)
    (hself : (heap (s.address c)).map SlistData.fields =
      some (c, n.isThreadComplete, n.clientfd)) (hfds : fds = fds') :
    Represents { s.setThread c t with heap := heap, fds := fds }
      { a.setNode c n with fds := fds' } := by
  have hlt := ha.mem_lt c hmem
  let s' : SlistServer := { s.setThread c t with heap := heap, fds := fds }
  have hthread_self : s'.thread c = t := Function.update_self ..
  have hthread_ne : ∀ d, d ≠ c → s'.thread d = s.thread d := fun d hd => Function.update_of_ne hd ..
  have haddress : s'.address = s.address := by
    funext d
    by_cases hd : d = c
    · subst hd
      rw [address, hthread_self, address, harg]
    · rw [address, hthread_ne d hd, address]
  refine ⟨h.started, hfds, h.endProgram, ?list, ?distinct, ?live, ?nodes, ?threads, ?unused,
    ?joined, ?listener⟩
  case list =>
    show Chain (links heap) s.head (a.head.map s'.address)
    rw [haddress, hlinks]
    exact h.list
  case distinct =>
    show (a.head.map s'.address).Nodup
    rw [haddress]
    exact h.distinct
  case live =>
    intro y hy
    show y ∈ a.head.map s'.address
    rw [haddress]
    refine h.live y ?_
    have hlink := congrArg Option.isSome (congrFun hlinks y)
    simp only [links, Option.isSome_map] at hlink
    rwa [← hlink]
  case nodes =>
    intro d hd
    show (heap (s'.address d)).map SlistData.fields = some (d,
      ((a.setNode c n).node d).isThreadComplete, ((a.setNode c n).node d).clientfd)
    rw [haddress]
    by_cases hdc : d = c
    · subst hdc
      rw [Server.node_setNode_self]
      exact hself
    · have hne : s.address d ≠ s.address c :=
        fun heq => hdc (List.inj_on_of_nodup_map h.distinct hd hmem heq)
      rw [Server.node_setNode_of_ne n hdc, hother _ hne]
      exact h.nodes d hd
  case threads =>
    intro d hd
    show (s'.thread d).Matches ((a.setNode c n).node d)
    by_cases hdc : d = c
    · subst hdc
      rw [hthread_self, Server.node_setNode_self]
      exact hmatches
    · rw [hthread_ne d hdc, Server.node_setNode_of_ne n hdc]
      exact h.threads d hd
  case unused =>
    intro d hd
    show s'.thread d = {}
    rw [hthread_ne d (fun hdc => absurd hlt (by rw [← hdc]; exact not_lt.mpr hd))]
    exact h.unused d hd
  case joined =>
    intro d hd
    show (s'.thread d).joined = false ↔ ((a.setNode c n).node d).joined = 0
    by_cases hdc : d = c
    · subst hdc
      rw [hthread_self, Server.node_setNode_self, hjoined, hjoined']
      exact h.joined d hd
    · rw [hthread_ne d hdc, Server.node_setNode_of_ne n hdc]
      exact h.joined d hd
  case listener =>
    show s'.ListenerMatches a.head s.listener a.listener
    have hlistener := h.listener
    have hrest : s'.Rest = s.Rest := by
      funext head p left
      rw [Rest, Rest, haddress, show links s'.heap = links s.heap from hlinks]
    unfold ListenerMatches at hlistener ⊢
    rw [hrest]
    exact hlistener

/-- A thread goes on without writing to its node. -/
lemma Represents.setState (h : s.Represents a) (ha : a.Sound) {t : RespondingThread}
    {thread : ThreadState} {fds fds' : ℤ → Option ℕ} (hmem : c ∈ a.head)
    (harg : t.arg = (s.thread c).arg) (hjoined : t.joined = (s.thread c).joined)
    (hmatches : t.Matches { a.node c with thread := thread }) (hfds : fds = fds') :
    Represents { s.setThread c t with fds := fds }
      { a.setNode c { a.node c with thread := thread } with fds := fds' } :=
  h.setThread ha hmem harg hjoined rfl hmatches rfl (fun _ _ => rfl) (h.nodes c hmem) hfds

/-- The listener goes on without changing the list. -/
lemma Represents.setListener (h : s.Represents a) {listener : SlistListener}
    {listener' : ListenerState} {endProgram endProgram' : Bool} {runningAtSweep : ℕ → Bool}
    (hend : endProgram = endProgram') (hlistener : s.ListenerMatches a.head listener listener') :
    Represents { s with listener := listener, endProgram := endProgram }
      { a with
        listener := listener', endProgram := endProgram', runningAtSweep := runningAtSweep } :=
  ⟨h.started, h.fds, hend, h.list, h.distinct, h.live, h.nodes, h.threads, h.unused, h.joined,
    hlistener⟩

/-- A thread that is past its first line, with its node. -/
lemma Represents.of_entered (h : s.Represents a) (ha : a.Sound) {thread : ThreadState}
    (hstate : (s.thread c).state = .entered thread) :
    c < a.started ∧ (a.node c).thread = thread ∧ (s.thread c).clientFD = (a.node c).clientfd ∧
      (thread.running = true → c ∈ a.head) := by
  have hlt : c < a.started := by
    by_contra hlt
    rw [h.unused c (not_lt.mp hlt)] at hstate
    cases hstate
  have hmatches := h.threads c hlt
  rw [RespondingThread.Matches, hstate] at hmatches
  obtain ⟨hthread, hclient⟩ := hmatches
  exact ⟨hlt, hthread, hclient, fun hrunning => ha.mem_head hlt (by rwa [hthread])⟩

/-- The node that `dataptr` points to. -/
lemma Represents.at_dataptr (h : s.Represents a) {x : ℕ} {left : List ℕ}
    (hrest : s.Rest a.head (some x) left) :
    ∃ before c left' node, left = c :: left' ∧ a.head = before ++ c :: left' ∧
      x = s.address c ∧ s.heap x = some node ∧
      node.isThreadComplete = (a.node c).isThreadComplete ∧
      Chain (links s.heap) node.entries (left'.map s.address) := by
  obtain ⟨⟨before, hhead⟩, hchain⟩ := hrest
  cases left with
  | nil => cases hchain
  | cons c left =>
    obtain ⟨hx, r, hr, hrest⟩ := hchain
    obtain rfl := Option.some.inj hx
    obtain ⟨node, hnode, -, hflag, -⟩ := h.exists_node (c := c) (by simp [hhead])
    rw [links, hnode, Option.map_some, Option.some.injEq] at hr
    subst hr
    exact ⟨before, c, left, node, rfl, hhead, rfl, hnode, hflag, hrest⟩

lemma Represents.accepting_iff (h : s.Represents a) :
    s.listener = .accepting ↔ a.listener = .accepting := by
  have hlistener := h.listener
  cases hs : s.listener <;> cases hl : a.listener <;> simp_all [ListenerMatches]

lemma Represents.sweeping (h : s.Represents a) {p : Option ℕ} (hs : s.listener = .sweeping p) :
    ∃ left, a.listener = .sweeping left ∧ s.Rest a.head p left := by
  have hlistener := h.listener
  rw [hs] at hlistener
  cases hl : a.listener with
  | sweeping left =>
    rw [hl] at hlistener
    exact ⟨left, rfl, hlistener⟩
  | _ =>
    rw [hl] at hlistener
    cases hlistener

lemma Represents.of_sweeping (h : s.Represents a) {left : List ℕ}
    (hl : a.listener = .sweeping left) :
    ∃ p, s.listener = .sweeping p ∧ s.Rest a.head p left := by
  have hlistener := h.listener
  rw [hl] at hlistener
  cases hs : s.listener with
  | sweeping p =>
    rw [hs] at hlistener
    exact ⟨p, rfl, hlistener⟩
  | _ =>
    rw [hs] at hlistener
    cases hlistener

lemma Represents.ending (h : s.Represents a) {p : Option ℕ} (hs : s.listener = .ending p) :
    ∃ left, a.listener = .ending left ∧ s.Rest a.head p left := by
  have hlistener := h.listener
  rw [hs] at hlistener
  cases hl : a.listener with
  | ending left =>
    rw [hl] at hlistener
    exact ⟨left, rfl, hlistener⟩
  | _ =>
    rw [hl] at hlistener
    cases hlistener

lemma Represents.of_ending (h : s.Represents a) {left : List ℕ}
    (hl : a.listener = .ending left) :
    ∃ p, s.listener = .ending p ∧ s.Rest a.head p left := by
  have hlistener := h.listener
  rw [hl] at hlistener
  cases hs : s.listener with
  | ending p =>
    rw [hs] at hlistener
    exact ⟨p, rfl, hlistener⟩
  | _ =>
    rw [hs] at hlistener
    cases hlistener

/-- The first line of `repsondingThread` reads the descriptor from its node. -/
lemma Represents.enter (h : s.Represents a) (ha : a.Sound) (hlt : c < a.started)
    (hstate : (s.thread c).state = .created) :
    ∃ s', s.step (.enter c) = some (some s') ∧ (s'.thread c).state ≠ .created ∧
      s'.Represents a := by
  have hmatches := h.threads c hlt
  rw [RespondingThread.Matches, hstate] at hmatches
  have hmem := ha.mem_head hlt (by rw [hmatches]; rfl)
  obtain ⟨node, hnode, -, -, hclient⟩ := h.exists_node hmem
  replace hnode : s.heap (s.thread c).arg = some node := hnode
  have hsame : a.setNode c { a.node c with thread := .serving .starting } = a := by
    have hself : { a.node c with thread := ThreadState.serving .starting } = a.node c := by
      rw [← hmatches]
    rw [hself, Server.setNode, Function.update_eq_self]
  refine ⟨s.setThread c { s.thread c with
    clientFD := node.clientfd, state := .entered (.serving .starting) }, ?_, ?_, ?_⟩
  · rw [← h.started] at hlt
    simp [SlistServer.step, hstate, hlt, hnode]
  · simp [SlistServer.setThread]
  · conv => arg 2; rw [← hsame]
    exact h.setState ha hmem rfl rfl ⟨rfl, hclient⟩ h.fds

/-- `accept` fails: the listener ends, or goes on with a node for no connection. -/
lemma Represents.acceptFails (h : s.Represents a) (ha : a.Sound) {eintr : Bool} {x : ℕ}
    {res : Option SlistServer} (hstep : s.step (.acceptFails eintr x) = some res) :
    ∃ s' a', res = some s' ∧ a.step (.acceptFails eintr) = some a' ∧ s'.Represents a' := by
  simp only [SlistServer.step] at hstep
  split at hstep
  · rename_i hs
    split_ifs at hstep with hend hfree
    · cases hstep
      refine ⟨_, { a with listener := .ending a.head, endProgram := true }, rfl, ?_,
        h.setListener rfl ?_⟩
      · simp [Server.step, h.accepting_iff.mp hs, hend]
      · exact ⟨⟨[], rfl⟩, h.list⟩
    · obtain ⟨s', heq, hfds, hs'⟩ := h.insertNode ha (-1) (Option.isNone_iff_eq_none.mp hfree)
      rw [heq, Option.some.injEq] at hstep
      have hsame : { a.insertNode (-1) with fds := s'.fds } = a.insertNode (-1) := by
        rw [hfds, h.fds]
        rfl
      refine ⟨s', a.insertNode (-1), hstep.symm, ?_, ?_⟩
      · simp [Server.step, h.accepting_iff.mp hs, hend]
      · rw [← hsame]
        exact hs' s'.fds
  · cases hstep

/-- The listener is at a node of one of its two sweeps. -/
lemma Represents.visit (h : s.Represents a) (ha : a.Sound) {res : Option SlistServer}
    (hstep : s.step .visit = some res) :
    ∃ s' a', res = some s' ∧ a.step .visit = some a' ∧ s'.Represents a' := by
  simp only [SlistServer.step] at hstep
  split at hstep
  · rename_i x hs
    obtain ⟨left, hl, hrest⟩ := h.sweeping hs
    obtain ⟨before, c, left, node, rfl, hhead, rfl, hnode, hflag, hrest⟩ := h.at_dataptr hrest
    simp only [hnode] at hstep
    split_ifs at hstep with hcomplete
    · -- the flag is set: the thread has ended, and its node is removed
      rw [hflag] at hcomplete
      have hended := ha.complete c hcomplete
      obtain ⟨s', heq, hs'⟩ := h.removeNode ha
        (Function.update a.runningAtSweep c (a.node c).thread.running) hhead hrest hended
        (Or.inl ⟨rfl, rfl⟩)
      rw [heq, Option.some.injEq] at hstep
      refine ⟨s', _, hstep.symm, ?_, hs'⟩
      simp [Server.step, hl, hcomplete, hended]
    · rw [hflag] at hcomplete
      cases hstep
      refine ⟨_, { a with
        listener := .sweeping left
        runningAtSweep := Function.update a.runningAtSweep c (a.node c).thread.running }, rfl, ?_,
        h.setListener h.endProgram ?_⟩
      · simp [Server.step, hl, hcomplete]
      · exact ⟨⟨before ++ [c], by simp [hhead]⟩, hrest⟩
  · rename_i x hs
    obtain ⟨left, hl, hrest⟩ := h.ending hs
    obtain ⟨before, c, left, node, rfl, hhead, rfl, hnode, hflag, hrest⟩ := h.at_dataptr hrest
    simp only [hnode] at hstep
    cases hrunning : (a.node c).thread.running with
    | true =>
      rw [h.removeNode_of_running ha hhead hrunning] at hstep
      cases hstep
    | false =>
      obtain ⟨s', heq, hs'⟩ := h.removeNode ha a.runningAtSweep hhead hrest hrunning
        (Or.inr ⟨rfl, rfl⟩)
      rw [heq, Option.some.injEq] at hstep
      refine ⟨s', _, hstep.symm, ?_, hs'⟩
      simp [Server.step, hl, hrunning]
  · cases hstep

/-- `accept` returns a descriptor that is not in use. -/
lemma Represents.accept (h : s.Represents a) (ha : a.Sound) {clientfd : ℤ} {x : ℕ}
    {res : Option SlistServer} (hstep : s.step (.accept clientfd x) = some res) :
    ∃ s' a', res = some s' ∧ a.step (.accept clientfd) = some a' ∧ s'.Represents a' := by
  simp only [SlistServer.step] at hstep
  split at hstep
  · rename_i hs
    split_ifs at hstep with hfd
    obtain ⟨h0, hunused, hfree⟩ := hfd
    obtain ⟨s', heq, -, hs'⟩ := h.insertNode ha clientfd (Option.isNone_iff_eq_none.mp hfree)
    rw [heq, Option.map_some, Option.some.injEq] at hstep
    refine ⟨_, _, hstep.symm, ?_, hs' _⟩
    rw [h.fds] at hunused
    simp [Server.step, h.accepting_iff.mp hs, h0, hunused, h.fds, h.started]
  · cases hstep

/-- The listener has come to the end of the list. -/
lemma Represents.endOfSweep (h : s.Represents a) {res : Option SlistServer}
    (hstep : s.step .endOfSweep = some res) :
    ∃ s' a', res = some s' ∧ a.step .endOfSweep = some a' ∧ s'.Represents a' := by
  simp only [SlistServer.step] at hstep
  split at hstep
  · rename_i hs
    obtain ⟨left, hl, -, hrest⟩ := h.sweeping hs
    obtain rfl : left = [] := by simpa using hrest.eq_nil_iff.mpr rfl
    cases hstep
    refine ⟨_, { a with listener := if a.endProgram then .ending a.head else .accepting }, rfl,
      ?_, h.setListener h.endProgram ?_⟩
    · simp [Server.step, hl]
    · rw [h.endProgram]
      cases a.endProgram with
      | true => exact ⟨⟨[], rfl⟩, h.list⟩
      | false => trivial
  · cases hstep

/-- A thread gets the answer to the call that it waits for. -/
lemma Represents.input (h : s.Represents a) (ha : a.Sound) {i : SessionInput}
    {res : Option SlistServer} (hstep : s.step (.input c i) = some res) :
    ∃ s' a', res = some s' ∧ a.step (.input c i) = some a' ∧ s'.Represents a' := by
  simp only [SlistServer.step] at hstep
  split at hstep
  · rename_i session hs
    obtain ⟨hlt, hthread, hclient, hmem⟩ := h.of_entered ha hs
    split_ifs at hstep with hadmits
    obtain ⟨thread, hreceive, rfl⟩ := Option.map_eq_some_iff.mp hstep
    have hadmits' : a.admits c i = true := by
      rw [← hadmits]
      cases i <;> simp [Server.admits, SlistServer.admits, hclient, h.endProgram]
    refine ⟨_, a.setNode c { a.node c with thread := thread }, rfl, ?_,
      h.setState ha (hmem rfl) rfl rfl ⟨rfl, hclient⟩ h.fds⟩
    simp [Server.step, hthread, hlt, hadmits', hreceive]
  · cases hstep

/-- A thread leaves its loop because the program ends. -/
lemma Represents.endLoop (h : s.Represents a) (ha : a.Sound) {res : Option SlistServer}
    (hstep : s.step (.endLoop c) = some res) :
    ∃ s' a', res = some s' ∧ a.step (.endLoop c) = some a' ∧ s'.Represents a' := by
  simp only [SlistServer.step] at hstep
  split at hstep
  · rename_i hs
    obtain ⟨hlt, hthread, hclient, hmem⟩ := h.of_entered ha hs
    split_ifs at hstep with hend
    cases hstep
    rw [h.endProgram] at hend
    refine ⟨_, a.setNode c { a.node c with thread := .leaving }, rfl, ?_,
      h.setState ha (hmem rfl) rfl rfl ⟨rfl, hclient⟩ h.fds⟩
    simp [Server.step, hthread, hlt, hend]
  · cases hstep

/-- A thread closes its descriptor. -/
lemma Represents.close (h : s.Represents a) (ha : a.Sound) {res : Option SlistServer}
    (hstep : s.step (.close c) = some res) :
    ∃ s' a', res = some s' ∧ a.step (.close c) = some a' ∧ s'.Represents a' := by
  simp only [SlistServer.step] at hstep
  split at hstep
  · rename_i hs
    obtain ⟨hlt, hthread, hclient, hmem⟩ := h.of_entered ha hs
    cases hstep
    refine ⟨_, { a.setNode c { a.node c with thread := .closed } with
      fds := Function.update a.fds (a.node c).clientfd none }, rfl, ?_,
      h.setState ha (hmem rfl) rfl rfl ⟨rfl, hclient⟩ (by rw [h.fds, hclient])⟩
    simp [Server.step, hthread]
  · cases hstep

/-- A thread writes its flag to its node and returns. -/
lemma Represents.complete (h : s.Represents a) (ha : a.Sound) {res : Option SlistServer}
    (hstep : s.step (.complete c) = some res) :
    ∃ s' a', res = some s' ∧ a.step (.complete c) = some a' ∧ s'.Represents a' := by
  simp only [SlistServer.step] at hstep
  split at hstep
  · rename_i hs
    obtain ⟨hlt, hthread, hclient, hmem⟩ := h.of_entered ha hs
    obtain ⟨node, hnode, hthread', -, hclient'⟩ := h.exists_node (hmem rfl)
    replace hnode : s.heap (s.thread c).arg = some node := hnode
    rw [hnode, Option.map_some, Option.some.injEq] at hstep
    refine ⟨_, a.setNode c { a.node c with thread := .returned, isThreadComplete := true },
      hstep.symm, ?_, h.setThread ha (hmem rfl) rfl rfl rfl ⟨rfl, hclient⟩ ?links ?other ?self
        h.fds⟩
    · simp [Server.step, hthread]
    case links =>
      rw [links_update, Option.map_some]
      exact Function.update_eq_self_iff.mpr (by rw [links, hnode]; rfl)
    case other => exact fun x hx => Function.update_of_ne hx ..
    case self =>
      rw [address, Function.update_self]
      simp [SlistData.fields, hthread', hclient']
  · cases hstep

/-- A step in memory does not fault and is one of `Server`, or the first line of a thread. -/
lemma Represents.step (h : s.Represents a) (ha : a.Sound) {e : SlistEvent}
    {res : Option SlistServer} (hstep : s.step e = some res) :
    ∃ s' a', res = some s' ∧ e.toServer.elim (some a) a.step = some a' ∧ s'.Represents a' := by
  cases e with
  | accept clientfd x => exact h.accept ha hstep
  | acceptFails eintr x => exact h.acceptFails ha hstep
  | visit => exact h.visit ha hstep
  | endOfSweep => exact h.endOfSweep hstep
  | signal =>
    cases hstep
    exact ⟨_, { a with endProgram := true }, rfl, rfl, h.setListener rfl h.listener⟩
  | enter c =>
    simp only [SlistServer.step] at hstep
    split at hstep
    · rename_i hs
      split_ifs at hstep with hlt
      obtain ⟨s', heq, -, hs'⟩ := h.enter ha (h.started ▸ hlt) hs
      simp only [SlistServer.step, hs, if_pos hlt, Option.some.injEq] at heq
      rw [heq, Option.some.injEq] at hstep
      exact ⟨s', a, hstep.symm, rfl, hs'⟩
    · cases hstep
  | input c i => exact h.input ha hstep
  | endLoop c => exact h.endLoop ha hstep
  | close c => exact h.close ha hstep
  | complete c => exact h.complete ha hstep

/-! ### Every run -/

lemma steps_concat (s : SlistServer) (events : List SlistEvent) (e : SlistEvent) :
    s.steps (events ++ [e]) =
      (s.steps events).bind fun s? => s?.elim (some none) fun s => s.step e := by
  simp [steps, List.foldlM_append]

lemma steps_singleton (s : SlistServer) (e : SlistEvent) : s.steps [e] = s.step e := by
  simp [steps]

lemma steps_append_of {events : List SlistEvent} (h : s.steps events = some (some s'))
    (more : List SlistEvent) : s.steps (events ++ more) = s'.steps more := by
  rw [steps, List.foldlM_append, ← steps, h]
  rfl

/-- What happens in memory is a run of `Server`. -/
lemma represents_of_run {events : List SlistEvent} {res : Option SlistServer}
    (hrun : run events = some res) :
    ∃ s a, res = some s ∧ Server.run (events.filterMap SlistEvent.toServer) = some a ∧
      s.Represents a := by
  induction events using List.reverseRecOn generalizing res with
  | nil =>
    cases hrun
    exact ⟨_, _, rfl, rfl, represents_init⟩
  | append_singleton events e ih =>
    rw [run, steps_concat, ← run, Option.bind_eq_some_iff] at hrun
    obtain ⟨res₁, hrun, hstep⟩ := hrun
    obtain ⟨s₁, a₁, rfl, hrun', h₁⟩ := ih hrun
    obtain ⟨s, a, rfl, hstep', h⟩ := h₁.step (Server.sound_of_run hrun') hstep
    refine ⟨s, a, rfl, ?_, h⟩
    rw [List.filterMap_append]
    cases he : e.toServer with
    | none =>
      rw [he] at hstep'
      simpa [he, hrun'] using hstep'
    | some e' =>
      rw [he] at hstep'
      rw [List.filterMap_cons_some he, List.filterMap_nil, Server.run_concat, hrun']
      exact hstep'

/-- `malloc` finds an address. -/
lemma Represents.exists_free (h : s.Represents a) : ∃ x, s.heap x = none := by
  obtain ⟨x, hx⟩ := Infinite.exists_notMem_finset (a.head.map s.address).toFinset
  refine ⟨x, ?_⟩
  by_contra hlive
  exact hx (List.mem_toFinset.mpr (h.live x (Option.isSome_iff_ne_none.mpr hlive)))

/-- A thread that is past its first line is where its node of `Server` says. -/
lemma Represents.state_eq (h : s.Represents a) (hlt : c < a.started)
    (hstate : (s.thread c).state ≠ .created) :
    (s.thread c).state = .entered (a.node c).thread ∧
      (s.thread c).clientFD = (a.node c).clientfd := by
  have hmatches := h.threads c hlt
  rw [RespondingThread.Matches] at hmatches
  cases hthread : (s.thread c).state with
  | created => exact absurd hthread hstate
  | entered thread =>
    rw [hthread] at hmatches
    exact ⟨by rw [hmatches.1], hmatches.2⟩

/-- A thread that has left its loop is past its first line. -/
lemma Represents.state_of_late (h : s.Represents a) (ha : a.Sound)
    (hlate : ∀ session, (a.node c).thread ≠ .serving session) :
    (s.thread c).state = .entered (a.node c).thread := by
  have hlt := ha.lt_started hlate
  refine (h.state_eq hlt fun hstate => ?_).1
  have hmatches := h.threads c hlt
  rw [RespondingThread.Matches, hstate] at hmatches
  exact hlate .starting hmatches

/-- What can happen next in `Server` can happen in memory, if the thread is past its first line. -/
lemma Represents.enabled (h : s.Represents a) (ha : a.Sound) {e : ServerEvent}
    (hstep : a.Steps e a')
    (hentered : ∀ c, (∃ i, e = .input c i) ∨ e = .endLoop c → (s.thread c).state ≠ .created) :
    ∃ e', e'.toServer = some e ∧ (s.step e').isSome = true := by
  obtain ⟨x, hx⟩ := h.exists_free
  cases hstep with
  | @accept clientfd hlistener hfd hunused =>
    rw [← h.fds] at hunused
    refine ⟨.accept clientfd x, rfl, ?_⟩
    simp [SlistServer.step, h.accepting_iff.mpr hlistener, hfd, hunused, hx]
  | interrupted hlistener =>
    refine ⟨.acceptFails true x, rfl, ?_⟩
    simp [SlistServer.step, h.accepting_iff.mpr hlistener]
  | acceptFails hlistener =>
    refine ⟨.acceptFails false x, rfl, ?_⟩
    simp [SlistServer.step, h.accepting_iff.mpr hlistener, hx]
  | pass hlistener hflag =>
    obtain ⟨p, hs, hrest⟩ := h.of_sweeping hlistener
    obtain ⟨rfl, r, hr, -⟩ := hrest.2
    obtain ⟨before, c, left, node, hleft, -, -, hnode, hflag', -⟩ := h.at_dataptr hrest
    obtain ⟨rfl, rfl⟩ := List.cons.inj hleft
    refine ⟨.visit, rfl, ?_⟩
    simp [SlistServer.step, hs, hnode, hflag', hflag]
  | remove hlistener hflag hended =>
    obtain ⟨p, hs, hrest⟩ := h.of_sweeping hlistener
    obtain ⟨rfl, r, hr, -⟩ := hrest.2
    obtain ⟨before, c, left, node, hleft, hhead, -, hnode, hflag', hrest'⟩ := h.at_dataptr hrest
    obtain ⟨rfl, rfl⟩ := List.cons.inj hleft
    obtain ⟨s', heq, -⟩ := h.removeNode ha a.runningAtSweep hhead hrest' hended
      (Or.inl ⟨rfl, rfl⟩)
    refine ⟨.visit, rfl, ?_⟩
    simp [SlistServer.step, hs, hnode, hflag', hflag, heq]
  | join hlistener hended =>
    obtain ⟨p, hs, hrest⟩ := h.of_ending hlistener
    obtain ⟨rfl, r, hr, -⟩ := hrest.2
    obtain ⟨before, c, left, node, hleft, hhead, -, hnode, -, hrest'⟩ := h.at_dataptr hrest
    obtain ⟨rfl, rfl⟩ := List.cons.inj hleft
    obtain ⟨s', heq, -⟩ := h.removeNode ha a.runningAtSweep hhead hrest' hended
      (Or.inr ⟨rfl, rfl⟩)
    refine ⟨.visit, rfl, ?_⟩
    simp [SlistServer.step, hs, hnode, heq]
  | endOfSweep hlistener =>
    obtain ⟨p, hs, -, hrest⟩ := h.of_sweeping hlistener
    obtain rfl : p = none := hrest
    exact ⟨.endOfSweep, rfl, by simp [SlistServer.step, hs]⟩
  | signal => exact ⟨.signal, rfl, rfl⟩
  | @input c i session thread hthread hlt hadmits hreceive =>
    obtain ⟨hstate, hclient⟩ := h.state_eq hlt (hentered c (Or.inl ⟨i, rfl⟩))
    have hadmits' : s.admits c i = true := by
      rw [← hadmits]
      cases i <;> simp [Server.admits, SlistServer.admits, hclient, h.endProgram]
    refine ⟨.input c i, rfl, ?_⟩
    simp [SlistServer.step, hstate, hthread, hadmits', hreceive]
  | @endLoop c hthread hlt hend =>
    obtain ⟨hstate, -⟩ := h.state_eq hlt (hentered c (Or.inr rfl))
    rw [← h.endProgram] at hend
    refine ⟨.endLoop c, rfl, ?_⟩
    simp [SlistServer.step, hstate, hthread, hend]
  | @close c hthread =>
    have hstate := h.state_of_late (c := c) ha (by simp [hthread])
    refine ⟨.close c, rfl, ?_⟩
    simp [SlistServer.step, hstate, hthread]
  | @complete c hthread =>
    have hstate := h.state_of_late (c := c) ha (by simp [hthread])
    refine ⟨.complete c, rfl, ?_⟩
    simp [SlistServer.step, hstate, hthread]

/-- What can happen next in `Server` can happen in memory, perhaps after the first line of a
thread. -/
lemma Represents.exists_steps (h : s.Represents a) (ha : a.Sound) {e : ServerEvent}
    (hstep : a.step e = some a') :
    ∃ events s', events.filterMap SlistEvent.toServer = [e] ∧
      s.steps events = some (some s') ∧ s'.Represents a' := by
  -- with the thread past its first line, one event is enough
  have hone : ∀ s₁ : SlistServer, s₁.Represents a →
      (∀ c, (∃ i, e = .input c i) ∨ e = .endLoop c → (s₁.thread c).state ≠ .created) →
      ∃ e' s', e'.toServer = some e ∧ s₁.step e' = some (some s') ∧ s'.Represents a' := by
    intro s₁ h₁ hentered
    obtain ⟨e', he', hsome⟩ := h₁.enabled ha (Server.steps_of_step hstep) hentered
    obtain ⟨res, hres⟩ := Option.isSome_iff_exists.mp hsome
    obtain ⟨s', a'', rfl, hstep', hs'⟩ := h₁.step ha hres
    rw [he', Option.elim_some, hstep, Option.some.injEq] at hstep'
    exact ⟨e', s', he', hres, hstep' ▸ hs'⟩
  by_cases hcreated : ∃ c, ((∃ i, e = .input c i) ∨ e = .endLoop c) ∧
      (s.thread c).state = .created
  · -- the thread has to get past its first line before
    obtain ⟨c, he, hstate⟩ := hcreated
    have hlt : c < a.started := by
      rcases he with ⟨i, rfl⟩ | rfl
      · cases Server.steps_of_step hstep with
        | input _ hlt _ _ => exact hlt
      · cases Server.steps_of_step hstep with
        | endLoop _ hlt _ => exact hlt
    obtain ⟨s₁, henter, hstate₁, h₁⟩ := h.enter ha hlt hstate
    obtain ⟨e', s', he', hstep', hs'⟩ := hone s₁ h₁ fun d hd => by
      obtain rfl : d = c := by
        rcases he with ⟨i, rfl⟩ | rfl <;> rcases hd with ⟨j, hd⟩ | hd <;> cases hd <;> rfl
      exact hstate₁
    refine ⟨[.enter c, e'], s', ?_, ?_, hs'⟩
    · rw [List.filterMap_cons_none rfl, List.filterMap_cons_some he', List.filterMap_nil]
    · rw [← hstep', ← steps_singleton]
      exact steps_append_of ((steps_singleton ..).trans henter) [e']
  · obtain ⟨e', s', he', hstep', hs'⟩ := hone s h fun c hc hstate => hcreated ⟨c, hc, hstate⟩
    exact ⟨[e'], s', by simp [he'], (steps_singleton ..).trans hstep', hs'⟩

/-- Whatever the clients, `accept`, `recv` and `malloc` do, the listener and the threads never use a
pointer that does not lead to a live node and never join a thread twice; what happens is a run of
`Server`, whose list is the one from `head` on, and there are no other live nodes. At the end every
node has been freed and every thread joined. -/
theorem slist_refines {events : List SlistEvent} {res : Option SlistServer}
    (hrun : run events = some res) :
    ∃ s a, res = some s ∧ Server.run (events.filterMap SlistEvent.toServer) = some a ∧
      s.Represents a ∧
      (s.listener = .ending none → (∀ x, s.heap x = none) ∧
        ∀ c < s.started, (s.thread c).joined = true ∧ (s.thread c).running = false) := by
  obtain ⟨s, a, rfl, hrun', h⟩ := represents_of_run hrun
  have ha := Server.sound_of_run hrun'
  refine ⟨s, a, rfl, hrun', h, fun hdone => ?_⟩
  obtain ⟨left, hl, -, hrest⟩ := h.ending hdone
  obtain rfl : left = [] := by simpa using hrest.eq_nil_iff.mpr rfl
  have hhead : a.head = [] := (ha.ending [] hl).1.symm
  constructor
  · -- no node is left in memory
    intro x
    by_contra hx
    have hmem := h.live x (Option.isSome_iff_ne_none.mpr hx)
    rw [hhead] at hmem
    cases hmem
  · -- every thread has been joined, and has ended
    intro c hlt
    rw [h.started] at hlt
    obtain ⟨hended, hjoined, -⟩ := ha.removed c hlt (by simp [hhead])
    refine ⟨?_, (h.threads c hlt).running.trans hended⟩
    rw [← Bool.not_eq_false, h.joined c hlt, hjoined]
    exact one_ne_zero

/-- Every run of `Server` can happen in memory: no allocation and no pointer stands in its way. -/
theorem slist_complete {events : List ServerEvent} {a : Server}
    (hrun : Server.run events = some a) :
    ∃ more s, more.filterMap SlistEvent.toServer = events ∧ run more = some (some s) ∧
      s.Represents a := by
  induction events using List.reverseRecOn generalizing a with
  | nil =>
    cases hrun
    exact ⟨[], {}, rfl, rfl, represents_init⟩
  | append_singleton events e ih =>
    rw [Server.run_concat, Option.bind_eq_some_iff] at hrun
    obtain ⟨a₁, hrun, hstep⟩ := hrun
    obtain ⟨more, s₁, hmore, hrun₁, h₁⟩ := ih hrun
    obtain ⟨last, s, hlast, hsteps, h⟩ := h₁.exists_steps (Server.sound_of_run hrun) hstep
    refine ⟨more ++ last, s, by rw [List.filterMap_append, hmore, hlast], ?_, h⟩
    rw [run, steps_append_of hrun₁, hsteps]

/-- The node of the second client lies where that of the first was. -/
theorem slist_refines_reused : ∃ s,
    run [.accept 4 64, .enter 0, .visit, .endOfSweep, .accept 5 32, .input 0 (.malloc (some [])),
      .input 0 .recvClosed, .close 0, .complete 0, .visit, .visit, .endOfSweep, .accept 4 64,
      .enter 2, .signal, .visit, .visit, .endOfSweep, .endLoop 2, .close 2, .complete 2, .visit,
      .enter 1, .endLoop 1, .close 1, .complete 1, .visit] = some (some s) ∧
    s.started = 3 ∧ s.heap 64 = none ∧ (s.thread 2).joined = true := by
  obtain ⟨s, hrun, hdone, hstarted⟩ : ∃ s,
      run [.accept 4 64, .enter 0, .visit, .endOfSweep, .accept 5 32, .input 0 (.malloc (some [])),
        .input 0 .recvClosed, .close 0, .complete 0, .visit, .visit, .endOfSweep, .accept 4 64,
        .enter 2, .signal, .visit, .visit, .endOfSweep, .endLoop 2, .close 2, .complete 2, .visit,
        .enter 1, .endLoop 1, .close 1, .complete 1, .visit] = some (some s) ∧
      s.listener = .ending none ∧ s.started = 3 := ⟨_, rfl, rfl, rfl⟩
  obtain ⟨s', a, hs, -, -, hend⟩ := slist_refines hrun
  obtain rfl := Option.some.inj hs
  obtain ⟨hfree, hjoined⟩ := hend hdone
  exact ⟨s, hrun, hstarted, hfree 64, (hjoined 2 (by simp [hstarted])).1⟩

/-- The signal comes before the only client has sent anything. -/
theorem slist_complete_signal : ∃ more s,
    more.filterMap SlistEvent.toServer = [.accept 5, .signal, .visit, .endOfSweep, .endLoop 0] ∧
      run more = some (some s) := by
  obtain ⟨a, hrun⟩ : ∃ a,
      Server.run [.accept 5, .signal, .visit, .endOfSweep, .endLoop 0] = some a := ⟨_, rfl⟩
  obtain ⟨more, s, hmore, hrun', -⟩ := slist_complete hrun
  exact ⟨more, s, hmore, hrun'⟩

end SlistServer

end Aesd
