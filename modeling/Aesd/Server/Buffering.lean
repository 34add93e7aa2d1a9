import Aesd.Lib.Buffered
import Aesd.Lib.Bytes
import Aesd.Server.Redirect

/-!
# The buffer of standard output

What is printed goes into the buffer of `stdout` first, and from there to whatever standard output
refers to when the buffer is flushed. When that is, is up to the library: a parameter says how much
is written with each text. Nothing is flushed where a region begins or ends. As long as `dup`
succeeds, each client is sent exactly what was printed in its regions if and only if the buffer
happens to be empty wherever the output of a region begins or ends (`output_iff_settled`).
-/

namespace Aesd

open Effect CInt Bytes

variable {F : Type}

/-! ### Buffering -/

/-- The buffering of `stdout`: line by line, in full blocks, or by whatever rule the library
follows. -/
inductive Buffering where
  | line
  | full (capacity : ℕ)
  | other (rule : Buffered.Rule Byte)

namespace Buffering

/-- Of the first `n` bytes, those that have been written. A full buffer is written only when the
next byte comes. -/
def written (capacity n : ℕ) : ℕ := if capacity = 0 then n else (n - 1) / capacity * capacity

/-- How many bytes of a text are written behind what is in the buffer, if anything is written. -/
def rule : Buffering → Buffered.Rule Byte
  | .line, _, text               =>
    -- the text is written up to its last newline
    if newline ∈ text then some (text.rdropWhile (· ≠ newline)).length else none
  | .full capacity, before, text =>
    let n := before.flatten.length
    if written capacity (n + text.length) = written capacity n then none
    else some (written capacity (n + text.length) - n)
  | .other rule, before, text    => rule before text

/-- The buffer is empty after these texts. -/
def Flushed : Buffering → List Text → Prop
  | .line, texts          => ∀ b ∈ texts.flatten.getLast?, b = newline
  | .full capacity, texts => capacity = 0 ∨ texts = []
  | .other rule, texts    => Buffered.pending rule texts = []

lemma line_kept_iff {buffer text : Text} (before : List Text) (htext : text ≠ []) :
    Buffered.kept (Buffering.line.rule before text) buffer text = [] ↔
      text.getLast htext = newline := by
  have hself := List.rdropWhile_eq_self_iff (p := (· ≠ newline)) (l := text)
  simp only [decide_eq_true_eq, ne_eq, not_not] at hself
  rw [rule]
  split_ifs with hmem
  · rw [Buffered.kept, List.drop_eq_nil_iff]
    constructor
    · intro hle
      exact hself.mp ((List.rdropWhile_prefix _ _).eq_of_length_le hle) htext
    · intro hlast
      rw [hself.mpr fun _ => hlast]
  · refine iff_of_false (by simp [Buffered.kept, htext]) ?_
    rintro heq
    exact hmem (heq ▸ List.getLast_mem htext)

lemma written_le (capacity n : ℕ) : written capacity n ≤ n := by
  rw [written]
  split_ifs
  · exact le_rfl
  · exact (Nat.div_mul_le_self _ _).trans (Nat.sub_le _ _)

lemma le_written_iff {capacity n : ℕ} : n ≤ written capacity n ↔ capacity = 0 ∨ n = 0 := by
  rw [written]
  split_ifs with hcapacity
  · simp [hcapacity]
  · have hle := Nat.div_mul_le_self (n - 1) capacity
    constructor
    · intro h
      right
      omega
    · rintro (h | rfl)
      · exact absurd h hcapacity
      · exact Nat.zero_le _

/-- If anything is written, all of the buffer is. -/
lemma le_written_of_ne {capacity m n : ℕ} (hmn : m ≤ n)
    (hne : written capacity n ≠ written capacity m) : m ≤ written capacity n := by
  simp only [written] at hne ⊢
  split_ifs at hne ⊢ with hcapacity
  · exact hmn
  · have hlt : (m - 1) / capacity < (n - 1) / capacity := by
      refine lt_of_le_of_ne (Nat.div_le_div_right (Nat.sub_le_sub_right hmn 1)) ?_
      intro heq
      exact hne (by rw [heq])
    have hmod := Nat.lt_div_mul_add (a := m - 1) (Nat.pos_of_ne_zero hcapacity)
    have hblock := Nat.mul_le_mul_right capacity (Nat.succ_le_of_lt hlt)
    rw [Nat.succ_mul] at hblock
    omega

lemma length_pending_full (capacity : ℕ) (texts : List Text) :
    (Buffered.pending (Buffering.full capacity).rule texts).length =
      texts.flatten.length - written capacity texts.flatten.length := by
  induction texts using List.reverseRecOn with
  | nil => exact (Nat.zero_sub _).symm
  | append_singleton texts text ih =>
    rw [Buffered.pending_concat, List.flatten_concat, List.length_append, rule]
    have hle := written_le capacity texts.flatten.length
    split_ifs with hsame
    · rw [Buffered.kept, List.length_append, ih, hsame]
      omega
    · have hall := le_written_of_ne (Nat.le_add_right _ _) hsame
      rw [Buffered.kept, List.length_drop]
      omega

lemma pending_eq_nil_iff (bc : Buffering) {texts : List Text} (hne : ∀ text ∈ texts, text ≠ []) :
    Buffered.pending bc.rule texts = [] ↔ bc.Flushed texts := by
  cases bc with
  | line =>
    cases texts using List.reverseRecOn with
    | nil => simp [Flushed, Buffered.pending]
    | append_singleton texts text =>
      have htext := hne text (by simp)
      rw [Buffered.pending_concat, line_kept_iff _ htext]
      simp [Flushed, List.getLast?_append, List.getLast?_eq_some_getLast htext]
  | full capacity =>
    rw [← List.length_eq_zero_iff, length_pending_full, Nat.sub_eq_zero_iff_le, le_written_iff,
      Flushed, List.length_eq_zero_iff, List.flatten_eq_nil_iff]
    refine or_congr Iff.rfl ⟨fun h => List.eq_nil_iff_forall_not_mem.mpr ?_, by rintro rfl; simp⟩
    intro text htext
    exact hne text htext (h text htext)
  | other rule => rfl

/-- A buffer that is written only when it is full is empty at every change of the destination only
if there is none, and nothing has been printed but for `start`. -/
theorem settled_full_iff {start : F} {capacity : ℕ} (hcapacity : capacity ≠ 0)
    (printed : List (F × Text)) :
    Buffered.Settled (fun ys => (full capacity).Flushed (ys.map Prod.snd)) start printed ↔
      ∀ x ∈ printed, x.1 = start := by
  have hflushed : ∀ (before : List (F × Text)) (x : F × Text),
      ¬ (full capacity).Flushed ((before ++ [x]).map Prod.snd) := by
    simp [Flushed, hcapacity]
  constructor
  · intro h
    induction printed using List.reverseRecOn with
    | nil => simp
    | append_singleton printed y ih =>
      have hy : y.1 = start := by
        by_contra hy
        exact hflushed printed y (h.last printed y rfl hy)
      have hbefore := ih
        { inner := fun before x z after heq =>
            h.inner before x z (after ++ [y]) (by rw [heq]; simp)
          last := fun before x heq hx => by
            subst heq
            exact h.inner before x y [] (by simp) fun hxy => hx (hxy.trans hy) }
      intro x hx
      rcases List.mem_append.mp hx with hx | hx
      · exact hbefore x hx
      · rw [List.mem_singleton.mp hx]
        exact hy
  · intro h
    constructor
    · rintro before x y after rfl hxy
      exact absurd ((h x (by simp)).trans (h y (by simp)).symm) hxy
    · rintro before x rfl hx
      exact absurd (h x (by simp)) hx

end Buffering

/-! ### Printing -/

/-- The descriptor table, the buffer, what each file has been sent of it, and the texts printed with
the file that each is meant for. Where the thread is and whether a `dup` has failed are recorded
too. -/
structure Console (F : Type) where
  table : ℤ → Option F
  buffer : List (F × Byte) := []
  output : F → List (F × Byte) := fun _ => []
  printed : List (F × Text) := []
  region : Region := .outside
  dupFailed : Bool := false

namespace Console

variable [DecidableEq F]

/-- Bytes go to what standard output refers to, if to anything. -/
def write (d : Console F) (bytes : List (F × Byte)) : Console F :=
  match d.table stdoutFileno with
  | none   => d
  | some f => { d with output := Function.update d.output f (d.output f ++ bytes) }

/-- A text that is meant for `file` is printed. If something is written, what is in the buffer goes
first. -/
def print (bc : Buffering) (file : F) (d : Console F) (text : Text) : Console F :=
  if text = [] then
    d
  else
    let bytes := Buffered.items (file, text)
    let n := bc.rule (d.printed.map Prod.snd) text
    let d' := { d with
      buffer := Buffered.kept n d.buffer bytes
      printed := d.printed ++ [(file, text)] }
    match n with
    | none   => d'
    | some n => d'.write (d.buffer ++ bytes.take n)

def dup2 (d : Console F) (oldfd newfd : ℤ) : Console F :=
  match d.table oldfd with
  | none   => d
  | some f => { d with table := Function.update d.table newfd (some f) }

end Console

/-- The file that the text of a region is meant for: the client of the region, or else what standard
output referred to at the start. -/
def Region.file (start sock : F) : Region → F
  | .inside _ => sock
  | _         => start

/-- The calls' effect on what is printed. -/
def consoleExec [DecidableEq F] (bc : Buffering) (start sock : F) :
    (op : SysOp) → Console F → Answer op → Console F → Prop
  | .dup fd, d, r, d'           =>
    (r = -1 ∧ d' = { d with region := .saved r, dupFailed := true }) ∨
      (0 ≤ r ∧ d.table r = none ∧ d' = { d with
        table := Function.update d.table r (d.table fd)
        region := .saved r })
  | .dup2 oldfd newfd, d, r, d' =>
    d' = { d.dup2 oldfd newfd with region := d.region.next (.dup2 oldfd newfd) r }
  | .printf text, d, _, d'      => d' = d.print bc (d.region.file start sock) text
  | _, d, _, d'                 => d' = d

/-- Sessions one after another. The server itself prints between them. Each connection has a
descriptor that was not in use, and is not what standard output referred to at the start. -/
inductive ConsoleRun [DecidableEq F] (bc : Buffering) (start : F) : Console F → Prop where
  | start {table : ℤ → Option F} (hstdout : table stdoutFileno = some start) :
      ConsoleRun bc start { table := table }
  | print {d : Console F} (run : ConsoleRun bc start d) (text : Text) :
      ConsoleRun bc start (d.print bc start text)
  | session {d d' : Console F} {clientFD : ℤ} {sock : F} {cmds : List (Command × (ℕ → Byte))}
      (run : ConsoleRun bc start d) (hfree : d.table clientFD = none) (hsock : sock ≠ start)
      (hserve : (serve clientFD cmds ⟨⟨0, 0⟩, 0⟩).Eval (consoleExec bc start sock)
        { d with table := Function.update d.table clientFD (some sock) } () d') :
      ConsoleRun bc start { d' with table := Function.update d'.table clientFD none }

/-! ### What standard output refers to -/

namespace Console

variable [DecidableEq F] {bc : Buffering} {d : Console F} {file : F}

/-- Printing changes nothing else. -/
lemma print_eq (bc : Buffering) (file : F) (d : Console F) (text : Text) :
    ∃ buffer output, d.print bc file text = { d with
      buffer := buffer
      output := output
      printed := d.printed ++ if text = [] then [] else [(file, text)] } := by
  rw [print]
  split_ifs
  · exact ⟨d.buffer, d.output, by rw [List.append_nil]⟩
  · cases bc.rule (d.printed.map Prod.snd) text with
    | none => exact ⟨_, _, rfl⟩
    | some n =>
      dsimp only [write]
      cases d.table stdoutFileno <;> exact ⟨_, _, rfl⟩

@[simp] lemma print_table (text : Text) : (d.print bc file text).table = d.table := by
  obtain ⟨buffer, output, heq⟩ := d.print_eq bc file text
  rw [heq]

@[simp] lemma print_region (text : Text) : (d.print bc file text).region = d.region := by
  obtain ⟨buffer, output, heq⟩ := d.print_eq bc file text
  rw [heq]

@[simp] lemma print_dupFailed (text : Text) : (d.print bc file text).dupFailed = d.dupFailed := by
  obtain ⟨buffer, output, heq⟩ := d.print_eq bc file text
  rw [heq]

@[simp] lemma print_printed (text : Text) : (d.print bc file text).printed =
    d.printed ++ if text = [] then [] else [(file, text)] := by
  obtain ⟨buffer, output, heq⟩ := d.print_eq bc file text
  rw [heq]

/-- The bytes sent to each file so far are those of the chunks passed on with a text for it. -/
structure InStep (bc : Buffering) (d : Console F) : Prop where
  buffer : d.buffer = (Buffered.ofList bc.rule d.printed).buffer
  output : ∀ f, d.output f = (Buffered.ofList bc.rule d.printed).sent f
  nonempty : ∀ x ∈ d.printed, x.2 ≠ []

lemma InStep.print (h : d.InStep bc) (hstdout : d.table stdoutFileno = some file) (text : Text) :
    (d.print bc file text).InStep bc := by
  rw [Console.print]
  split_ifs with htext
  · exact h
  · have hnonempty : ∀ x ∈ d.printed ++ [(file, text)], x.2 ≠ [] := by
      intro x hx
      rcases List.mem_append.mp hx with hx | hx
      · exact h.nonempty x hx
      · rw [List.mem_singleton.mp hx]
        exact htext
    cases hn : bc.rule (d.printed.map Prod.snd) text with
    | none =>
      refine ⟨?_, fun f => ?_, hnonempty⟩
      · rw [Buffered.buffer_concat, hn, h.buffer]
      · rw [Buffered.sent_concat, hn]
        simp [Buffered.passed, h.output f]
    | some n =>
      simp only [write, hstdout]
      refine ⟨?_, fun f => ?_, hnonempty⟩
      · rw [Buffered.buffer_concat, hn, h.buffer]
      · rw [Buffered.sent_concat, hn, ← h.buffer]
        by_cases hf : file = f
        · subst hf
          simp [Buffered.passed, h.output]
        · simp [h.output, hf, Function.update_of_ne (Ne.symm hf)]

/-- The invariant of a session in which no `dup` has failed: standard output refers to the file that
the text of the region is meant for. -/
structure Directed (bc : Buffering) (start : F) (clientFD : ℤ) (sock : F) (d : Console F)
    (g : Region) : Prop where
  inStep : d.InStep bc
  region : d.region = g
  stdout : d.table stdoutFileno = some (g.file start sock)
  client : d.table clientFD = some sock
  client_ne : clientFD ≠ stdoutFileno
  saved : ∀ fd, g = .saved fd ∨ g = .inside fd → fd ≠ stdoutFileno ∧ d.table fd = some start

variable {start sock : F} {clientFD : ℤ} {g : Region}

lemma Directed.print (h : d.Directed bc start clientFD sock g) (text : Text) :
    (d.print bc (d.region.file start sock) text).Directed bc start clientFD sock g := by
  refine ⟨h.inStep.print (h.region ▸ h.stdout) text, ?_, ?_, ?_, h.client_ne, ?_⟩
  all_goals simp only [print_table, print_region]
  · exact h.region
  · exact h.stdout
  · exact h.client
  · exact h.saved

lemma Directed.dup (h : d.Directed bc start clientFD sock .outside) {r : ℤ}
    (hfree : d.table r = none) :
    Directed bc start clientFD sock { d with
      table := Function.update d.table r (d.table stdoutFileno)
      region := .saved r } (.saved r) := by
  have hkeep : ∀ fd f, d.table fd = some f →
      Function.update d.table r (d.table stdoutFileno) fd = some f := by
    intro fd f hfd
    have hne : fd ≠ r := by
      rintro rfl
      rw [hfree] at hfd
      cases hfd
    rw [Function.update_of_ne hne, hfd]
  refine ⟨⟨h.inStep.buffer, h.inStep.output, h.inStep.nonempty⟩, rfl, hkeep _ _ h.stdout,
    hkeep _ _ h.client, h.client_ne, ?_⟩
  rintro fd (⟨⟨⟩⟩ | ⟨⟨⟩⟩)
  refine ⟨?_, (Function.update_self ..).trans h.stdout⟩
  rintro rfl
  rw [h.stdout] at hfree
  cases hfree

/-- A region is entered, or left. -/
lemma Directed.dup2 (h : d.Directed bc start clientFD sock g) {oldfd : ℤ} (g' : Region)
    (holdfd : d.table oldfd = some (g'.file start sock))
    (hsaved : ∀ fd, g' = .saved fd ∨ g' = .inside fd → g = .saved fd ∨ g = .inside fd) :
    Directed bc start clientFD sock { d.dup2 oldfd stdoutFileno with region := g' } g' := by
  have heq : d.dup2 oldfd stdoutFileno =
      { d with table := Function.update d.table stdoutFileno (some (g'.file start sock)) } := by
    unfold Console.dup2
    rw [holdfd]
  rw [heq]
  refine ⟨⟨h.inStep.buffer, h.inStep.output, h.inStep.nonempty⟩, rfl,
    Function.update_self stdoutFileno _ d.table, ?_, h.client_ne, ?_⟩
  · exact (Function.update_of_ne h.client_ne _ _).trans h.client
  · intro fd hfd
    obtain ⟨hfdne, hstart⟩ := h.saved fd (hsaved fd hfd)
    exact ⟨hfdne, (Function.update_of_ne hfdne _ _).trans hstart⟩

/-- The step lemma. -/
lemma directed_step {d' : Console F} {op : SysOp} {r : Answer op}
    (h : d.dupFailed = false → d.Directed bc start clientFD sock g)
    (hpre : (redirectUse clientFD).pre g op) (hexec : consoleExec bc start sock op d r d') :
    d'.dupFailed = false → d'.Directed bc start clientFD sock (g.next op r) := by
  intro hdup
  cases op with
  | dup fd =>
    obtain ⟨rfl, rfl⟩ := hpre
    rcases hexec with ⟨-, rfl⟩ | ⟨-, hfree, rfl⟩
    · cases hdup
    · exact (h hdup).dup hfree
  | dup2 oldfd newfd =>
    obtain ⟨rfl, hold⟩ := hpre
    obtain rfl := hexec
    have hd : d.dupFailed = false := by
      rw [← hdup]
      unfold Console.dup2
      cases d.table oldfd <;> rfl
    have h := h hd
    cases g with
    | outside => exact hold.elim
    | saved fd =>
      obtain rfl := hold
      have henter := h.dup2 (.inside fd) h.client (by simp)
      rw [h.region]
      exact henter
    | inside fd =>
      obtain rfl := hold
      have hleave := h.dup2 .outside (h.saved oldfd (Or.inr rfl)).2 (by simp)
      rw [h.region]
      exact hleave
  | printf text =>
    obtain rfl := hexec
    rw [print_dupFailed] at hdup
    exact (h hdup).print text
  | _ =>
    obtain rfl := hexec
    exact h hdup

end Console

/-! ### Sessions one after another -/

variable [DecidableEq F] {bc : Buffering} {start : F} {d : Console F}

/-- The run lemma. Between sessions standard output refers to what it did at the start. -/
lemma ConsoleRun.directed (run : ConsoleRun bc start d) : d.dupFailed = false →
    d.InStep bc ∧ d.region = .outside ∧ d.table stdoutFileno = some start := by
  induction run with
  | start hstdout => exact fun _ => ⟨⟨rfl, fun _ => rfl, by simp⟩, rfl, hstdout⟩
  | @print d run text ih =>
    intro hdup
    rw [Console.print_dupFailed] at hdup
    obtain ⟨hinStep, hregion, hstdout⟩ := ih hdup
    rw [Console.print_region, Console.print_table]
    exact ⟨hinStep.print hstdout text, hregion, hstdout⟩
  | @session d d' clientFD sock cmds run hfree hsock hserve ih =>
    intro hdup
    have hbefore : d.dupFailed = false →
        Console.Directed bc start clientFD sock
          { d with table := Function.update d.table clientFD (some sock) } .outside := by
      intro hd
      obtain ⟨hinStep, hregion, hstdout⟩ := ih hd
      have hne : clientFD ≠ stdoutFileno := by
        rintro rfl
        rw [hstdout] at hfree
        cases hfree
      refine ⟨⟨hinStep.buffer, hinStep.output, hinStep.nonempty⟩, hregion, ?_,
        Function.update_self .., hne, by simp⟩
      exact (Function.update_of_ne hne.symm _ _).trans hstdout
    obtain ⟨g, hafter, rfl⟩ := (redirects_serve clientFD cmds _).eval
      (I := fun d g => d.dupFailed = false → d.Directed bc start clientFD sock g)
      (fun d g op r d' h hpre hexec => ⟨trivial, Console.directed_step h hpre hexec⟩) hbefore hserve
    have h := hafter hdup
    refine ⟨⟨h.inStep.buffer, h.inStep.output, h.inStep.nonempty⟩, h.region, ?_⟩
    exact (Function.update_of_ne h.client_ne.symm _ _).trans h.stdout

/-- If no `dup` has failed, then every client has been sent exactly the bytes printed in its regions
if and only if the buffer was empty wherever the output of a region began or ended: line-buffered,
the byte before was a newline, and with a buffer that is written when it is full, nothing had been
printed at all. -/
theorem output_iff_settled (run : ConsoleRun bc start d) (hdup : d.dupFailed = false) :
    (∀ client, client ≠ start →
        d.output client = (d.printed.flatMap Buffered.items).filter fun x => x.1 = client) ↔
      Buffered.Settled (fun ys => bc.Flushed (ys.map Prod.snd)) start d.printed := by
  obtain ⟨hinStep, -, -⟩ := run.directed hdup
  simp only [hinStep.output, Buffered.sent_eq_iff hinStep.nonempty]
  have hflushed : ∀ ys, ys <+: d.printed →
      ((Buffered.ofList bc.rule ys).buffer = [] ↔ bc.Flushed (ys.map Prod.snd)) := by
    intro ys hys
    rw [Buffered.buffer_eq_nil_iff, bc.pending_eq_nil_iff]
    intro text htext
    obtain ⟨x, hx, rfl⟩ := List.mem_map.mp htext
    exact hinStep.nonempty x (hys.subset hx)
  exact ⟨fun h => h.imp fun ys hys => (hflushed ys hys).mp,
    fun h => h.imp fun ys hys => (hflushed ys hys).mpr⟩

/-- The command `ls`. -/
def lsCommand : Command := { cmd := str "ls" }

/-- A client on descriptor 4 has asked for the list of partitions, of a device that cannot be
opened. -/
def listed (bc : Buffering) : Console Bool :=
  let d : Console Bool := { table := fun fd => if fd = 1 then some false else none }
  let d := { d with table := Function.update d.table 4 (some true) }
  let d := d.print bc false lsCommand.trace
  let d := d.print bc false (str "listing parts\n")
  let d := { d with table := Function.update d.table 5 (d.table stdoutFileno), region := .saved 5 }
  let d := { d.dup2 4 stdoutFileno with region := .inside 5 }
  let d := d.print bc true (str "Parted device name: " ++ str "X" ++ str "\n")
  { d.dup2 5 stdoutFileno with region := .outside }

/-- The connection has been closed. -/
def closed (bc : Buffering) : Console Bool :=
  { listed bc with table := Function.update (listed bc).table 4 none }

lemma consoleRun_closed (bc : Buffering) : ConsoleRun bc false (closed bc) := by
  have hserve : (serve 4 [(lsCommand, fun _ => 0)] ⟨⟨0, 0⟩, 0⟩).Eval (consoleExec bc false true)
      { table := Function.update (fun fd => if fd = 1 then some false else none) 4 (some true) } ()
      (listed bc) := by
    rw [serve, dispatch_eq, show lsCommand.kind = .listparts from rfl]
    refine ⟨(), _, rfl, (), _, rfl, 5, _, Or.inr ⟨by decide, ?_, rfl⟩, (), _, rfl,
      some ⟨0, 512, str "X"⟩, _, rfl, (), _, rfl, false, _, rfl, (), _, rfl, 0, _, rfl, rfl, ?_⟩
    · simp
    · simp only [listed, Console.print_region]
      rfl
  exact .session (.start rfl) rfl (by decide) hserve

lemma closed_dupFailed (bc : Buffering) : (closed bc).dupFailed = false := by
  simp [closed, listed, Console.dup2, stdoutFileno]

lemma closed_printed (bc : Buffering) : (closed bc).printed =
    [(false, lsCommand.trace), (false, str "listing parts\n"),
      (true, str "Parted device name: X\n")] := by
  have htrace : lsCommand.trace ≠ [] := by decide
  have hlisting : str "listing parts\n" ≠ [] := by decide
  simp [closed, listed, Console.dup2, stdoutFileno, htrace, hlisting]
  rfl

/-- The buffer is empty after every line. -/
theorem output_iff_settled_line : ∃ d : Console Bool, ConsoleRun .line false d ∧
    d.output true = (str "Parted device name: X\n").map fun b => (true, b) := by
  have hsettled : Buffered.Settled (fun ys => Buffering.line.Flushed (ys.map Prod.snd)) false
      (closed .line).printed := by
    -- every text of the run ends with a newline
    have hlines : ∀ ys, ys <+: (closed .line).printed →
        Buffering.line.Flushed (ys.map Prod.snd) := by
      intro ys hys
      rw [closed_printed, ← List.mem_inits] at hys
      simp only [Buffering.Flushed]
      revert ys
      decide +kernel
    constructor
    · intro before x y after heq _
      exact hlines _ ⟨y :: after, by rw [heq]; simp⟩
    · intro _ _ _ _
      exact hlines _ List.prefix_rfl
  have hiff := output_iff_settled (consoleRun_closed .line) (closed_dupFailed .line)
  refine ⟨_, consoleRun_closed .line, ?_⟩
  rw [hiff.mpr hsettled true (by decide), closed_printed]
  decide

/-- With a buffer of 4096 bytes, what `ls` has printed for the client is still in the buffer when
the connection is closed. The client has been sent nothing. -/
theorem listing_not_sent : ∃ d : Console Bool, ConsoleRun (.full 4096) false d ∧
    d.dupFailed = false ∧ d.output true = [] ∧
    (d.printed.flatMap Buffered.items).filter (fun x => x.1 = true) =
      (str "Parted device name: X\n").map fun b => (true, b) := by
  have hrun := consoleRun_closed (.full 4096)
  have houtput := (hrun.directed (closed_dupFailed _)).1.output true
  rw [closed_printed] at houtput
  refine ⟨_, hrun, closed_dupFailed _, ?_, ?_⟩
  · rw [houtput]
    decide +kernel
  · rw [closed_printed]
    decide +kernel

end Aesd
