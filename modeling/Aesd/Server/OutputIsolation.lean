import Aesd.Server.Redirect

/-!
# Output isolation between clients

Which regions are open is read off the calls made so far (`Regions`). If the regions are nested,
standard output always refers to the client whose region was entered last, and each open region's
saved descriptor to what standard output referred to below it.
-/

namespace Aesd

open Effect CInt

variable {F Tid : Type}

/-- Where every thread is, and the threads inside a region, the one that entered last first. -/
structure Regions (Tid : Type) where
  region : Tid → Region := fun _ => .outside
  opened : List Tid := []

section

variable [DecidableEq Tid]

/-- One more call. -/
def Regions.observe (x : Regions Tid) (e : Event SysOp Answer Tid) : Regions Tid where
  region := Function.update x.region e.tid ((x.region e.tid).next e.op e.res)
  opened :=
    match e.op, x.region e.tid with
    | .dup2 _ _, .saved _  => e.tid :: x.opened
    | .dup2 _ _, .inside _ => x.opened.erase e.tid
    | _, _                 => x.opened

/-- The regions after the calls of a run. -/
def regionsOf (tr : List (Event SysOp Answer Tid)) : Regions Tid := tr.foldl Regions.observe {}

/-- If `t` is inside a region, no other region has been entered since and is still open. -/
def Regions.Innermost (x : Regions Tid) (t : Tid) : Prop :=
  (x.region t).isInside = true → x.opened.head? = some t

instance (x : Regions Tid) (t : Tid) : Decidable (x.Innermost t) :=
  inferInstanceAs (Decidable (_ → _))

/-- The step keeps the regions nested. `dup` does not fail; standard output is replaced or put back
only while no other thread is between its `dup` and its `dup2`, and put back only by the thread
that entered its region last; and only that thread prints inside a region. -/
def Nested (tr : List (Event SysOp Answer Tid)) (_ : Descriptors F) (e : Event SysOp Answer Tid) :
    Prop :=
  match e.op, e.res with
  | .dup _, r    => r ≠ -1
  | .dup2 _ _, _ =>
    (∀ u, u ≠ e.tid → ((regionsOf tr).region u).isSaved = false) ∧
      (regionsOf tr).Innermost e.tid
  | .printf _, _ => (regionsOf tr).Innermost e.tid
  | _, _         => True

end

/-! ### The invariant -/

/-- What standard output refers to when the regions of these threads are open. -/
def topOf (start : F) (sock : Tid → F) : List Tid → F
  | []     => start
  | t :: _ => sock t

/-- Every open region has saved what standard output referred to when it was entered. -/
def Stacked (start : F) (sock : Tid → F) (table : ℤ → Option F) (region : Tid → Region) :
    List Tid → Prop
  | []        => True
  | t :: rest =>
    (∃ fd, region t = .inside fd ∧ fd ≠ stdoutFileno ∧
      table fd = some (topOf start sock rest)) ∧
      t ∉ rest ∧ Stacked start sock table region rest

variable {start : F} {sock : Tid → F} {table table' : ℤ → Option F} {region region' : Tid → Region}

lemma Stacked.inside {opened : List Tid} (h : Stacked start sock table region opened) {t : Tid}
    (ht : t ∈ opened) : ∃ fd, region t = .inside fd := by
  induction opened with
  | nil => cases ht
  | cons u rest ih =>
    obtain ⟨⟨fd, hfd, -⟩, -, hrest⟩ := h
    rcases List.mem_cons.mp ht with rfl | ht
    · exact ⟨fd, hfd⟩
    · exact ih hrest ht

/-- Other threads and other descriptors do not matter. -/
lemma Stacked.congr {opened : List Tid} (h : Stacked start sock table region opened)
    (hregion : ∀ t ∈ opened, region' t = region t)
    (htable : ∀ fd f, fd ≠ stdoutFileno → table fd = some f → table' fd = some f) :
    Stacked start sock table' region' opened := by
  induction opened with
  | nil => trivial
  | cons t rest ih =>
    obtain ⟨⟨fd, hfd, hne, hsaved⟩, hnot, hrest⟩ := h
    refine ⟨⟨fd, ?_, hne, htable fd _ hne hsaved⟩, hnot, ih hrest ?_⟩
    · rw [hregion t List.mem_cons_self, hfd]
    · exact fun u hu => hregion u (List.mem_cons_of_mem _ hu)

/-- The invariant of a run. -/
structure Isolated (start : F) (sock : Tid → F) (clientFD : Tid → ℤ) (x : Regions Tid)
    (d : Descriptors F) : Prop where
  stdout : d.table stdoutFileno = some (topOf start sock x.opened)
  clients : ∀ t, d.table (clientFD t) = some (sock t)
  stacked : Stacked start sock d.table x.region x.opened
  opened : ∀ t fd, x.region t = .inside fd → t ∈ x.opened
  saved : ∀ t fd, x.region t = .saved fd →
    fd ≠ stdoutFileno ∧ d.table fd = some (topOf start sock x.opened)

variable {clientFD : Tid → ℤ} {x : Regions Tid} {d d' : Descriptors F} {t : Tid}

namespace Isolated

lemma not_mem_opened (h : Isolated start sock clientFD x d)
    (ht : ∀ fd, x.region t ≠ .inside fd) : t ∉ x.opened := by
  intro hmem
  obtain ⟨fd, hfd⟩ := h.stacked.inside hmem
  exact ht fd hfd

variable [DecidableEq Tid]

/-- A `dup` that succeeds. -/
lemma dup (h : Isolated start sock clientFD x d) (ht : x.region t = .outside) {r : ℤ}
    (hr : r ≠ -1) (hdup : Dups d stdoutFileno r d') :
    Isolated start sock clientFD (x.observe ⟨t, .dup stdoutFileno, r⟩) d' := by
  rcases hdup with ⟨hr', -⟩ | ⟨-, hfree, rfl⟩
  · exact absurd hr' hr
  -- the new descriptor was not open, so nothing else changes
  have htable : ∀ fd f, d.table fd = some f →
      Function.update d.table r (d.table stdoutFileno) fd = some f := by
    intro fd f hfd
    have hne : fd ≠ r := by
      rintro rfl
      rw [hfree] at hfd
      cases hfd
    rw [Function.update_of_ne hne, hfd]
  have hnot : t ∉ x.opened := h.not_mem_opened fun fd => by rw [ht]; nofun
  have hregion : ∀ u, u ≠ t → (x.observe ⟨t, .dup stdoutFileno, r⟩).region u = x.region u :=
    fun u hu => Function.update_of_ne hu _ _
  have hself : (x.observe ⟨t, .dup stdoutFileno, r⟩).region t = .saved r :=
    Function.update_self ..
  refine ⟨htable _ _ h.stdout, fun u => htable _ _ (h.clients u), ?_, ?_, ?_⟩
  · refine h.stacked.congr (fun u hu => hregion u ?_) fun fd f _ => htable fd f
    rintro rfl
    exact hnot hu
  · intro u fd hu
    by_cases hut : u = t
    · rw [hut, hself] at hu
      cases hu
    · rw [hregion u hut] at hu
      exact h.opened u fd hu
  · intro u fd hu
    by_cases hut : u = t
    · rw [hut, hself] at hu
      cases hu
      refine ⟨?_, ?_⟩
      · rintro rfl
        rw [h.stdout] at hfree
        cases hfree
      · exact (Function.update_self ..).trans h.stdout
    · rw [hregion u hut] at hu
      exact ⟨(h.saved u fd hu).1, htable _ _ (h.saved u fd hu).2⟩

/-- Standard output set to what an open descriptor refers to. -/
lemma dup2_table {oldfd : ℤ} {f : F} (hold : d.table oldfd = some f) :
    (d.dup2 oldfd stdoutFileno).table = Function.update d.table stdoutFileno (some f) := by
  rw [Descriptors.dup2, hold]

/-- Standard output replaced by the client. -/
lemma enter (h : Isolated start sock clientFD x d) (hfd : ∀ u, clientFD u ≠ stdoutFileno)
    {saved : ℤ} (ht : x.region t = .saved saved)
    (hsaved : ∀ u, u ≠ t → (x.region u).isSaved = false)
    (r : Answer (.dup2 (clientFD t) stdoutFileno)) :
    Isolated start sock clientFD (x.observe ⟨t, .dup2 (clientFD t) stdoutFileno, r⟩)
      (d.dup2 (clientFD t) stdoutFileno) := by
  have htable := dup2_table (h.clients t)
  have hself : (x.observe ⟨t, .dup2 (clientFD t) stdoutFileno, r⟩).region t = .inside saved := by
    simp [Regions.observe, Region.next, ht]
  have hregion : ∀ u, u ≠ t →
      (x.observe ⟨t, .dup2 (clientFD t) stdoutFileno, r⟩).region u = x.region u :=
    fun u hu => Function.update_of_ne hu _ _
  have hopened : (x.observe ⟨t, .dup2 (clientFD t) stdoutFileno, r⟩).opened = t :: x.opened := by
    simp [Regions.observe, ht]
  have hnot : t ∉ x.opened := h.not_mem_opened fun fd => by rw [ht]; nofun
  obtain ⟨hne, hbelow⟩ := h.saved t saved ht
  refine ⟨?_, ?_, ?_, ?_, ?_⟩
  · rw [htable, hopened]
    exact Function.update_self ..
  · intro u
    rw [htable, Function.update_of_ne (hfd u)]
    exact h.clients u
  · rw [htable, hopened]
    refine ⟨⟨saved, hself, hne, ?_⟩, hnot, h.stacked.congr (fun u hu => hregion u ?_) ?_⟩
    · rw [Function.update_of_ne hne]
      exact hbelow
    · rintro rfl
      exact hnot hu
    · intro fd f hfdne hf
      rw [Function.update_of_ne hfdne]
      exact hf
  · intro u fd hu
    rw [hopened]
    by_cases hut : u = t
    · rw [hut]
      exact List.mem_cons_self
    · rw [hregion u hut] at hu
      exact List.mem_cons_of_mem _ (h.opened u fd hu)
  · intro u fd hu
    by_cases hut : u = t
    · rw [hut, hself] at hu
      cases hu
    · rw [hregion u hut] at hu
      have hnone := hsaved u hut
      rw [hu] at hnone
      cases hnone

/-- Standard output put back by the thread that entered last. -/
lemma restore (h : Isolated start sock clientFD x d) (hfd : ∀ u, clientFD u ≠ stdoutFileno)
    {saved : ℤ} (ht : x.region t = .inside saved)
    (hsaved : ∀ u, u ≠ t → (x.region u).isSaved = false)
    (hlast : x.opened.head? = some t) (r : Answer (.dup2 saved stdoutFileno)) :
    Isolated start sock clientFD (x.observe ⟨t, .dup2 saved stdoutFileno, r⟩)
      (d.dup2 saved stdoutFileno) := by
  obtain ⟨rest, hrest⟩ := List.head?_eq_some_iff.mp hlast
  have hstacked := h.stacked
  rw [hrest] at hstacked
  obtain ⟨⟨fd, hinside, hne, hbelow⟩, hnot, hstacked⟩ := hstacked
  rw [ht, Region.inside.injEq] at hinside
  subst hinside
  have htable := dup2_table hbelow
  have hself : (x.observe ⟨t, .dup2 saved stdoutFileno, r⟩).region t = .outside := by
    simp [Regions.observe, Region.next, ht]
  have hregion : ∀ u, u ≠ t →
      (x.observe ⟨t, .dup2 saved stdoutFileno, r⟩).region u = x.region u :=
    fun u hu => Function.update_of_ne hu _ _
  have hopened : (x.observe ⟨t, .dup2 saved stdoutFileno, r⟩).opened = rest := by
    simp [Regions.observe, ht, hrest]
  refine ⟨?_, ?_, ?_, ?_, ?_⟩
  · rw [htable, hopened]
    exact Function.update_self ..
  · intro u
    rw [htable, Function.update_of_ne (hfd u)]
    exact h.clients u
  · rw [htable, hopened]
    refine hstacked.congr (fun u hu => hregion u ?_) ?_
    · rintro rfl
      exact hnot hu
    · intro fd f hfdne hf
      rw [Function.update_of_ne hfdne]
      exact hf
  · intro u fd hu
    have hut : u ≠ t := by
      rintro rfl
      rw [hself] at hu
      cases hu
    rw [hregion u hut] at hu
    have hmem := h.opened u fd hu
    rw [hrest] at hmem
    rw [hopened]
    exact (List.mem_cons.mp hmem).resolve_left hut
  · intro u fd hu
    have hut : u ≠ t := by
      rintro rfl
      rw [hself] at hu
      cases hu
    rw [hregion u hut] at hu
    have hnone := hsaved u hut
    rw [hu] at hnone
    cases hnone

/-- Other calls change neither the regions nor the table. -/
lemma other (h : Isolated start sock clientFD x d) {op : SysOp} (hop : op.KeepsFds) (r : Answer op)
    (htable : d'.table = d.table) : Isolated start sock clientFD (x.observe ⟨t, op, r⟩) d' := by
  have hx : x.observe ⟨t, op, r⟩ = x := by
    cases op with
    | dup fd => exact hop.elim
    | dup2 oldfd newfd => exact hop.elim
    | _ => simp [Regions.observe, Region.next]
  rw [hx]
  refine ⟨?_, ?_, ?_, h.opened, ?_⟩
  · rw [htable]
    exact h.stdout
  · rw [htable]
    exact h.clients
  · rw [htable]
    exact h.stacked
  · rw [htable]
    exact h.saved

end Isolated

variable [DecidableEq Tid] [DecidableEq F]

lemma regionsOf_concat (tr : List (Event SysOp Answer Tid)) (e : Event SysOp Answer Tid) :
    regionsOf (tr ++ [e]) = (regionsOf tr).observe e :=
  List.foldl_concat ..

/-- One call of a thread that redirects properly. -/
lemma Isolated.step (h : Isolated start sock clientFD x d) (hfd : ∀ u, clientFD u ≠ stdoutFileno)
    {tr : List (Event SysOp Answer Tid)} (hx : x = regionsOf tr) {op : SysOp} {r : Answer op}
    (hpre : (redirectUse (clientFD t)).pre (x.region t) op) (hC : Nested tr d ⟨t, op, r⟩)
    (hexec : fdExec op d r d') : Isolated start sock clientFD (x.observe ⟨t, op, r⟩) d' := by
  subst hx
  cases op with
  | dup fd =>
    obtain ⟨rfl, hout⟩ := hpre
    exact h.dup hout hC hexec
  | dup2 oldfd newfd =>
    obtain ⟨rfl, hold⟩ := hpre
    obtain rfl : d' = d.dup2 oldfd stdoutFileno := hexec
    cases hregion : (regionsOf tr).region t with
    | outside =>
      rw [hregion] at hold
      exact hold.elim
    | saved fd =>
      rw [hregion] at hold
      obtain rfl : oldfd = clientFD t := hold
      exact h.enter hfd hregion hC.1 r
    | inside fd =>
      rw [hregion] at hold
      obtain rfl : oldfd = fd := hold
      exact h.restore hfd hregion hC.1 (hC.2 (by rw [hregion]; rfl)) r
  | printf text =>
    obtain rfl : d' = d.print text := hexec
    refine h.other (by trivial) r ?_
    rw [Descriptors.print]
    split <;> rfl
  | _ =>
    obtain rfl : d' = d := hexec
    exact h.other (by trivial) r rfl

/-- In every interleaving that keeps the regions nested, of any number of sessions that run any
commands, text printed inside a thread's region goes to that thread's client and nowhere else, and
when no thread is inside a region standard output is what it was at the start. -/
theorem output_isolated {cmds : Tid → List (Command × (ℕ → Byte))} {perfJob : Tid → PerfJobInfo}
    {tr : List (Event SysOp Answer Tid)} {c : Config SysOp Answer Unit (Descriptors F) Tid}
    (hstart : d.table stdoutFileno = some start)
    (hclients : ∀ t, clientFD t ≠ stdoutFileno ∧ d.table (clientFD t) = some (sock t))
    (run : Run fdExec Nested ⟨d, fun t => serve (clientFD t) (cmds t) (perfJob t)⟩ tr c) :
    (∀ t text s', ((regionsOf tr).region t).isInside = true →
      Nested tr c.state ⟨t, .printf text, ()⟩ → fdExec (.printf text) c.state () s' →
      s'.output = Function.update c.state.output (sock t) (c.state.output (sock t) ++ text)) ∧
    ((∀ t, (regionsOf tr).region t = .outside) → c.state.table stdoutFileno = some start) := by
  have hinit : Isolated start sock clientFD (regionsOf []) d :=
    ⟨hstart, fun t => (hclients t).2, trivial, nofun, nofun⟩
  have hinv := run.invariant (fun t => redirectUse (clientFD t)) (fun _ g _ => g = .outside)
    (fun tr s g => Isolated start sock clientFD (regionsOf tr) s ∧ g = (regionsOf tr).region)
    (fun _ => .outside) ⟨hinit, rfl⟩
    (fun t => by exact redirects_serve (clientFD t) (cmds t) (perfJob t)) ?_
  · obtain ⟨g, ⟨h, rfl⟩, -⟩ := hinv
    constructor
    · rintro t text s' hinside hnested rfl
      obtain ⟨rest, hrest⟩ := List.head?_eq_some_iff.mp (hnested hinside)
      have hstdout := h.stdout
      rw [hrest] at hstdout
      rw [Descriptors.print, hstdout]
      rfl
    · intro houtside
      have hnil : (regionsOf tr).opened = [] := by
        refine List.eq_nil_iff_forall_not_mem.mpr fun t => h.not_mem_opened fun fd => ?_
        rw [houtside t]
        nofun
      rw [h.stdout, hnil]
      rfl
  · rintro tr s g t op r s' ⟨h, rfl⟩ hpre hC hexec
    refine ⟨trivial, ?_, ?_⟩
    · rw [regionsOf_concat]
      exact h.step (fun u => (hclients u).1) rfl hpre hC hexec
    · rw [regionsOf_concat]
      rfl

/-! ### Two clients -/

/-- One possible answer to each call of `ls`: `dup` and `send` return the given number, the device
is there but cannot be opened. -/
def fdRespond : (op : SysOp) → Descriptors F → ℤ → Option (Answer op × Descriptors F)
  | .dup fd, d, r           =>
    if 0 ≤ r ∧ (d.table r).isNone then
      some (r, { d with table := Function.update d.table r (d.table fd) })
    else none
  | .dup2 oldfd newfd, d, _ => some ((), d.dup2 oldfd newfd)
  | .printf text, d, _      => some ((), d.print text)
  | .send _ _, d, r         => some (r, d)
  | .pedDeviceGet, d, _     => some (some ⟨100, 512, str "disk"⟩, d)
  | .pedDeviceOpen, d, _    => some (false, d)
  | _, _, _                 => none

lemma fdRespond_exec (op : SysOp) (d : Descriptors F) (ch : ℤ) (r : Answer op)
    (d' : Descriptors F) (h : fdRespond op d ch = some (r, d')) : fdExec op d r d' := by
  cases op with
  | dup fd =>
    simp only [fdRespond] at h
    split_ifs at h with hch
    cases h
    exact Or.inr ⟨hch.1, Option.isNone_iff_eq_none.mp hch.2, rfl⟩
  | dup2 oldfd newfd =>
    cases h
    rfl
  | printf text =>
    cases h
    rfl
  | send fd text =>
    cases h
    rfl
  | pedDeviceGet =>
    cases h
    rfl
  | pedDeviceOpen =>
    cases h
    rfl
  | _ => cases h

/-- Standard output is the console (`none`), and two clients are connected. -/
def twoClients : Descriptors (Option Bool) where
  table fd := if fd = 1 then some none else if fd = 4 then some (some true)
    else if fd = 5 then some (some false) else none
  output _ := []

/-- The descriptors of the two clients. -/
def twoFds : Bool → ℤ
  | true  => 4
  | false => 5

/-- Both clients send `ls`. -/
def bothList : Config SysOp Answer Unit (Descriptors (Option Bool)) Bool where
  state := twoClients
  pool t := serve (twoFds t) [({ cmd := str "ls" }, fun _ => 0)] ⟨⟨0, 0⟩, 0⟩

/-- The condition, decided for two threads. -/
def nestedBool (tr : List (Event SysOp Answer Bool)) (_ : Descriptors (Option Bool))
    (e : Event SysOp Answer Bool) : Bool :=
  match e.op, e.res with
  | .dup _, r    => decide (r ≠ -1)
  | .dup2 _ _, _ =>
    decide (∀ u, u ≠ e.tid → ((regionsOf tr).region u).isSaved = false) &&
      decide ((regionsOf tr).Innermost e.tid)
  | .printf _, _ => decide ((regionsOf tr).Innermost e.tid)
  | _, _         => true

lemma nested_of_nestedBool (tr : List (Event SysOp Answer Bool)) (d : Descriptors (Option Bool))
    (e : Event SysOp Answer Bool) (h : nestedBool tr d e = true) : Nested tr d e := by
  obtain ⟨t, op, r⟩ := e
  cases op with
  | dup fd =>
    have hr : r ≠ -1 := of_decide_eq_true h
    exact hr
  | dup2 oldfd newfd =>
    obtain ⟨hsaved, hlast⟩ := Bool.and_eq_true_iff.mp h
    exact ⟨of_decide_eq_true hsaved, of_decide_eq_true hlast⟩
  | printf text =>
    have hlast : (regionsOf tr).Innermost t := of_decide_eq_true h
    exact hlast
  | _ => trivial

/-- The text `ls` prints inside its region when the device cannot be opened. -/
def modelLine : Text := str "Parted device name: disk\n"

/-- The second client's region lies inside the first one's. -/
def nestedSchedule : List (Bool × ℤ) :=
  [(true, 0), (true, 0), (false, 0), (false, 0), (true, 6), (true, 0)] ++
  [(false, 7)] ++ List.replicate 6 (false, 0) ++ List.replicate 5 (true, 0)

theorem output_isolated_nested : ∃ tr c, Run fdExec Nested bothList tr c ∧
    c.state.output (some true) = modelLine ∧ c.state.output (some false) = modelLine ∧
    c.state.table stdoutFileno = some none := by
  obtain ⟨tr, c, run, htest⟩ := exists_run_of_play nestedBool bothList nestedSchedule
    (fun x => x.2.state.output (some true) = modelLine ∧
      x.2.state.output (some false) = modelLine ∧
      ∀ t, (regionsOf x.1).region t = .outside) fdRespond_exec nested_of_nestedBool (by decide)
  simp only [decide_eq_true_eq] at htest
  have hclients : ∀ t, twoFds t ≠ stdoutFileno ∧ twoClients.table (twoFds t) = some (some t) := by
    decide
  exact ⟨tr, c, run, htest.1, htest.2.1, (output_isolated rfl hclients run).2 htest.2.2⟩

/-- The first client's thread leaves its region while the second one's is still inside. -/
def overlappingSchedule : List (Bool × ℤ) :=
  [(true, 0), (true, 0), (false, 0), (false, 0), (true, 6), (true, 0), (false, 7), (false, 0)] ++
  List.replicate 5 (true, 0) ++ List.replicate 5 (false, 0)

/-- The first client gets nothing of its own output, the second one gets the first one's, and
standard output is left on the first client's socket. -/
theorem output_not_isolated_overlapping : ∃ tr c, Run fdExec anyStep bothList tr c ∧
    (∀ t, (regionsOf tr).region t = .outside) ∧
    c.state.output (some true) = [] ∧ c.state.output (some false) = modelLine ∧
    c.state.table stdoutFileno = some (some true) ∧
    bothList.state.table stdoutFileno = some none := by
  obtain ⟨tr, c, run, htest⟩ := exists_run_of_play (C := anyStep) (fun _ _ _ => true) bothList
    overlappingSchedule
    (fun x => (∀ t, (regionsOf x.1).region t = .outside) ∧ x.2.state.output (some true) = [] ∧
      x.2.state.output (some false) = modelLine ∧
      x.2.state.table stdoutFileno = some (some true)) fdRespond_exec (fun _ _ _ _ => trivial)
    (by decide)
  simp only [decide_eq_true_eq] at htest
  exact ⟨tr, c, run, htest.1, htest.2.1, htest.2.2.1, htest.2.2.2, rfl⟩

end Aesd
