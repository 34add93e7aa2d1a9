import Aesd.Server.HexDump
import Aesd.Server.Listing
import Aesd.Server.Redirect
import Aesd.Server.SectorSizes

/-!
# The dump in reply to `read`

`read` puts a NUL at the end of its buffer, for the text form of the reply, before it looks at how
the contents are to be shown. The dump has it too, in the place of the last byte that was read
(`hexReply_iff`).
-/

namespace Aesd

open Effect CInt Bytes

/-! ### What goes to the client -/

/-- The texts printed inside the regions of a run that has come to `g`. -/
def regionText (g : Region) : List (Prog.Answered SysOp Answer) → Text
  | []      => []
  | e :: tr => (if g.isInside then (printedTexts [e]).flatten else []) ++
      regionText (g.next e.1 e.2) tr

/-- A run of the program from `d` may send standard output to the client, and `text` is what it then
prints. -/
def Dumps (d : Device) (program : Sys Unit) (clientFD : ℤ) (text : Text) : Prop :=
  ∃ tr d', program.EvalTrace pedExec d tr () d' ∧
    (⟨.dup2 clientFD stdoutFileno, ()⟩ : Prog.Answered SysOp Answer) ∈ tr ∧
    regionText .outside tr = text

/-- `read p 0 n -b`, with the tokens `p` and `n`. -/
def hexReadCommand (p n : Text) : Command where
  cmd := str "read"
  arg1 := some p
  arg2 := some (str "0")
  arg3 := some n
  extra := some (str "-b")

/-- The hex columns of whatever dump the command sends give the contents of the first `count`
sectors of the partition. -/
def HexReplyExact (clientFD : ℤ) (c : Command) (d : Device) (part : PedPartition) (count : ℕ) :
    Prop :=
  ∀ text, Dumps d (read clientFD c) clientFD text →
    readHexDump text = some (d.readSectors part.geom.start count)

variable {α : Type} {d d' : Device} {tr tr' : List (Prog.Answered SysOp Answer)} {g : Region}
  {clientFD : ℤ} {part : PedPartition} {p n text : Text} {count : ℕ}

/-- A run that leaves the descriptors alone stays in its region. -/
lemma regionText_append (htr : ∀ e ∈ tr, e.1.KeepsFds) : regionText g (tr ++ tr') =
    (if g.isInside then (printedTexts tr).flatten else []) ++ regionText g tr' := by
  induction tr with
  | nil => simp [printedTexts]
  | cons e tr ih =>
    have hnext : g.next e.1 e.2 = g := by
      obtain ⟨op, r⟩ := e
      have hop := htr _ List.mem_cons_self
      cases op <;> first | rfl | exact hop.elim
    have hprinted : printedTexts (e :: tr) = printedTexts [e] ++ printedTexts tr :=
      List.filterMap_append (l := [e])
    rw [List.cons_append, regionText, hnext, ih fun e' he' => htr e' (List.mem_cons_of_mem _ he'),
      hprinted, List.flatten_append, ← List.append_assoc]
    congr 1
    split_ifs <;> rfl

/-- What comes before the region does not show. -/
lemma dumps_bind {q : Sys α} (hq : Stays q) {f : α → Sys Unit} :
    Dumps d (q >>= f) clientFD text ↔
      ∃ a d₁, q.Eval pedExec d a d₁ ∧ Dumps d₁ (f a) clientFD text := by
  have hrest : ∀ {tr₁ tr₂ a d₁}, q.EvalTrace pedExec d tr₁ a d₁ →
      regionText .outside (tr₁ ++ tr₂) = regionText .outside tr₂ :=
    fun hfirst => regionText_append (hq.evalTrace hfirst)
  constructor
  · rintro ⟨tr, d', h, hmem, rfl⟩
    obtain ⟨tr₁, tr₂, a, d₁, rfl, hfirst, h⟩ := Prog.evalTrace_bind.mp h
    refine ⟨a, d₁, hfirst.eval, tr₂, d', h, ?_, (hrest hfirst).symm⟩
    exact (List.mem_append.mp hmem).resolve_left (hq.evalTrace hfirst _)
  · rintro ⟨a, d₁, hfirst, tr₂, d', h, hmem, rfl⟩
    obtain ⟨tr₁, hfirst⟩ := hfirst.exists_trace
    exact ⟨tr₁ ++ tr₂, d', Prog.evalTrace_bind.mpr ⟨tr₁, tr₂, a, d₁, rfl, hfirst, h⟩,
      List.mem_append_right _ hmem, hrest hfirst⟩

/-- What a first part finds out does not matter to what is sent. -/
lemma dumps_bind_yields {q : Sys α} {R : α → Prop} (hq : Stays q) (hyields : Yields d q R)
    {f : α → Sys Unit} :
    Dumps d (q >>= f) clientFD text ↔ ∃ a, R a ∧ Dumps d (f a) clientFD text := by
  rw [dumps_bind hq]
  constructor
  · rintro ⟨a, d₁, heval, h⟩
    obtain ⟨ha, rfl⟩ := (hyields.eval a d₁).mp heval
    exact ⟨a, ha, h⟩
  · rintro ⟨a, ha, h⟩
    exact ⟨a, d, (hyields.eval a d).mpr ⟨ha, rfl⟩, h⟩

lemma not_dumps_of_stays {q : Sys Unit} (hq : Stays q) : ¬ Dumps d q clientFD text := by
  rintro ⟨tr, d', h, hmem, -⟩
  exact hq.evalTrace h _ hmem

/-- Texts that are printed in a region are what is sent. -/
lemma dumps_redirected {texts : List Text} {block : Option ℕ} :
    Dumps d (redirected clientFD (printAll texts) >>= fun _ => sys (.free block)) clientFD text ↔
      text = texts.flatten := by
  have hprogram : (redirected clientFD (printAll texts) >>= fun _ => sys (.free block)) =
      .call (.dup stdoutFileno) fun saved => .call (.dup2 clientFD stdoutFileno) fun _ =>
        printAll texts >>= fun _ =>
          .call (.dup2 saved stdoutFileno) fun _ => sys (.free block) := by
    simp only [redirected, Prog.perform_bind, Prog.call_bind, Prog.bind_assoc, Prog.ret_bind,
      Prog.pure_eq_ret]
  have htext : ∀ {saved : ℤ} {tr d₁ d₂}, (printAll texts).EvalTrace pedExec d₁ tr () d₂ →
      regionText .outside (⟨.dup stdoutFileno, saved⟩ :: ⟨.dup2 clientFD stdoutFileno, ()⟩ ::
        (tr ++ [⟨.dup2 saved stdoutFileno, ()⟩, ⟨.free block, ()⟩])) = texts.flatten := by
    intro saved tr d₁ d₂ hprint
    change regionText (.inside saved) _ = _
    rw [regionText_append ((@plain_printAll clientFD texts).stays.evalTrace hprint),
      printAll_trace hprint]
    exact List.append_nil _
  rw [hprogram]
  constructor
  · rintro ⟨tr, d', h, -, rfl⟩
    obtain ⟨saved, d₁, _, rfl, -, _, d₂, _, rfl, -, h⟩ := h
    obtain ⟨tr, _, _, d₃, rfl, hprint, hrestore⟩ := Prog.evalTrace_bind.mp h
    obtain ⟨_, _, _, rfl, -, _, _, _, rfl, -, rfl, -⟩ := hrestore
    exact htext hprint
  · -- a run in which the standard output is redirected, and restored
    rintro rfl
    obtain ⟨tr, hprint⟩ := (eval_printAll d texts).exists_trace
    refine ⟨_, d, ⟨0, d, _, rfl, rfl, (), d, _, rfl, rfl, ?_⟩, ?_, htext hprint⟩
    · refine Prog.evalTrace_bind.mpr ⟨tr, _, (), d, rfl, hprint, ?_⟩
      exact ⟨(), d, _, rfl, rfl, (), d, [], rfl, rfl, rfl, rfl, rfl⟩
    · simp

/-! ### The contents that are shown -/

/-- Nothing is sent unless the sectors have been read. -/
lemma dumps_finishRead {size : ℤ} {readBuffer : Option (ℕ × (ℕ → Byte))} {rc : NvmeStatus}
    {bytes : List Byte} :
    Dumps d (finishRead clientFD true size readBuffer rc bytes) clientFD text ↔
      rc = .ok ∧ ∃ block leftover, readBuffer = some (block, leftover) ∧
        text = (hexDump (readBufferContents size bytes leftover)).flatten := by
  have hrefused : ∀ reason, Stays (do
      reply clientFD reason
      sys (.free (readBuffer.map (·.1)))) :=
    fun reason => (plain_reply _ _).stays.bind fun _ => ⟨trivial, fun _ => trivial⟩
  unfold finishRead
  split_ifs with hpartDne hok
  · exact iff_of_false (not_dumps_of_stays (hrefused _)) (by simp [hpartDne])
  · exact iff_of_false (not_dumps_of_stays (hrefused _)) (fun h => hok h.1)
  · rw [not_not] at hok
    cases readBuffer with
    | none => exact iff_of_false (not_dumps_of_stays stays_fault) (by simp)
    | some x =>
      obtain ⟨block, leftover⟩ := x
      constructor
      · intro h
        exact ⟨hok, block, leftover, rfl, dumps_redirected.mp h⟩
      · rintro ⟨-, _, _, heq, h⟩
        cases heq
        exact dumps_redirected.mpr h

/-- What `read p 0 n -b` sends of a partition that has `n` sectors. -/
lemma dumps_read (hsectors : d.SectorsSized) (hsize : d.dev.sectorSize = 512)
    (hpart : pedDiskGetPartition d.table (toI32 (toU32 (atoi p))) = some part)
    (hcount : atoi n = count) (hpos : 1 ≤ count) (hmax : 512 * count ≤ 2 ^ 31 - 1)
    (hfits : count ≤ part.geom.length) :
    Dumps d (read clientFD (hexReadCommand p n)) clientFD text ↔
      text = (hexDump ((d.readSectors part.geom.start count).set (512 * count - 1) 0)).flatten := by
  have hlt : 0 < atoi n := by omega
  have hbuffer : readBufferSize (atoi n) = (512 * count : ℕ) := by
    rw [readBufferSize, hcount, toI32_of_range (by omega) (by omega),
      toU64_of_range (by omega) (by omega)]
    omega
  have hhex : (hexReadCommand p n).extra.any (fun extra => strncmp extra (str "-b") 3 == 0) =
      true := by
    change (strncmp (str "-b") (str "-b") 3 == 0) = true
    decide
  have hquot : ((512 * count : ℕ) : ℤ) / d.dev.sectorSize = count := by
    rw [hsize]
    omega
  have hfull : (d.readSectors part.geom.start count).length = 512 * count := by
    rw [hsectors.length_readSectors, hsize, Int.toNat_natCast, mul_comm]
  have hoffset : sectorOffsetArg clientFD (hexReadCommand p n).arg2 = .ret (atoi (str "0")) := rfl
  rw [read_eq rfl rfl hlt, hhex, hbuffer, hoffset, Prog.ret_bind]
  rw [dumps_bind_yields (@plain_printf clientFD _).stays (yields_printf _)]
  simp only [true_and, exists_const]
  rw [dumps_bind_yields (show Stays (sys (.malloc _)) from ⟨trivial, fun _ => trivial⟩)
    (yields_malloc _)]
  simp only [dumps_bind_yields (plain_reply _ _).stays (yields_reply _ _), true_and, exists_const,
    dumps_bind (@plain_nvmeReadPartitionSector clientFD _ _ _).stays]
  constructor
  · rintro ⟨readBuffer, ⟨rc, bytes⟩, d₁, hread, h⟩
    obtain ⟨rfl, block, leftover, -, rfl⟩ := dumps_finishRead.mp h
    obtain ⟨part', hpart', -, hbytes, -⟩ := eval_nvmeReadPartitionSector_ok.mp hread
    rw [hpart] at hpart'
    cases hpart'
    rw [hbytes, hquot, toI32_of_range (by omega) (by omega), readBufferContents_eq_set hfull]
  · -- a run in which `malloc` returns a block, and the read succeeds
    rintro rfl
    refine ⟨some (0, fun _ => 0), (.ok, _), d, eval_nvmeReadPartitionSector_ok.mpr
      ⟨part, hpart, ?_, rfl, rfl⟩, dumps_finishRead.mpr ⟨rfl, 0, fun _ => 0, rfl, ?_⟩⟩
    · rw [hquot, toI32_of_range (by omega) (by omega)]
      exact ⟨le_rfl, by omega, by omega⟩
    · rw [hquot, toI32_of_range (by omega) (by omega), readBufferContents_eq_set hfull]

/-- The last byte of a run of sectors is in the last one of them. -/
lemma getElem?_readSectors_last (hsectors : d.SectorsSized) (hsize : d.dev.sectorSize = 512)
    (first : ℤ) (hpos : 1 ≤ count) : (d.readSectors first count)[512 * count - 1]? =
      (d.sectors (first + (count - 1)))[511]? := by
  obtain ⟨k, rfl⟩ := Nat.exists_eq_add_of_le' hpos
  have hsplit : d.readSectors first (k + 1 : ℕ) =
      d.readSectors first k ++ d.sectors (first + k) := by
    simp [Device.readSectors, List.range_succ]
  have hlength : (d.readSectors first k).length = 512 * k := by
    rw [hsectors.length_readSectors, hsize, Int.toNat_natCast, mul_comm]
  rw [hsplit, List.getElem?_append_right (by omega), hlength,
    show 512 * (k + 1) - 1 - 512 * k = 511 by omega, Nat.cast_add_one, add_sub_cancel_right]

/-- The dump gives the bytes of the sectors exactly if the last one is the NUL that is put there. -/
theorem hexReply_iff (hsectors : d.SectorsSized) (hsize : d.dev.sectorSize = 512)
    (hpart : pedDiskGetPartition d.table (toI32 (toU32 (atoi p))) = some part)
    (hcount : atoi n = count) (hpos : 1 ≤ count) (hmax : 512 * count ≤ 2 ^ 31 - 1)
    (hfits : count ≤ part.geom.length) :
    HexReplyExact clientFD (hexReadCommand p n) d part count ↔
      (d.sectors (part.geom.start + (count - 1)))[511]? = some 0 := by
  have hexact : HexReplyExact clientFD (hexReadCommand p n) d part count ↔
      (d.readSectors part.geom.start count).set (512 * count - 1) 0 =
        d.readSectors part.geom.start count := by
    have hdumps : ∀ text, Dumps d (read clientFD (hexReadCommand p n)) clientFD text ↔ text =
        (hexDump ((d.readSectors part.geom.start count).set (512 * count - 1) 0)).flatten :=
      fun _ => dumps_read hsectors hsize hpart hcount hpos hmax hfits
    constructor
    · intro h
      exact Option.some.inj ((readHexDump_hexDump _).symm.trans (h _ ((hdumps _).mpr rfl)))
    · intro h text htext
      rw [(hdumps text).mp htext, readHexDump_hexDump, h]
  have hlt : 512 * count - 1 < (d.readSectors part.geom.start count).length := by
    rw [hsectors.length_readSectors, hsize, Int.toNat_natCast]
    omega
  rw [hexact, ← getElem?_readSectors_last hsectors hsize _ hpos]
  constructor
  · intro h
    rw [← h, List.getElem?_set_self hlt]
  · intro h
    obtain ⟨_, hlast⟩ := List.getElem?_eq_some_iff.mp h
    rw [← hlast, List.set_getElem_self]

/-- A first sector full of `A`, and others of `B` that end in a NUL. -/
def stringSectors (lba : ℤ) : List Byte :=
  if lba = tenSectors.geom.start then List.replicate 512 65 else List.replicate 511 66 ++ [0]

def stringsDisk : Device := { zeroDisk 512 with sectors := stringSectors }

theorem hexReply_strings :
    HexReplyExact 4 (hexReadCommand (str "1") (str "2")) stringsDisk tenSectors 2 ∧
      stringsDisk.readSectors tenSectors.geom.start 2 =
        List.replicate 512 65 ++ (List.replicate 511 66 ++ [0]) := by
  have hfirst : stringSectors tenSectors.geom.start = List.replicate 512 65 := if_pos rfl
  have hsecond : stringSectors (tenSectors.geom.start + 1) = List.replicate 511 66 ++ [0] :=
    if_neg (by decide)
  have hsectors : stringsDisk.SectorsSized := by
    intro lba
    show (stringSectors lba).length = 512
    rw [stringSectors]
    split_ifs
    · exact List.length_replicate
    · rw [List.length_append, List.length_replicate, List.length_singleton]
  have hlast : (List.replicate 511 (66 : Byte) ++ [0])[511]? = some 0 := by
    rw [List.getElem?_append_right (List.length_replicate.le), List.length_replicate]
    rfl
  constructor
  · refine (hexReply_iff hsectors rfl rfl (by decide) (by decide) (by decide) (by decide)).mpr ?_
    rw [← hlast, ← hsecond]
    rfl
  · show stringSectors (tenSectors.geom.start + 0) ++
      (stringSectors (tenSectors.geom.start + 1) ++ []) = _
    rw [add_zero, hfirst, hsecond, List.append_nil]

/-- A disk with sectors that are full of `A`. -/
def lettersDisk : Device := { zeroDisk 512 with sectors := fun _ => List.replicate 512 65 }

/-- `read 1 0 1 -b` does not show the last byte of a sector that ends in `A`. -/
theorem not_hexReply_letters :
    ¬ HexReplyExact 4 (hexReadCommand (str "1") (str "1")) lettersDisk tenSectors 1 := by
  intro h
  have hcount : atoi (str "1") = (1 : ℕ) := by decide
  have hdump := h _ ((dumps_read (fun _ => List.length_replicate) rfl rfl hcount le_rfl (by decide)
    (by decide)).mpr rfl)
  have hcontents : lettersDisk.readSectors tenSectors.geom.start (1 : ℕ) = List.replicate 512 65 :=
    List.append_nil _
  rw [readHexDump_hexDump, Option.some.injEq, hcontents] at hdump
  have hlt : 511 < (List.replicate 512 (65 : Byte)).length := by
    rw [List.length_replicate]
    decide
  have hlast : (List.replicate 512 (65 : Byte))[511]? = some 0 := by
    rw [← hdump]
    exact List.getElem?_set_self hlt
  rw [List.getElem?_replicate_of_lt (by decide)] at hlast
  cases hlast

end Aesd
