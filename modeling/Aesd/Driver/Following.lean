import Aesd.Driver.FailedWrite
import Aesd.Driver.Reading
import Aesd.Lib.SlidingWindow

/-!
# A reader among writers

One open file is only read from while any number of other files write, read and seek. The messages
completed since the module was loaded are a stream, of which the circular buffer shows the last
ten messages. The position of a file is counted from the oldest of these, so that it moves on in
the stream whenever a message is dropped: the reader gets pieces of the stream in order, never one
twice, and misses as many bytes as are dropped, even of messages that it had already read.
-/

namespace Aesd

open Effect CInt Bytes

/-! ### What the reader can know -/

/-- A call of `aesd_write` on any other file, or a call of `aesd_read` on the reader's file that
succeeds. -/
inductive Seen where
  | write (a : Attempt)
  | read (count : ℕ) (data : List Byte)

/-- The bytes that the reader gets. -/
def Seen.data : Seen → List Byte
  | .write _     => []
  | .read _ data => data

/-- The call of `aesd_write`, if it is one. -/
def Seen.attempt : Seen → Option Attempt
  | .write a  => some a
  | .read _ _ => none

/-- All bytes that the reader has got. -/
def received (seen : List Seen) : List Byte := (seen.map Seen.data).flatten

/-- The messages completed since the module was loaded. -/
def completed (seen : List Seen) : List (List Byte) := (outcome (seen.filterMap Seen.attempt)).1

/-- The stream of these messages, of which the last ten are shown. -/
def lastTen (seen : List Seen) : SlidingWindow Byte where
  all := (completed seen).flatten
  gone := bytesBefore (completed seen) ((completed seen).length - maxWriteOperationsSupported)

/-- Calls on the device in state `s₀`: on `file` successful and failed calls of `aesd_read`, on
other files any calls. Fewer than `2 ^ 31` bytes are stored whenever the reader gets some. -/
inductive Following (file : ℕ) (s₀ : CharDevice) : List Seen → CharDevice → Prop where
  | start : Following file s₀ [] s₀
  | openFile {seen : List Seen} {s : CharDevice} (other : ℕ) (hother : other ≠ file)
      (run : Following file s₀ seen s) :
      Following file s₀ seen { s with fPos := Function.update s.fPos other 0 }
  | ioctl {seen : List Seen} {s : CharDevice} (other : ℕ) (hother : other ≠ file) (cmd arg : ℤ)
      (run : Following file s₀ seen s) :
      Following file s₀ seen { s with
        fPos := Function.update s.fPos other
          (aesdUnlockedioctl s.driver.dev cmd arg (s.fPos other)).fPos }
  | llseek {seen : List Seen} {s : CharDevice} (other : ℕ) (hother : other ≠ file)
      (offset whence : ℤ) (run : Following file s₀ seen s) :
      Following file s₀ seen { s with
        fPos := Function.update s.fPos other
          (aesdLlseek s.driver.dev offset whence (s.fPos other)).fPos }
  | readOther {seen : List Seen} {s : CharDevice} (other : ℕ) (hother : other ≠ file) (count : ℤ)
      {res : ReadResult} {h' : Heap} (run : Following file s₀ seen s)
      (heval : (aesdRead s.driver.dev count (s.fPos other)).Eval kernelExec s.heap res h') :
      Following file s₀ seen ⟨s.driver, h', Function.update s.fPos other res.fPos⟩
  | write {seen : List Seen} {s : CharDevice} (other : ℕ) (hother : other ≠ file)
      (buf : List Byte) {res : WriteResult} {h' : Heap} (run : Following file s₀ seen s)
      (heval : (aesdWrite s.driver buf (s.fPos other)).Eval kernelExec s.heap res h') :
      Following file s₀ (seen ++ [.write ⟨buf, decide (0 ≤ res.retval)⟩])
        ⟨res.driver, h', Function.update s.fPos other res.fPos⟩
  | readFailed {seen : List Seen} {s : CharDevice} (count : ℕ) (hcount : count < 2 ^ 63)
      {res : ReadResult} {h' : Heap} (run : Following file s₀ seen s)
      (heval : (aesdRead s.driver.dev count (s.fPos file)).Eval kernelExec s.heap res h')
      (hfail : res.retval = -EFAULT) :
      Following file s₀ seen ⟨s.driver, h', Function.update s.fPos file res.fPos⟩
  | read {seen : List Seen} {s : CharDevice} (count : ℕ) {res : ReadResult} {h' : Heap}
      (run : Following file s₀ seen s)
      (heval : (aesdRead s.driver.dev count (s.fPos file)).Eval kernelExec s.heap res h')
      (hok : res.retval ≠ -EFAULT) (hsmall : (contents s).length < 2 ^ 31) :
      Following file s₀ (seen ++ [.read count res.data])
        ⟨s.driver, h', Function.update s.fPos file res.fPos⟩

variable {seen before after : List Seen} {x : Seen}

lemma received_append (before after : List Seen) :
    received (before ++ after) = received before ++ received after := by
  simp [received]

lemma received_concat (seen : List Seen) (x : Seen) :
    received (seen ++ [x]) = received seen ++ x.data := by
  simp [received]

lemma completed_read (seen : List Seen) (count : ℕ) (data : List Byte) :
    completed (seen ++ [.read count data]) = completed seen := by
  have hnone : [Seen.read count data].filterMap Seen.attempt = [] := rfl
  rw [completed, List.filterMap_append, hnone, List.append_nil, completed]

lemma completed_write (seen : List Seen) (a : Attempt) :
    completed (seen ++ [.write a]) =
      (addAttempt (outcome (seen.filterMap Seen.attempt)) a).1 := by
  rw [completed, List.filterMap_append, ← outcome_concat]
  rfl

/-- Where a list with one more element is split. -/
lemma eq_concat_cons_cases {α : Type} {xs before after : List α} {x y : α}
    (h : xs ++ [x] = before ++ y :: after) :
    (after = [] ∧ xs = before ∧ x = y) ∨
      ∃ after', after = after' ++ [x] ∧ xs = before ++ y :: after' := by
  rcases List.eq_nil_or_concat after with rfl | ⟨after', z, rfl⟩
  · obtain ⟨hxs, hx⟩ := List.append_inj' h rfl
    exact Or.inl ⟨rfl, hxs, List.singleton_inj.mp hx⟩
  · have hsplit : xs ++ [x] = (before ++ y :: after') ++ [z] := by simpa using h
    obtain ⟨hxs, hx⟩ := List.append_inj' hsplit rfl
    exact Or.inr ⟨after', by simp [List.singleton_inj.mp hx], hxs⟩

/-! ### The window -/

/-- Calls leave the messages or complete one more, which is not empty. -/
lemma completed_concat_cases (seen : List Seen) (x : Seen) :
    completed (seen ++ [x]) = completed seen ∨
      ∃ m, m ≠ [] ∧ completed (seen ++ [x]) = completed seen ++ [m] := by
  cases x with
  | read count data => exact Or.inl (completed_read seen count data)
  | write a =>
    rw [completed_write, addAttempt, addChunk]
    split_ifs with hok hcomplete
    · refine Or.inr ⟨_, ?_, rfl⟩
      rintro hnil
      rw [hnil] at hcomplete
      cases hcomplete
    · exact Or.inl rfl
    · exact Or.inl rfl

lemma ne_nil_of_mem_completed {m : List Byte} (hm : m ∈ completed seen) : m ≠ [] := by
  induction seen using List.reverseRecOn with
  | nil => cases hm
  | append_singleton seen x ih =>
    rcases completed_concat_cases seen x with heq | ⟨m', hne, heq⟩
    · exact ih (heq ▸ hm)
    · rw [heq] at hm
      rcases List.mem_append.mp hm with hm | hm
      · exact ih hm
      · rw [List.mem_singleton.mp hm]
        exact hne

lemma flatten_drop (ms : List (List Byte)) (i : ℕ) :
    (ms.drop i).flatten = ms.flatten.drop (bytesBefore ms i) := by
  have hsplit : ms.flatten = (ms.take i).flatten ++ (ms.drop i).flatten := by
    rw [← List.flatten_append, List.take_append_drop]
  rw [hsplit, bytesBefore, List.drop_left]

lemma lastTen_shown (seen : List Seen) :
    (lastTen seen).shown =
      ((completed seen).drop ((completed seen).length - maxWriteOperationsSupported)).flatten :=
  (flatten_drop _ _).symm

/-- Once a message has been completed, something is shown. -/
lemma lastTen_shown_ne_nil (hne : completed seen ≠ []) : (lastTen seen).shown ≠ [] := by
  have hpos := List.length_pos_iff.mpr hne
  intro hnil
  rw [lastTen_shown, List.flatten_eq_nil_iff] at hnil
  have hlast : (completed seen).getLast hne ∈
      (completed seen).drop ((completed seen).length - maxWriteOperationsSupported) := by
    rw [List.mem_iff_getElem?]
    refine ⟨(completed seen).length - 1 -
      ((completed seen).length - maxWriteOperationsSupported), ?_⟩
    rw [List.getElem?_drop, List.getLast_eq_getElem, ← List.getElem?_eq_getElem]
    congr 1
    unfold maxWriteOperationsSupported
    omega
  exact ne_nil_of_mem_completed (List.getLast_mem hne) (hnil _ hlast)

lemma lastTen_slides_concat (seen : List Seen) (x : Seen) :
    (lastTen seen).Slides (lastTen (seen ++ [x])) := by
  rcases completed_concat_cases seen x with heq | ⟨m, -, heq⟩
  · -- no message is complete now
    have hsame : lastTen (seen ++ [x]) = lastTen seen := by
      rw [lastTen, heq, lastTen]
    rw [hsame]
    exact .refl _
  · -- one message more, and perhaps one less in the buffer
    have hle : (completed seen).length - maxWriteOperationsSupported ≤
        (completed seen).length + 1 - maxWriteOperationsSupported := by omega
    constructor
    · simp only [lastTen, heq, List.flatten_append]
      exact List.prefix_append _ _
    · have hinside : bytesBefore (completed seen ++ [m])
          ((completed seen).length - maxWriteOperationsSupported) =
          bytesBefore (completed seen)
            ((completed seen).length - maxWriteOperationsSupported) := by
        rw [bytesBefore, List.take_append_of_le_length (Nat.sub_le _ _), bytesBefore]
      simp only [lastTen, heq, List.length_append, List.length_singleton, ← hinside]
      exact bytesBefore_mono _ hle

lemma lastTen_slides (before after : List Seen) :
    (lastTen before).Slides (lastTen (before ++ after)) := by
  induction after using List.reverseRecOn with
  | nil =>
    rw [List.append_nil]
    exact .refl _
  | append_singleton after x ih =>
    have hlast := lastTen_slides_concat (before ++ after) x
    rw [← List.append_assoc]
    exact ⟨ih.grows.trans hlast.grows, ih.gone_le.trans hlast.gone_le⟩

/-! ### One read -/

/-- A call at position `p` of a device that holds the messages `ms`. Behind the end of the contents
it gets nothing, and so it does before the first message if it has got nothing before. -/
lemma aesdRead_following {dev : AesdDev} {h h' : Heap} {ms : List (List Byte)} {res : ReadResult}
    {p count : ℕ} (hms : HoldsMessages dev.circBuffer h ms) (hring : dev.circBufferPtr ≠ none)
    (hsmall : ms.flatten.length < 2 ^ 31) (hp : p < 2 ^ 31) (hstart : ms.flatten = [] → p = 0)
    (heval : (aesdRead dev count p).Eval kernelExec h res h') (hok : res.retval ≠ -EFAULT) :
    h' = h ∧ res.fPos = (p + res.data.length : ℕ) ∧ res.data.length ≤ count ∧
      res.data <+: ms.flatten.drop p ∧
      (res.data = [] → count = 0 ∨ ms.flatten.length ≤ p) ∧
      (res.data ≠ [] → p + res.data.length ≤ ms.flatten.length) := by
  have hfind : findCircEntry dev (toU64 p) = dev.circBuffer.findEntryOffsetForFpos p := by
    rw [findCircEntry, if_neg hring, toU64_of_range (by omega) (by omega)]
  have hnothing : res = ⟨0, p, []⟩ ∧ h' = h → (count = 0 ∨ ms.flatten.length ≤ p) → h' = h ∧
      res.fPos = (p + res.data.length : ℕ) ∧ res.data.length ≤ count ∧
      res.data <+: ms.flatten.drop p ∧ (res.data = [] → count = 0 ∨ ms.flatten.length ≤ p) ∧
      (res.data ≠ [] → p + res.data.length ≤ ms.flatten.length) := by
    rintro ⟨rfl, rfl⟩ hend
    exact ⟨rfl, rfl, Nat.zero_le _, List.nil_prefix, fun _ => hend, fun hne => absurd rfl hne⟩
  rcases Nat.lt_or_ge ms.flatten.length p with hbehind | hinside
  · -- the contents have become shorter than the position
    apply hnothing _ (Or.inr hbehind.le)
    rcases hms.findEntryOffsetForFpos_cases (f := p) (by omega) (by omega) with
      ⟨hzero, -⟩ | ⟨j, -, -, -, hlt, -⟩ | ⟨-, -, -, heq⟩ | ⟨j, -, -, hlarge, -, -⟩
    · have := hstart (List.length_eq_zero_iff.mp hzero)
      omega
    · have htotal := bytesBefore_le ms (j + 1)
      omega
    · rw [aesdRead_of_none (hfind.trans heq)] at heval
      exact heval
    · have htotal := bytesBefore_le ms (j + 1)
      omega
  · -- the position is inside the contents, or at their end
    rcases Nat.eq_zero_or_pos count with rfl | hcount
    · apply hnothing _ (Or.inl rfl)
      cases hfound : findCircEntry dev (toU64 p) with
      | none =>
        rw [aesdRead_of_none hfound] at heval
        exact heval
      | some found =>
        exact (aesdRead_of_some_zero hfound (min_eq_right (toU64_nonneg _)).symm (by omega)
          (by omega)).mp heval
    · obtain ⟨n, hlength, hle, hzero, hread⟩ := aesdRead_eval_piece hms hring hsmall hinside hcount
      obtain ⟨rfl, rfl⟩ := (hread res h' hok).mp heval
      dsimp only
      rw [hlength]
      refine ⟨rfl, rfl, hle, List.take_prefix _ _, ?_, ?_⟩
      · intro hnil
        rw [hnil] at hlength
        exact Or.inr (hzero hlength.symm).ge
      · intro _
        rw [List.length_take, List.length_drop] at hlength
        omega

/-- A copy that fails leaves the position. -/
lemma aesdRead_fPos_of_fault {dev : AesdDev} {h h' : Heap} {res : ReadResult} {count fPos : ℤ}
    (hcount : 0 ≤ count) (hcount' : count < 2 ^ 63)
    (heval : (aesdRead dev count fPos).Eval kernelExec h res h') (hfail : res.retval = -EFAULT) :
    res.fPos = fPos := by
  cases hfind : findCircEntry dev (toU64 fPos) with
  | none =>
    rw [aesdRead_of_none hfind] at heval
    obtain ⟨rfl, -⟩ := heval
    rfl
  | some found =>
    rw [aesdRead_of_some hfind rfl] at heval
    obtain ⟨⟨rc, data⟩, h₁, ⟨rfl, hcopy⟩, heval⟩ := heval
    dsimp only at hcopy heval
    -- `copy_to_user` has failed, and the position is as it was
    split_ifs at heval with hrc
    · obtain ⟨rfl, -⟩ := heval
      rfl
    · obtain ⟨rfl, -⟩ := heval
      have hn : 0 ≤ min (toU64 ((dev.circBuffer.entry found.1).size - found.2)) count :=
        le_min (toU64_nonneg _) hcount
      dsimp only at hfail
      rw [toI64_of_range (by omega) ((min_le_right _ _).trans_lt hcount'), EFAULT] at hfail
      omega

/-! ### Runs -/

/-- One call of `aesd_write`, whatever comes of it. -/
lemma addAttempt_refines {driver : Driver} {h h' : Heap} {hist : History} {buf : List Byte}
    {fPos : ℤ} {res : WriteResult} {ms : List (List Byte) × List Byte}
    (hmap : hist.map Prod.snd = ms.1) (hd : Refines driver h hist ms.2)
    (heval : (aesdWrite driver buf fPos).Eval kernelExec h res h') :
    ∃ hist', hist'.map Prod.snd = (addAttempt ms ⟨buf, decide (0 ≤ res.retval)⟩).1 ∧
      Refines res.driver h' hist' (addAttempt ms ⟨buf, decide (0 ≤ res.retval)⟩).2 := by
  rw [addAttempt]
  cases aesdWrite_written hd heval with
  | failed hretval _ _ hd' =>
    rw [decide_eq_false (not_le.mpr hretval), if_neg Bool.false_ne_true]
    exact ⟨hist, hmap, hd'⟩
  | added hretval hincomplete _ hd' =>
    rw [decide_eq_true (by omega), if_pos rfl, addChunk, if_neg hincomplete]
    exact ⟨hist, hmap, hd'⟩
  | completed hretval hcomplete hcommits =>
    rw [decide_eq_true (by omega), if_pos rfl, addChunk, if_pos hcomplete]
    obtain ⟨p, hd'⟩ := hcommits.refines
    refine ⟨_, ?_, hd'⟩
    rw [List.map_append, hmap]
    rfl

/-- The device holds what the calls have completed, and the position of the file is the number of
bytes that have been read from it. -/
structure Tracks (file : ℕ) (seen : List Seen) (s : CharDevice) : Prop where
  refines : ∃ hist, hist.map Prod.snd = completed seen ∧
    Refines s.driver s.heap hist (outcome (seen.filterMap Seen.attempt)).2
  fPos : s.fPos file = (received seen).length
  small : (received seen).length < 2 ^ 31
  started : received seen ≠ [] → completed seen ≠ []
  follows : (lastTen seen).Follows (received seen)

variable {file : ℕ} {s s₀ : CharDevice}

lemma Tracks.holds (ht : Tracks file seen s) : HoldsMessages s.driver.dev.circBuffer s.heap
    ((completed seen).drop ((completed seen).length - maxWriteOperationsSupported)) := by
  obtain ⟨hist, hmap, hd⟩ := ht.refines
  rw [← hmap, List.length_map]
  exact hd.holds

/-- The contents of the device are what the window shows. -/
lemma Tracks.contents_eq (ht : Tracks file seen s) : contents s = (lastTen seen).shown := by
  rw [contents, ht.holds.storedMessages_eq, lastTen_shown]

/-- Calls for other files leave what the reader knows. -/
lemma Tracks.other (ht : Tracks file seen s) {other : ℕ} (hother : other ≠ file) (fPos : ℤ) :
    Tracks file seen ⟨s.driver, s.heap, Function.update s.fPos other fPos⟩ := by
  refine ⟨ht.refines, ?_, ht.small, ht.started, ht.follows⟩
  rw [← ht.fPos]
  exact Function.update_of_ne hother.symm ..

lemma Tracks.write (ht : Tracks file seen s) {other : ℕ} (hother : other ≠ file) {buf : List Byte}
    {res : WriteResult} {h' : Heap}
    (heval : (aesdWrite s.driver buf (s.fPos other)).Eval kernelExec s.heap res h') :
    Tracks file (seen ++ [.write ⟨buf, decide (0 ≤ res.retval)⟩])
      ⟨res.driver, h', Function.update s.fPos other res.fPos⟩ := by
  obtain ⟨hist, hmap, hd⟩ := ht.refines
  have hreceived : received (seen ++ [.write ⟨buf, decide (0 ≤ res.retval)⟩]) = received seen := by
    rw [received_concat]
    exact List.append_nil _
  refine ⟨?_, ?_, ?_, ?_, ?_⟩
  · -- the driver has got the bytes that the attempts give
    rw [completed_write, List.filterMap_append, show [Seen.write ⟨buf, decide (0 ≤ res.retval)⟩
      ].filterMap Seen.attempt = [⟨buf, decide (0 ≤ res.retval)⟩] from rfl, outcome_concat]
    exact addAttempt_refines hmap hd heval
  · rw [hreceived, ← ht.fPos]
    exact Function.update_of_ne hother.symm ..
  · rw [hreceived]
    exact ht.small
  · -- a message was complete before, and still is
    rw [hreceived]
    intro hne hnil
    apply ht.started hne
    rcases completed_concat_cases seen (.write ⟨buf, decide (0 ≤ res.retval)⟩) with
      heq | ⟨m, -, heq⟩
    · exact heq ▸ hnil
    · rw [heq] at hnil
      exact (List.append_eq_nil_iff.mp hnil).1
  · -- messages may have left the window
    rw [hreceived]
    exact ht.follows.slide (lastTen_slides_concat _ _)

/-- What a call of `aesd_read` on the reader's file that succeeds gets. -/
structure Got (seen : List Seen) (count : ℕ) (data : List Byte) : Prop where
  length_le : data.length ≤ count
  piece : data <+: (lastTen seen).shown.drop (received seen).length
  nothing : data = [] → count = 0 ∨ (lastTen seen).shown.length ≤ (received seen).length

lemma Tracks.read (ht : Tracks file seen s) {count : ℕ} {res : ReadResult} {h' : Heap}
    (heval : (aesdRead s.driver.dev count (s.fPos file)).Eval kernelExec s.heap res h')
    (hok : res.retval ≠ -EFAULT) (hsmall : (contents s).length < 2 ^ 31) :
    Got seen count res.data ∧ Tracks file (seen ++ [.read count res.data])
      ⟨s.driver, h', Function.update s.fPos file res.fPos⟩ := by
  obtain ⟨hist, hmap, hd⟩ := ht.refines
  have hshown := lastTen_shown seen
  have hstart : (lastTen seen).shown = [] → (received seen).length = 0 := by
    intro hnil
    by_contra hne
    exact lastTen_shown_ne_nil (ht.started (by simpa using hne)) hnil
  rw [ht.contents_eq, hshown] at hsmall
  rw [hshown] at hstart
  rw [ht.fPos] at heval
  obtain ⟨rfl, hfPos, hle, hpiece, hnothing, hsome⟩ :=
    aesdRead_following ht.holds hd.hasRing hsmall ht.small hstart heval hok
  rw [← hshown] at hpiece hnothing hsome hsmall
  have hreceived : received (seen ++ [.read count res.data]) = received seen ++ res.data :=
    received_concat _ _
  refine ⟨⟨hle, hpiece, hnothing⟩, ?_, ?_, ?_, ?_, ?_⟩
  · rw [completed_read, List.filterMap_append,
      show [Seen.read count res.data].filterMap Seen.attempt = [] from rfl, List.append_nil]
    exact ⟨hist, hmap, hd⟩
  · -- the position counts the bytes received
    rw [hreceived, List.length_append, ← hfPos]
    exact Function.update_self ..
  · rw [hreceived, List.length_append]
    by_cases hdata : res.data = []
    · rw [hdata]
      exact ht.small
    · have := hsome hdata
      omega
  · rw [hreceived, completed_read]
    intro hne hnil
    have hempty : (lastTen seen).shown = [] := by rw [hshown, hnil]; rfl
    rw [hempty, List.drop_nil, List.prefix_nil] at hpiece
    rw [hpiece, List.append_nil] at hne
    exact ht.started hne hnil
  · -- the bytes read are the next ones of the stream
    rw [hreceived]
    exact (ht.follows.read hpiece).slide (lastTen_slides_concat _ _)

/-- The run lemma. -/
lemma Following.tracks (hstart : Tracks file [] s₀) (run : Following file s₀ seen s) :
    Tracks file seen s := by
  induction run with
  | start => exact hstart
  | openFile other hother _ ih => exact ih.other hother _
  | ioctl other hother cmd arg _ ih => exact ih.other hother _
  | llseek other hother offset whence _ ih => exact ih.other hother _
  | readOther other hother count _ heval ih =>
    obtain rfl := aesdRead_heap heval
    exact ih.other hother _
  | write other hother buf _ heval ih => exact ih.write hother heval
  | @readFailed seen s count hcount res h' _ heval hfail ih =>
    obtain rfl := aesdRead_heap heval
    have hfPos : res.fPos = s.fPos file :=
      aesdRead_fPos_of_fault (by omega) (by omega) heval hfail
    rw [hfPos, Function.update_eq_self]
    exact ih
  | read count _ heval hok hsmall ih => exact (ih.read heval hok hsmall).2

/-- Each read got what the window showed at its place then. -/
lemma Following.got (hstart : Tracks file [] s₀) (run : Following file s₀ seen s) {count : ℕ}
    {data : List Byte} (hseen : seen = before ++ .read count data :: after) :
    Got before count data := by
  induction run generalizing after with
  | start => simp at hseen
  | openFile _ _ _ ih => exact ih hseen
  | ioctl _ _ _ _ _ ih => exact ih hseen
  | llseek _ _ _ _ _ ih => exact ih hseen
  | readOther _ _ _ _ _ ih => exact ih hseen
  | readFailed _ _ _ _ _ ih => exact ih hseen
  | write other hother buf run heval ih =>
    rcases eq_concat_cons_cases hseen with ⟨-, -, heq⟩ | ⟨after', -, heq⟩
    · cases heq
    · exact ih heq
  | read count' run heval hok hsmall ih =>
    rcases eq_concat_cons_cases hseen with ⟨-, rfl, heq⟩ | ⟨after', -, heq⟩
    · cases heq
      exact ((run.tracks hstart).read heval hok hsmall).1
    · exact ih heq

/-- As long as no message is dropped, the reader gets one piece of the stream. -/
lemma received_isPrefix (hgot : ∀ before' count data after', before ++ after =
      before' ++ .read count data :: after' → Got before' count data)
    (hgone : (lastTen before).gone = (lastTen (before ++ after)).gone) :
    received after <+: (lastTen (before ++ after)).shown.drop (received before).length := by
  induction after using List.reverseRecOn with
  | nil => exact List.nil_prefix
  | append_singleton after x ih =>
    have hslides := lastTen_slides_concat (before ++ after) x
    rw [← List.append_assoc] at hgot hgone ⊢
    have hgone' : (lastTen before).gone = (lastTen (before ++ after)).gone :=
      le_antisymm (lastTen_slides before after).gone_le (hslides.gone_le.trans hgone.ge)
    have hgrows :
        (lastTen (before ++ after)).shown <+: (lastTen (before ++ after ++ [x])).shown := by
      rw [SlidingWindow.shown, SlidingWindow.shown, ← hgone, ← hgone']
      exact hslides.grows.drop _
    have hbefore := ih (fun before' count data after' heq =>
      hgot before' count data (after' ++ [x]) (by rw [heq]; simp)) hgone'
    rw [received_concat]
    -- nothing has left the window, so the stream only grows at its end
    apply SlidingWindow.isPrefix_append (hbefore.trans (hgrows.drop _))
    cases x with
    | write a => exact List.nil_prefix
    | read count data =>
      have hpiece := (hgot (before ++ after) count data [] rfl).piece
      rw [received_append, List.length_append, ← List.drop_drop] at hpiece
      exact hpiece.trans ((hgrows.drop _).drop _)

/-- A file that is only read from while others use the device. After the module has been loaded and
any such calls the device shows the last ten messages of the stream. Each read gets what is shown
at the place of the reader, at least one byte unless it asks for none or the reader has got past
the end. What the reader has got is, in order, part of the stream up to its place, and in one piece
over any calls that drop no message. -/
theorem follows_stream {h₀ h₁ : Heap} {driver : Driver} {fPos : ℕ → ℤ}
    (hinit : (aesdInitModule {}).Eval kernelExec h₀ (0, driver) h₁) (hopen : fPos file = 0)
    (run : Following file ⟨driver, h₁, fPos⟩ seen s) :
    contents s = (lastTen seen).shown ∧ s.fPos file = (received seen).length ∧
      (∀ before count data after, seen = before ++ .read count data :: after →
        Got before count data) ∧
      (received seen).Sublist
        ((lastTen seen).all.take ((lastTen seen).gone + (received seen).length)) ∧
      ∀ before after, seen = before ++ after → (lastTen before).gone = (lastTen seen).gone →
        received after <+: (lastTen seen).shown.drop (received before).length := by
  have hstart : Tracks file [] ⟨driver, h₁, fPos⟩ :=
    ⟨⟨[], rfl, aesdInitModule_refines rfl hinit⟩, hopen, by decide, fun hne => absurd rfl hne,
      SlidingWindow.follows_nil _⟩
  have ht := run.tracks hstart
  have hgot : ∀ before count data after, seen = before ++ .read count data :: after →
      Got before count data := fun _ _ _ _ hseen => run.got hstart hseen
  refine ⟨ht.contents_eq, ht.fPos, hgot, ht.follows, ?_⟩
  rintro before after rfl hgone
  exact received_isPrefix hgot hgone

theorem follows_stream_line : ∃ (block : List Byte) (seen : List Seen) (s : CharDevice),
    Following 1 (freshDevice block) seen s ∧ received seen = [97, 10] ∧
      contents s = [97, 10] := by
  obtain ⟨block, hinit⟩ := exists_aesdInitModule (h := fun _ => none) (p := 0) rfl
  have hwrite := Prog.eval_of_run (p := aesdWrite (freshDevice block).driver [97, 10] 0)
    (s := (freshDevice block).heap) kernelExec_of_respond
    [some 1, some 0, some 0, some 2, some 0, some 0, some 0] rfl
  have run₁ : Following 1 (freshDevice block) _ _ := .write 0 (by decide) [97, 10] .start hwrite
  have run₂ := run₁.read 5 (Prog.eval_of_run kernelExec_of_respond [some 0] rfl)
    (show (2 : ℤ) ≠ -EFAULT by decide) (show 2 < 2 ^ 31 by decide)
  have hfollows := follows_stream hinit (show (freshDevice block).fPos 1 = 0 from rfl) run₂
  exact ⟨block, _, _, run₂, rfl, hfollows.1.trans rfl⟩

end Aesd
