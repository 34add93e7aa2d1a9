import Aesd.Server.Framing

/-!
# What `strtok_r` reads

The receive loop sets the first 32 bytes of a message's buffer to zero and writes no terminator
behind the bytes it has received, so that `strtok_r` may read on. Here it works on the block alone
and fails if it needs a byte behind it. The tokens are those of the message, whatever memory holds,
exactly if five tokens are found inside it or it is so short that a zero is left behind it
(`tokens_determined_iff`).
-/

namespace Aesd

open CInt Bytes

/-! ### strtok_r on a block -/

/-- A byte of a token. -/
def inToken (b : Byte) : Bool := !isSeparator b && b != 0

/-- One call of `strtok_r` on the bytes from the save pointer to the end of the block: the token and
the bytes from the new save pointer on. `none` if it needs a byte behind the block. -/
def strtokR (s : List Byte) : Option (Option Text × List Byte) :=
  match s.dropWhile isSeparator with
  | []     => none
  | b :: t =>
    if b = 0 then some (none, b :: t)
    else
      match (b :: t).dropWhile inToken with
      | []            => none
      | stop :: rest =>
        some (some ((b :: t).takeWhile inToken), if stop = 0 then stop :: rest else rest)

/-- So many calls, one after the other. -/
def strtokCalls : ℕ → List Byte → Option (List (Option Text))
  | 0, _     => some []
  | n + 1, s => do
    let (token, s) ← strtokR s
    let tokens ← strtokCalls n s
    return token :: tokens

/-- `cmd`, `arg1`, `arg2`, `arg3` and `extra` from the block; `none` if a byte behind it is
needed. -/
def Receiving.tokens (r : Receiving) : Option (List (Option Text)) := strtokCalls 5 r.buffer

/-- The first five of some words, those that are absent being `NULL`. -/
def firstFive (ws : List Text) : List (Option Text) := [ws[0]?, ws[1]?, ws[2]?, ws[3]?, ws[4]?]

lemma strtokR_zero (s : List Byte) : strtokR (0 :: s) = some (none, 0 :: s) := rfl

/-- Separators in front are skipped. -/
lemma strtokR_separators {seps : List Byte} (hseps : ∀ b ∈ seps, isSeparator b = true)
    (s : List Byte) : strtokR (seps ++ s) = strtokR s := by
  rw [strtokR, List.dropWhile_append_of_pos hseps, strtokR]

/-- A word with a separator behind it is the token. -/
lemma strtokR_word {w : List Byte} {sep : Byte} (hne : w ≠ [])
    (hword : ∀ b ∈ w, isSeparator b = false) (hnul : (0 : Byte) ∉ w)
    (hsep : isSeparator sep = true) (s : List Byte) :
    strtokR (w ++ sep :: s) = some (some w, s) := by
  have htoken : ∀ b ∈ w, inToken b = true := by
    intro b hb
    have hb0 : b ≠ 0 := by
      rintro rfl
      exact hnul hb
    simp [inToken, hword b hb, hb0]
  have hstop : inToken sep = false := by simp [inToken, hsep]
  have hsep0 : sep ≠ 0 := by
    rintro rfl
    cases hsep
  obtain ⟨b, w, rfl⟩ := List.exists_cons_of_ne_nil hne
  have hfirst : (b :: w ++ sep :: s).dropWhile isSeparator = b :: w ++ sep :: s := by
    rw [List.cons_append, List.dropWhile_cons_of_neg (by simp [hword b List.mem_cons_self])]
  have hb0 : b ≠ 0 := by
    rintro rfl
    exact hnul List.mem_cons_self
  have hdrop : (b :: w ++ sep :: s).dropWhile inToken = sep :: s := by
    rw [List.dropWhile_append_of_pos htoken, List.dropWhile_cons_of_neg (by simp [hstop])]
  have htake : (b :: w ++ sep :: s).takeWhile inToken = b :: w := by
    rw [List.takeWhile_append_of_pos htoken, List.takeWhile_cons_of_neg (by simp [hstop]),
      List.append_nil]
  rw [strtokR, hfirst]
  simp only [List.cons_append] at hdrop htake ⊢
  rw [if_neg hb0, hdrop, htake]
  simp only [if_neg hsep0]

/-- What is behind the message decides about the calls that find no token in it. -/
lemma strtokCalls_append (n : ℕ) {m : List Byte} (hnul : (0 : Byte) ∉ m)
    (hlast : ∀ b, m.getLast? = some b → isSeparator b = true) (rest : List Byte) :
    strtokCalls n (m ++ rest) =
      if n ≤ (words isSeparator m).length then some (((words isSeparator m).take n).map some)
      else (strtokCalls (n - (words isSeparator m).length) rest).map
        ((words isSeparator m).map some ++ ·) := by
  induction n generalizing m with
  | zero => rfl
  | succ n ih =>
    rcases words_cases isSeparator hlast with ⟨hblank, hwords⟩ |
      ⟨seps, w, sep, t, rfl, hseps, hne, hword, hsep, hlast', hwords⟩
    · rw [hwords, if_neg (by simp), List.length_nil, Nat.sub_zero, strtokCalls,
        strtokR_separators hblank]
      simp [strtokCalls]
    · have hnul' : (0 : Byte) ∉ w ∧ (0 : Byte) ∉ t := by
        constructor
        · intro hmem
          exact hnul (by simp [hmem])
        · intro hmem
          exact hnul (by simp [hmem])
      rw [hwords, strtokCalls, List.append_assoc, List.append_assoc, strtokR_separators hseps,
        List.cons_append, strtokR_word hne hword hnul'.1 hsep]
      show ((strtokCalls n (t ++ rest)).bind fun tokens => some (some w :: tokens)) = _
      rw [ih hnul'.2 hlast', List.length_cons, Nat.add_sub_add_right]
      by_cases hn : n ≤ (words isSeparator t).length
      · rw [if_pos hn, if_pos (Nat.succ_le_succ hn)]
        rfl
      · rw [if_neg hn, if_neg fun hle => hn (Nat.le_of_succ_le_succ hle)]
        cases strtokCalls (n - (words isSeparator t).length) rest with
        | none => rfl
        | some tokens => rfl

/-- At a NUL all calls return `NULL`. -/
lemma strtokCalls_zero (n : ℕ) (s : List Byte) :
    strtokCalls n (0 :: s) = some (List.replicate n none) := by
  induction n with
  | zero => rfl
  | succ n ih =>
    rw [strtokCalls, strtokR_zero]
    show (strtokCalls n (0 :: s)).bind (fun tokens => some (none :: tokens)) = _
    rw [ih]
    rfl

/-- At any other byte but a separator a call finds a token or the end of the block. -/
lemma strtokR_inToken {b : Byte} (hb : inToken b = true) (s : List Byte) :
    strtokR (b :: s) = none ∨ ∃ w s', strtokR (b :: s) = some (some w, s') := by
  have hsep : isSeparator b = false ∧ b ≠ 0 := by simpa [inToken] using hb
  rw [strtokR, List.dropWhile_cons_of_neg (by simp [hsep.1])]
  simp only [if_neg hsep.2]
  cases (b :: s).dropWhile inToken with
  | nil => exact Or.inl rfl
  | cons stop rest => exact Or.inr ⟨_, _, rfl⟩

lemma strtokCalls_inToken {b : Byte} (hb : inToken b = true) (n : ℕ) (s : List Byte) :
    strtokCalls (n + 1) (b :: s) ≠ some (List.replicate (n + 1) none) := by
  rw [strtokCalls]
  rcases strtokR_inToken hb s with heq | ⟨w, s', heq⟩
  · rw [heq]
    simp
  · rw [heq]
    cases hrest : strtokCalls n s' with
    | none => simp [hrest]
    | some tokens => simp [hrest, List.replicate_succ]

lemma firstFive_eq (ws : List Text) :
    firstFive ws = if 5 ≤ ws.length then (ws.take 5).map some
      else ws.map some ++ List.replicate (5 - ws.length) none := by
  rcases ws with _ | ⟨w₀, _ | ⟨w₁, _ | ⟨w₂, _ | ⟨w₃, _ | ⟨w₄, ws⟩⟩⟩⟩⟩
  · rfl
  · rfl
  · rfl
  · rfl
  · rfl
  · rw [if_pos (by simp)]
    rfl

/-- The five tokens of a message with something behind it. -/
lemma strtokCalls_five_iff {m : List Byte} (hnul : (0 : Byte) ∉ m)
    (hlast : ∀ b, m.getLast? = some b → isSeparator b = true) (rest : List Byte) :
    strtokCalls 5 (m ++ rest) = some (firstFive (words isSeparator m)) ↔
      5 ≤ (words isSeparator m).length ∨
        strtokCalls (5 - (words isSeparator m).length) rest =
          some (List.replicate (5 - (words isSeparator m).length) none) := by
  rw [strtokCalls_append 5 hnul hlast, firstFive_eq]
  by_cases hfive : 5 ≤ (words isSeparator m).length
  · rw [if_pos hfive, if_pos hfive]
    exact iff_of_true rfl (Or.inl hfive)
  · rw [if_neg hfive, if_neg hfive, or_iff_right hfive, Option.map_eq_some_iff]
    constructor
    · rintro ⟨tokens, htokens, heq⟩
      rw [htokens, List.append_cancel_left heq]
    · intro htokens
      exact ⟨_, htokens, rfl⟩

/-! ### Messages that a session receives -/

/-- The receive loop has got so far with a message, and has not seen its end. -/
inductive Collects : Receiving → Prop where
  | fresh (beyond : List Byte) : Collects (.fresh beyond)
  | grow {r : Receiving} (hr : Collects r) {added : List Byte} (beyond : List Byte)
      (hfull : r.totalBytesRecvd = r.bufferCapacity) (hadded : added.length = r.bufferCapacity) :
      Collects (r.grow added beyond)
  | store {r : Receiving} (hr : Collects r) {bytes : List Byte} (hne : bytes ≠ [])
      (hfits : r.totalBytesRecvd + bytes.length ≤ r.bufferCapacity)
      (hshort : r.totalBytesRecvd + bytes.length < 2 ^ 31)
      (hlast : (r.received ++ bytes).getLast? ≠ some newline) : Collects (r.store bytes hfits)

lemma bufferCapacity_grow (r : Receiving) (added beyond : List Byte) :
    (r.grow added beyond).bufferCapacity = r.bufferCapacity + added.length :=
  List.length_append

lemma bufferCapacity_store (r : Receiving) {bytes : List Byte}
    (hfits : r.totalBytesRecvd + bytes.length ≤ r.bufferCapacity) :
    (r.store bytes hfits).bufferCapacity = r.bufferCapacity :=
  length_overwrite hfits

lemma Collects.le_bufferCapacity {r : Receiving} (hr : Collects r) :
    recvBufferLengthBytes ≤ r.bufferCapacity := by
  induction hr with
  | fresh beyond => exact le_of_eq List.length_replicate.symm
  | grow _ _ _ _ ih =>
    rw [bufferCapacity_grow]
    exact Nat.le_add_right_of_le ih
  | store _ _ hfits _ _ ih =>
    rw [bufferCapacity_store _ hfits]
    exact ih

/-- Where the thread is while the loop collects a message: before `recv` if there is room, before
`realloc` if there is none. -/
inductive UnderWay : Session → Prop where
  | starting : UnderWay .starting
  | growing {r : Receiving} (hr : Collects r) (hfull : r.totalBytesRecvd = r.bufferCapacity) :
      UnderWay (.growing r)
  | receiving {r : Receiving} (hr : Collects r) (hroom : r.totalBytesRecvd < r.bufferCapacity) :
      UnderWay (.receiving r)
  | ended : UnderWay .ended

lemma underWay_dispatchCommand (c : Option Command) : UnderWay (dispatchCommand c).1 := by
  cases c with
  | none => exact .starting
  | some c =>
    rw [dispatchCommand]
    split_ifs
    · exact .ended
    · exact .starting

lemma UnderWay.step {s s' : Session} {input : SessionInput} {out : List Command}
    (hs : UnderWay s) (hstep : s.step input = some (s', out)) : UnderWay s' := by
  cases Session.steps_of_step hstep with
  | noMemory => exact .ended
  | allocated beyond =>
    refine .receiving (.fresh beyond) ?_
    show 0 < (List.replicate recvBufferLengthBytes (0 : Byte)).length
    decide
  | tossed r => exact .starting
  | @grown r added beyond hadded =>
    cases hs with
    | growing hr hfull =>
      refine .receiving (hr.grow _ hfull hadded) ?_
      have hcapacity : 32 ≤ r.bufferCapacity := hr.le_bufferCapacity
      rw [bufferCapacity_grow, hadded]
      show r.totalBytesRecvd < _
      omega
  | complete hne hfits hshort hlast => exact underWay_dispatchCommand _
  | full hne hfits hshort hlast hfull =>
    cases hs with
    | receiving hr hroom => exact .growing (hr.store hne hfits hshort hlast) hfull
  | stored hne hfits hshort hlast hnotFull =>
    cases hs with
    | receiving hr hroom =>
      exact .receiving (hr.store hne hfits hshort hlast)
        (lt_of_le_of_ne (Receiving.total_le _) hnotFull)
  | overflow hne hlong => exact .ended
  | closed r => exact .ended
  | failed r => exact .ended
  | ended => exact .ended

lemma Serves.underWay {C : Session → SessionInput → Prop} {inputs : List SessionInput}
    {s : Session} {cmds : List Command} (run : Serves C inputs s cmds) : UnderWay s := by
  induction run with
  | start => exact .starting
  | step _ _ _ hstep ih => exact ih.step hstep

/-- Whatever the loop can collect, a session gets to. -/
lemma Collects.serves {r : Receiving} (hr : Collects r) : ∃ inputs cmds,
    Serves (fun _ _ => True) inputs
      (if r.totalBytesRecvd = r.bufferCapacity then .growing r else .receiving r) cmds := by
  induction hr with
  | fresh beyond => exact ⟨_, _, Serves.start.step (.malloc (some beyond)) trivial rfl⟩
  | @grow r hr added beyond hfull hadded ih =>
    obtain ⟨inputs, cmds, run⟩ := ih
    rw [if_pos hfull] at run
    have hroom : ¬ (r.grow added beyond).totalBytesRecvd =
        (r.grow added beyond).bufferCapacity := by
      have hcapacity : 32 ≤ r.bufferCapacity := hr.le_bufferCapacity
      rw [bufferCapacity_grow, hadded]
      show ¬ r.totalBytesRecvd = _
      omega
    rw [if_neg hroom]
    have hstep : (Session.growing r).step (.realloc (some (added, beyond))) =
        some (.receiving (r.grow added beyond), []) := by
      simp only [Session.step, hadded, if_true]
    exact ⟨_, _, run.step _ trivial hstep⟩
  | @store r hr bytes hne hfits hshort hlast ih =>
    obtain ⟨inputs, cmds, run⟩ := ih
    have hpos := List.length_pos_iff.mpr hne
    rw [if_neg (by omega)] at run
    rw [← Receiving.store_last hne hfits] at hlast
    have hstep : (Session.receiving r).step (.recv bytes) =
        some (if (r.store bytes hfits).totalBytesRecvd = (r.store bytes hfits).bufferCapacity then
          .growing (r.store bytes hfits) else .receiving (r.store bytes hfits), []) := by
      simp only [Session.step]
      rw [dif_pos ⟨hne, hfits⟩, if_pos hshort, if_neg hlast]
      split_ifs
      · rfl
      · rfl
    exact ⟨_, _, run.step _ trivial hstep⟩

/-- As long as the block is the first one, memory behind the received bytes is zero. -/
lemma Collects.zero_or_le {r : Receiving} (hr : Collects r) :
    (r.bufferCapacity = recvBufferLengthBytes ∧ ∀ b ∈ r.buffer.drop r.totalBytesRecvd, b = 0) ∨
      recvBufferLengthBytes ≤ r.totalBytesRecvd := by
  induction hr with
  | fresh beyond =>
    left
    exact ⟨List.length_replicate, fun b hb => List.eq_of_mem_replicate (List.mem_of_mem_drop hb)⟩
  | grow hr beyond hfull _ _ =>
    right
    exact hr.le_bufferCapacity.trans hfull.ge
  | @store r _ bytes _ hfits _ _ ih =>
    rcases ih with ⟨hcapacity, hzero⟩ | hle
    · left
      refine ⟨(bufferCapacity_store _ hfits).trans hcapacity, ?_⟩
      intro b hb
      apply hzero
      rw [Receiving.store, drop_overwrite r.total_le, ← List.drop_drop] at hb
      exact List.mem_of_mem_drop hb
    · right
      exact Nat.le_add_right_of_le hle

/-- Bytes stored in a block that is the same up to there. -/
lemma Receiving.store_of_buffer_eq {r r' : Receiving} {old bytes tail : List Byte}
    (htotal : r'.totalBytesRecvd = r.totalBytesRecvd) (hold : old.length = bytes.length)
    (hbuffer : r'.buffer = r.received ++ (old ++ tail)) :
    r'.received = r.received ∧ ∃ hfits : r'.totalBytesRecvd + bytes.length ≤ r'.bufferCapacity,
      (r'.store bytes hfits).buffer = r.received ++ bytes ++ tail := by
  have hfits : r'.totalBytesRecvd + bytes.length ≤ r'.bufferCapacity := by
    rw [Receiving.bufferCapacity, hbuffer, List.length_append, List.length_append,
      Receiving.length_received]
    omega
  refine ⟨?_, hfits, ?_⟩
  · rw [Receiving.received, hbuffer, htotal, ← r.length_received, List.take_left]
  · show overwrite r'.buffer r'.totalBytesRecvd bytes = _
    rw [hbuffer, htotal, ← r.length_received, overwrite_append hold]

/-- The same bytes may be received with other memory behind them, if it is not the first block. -/
lemma Collects.replay {r : Receiving} (hr : Collects r) (tail : List Byte)
    (hlength : r.totalBytesRecvd + tail.length = r.bufferCapacity)
    (hzero : r.bufferCapacity = recvBufferLengthBytes → ∀ b ∈ tail, b = 0) :
    ∃ r', Collects r' ∧ r'.totalBytesRecvd = r.totalBytesRecvd ∧
      r'.buffer = r.received ++ tail := by
  induction hr generalizing tail with
  | fresh beyond =>
    have hcapacity : (Receiving.fresh beyond).bufferCapacity = recvBufferLengthBytes :=
      List.length_replicate
    refine ⟨.fresh beyond, .fresh beyond, rfl, ?_⟩
    rw [hcapacity] at hlength
    have htail : tail = List.replicate recvBufferLengthBytes 0 := by
      rw [List.eq_replicate_iff]
      exact ⟨by simpa [Receiving.fresh] using hlength, hzero hcapacity⟩
    rw [htail]
    rfl
  | @grow r hr added beyond hfull hadded ih =>
    rw [bufferCapacity_grow, hadded] at hlength
    change r.totalBytesRecvd + tail.length = _ at hlength
    obtain ⟨r', hr', htotal, hbuffer⟩ := ih [] (by simpa using hfull) (by simp)
    rw [List.append_nil] at hbuffer
    have hcapacity : r'.bufferCapacity = r.bufferCapacity := by
      rw [Receiving.bufferCapacity, hbuffer, Receiving.length_received, hfull]
    refine ⟨r'.grow tail beyond, hr'.grow beyond ?_ ?_, htotal, ?_⟩
    · rw [htotal, hcapacity, hfull]
    · rw [hcapacity]
      omega
    · show r'.buffer ++ tail = _
      rw [hbuffer, Receiving.received_grow]
  | @store r hr bytes hne hfits hshort hlast ih =>
    rw [bufferCapacity_store _ hfits] at hlength hzero
    change r.totalBytesRecvd + bytes.length + tail.length = _ at hlength
    obtain ⟨r', hr', htotal, hbuffer⟩ := ih (List.replicate bytes.length 0 ++ tail)
      (by rw [List.length_append, List.length_replicate]; omega)
      (by
        intro hfirst b hb
        rcases List.mem_append.mp hb with hb | hb
        · exact List.eq_of_mem_replicate hb
        · exact hzero hfirst b hb)
    obtain ⟨hreceived, hfits', hstored⟩ :=
      Receiving.store_of_buffer_eq htotal List.length_replicate hbuffer
    refine ⟨r'.store bytes hfits', hr'.store hne hfits' (by rw [htotal]; exact hshort)
      (by rw [hreceived]; exact hlast), ?_, ?_⟩
    · show r'.totalBytesRecvd + bytes.length = r.totalBytesRecvd + bytes.length
      rw [htotal]
    · rw [hstored, Receiving.received_store]

/-- A session has received a message up to its end, and `strtok_r` is about to be called. -/
def Received (r : Receiving) : Prop :=
  ∃ inputs cmds r₀ bytes hfits, Serves (fun _ _ => True) inputs (.receiving r₀) cmds ∧
    bytes ≠ [] ∧ r₀.totalBytesRecvd + bytes.length < 2 ^ 31 ∧ r = r₀.store bytes hfits ∧
    r.received.getLast? = some newline

/-- However a message comes in and whatever memory holds behind it, the tokens are its first five
words, and no byte behind the block is needed. -/
def TokensDetermined (m : List Byte) : Prop :=
  ∀ r, Received r → r.received = m → r.tokens = some (firstFive (words isSeparator m))

/-- The block is what was received and what was left in memory. -/
lemma Receiving.buffer_eq (r : Receiving) :
    r.buffer = r.received ++ r.buffer.drop r.totalBytesRecvd :=
  (List.take_append_drop _ _).symm

lemma Received.tokens_iff {r : Receiving} (hr : Received r) (hnul : (0 : Byte) ∉ r.received) :
    r.tokens = some (firstFive (words isSeparator r.received)) ↔
      5 ≤ (words isSeparator r.received).length ∨
        strtokCalls (5 - (words isSeparator r.received).length)
            (r.buffer.drop r.totalBytesRecvd) =
          some (List.replicate (5 - (words isSeparator r.received).length) none) := by
  obtain ⟨inputs, cmds, r₀, bytes, hfits, -, -, -, -, hlast⟩ := hr
  have htokens : r.tokens =
      strtokCalls 5 (r.received ++ r.buffer.drop r.totalBytesRecvd) := by
    rw [← r.buffer_eq, Receiving.tokens]
  rw [htokens]
  apply strtokCalls_five_iff hnul
  intro b hb
  rw [hlast, Option.some.injEq] at hb
  rw [← hb]
  rfl

/-- Behind a message shorter than the first block there is a zero. -/
lemma Received.zero_behind {r : Receiving} (hr : Received r)
    (hshort : r.received.length < recvBufferLengthBytes) :
    ∃ rest, r.buffer.drop r.totalBytesRecvd = 0 :: rest := by
  obtain ⟨inputs, cmds, r₀, bytes, hfits, run, hne, -, rfl, -⟩ := hr
  rw [Receiving.length_received] at hshort
  change r₀.totalBytesRecvd + bytes.length < _ at hshort
  cases run.underWay with
  | receiving hcollects _ =>
    rcases hcollects.zero_or_le with ⟨hcapacity, hzero⟩ | hle
    · change r₀.buffer.length = _ at hcapacity
      show ∃ rest, (overwrite r₀.buffer r₀.totalBytesRecvd bytes).drop
        (r₀.totalBytesRecvd + bytes.length) = 0 :: rest
      rw [drop_overwrite r₀.total_le]
      have hlength : 0 < (r₀.buffer.drop (r₀.totalBytesRecvd + bytes.length)).length := by
        rw [List.length_drop]
        omega
      obtain ⟨b, rest, hrest⟩ := List.exists_cons_of_length_pos hlength
      refine ⟨rest, ?_⟩
      rw [hrest, hzero b]
      rw [← List.drop_drop] at hrest
      exact List.mem_of_mem_drop (hrest ▸ List.mem_cons_self)
    · omega

/-- A longer message may come with any memory behind it. -/
lemma Received.replay {r : Receiving} (hr : Received r)
    (hlong : recvBufferLengthBytes ≤ r.received.length) (tail : List Byte)
    (hlength : r.totalBytesRecvd + tail.length = r.bufferCapacity) :
    ∃ r', Received r' ∧ r'.received = r.received ∧ r'.buffer.drop r'.totalBytesRecvd = tail := by
  obtain ⟨inputs, cmds, r₀, bytes, hfits, run, hne, hshort, rfl, hlast⟩ := hr
  rw [Receiving.length_received] at hlong
  rw [bufferCapacity_store _ hfits] at hlength
  change _ ≤ r₀.totalBytesRecvd + bytes.length at hlong
  change r₀.totalBytesRecvd + bytes.length + tail.length = _ at hlength
  cases run.underWay with
  | receiving hcollects hroom =>
    obtain ⟨r', hr', htotal, hbuffer⟩ :=
      hcollects.replay (List.replicate bytes.length 0 ++ tail)
        (by rw [List.length_append, List.length_replicate]; omega)
        (by
          intro hfirst b hb
          -- the first block is full
          have htail : tail = [] := List.length_eq_zero_iff.mp (by omega)
          rw [htail, List.append_nil] at hb
          exact List.eq_of_mem_replicate hb)
    obtain ⟨hreceived, hfits', hstored⟩ :=
      Receiving.store_of_buffer_eq htotal List.length_replicate hbuffer
    have hreceived' : (r'.store bytes hfits').received = (r₀.store bytes hfits).received := by
      rw [Receiving.received_store, Receiving.received_store, hreceived]
    obtain ⟨inputs', cmds', run'⟩ := hr'.serves
    have hpos := List.length_pos_iff.mpr hne
    rw [if_neg (by omega)] at run'
    refine ⟨r'.store bytes hfits', ⟨inputs', cmds', r', bytes, hfits', run', hne,
      by rw [htotal]; exact hshort, rfl, by rw [hreceived']; exact hlast⟩, hreceived', ?_⟩
    rw [hstored]
    apply List.drop_left'
    rw [List.length_append, Receiving.length_received, ← htotal]
    rfl

/-- The tokens of a message depend on nothing but its bytes exactly if it has five words or leaves
a zero in the first block. -/
theorem tokens_determined_iff {m : List Byte} (hnul : (0 : Byte) ∉ m)
    (hreceived : ∃ r, Received r ∧ r.received = m) :
    TokensDetermined m ↔
      5 ≤ (words isSeparator m).length ∨ m.length < recvBufferLengthBytes := by
  constructor
  · intro hall
    obtain ⟨r, hr, rfl⟩ := hreceived
    by_contra hcond
    rw [not_or, not_le, not_lt] at hcond
    obtain ⟨k, hk⟩ := Nat.exists_eq_add_of_lt hcond.1
    have hmissing : 5 - (words isSeparator r.received).length = k + 1 := by omega
    obtain ⟨r', hr', hreceived, htail⟩ := hr.replay hcond.2
      (List.replicate (r.bufferCapacity - r.totalBytesRecvd) 65)
      (by rw [List.length_replicate]; exact Nat.add_sub_cancel' r.total_le)
    have htokens := hall r' hr' hreceived
    rw [← hreceived, hr'.tokens_iff (by rw [hreceived]; exact hnul), hreceived, htail, hmissing,
      or_iff_right (not_le.mpr hcond.1)] at htokens
    cases hroom : r.bufferCapacity - r.totalBytesRecvd with
    | zero =>
      rw [hroom] at htokens
      cases htokens
    | succ n =>
      rw [hroom, List.replicate_succ] at htokens
      exact strtokCalls_inToken rfl k _ htokens
  · rintro hcond r hr rfl
    rw [hr.tokens_iff hnul]
    rcases hcond with hfive | hshort
    · exact Or.inl hfive
    · obtain ⟨rest, hrest⟩ := hr.zero_behind hshort
      rw [hrest]
      exact Or.inr (strtokCalls_zero _ _)

/-- A short line. -/
theorem tokens_determined_ls :
    (∃ r, Received r ∧ r.received = str "ls\n") ∧ TokensDetermined (str "ls\n") := by
  have run := (Serves.start (C := fun _ _ => True)).step (.malloc (some [])) trivial rfl
  have hreceived : ∃ r, Received r ∧ r.received = str "ls\n" :=
    ⟨(Receiving.fresh []).store (str "ls\n") (by decide),
      ⟨_, _, _, _, _, run, by decide, by decide, rfl, rfl⟩, rfl⟩
  exact ⟨hreceived, (tokens_determined_iff (by decide) hreceived).mpr (Or.inr (by decide))⟩

/-- `rmpart` without a number, in 33 bytes. -/
def paddedRmpart : List Byte := str "rmpart" ++ List.replicate 26 32 ++ [newline]

/-- `realloc` may leave the number there. -/
theorem tokens_from_leftover : (0 : Byte) ∉ paddedRmpart ∧
    (∃ r, Received r ∧ r.received = paddedRmpart ∧
      r.tokens = some [some (str "rmpart"), some (str "1"), none, none, none]) ∧
    ¬ TokensDetermined paddedRmpart := by
  have run := (Serves.start (C := fun _ _ => True)).step (.malloc (some [])) trivial rfl
  have run := run.step (.recv (paddedRmpart.take 32)) trivial rfl
  have run := run.step (.realloc (some (0 :: str "1" ++ List.replicate 30 0, []))) trivial rfl
  have hfound : ∃ r, Received r ∧ r.received = paddedRmpart ∧
      r.tokens = some [some (str "rmpart"), some (str "1"), none, none, none] :=
    ⟨_, ⟨_, _, _, [newline], by decide, run, by decide, by decide, rfl, rfl⟩, rfl, rfl⟩
  refine ⟨by decide, hfound, ?_⟩
  intro hall
  obtain ⟨r, hr, hreceived, htokens⟩ := hfound
  rw [hall r hr hreceived] at htokens
  revert htokens
  decide

/-! ### The commands of a session -/

lemma cString_append {s : List Byte} (hs : (0 : Byte) ∉ s) (t : List Byte) :
    cString (s ++ t) = s ++ cString t := by
  rw [cString, List.takeWhile_append_of_pos, cString]
  intro b hb
  have hb0 : b ≠ 0 := by
    rintro rfl
    exact hs hb
  simpa using hb0

/-- A call that needs no byte behind the block finds what it would find in all of memory. -/
lemma nextWord_of_strtokR {s s' : List Byte} {token : Option Text}
    (hcall : strtokR s = some (token, s')) (beyond : List Byte) :
    nextWord isSeparator (cString (s ++ beyond)) = (token, cString (s' ++ beyond)) := by
  have hsplit : s.takeWhile isSeparator ++ s.dropWhile isSeparator = s :=
    List.takeWhile_append_dropWhile
  have hseps : ∀ b ∈ s.takeWhile isSeparator, isSeparator b = true :=
    fun b hb => List.mem_takeWhile_imp hb
  have hnul : (0 : Byte) ∉ s.takeWhile isSeparator := by
    intro hmem
    cases hseps 0 hmem
  have hskip : ∀ t, s.dropWhile isSeparator = t →
      nextWord isSeparator (cString (s ++ beyond)) =
        nextWord isSeparator (cString (t ++ beyond)) := by
    rintro t rfl
    rw [← hsplit, List.append_assoc, cString_append hnul, nextWord,
      List.dropWhile_append_of_pos hseps, hsplit, nextWord]
  rw [strtokR] at hcall
  split at hcall
  · cases hcall
  · rename_i b t ht
    rw [hskip _ ht]
    have hb : isSeparator b = false := by
      have := List.dropWhile_get_zero_not isSeparator s (by simp [ht])
      simpa [ht] using this
    split_ifs at hcall with hb0
    · cases hcall
      subst hb0
      rfl
    · have hsplit' : (b :: t).takeWhile inToken ++ (b :: t).dropWhile inToken = b :: t :=
        List.takeWhile_append_dropWhile
      have hword : ∀ x ∈ (b :: t).takeWhile inToken, isSeparator x = false ∧ x ≠ 0 := by
        intro x hx
        simpa [inToken] using List.mem_takeWhile_imp hx
      have hne : (b :: t).takeWhile inToken ≠ [] := by simp [inToken, hb, hb0]
      have hnul' : (0 : Byte) ∉ (b :: t).takeWhile inToken := fun hmem => (hword 0 hmem).2 rfl
      split at hcall
      · cases hcall
      · rename_i stop rest hrest
        have hstop : isSeparator stop = true ∨ stop = 0 := by
          have := List.dropWhile_get_zero_not inToken (b :: t) (by simp [hrest])
          simpa [hrest, inToken, or_iff_not_imp_left] using this
        cases hcall
        rw [hrest] at hsplit'
        rw [← hsplit', List.append_assoc, cString_append hnul']
        by_cases hstop0 : stop = 0
        · subst hstop0
          rw [hsplit', if_pos rfl]
          exact nextWord_append isSeparator hne (fun x hx => (hword x hx).1) (by simp [cString])
        · have hsep := hstop.resolve_right hstop0
          have hcons : cString (stop :: rest ++ beyond) = stop :: cString (rest ++ beyond) := by
            rw [List.cons_append, cString, List.takeWhile_cons_of_pos (by simpa using hstop0),
              cString]
          rw [hcons, hsplit', if_neg hstop0]
          refine nextWord_append isSeparator hne (fun x hx => (hword x hx).1) ?_
          rintro x ⟨⟩
          exact hsep

/-- What the five calls find in the block is what they find in all of memory. -/
lemma Receiving.command_of_tokens {r : Receiving} {ws : List Text}
    (htokens : r.tokens = some (firstFive ws)) : r.command = Command.ofWords ws := by
  simp only [Receiving.tokens, strtokCalls, Option.bind_eq_bind, Option.bind_eq_some_iff,
    Prod.exists] at htokens
  obtain ⟨t₀, s₀, h₀, _, ⟨t₁, s₁, h₁, _, ⟨t₂, s₂, h₂, _, ⟨t₃, s₃, h₃, _,
    ⟨t₄, s₄, h₄, _, ⟨⟩, ⟨⟩⟩, ⟨⟩⟩, ⟨⟩⟩, ⟨⟩⟩, heq⟩ := htokens
  have hargs : t₀ = ws[0]? ∧ t₁ = ws[1]? ∧ t₂ = ws[2]? ∧ t₃ = ws[3]? ∧ t₄ = ws[4]? := by
    simpa [firstFive] using heq
  obtain ⟨rfl, rfl, rfl, rfl, rfl⟩ := hargs
  simp only [Receiving.command, strtokCommand, nextWord_of_strtokR h₀ r.beyond,
    nextWord_of_strtokR h₁ r.beyond, nextWord_of_strtokR h₂ r.beyond,
    nextWord_of_strtokR h₃ r.beyond, nextWord_of_strtokR h₄ r.beyond]
  cases ws with
  | nil => rfl
  | cons w ws => rfl

/-- A message whose tokens are determined is dispatched as the command it stands for. -/
theorem Received.command_of_determined {r : Receiving} (hr : Received r)
    (hdetermined : TokensDetermined r.received) :
    r.command = Command.ofWords (words isSeparator r.received) :=
  Receiving.command_of_tokens (hdetermined r hr rfl)

end Aesd
