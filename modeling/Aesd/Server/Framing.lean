import Aesd.Server.Receive

/-!
# Which commands a session dispatches

The receive loop ends a message when the last byte it has is a newline. As long as the memory
behind the received bytes is zero, a session is described by the bytes collected of the current
message, and a message is dispatched as the command it stands for.
-/

namespace Aesd

open CInt Bytes

namespace Receiving

variable {r : Receiving}

/-- Memory behind the received bytes is zero. -/
def ZeroPast (r : Receiving) : Prop := ∀ b ∈ r.buffer.drop r.totalBytesRecvd ++ r.beyond, b = 0

lemma length_received (r : Receiving) : r.received.length = r.totalBytesRecvd := by
  rw [received, List.length_take, Nat.min_eq_left r.total_le]

lemma received_store {bytes : List Byte}
    (hfits : r.totalBytesRecvd + bytes.length ≤ r.bufferCapacity) :
    (r.store bytes hfits).received = r.received ++ bytes :=
  take_overwrite r.total_le

lemma received_grow (added beyond : List Byte) : (r.grow added beyond).received = r.received :=
  List.take_append_of_le_length r.total_le

lemma ZeroPast.store (hz : r.ZeroPast) {bytes : List Byte}
    (hfits : r.totalBytesRecvd + bytes.length ≤ r.bufferCapacity) :
    (r.store bytes hfits).ZeroPast := by
  intro b hb
  apply hz
  rw [Receiving.store, drop_overwrite r.total_le] at hb
  rcases List.mem_append.mp hb with hb | hb
  · rw [← List.drop_drop] at hb
    exact List.mem_append_left _ (List.mem_of_mem_drop hb)
  · exact List.mem_append_right _ hb

lemma ZeroPast.grow (hz : r.ZeroPast) {added beyond : List Byte}
    (hzero : ∀ b ∈ added ++ beyond, b = 0) : (r.grow added beyond).ZeroPast := by
  intro b hb
  rw [Receiving.grow, List.drop_append_of_le_length r.total_le, List.append_assoc] at hb
  rcases List.mem_append.mp hb with hb | hb
  · exact hz b (List.mem_append_left _ hb)
  · exact hzero b hb

lemma zeroPast_fresh {beyond : List Byte} (hzero : ∀ b ∈ beyond, b = 0) :
    (fresh beyond).ZeroPast := by
  intro b hb
  rcases List.mem_append.mp hb with hb | hb
  · exact List.eq_of_mem_replicate (List.mem_of_mem_drop hb)
  · exact hzero b hb

/-- The byte the loop looks at is the last one received. -/
lemma store_last {bytes : List Byte} (hne : bytes ≠ [])
    (hfits : r.totalBytesRecvd + bytes.length ≤ r.bufferCapacity) :
    (r.store bytes hfits).buffer[(r.store bytes hfits).totalBytesRecvd - 1]? =
      (r.received ++ bytes).getLast? := by
  have hpos : 0 < (r.store bytes hfits).totalBytesRecvd :=
    Nat.add_pos_right _ (List.length_pos_iff.mpr hne)
  rw [← received_store hfits, List.getLast?_eq_getElem?, length_received, received,
    List.getElem?_take_of_lt (by omega)]

lemma cString_append_zeros (s : List Byte) {t : List Byte} (ht : ∀ b ∈ t, b = 0) :
    cString (s ++ t) = cString s := by
  induction s with
  | nil =>
    rw [List.nil_append, cString, cString, List.takeWhile_nil, List.takeWhile_eq_nil_iff]
    intro hlength
    simp [ht _ (List.getElem_mem hlength)]
  | cons b s ih =>
    rw [cString, cString, List.cons_append, List.takeWhile_cons, List.takeWhile_cons]
    rw [cString, cString] at ih
    rw [ih]

/-- The tokens are those of the received bytes. -/
lemma ZeroPast.command_eq (hz : r.ZeroPast) : r.command = tokenise r.received := by
  have hsplit : r.buffer ++ r.beyond =
      r.received ++ (r.buffer.drop r.totalBytesRecvd ++ r.beyond) := by
    rw [← List.append_assoc, received, List.take_append_drop]
  rw [command, strtokCommand_eq, hsplit, cString_append_zeros _ hz]
  rfl

end Receiving

/-! ### What a step can do -/

lemma dispatchCommand_cases (c : Option Command) :
    ((dispatchCommand c).1 = .ended ∨ (dispatchCommand c).1 = .starting) ∧
      (dispatchCommand c).2 = c.toList := by
  cases c with
  | none => exact ⟨Or.inr rfl, rfl⟩
  | some c =>
    refine ⟨?_, rfl⟩
    rw [dispatchCommand]
    split_ifs
    · exact Or.inl rfl
    · exact Or.inr rfl

/-- The steps of a session, one by one: bytes received complete the message, fill the buffer, leave
room in it, or are too many to be counted. -/
inductive Session.Steps : Session → SessionInput → Session → List Command → Prop where
  | noMemory : Steps .starting (.malloc none) .ended []
  | allocated (beyond : List Byte) :
      Steps .starting (.malloc (some beyond)) (.receiving (.fresh beyond)) []
  | tossed (r : Receiving) : Steps (.growing r) (.realloc none) .starting []
  | grown {r : Receiving} {added : List Byte} (beyond : List Byte)
      (hadded : added.length = r.bufferCapacity) :
      Steps (.growing r) (.realloc (some (added, beyond))) (.receiving (r.grow added beyond)) []
  | complete {r : Receiving} {bytes : List Byte} (hne : bytes ≠ [])
      (hfits : r.totalBytesRecvd + bytes.length ≤ r.bufferCapacity)
      (hshort : r.totalBytesRecvd + bytes.length < 2 ^ 31)
      (hlast : (r.received ++ bytes).getLast? = some newline) :
      Steps (.receiving r) (.recv bytes) (dispatchCommand (r.store bytes hfits).command).1
        (dispatchCommand (r.store bytes hfits).command).2
  | full {r : Receiving} {bytes : List Byte} (hne : bytes ≠ [])
      (hfits : r.totalBytesRecvd + bytes.length ≤ r.bufferCapacity)
      (hshort : r.totalBytesRecvd + bytes.length < 2 ^ 31)
      (hlast : (r.received ++ bytes).getLast? ≠ some newline)
      (hfull : (r.store bytes hfits).totalBytesRecvd = (r.store bytes hfits).bufferCapacity) :
      Steps (.receiving r) (.recv bytes) (.growing (r.store bytes hfits)) []
  | stored {r : Receiving} {bytes : List Byte} (hne : bytes ≠ [])
      (hfits : r.totalBytesRecvd + bytes.length ≤ r.bufferCapacity)
      (hshort : r.totalBytesRecvd + bytes.length < 2 ^ 31)
      (hlast : (r.received ++ bytes).getLast? ≠ some newline)
      (hroom : (r.store bytes hfits).totalBytesRecvd ≠ (r.store bytes hfits).bufferCapacity) :
      Steps (.receiving r) (.recv bytes) (.receiving (r.store bytes hfits)) []
  | overflow {r : Receiving} {bytes : List Byte} (hne : bytes ≠ [])
      (hlong : 2 ^ 31 ≤ r.totalBytesRecvd + bytes.length) :
      Steps (.receiving r) (.recv bytes) .ended []
  | closed (r : Receiving) : Steps (.receiving r) .recvClosed .ended r.command.toList
  | failed (r : Receiving) : Steps (.receiving r) .recvFailed .ended []
  | ended (input : SessionInput) : Steps .ended input .ended []

lemma Session.steps_of_step {s s' : Session} {input : SessionInput} {out : List Command}
    (hstep : s.step input = some (s', out)) : Steps s input s' out := by
  cases s with
  | starting =>
    cases input with
    | malloc beyond =>
      cases beyond with
      | none =>
        cases hstep
        exact .noMemory
      | some beyond =>
        cases hstep
        exact .allocated beyond
    | _ => cases hstep
  | growing r =>
    cases input with
    | realloc memory =>
      cases memory with
      | none =>
        cases hstep
        exact .tossed r
      | some memory =>
        simp only [Session.step] at hstep
        split_ifs at hstep with hadded
        cases hstep
        exact .grown memory.2 hadded
    | _ => cases hstep
  | receiving r =>
    cases input with
    | recv bytes =>
      simp only [Session.step] at hstep
      -- a newline last, a full buffer, room left, or an `int` that overflows
      split_ifs at hstep with hfits hshort hlast hfull
      · rw [Receiving.store_last hfits.1] at hlast
        have hcomplete := Steps.complete hfits.1 hfits.2 hshort hlast
        rwa [Option.some.inj hstep] at hcomplete
      · rw [Receiving.store_last hfits.1] at hlast
        cases hstep
        exact .full hfits.1 hfits.2 hshort hlast hfull
      · rw [Receiving.store_last hfits.1] at hlast
        cases hstep
        exact .stored hfits.1 hfits.2 hshort hlast hfull
      · cases hstep
        exact .overflow hfits.1 (Nat.le_of_not_lt hshort)
    | recvClosed =>
      cases hstep
      exact .closed r
    | recvFailed =>
      cases hstep
      exact .failed r
    | _ => cases hstep
  | ended =>
    cases hstep
    exact .ended input

/-- The session goes on, with `x` collected of the current message and zeros behind it. -/
inductive Live : Session → List Byte → Prop where
  | starting : Live .starting []
  | growing {r : Receiving} (hz : r.ZeroPast) : Live (.growing r) r.received
  | receiving {r : Receiving} (hz : r.ZeroPast) : Live (.receiving r) r.received

/-- Memory comes filled with zeros. -/
def SessionInput.Zeroed : SessionInput → Prop
  | .malloc (some beyond)           => ∀ b ∈ beyond, b = 0
  | .realloc (some (added, beyond)) => ∀ b ∈ added ++ beyond, b = 0
  | _                               => True

/-- The steps of a session that has collected `x`. -/
inductive StepSpec (x : List Byte) : SessionInput → Session → List Command → Prop where
  | noMemory : StepSpec x (.malloc none) .ended []
  | allocated {beyond : List Byte} {s' : Session} (hlive : Live s' x) :
      StepSpec x (.malloc (some beyond)) s' []
  | tossed : StepSpec x (.realloc none) .starting []
  | grown {memory : List Byte × List Byte} {s' : Session} (hlive : Live s' x) :
      StepSpec x (.realloc (some memory)) s' []
  | overflow {bytes : List Byte} (hne : bytes ≠ []) (hlong : 2 ^ 31 ≤ (x ++ bytes).length) :
      StepSpec x (.recv bytes) .ended []
  | complete {bytes : List Byte} (hne : bytes ≠ []) (hshort : (x ++ bytes).length < 2 ^ 31)
      (hlast : (x ++ bytes).getLast? = some newline) :
      StepSpec x (.recv bytes) (dispatchCommand (tokenise (x ++ bytes))).1
        (dispatchCommand (tokenise (x ++ bytes))).2
  | collected {bytes : List Byte} {s' : Session} (hne : bytes ≠ [])
      (hshort : (x ++ bytes).length < 2 ^ 31) (hlast : (x ++ bytes).getLast? ≠ some newline)
      (hlive : Live s' (x ++ bytes)) : StepSpec x (.recv bytes) s' []
  | closed : StepSpec x .recvClosed .ended (tokenise x).toList
  | failed : StepSpec x .recvFailed .ended []

lemma step_spec {s s' : Session} {x : List Byte} {input : SessionInput} {out : List Command}
    (hlive : Live s x) (hzero : input.Zeroed) (hstep : s.step input = some (s', out)) :
    StepSpec x input s' out := by
  have hsteps := Session.steps_of_step hstep
  cases hlive with
  | starting =>
    cases hsteps with
    | noMemory => exact .noMemory
    | allocated beyond => exact .allocated (Live.receiving (Receiving.zeroPast_fresh hzero))
  | @growing r hz =>
    cases hsteps with
    | tossed => exact .tossed
    | grown beyond hadded =>
      have hlive := Live.receiving (hz.grow hzero)
      rw [Receiving.received_grow] at hlive
      exact .grown hlive
  | @receiving r hz =>
    have hlength : ∀ {bytes : List Byte},
        (r.received ++ bytes).length = r.totalBytesRecvd + bytes.length := by
      intro bytes
      rw [List.length_append, r.length_received]
    cases hsteps with
    | complete hne hfits hshort hlast =>
      rw [(hz.store hfits).command_eq, Receiving.received_store]
      exact .complete hne (hlength ▸ hshort) hlast
    | full hne hfits hshort hlast hfull =>
      have hlive := Live.growing (hz.store hfits)
      rw [Receiving.received_store] at hlive
      exact .collected hne (hlength ▸ hshort) hlast hlive
    | stored hne hfits hshort hlast hroom =>
      have hlive := Live.receiving (hz.store hfits)
      rw [Receiving.received_store] at hlive
      exact .collected hne (hlength ▸ hshort) hlast hlive
    | overflow hne hlong => exact .overflow hne (hlength ▸ hlong)
    | closed =>
      rw [hz.command_eq]
      exact .closed
    | failed => exact .failed

lemma chunksOf_concat_recv (inputs : List SessionInput) (bytes : List Byte) :
    chunksOf (inputs ++ [.recv bytes]) = chunksOf inputs ++ [bytes] := by
  rw [chunksOf, List.filterMap_append]
  rfl

lemma chunksOf_concat_other (inputs : List SessionInput) {input : SessionInput}
    (hother : ∀ bytes, input ≠ .recv bytes) : chunksOf (inputs ++ [input]) = chunksOf inputs := by
  rw [chunksOf, List.filterMap_append]
  cases input with
  | recv bytes => exact absurd rfl (hother bytes)
  | _ => exact List.append_nil _

/-! ### Commands and lines -/

/-- Memory can be had, filled with zeros, and the client stays. -/
def SessionInput.Undisturbed : SessionInput → Prop
  | .malloc none | .realloc none | .recvClosed | .recvFailed => False
  | input => input.Zeroed

/-- A line that stands for a command other than `quit`. -/
def CommandLine (line : List Byte) : Prop :=
  IsLine newline line ∧ ∃ c, tokenise line = some c ∧ c.is "quit" = false

/-- A session in which the messages `ms` have been sent, and `x` of the next one. It goes on and has
dispatched them all, or it has ended with a `quit` or in a message that is too long. -/
inductive Framed (ms : List (List Byte)) (x : List Byte) : Session → List Command → Prop where
  | live {s : Session} (hlive : Live s x) (hshort : ∀ m ∈ ms, m.length < 2 ^ 31) :
      Framed ms x s (ms.filterMap tokenise)
  | quit {cmds : List Command} {m : List Byte} {c : Command} (hlength : cmds.length ≤ ms.length)
      (hm : m ∈ ms) (hc : tokenise m = some c) (hquit : c.is "quit" = true) :
      Framed ms x .ended cmds
  | overflowing {cmds : List Command} (hlength : cmds.length ≤ ms.length)
      (hlong : 2 ^ 31 ≤ x.length) : Framed ms x .ended cmds
  | overflowed {cmds : List Command} {m : List Byte} (hlength : cmds.length < ms.length)
      (hm : m ∈ ms) (hlong : 2 ^ 31 ≤ m.length) : Framed ms x .ended cmds

lemma Framed.length_le {ms : List (List Byte)} {x : List Byte} {s : Session} {cmds : List Command}
    (h : Framed ms x s cmds) : cmds.length ≤ ms.length := by
  cases h with
  | live => exact List.length_filterMap_le _ _
  | quit hlength => exact hlength
  | overflowing hlength => exact hlength
  | overflowed hlength => exact hlength.le

/-- A session that has ended takes no notice of what is sent. -/
lemma Framed.ended_addChunk {y : List (List Byte) × List Byte} {cmds : List Command}
    (h : Framed y.1 y.2 .ended cmds) (chunk : List Byte) :
    Framed (addChunk newline y chunk).1 (addChunk newline y chunk).2 .ended cmds := by
  have hgrow : y.1.length < (y.1 ++ [y.2 ++ chunk]).length := by simp
  rw [addChunk]
  cases h with
  | live hlive => cases hlive
  | quit hlength hm hc hquit =>
    split_ifs
    · exact .quit (hlength.trans hgrow.le) (List.mem_append_left _ hm) hc hquit
    · exact .quit hlength hm hc hquit
  | overflowing hlength hlong =>
    have hlong' : 2 ^ 31 ≤ (y.2 ++ chunk).length := by
      rw [List.length_append]
      omega
    split_ifs
    · exact .overflowed (hlength.trans_lt hgrow)
        (List.mem_append_right _ (List.mem_singleton_self _)) hlong'
    · exact .overflowing hlength hlong'
  | overflowed hlength hm hlong =>
    split_ifs
    · exact .overflowed (hlength.trans hgrow) (List.mem_append_left _ hm) hlong
    · exact .overflowed hlength hm hlong

lemma SessionInput.Undisturbed.zeroed {input : SessionInput} (h : input.Undisturbed) :
    input.Zeroed := by
  cases input with
  | malloc beyond =>
    cases beyond with
    | none => exact h.elim
    | some beyond => exact h
  | realloc memory =>
    cases memory with
    | none => exact h.elim
    | some memory => exact h
  | _ => trivial

/-- A chunk that completes a message. -/
lemma Framed.complete {ms : List (List Byte)} {m : List Byte}
    (hshort : ∀ m ∈ ms, m.length < 2 ^ 31) (hm : m.length < 2 ^ 31) :
    Framed (ms ++ [m]) [] (dispatchCommand (tokenise m)).1
      (ms.filterMap tokenise ++ (dispatchCommand (tokenise m)).2) := by
  have hshort' : ∀ m' ∈ ms ++ [m], m'.length < 2 ^ 31 := by
    intro m' hm'
    rcases List.mem_append.mp hm' with hm' | hm'
    · exact hshort m' hm'
    · rw [List.mem_singleton.mp hm']
      exact hm
  have hcmds : (ms ++ [m]).filterMap tokenise = ms.filterMap tokenise ++ (tokenise m).toList := by
    rw [List.filterMap_append]
    cases htok : tokenise m with
    | none => simp [htok]
    | some c => simp [htok]
  cases htok : tokenise m with
  | none =>
    have hlive := Framed.live Live.starting hshort'
    rw [hcmds, htok] at hlive
    exact hlive
  | some c =>
    rw [htok] at hcmds
    cases hquit : c.is "quit" with
    | false =>
      have hlive := Framed.live Live.starting hshort'
      rw [hcmds] at hlive
      simpa [dispatchCommand, hquit] using hlive
    | true =>
      -- after `quit` nothing more is dispatched
      have hlength : (ms.filterMap tokenise ++ [c]).length ≤ (ms ++ [m]).length := by
        have := List.length_filterMap_le tokenise ms
        simp only [List.length_append, List.length_singleton]
        omega
      have hmem : m ∈ ms ++ [m] := List.mem_append_right _ (List.mem_singleton_self _)
      have hend := Framed.quit (x := []) hlength hmem htok hquit
      simpa [dispatchCommand, hquit] using hend

lemma Framed.step {s s' : Session} {cmds out : List Command} {inputs : List SessionInput}
    {input : SessionInput}
    (h : Framed (messages newline (chunksOf inputs)).1 (messages newline (chunksOf inputs)).2 s
      cmds)
    (hC : input.Undisturbed) (hstep : s.step input = some (s', out)) :
    Framed (messages newline (chunksOf (inputs ++ [input]))).1
      (messages newline (chunksOf (inputs ++ [input]))).2 s' (cmds ++ out) := by
  cases s with
  | ended =>
    cases hstep
    rw [List.append_nil]
    cases input with
    | recv bytes =>
      rw [chunksOf_concat_recv, messages_concat]
      exact h.ended_addChunk bytes
    | _ =>
      rw [chunksOf_concat_other inputs (by rintro _ ⟨⟩)]
      exact h
  | _ =>
    obtain ⟨hlive, hshort⟩ := h
    cases step_spec hlive hC.zeroed hstep with
    | noMemory => exact hC.elim
    | tossed => exact hC.elim
    | closed => exact hC.elim
    | failed => exact hC.elim
    | allocated hlive' =>
      rw [chunksOf_concat_other inputs (by rintro _ ⟨⟩), List.append_nil]
      exact .live hlive' hshort
    | grown hlive' =>
      rw [chunksOf_concat_other inputs (by rintro _ ⟨⟩), List.append_nil]
      exact .live hlive' hshort
    | overflow _ hlong =>
      -- from here on the message is too long, whether it is complete or not
      have hlength := List.length_filterMap_le tokenise (messages newline (chunksOf inputs)).1
      rw [chunksOf_concat_recv, messages_concat, List.append_nil, addChunk]
      split_ifs
      · refine .overflowed ?_ (List.mem_append_right _ (List.mem_singleton_self _)) hlong
        rw [List.length_append, List.length_singleton]
        omega
      · exact .overflowing hlength hlong
    | complete _ hshort' hlast =>
      rw [chunksOf_concat_recv, messages_concat, addChunk, if_pos hlast]
      exact .complete hshort hshort'
    | collected _ _ hlast hlive' =>
      rw [chunksOf_concat_recv, messages_concat, addChunk, if_neg hlast, List.append_nil]
      exact .live hlive' hshort

/-- The run lemma. -/
lemma Serves.framed {inputs : List SessionInput} {s : Session} {cmds : List Command}
    (run : Serves (fun _ input => input.Undisturbed) inputs s cmds) :
    Framed (messages newline (chunksOf inputs)).1 (messages newline (chunksOf inputs)).2 s
      cmds := by
  induction run with
  | start => exact .live Live.starting nofun
  | step run input hC hstep ih => exact ih.step hC hstep

/-- A session gets the commands of a client that stays, one for each line, exactly if every newline
is the last byte of a chunk and no line is too long for the counter. -/
theorem framing_iff {lines : List (List Byte)} (hlines : ∀ line ∈ lines, CommandLine line)
    {inputs : List SessionInput} {s : Session} {cmds : List Command}
    (run : Serves (fun _ input => input.Undisturbed) inputs s cmds)
    (hstream : (chunksOf inputs).flatten = lines.flatten) :
    cmds.map some = lines.map tokenise ↔
      (∀ chunk ∈ chunksOf inputs, newline ∉ chunk.dropLast) ∧
        ∀ line ∈ lines, line.length < 2 ^ 31 := by
  have hframed := run.framed
  have hisLine : ∀ line ∈ lines, IsLine newline line := fun line hline => (hlines line hline).1
  have hnotQuit : ∀ m ∈ lines, ∀ c, tokenise m = some c → c.is "quit" ≠ true := by
    intro m hm c hc
    obtain ⟨-, c', hc', hquit⟩ := hlines m hm
    rw [hc, Option.some.injEq] at hc'
    simp [hc', hquit]
  constructor
  · -- a command for each line: no line has come in one piece with another
    intro hcmds
    have hlength : cmds.length = lines.length := by simpa using congrArg List.length hcmds
    have haligned : ∀ chunk ∈ chunksOf inputs, newline ∉ chunk.dropLast := by
      rw [← messages_length_eq_iff, hstream, count_lines newline hisLine]
      have hle := hframed.length_le
      have hcount := messages_length newline (chunksOf inputs)
      rw [hstream, count_lines newline hisLine] at hcount
      omega
    refine ⟨haligned, ?_⟩
    rw [messages_eq_lines newline hisLine haligned hstream] at hframed
    cases hframed with
    | live hlive hshort => exact hshort
    | quit _ hm hc hquit => exact absurd hquit (hnotQuit _ hm _ hc)
    | overflowing _ hlong => simp at hlong
    | overflowed hlt => exact absurd hlength (Nat.ne_of_lt hlt)
  · -- every message is a line, and short
    rintro ⟨haligned, hshort⟩
    rw [messages_eq_lines newline hisLine haligned hstream] at hframed
    cases hframed with
    | live hlive _ =>
      rw [List.map_filterMap_some_eq_filter_map_isSome, List.filter_eq_self]
      intro c hc
      obtain ⟨m, hm, rfl⟩ := List.mem_map.mp hc
      obtain ⟨-, c', hc', -⟩ := hlines m hm
      simp [hc']
    | quit _ hm hc hquit => exact absurd hquit (hnotQuit _ hm _ hc)
    | overflowing _ hlong => simp at hlong
    | overflowed _ hm hlong => exact absurd (hshort _ hm) (Nat.not_lt.mpr hlong)

/-- The lines `ls` and `?`. -/
def twoLines : List (List Byte) := [str "ls\n", str "?\n"]

lemma commandLine_twoLines : ∀ line ∈ twoLines, CommandLine line := by
  have hls : CommandLine (str "ls\n") :=
    ⟨⟨str "ls", rfl, by decide⟩, ⟨str "ls", none, none, none, none⟩, rfl, by decide⟩
  have hhelp : CommandLine (str "?\n") :=
    ⟨⟨str "?", rfl, by decide⟩, ⟨str "?", none, none, none, none⟩, rfl, by decide⟩
  simp [twoLines, hls, hhelp]

/-- A line may come in several chunks. -/
theorem framing_threeChunks : ∃ inputs s cmds,
    Serves (fun _ input => input.Undisturbed) inputs s cmds ∧
      chunksOf inputs = [str "l", str "s\n", str "?\n"] ∧
      cmds.map some = twoLines.map tokenise := by
  have run := (Serves.start (C := fun _ input => input.Undisturbed)).step (.malloc (some [])) nofun
    rfl
  have run := (run.step (.recv (str "l")) trivial rfl).step (.recv (str "s\n")) trivial rfl
  have run := (run.step (.malloc (some [])) nofun rfl).step (.recv (str "?\n")) trivial rfl
  refine ⟨_, _, _, run, rfl, ?_⟩
  exact (framing_iff commandLine_twoLines run rfl).mpr ⟨by decide, by decide⟩

/-- Both lines in one chunk are one command. -/
theorem framing_oneChunk : ∃ inputs s cmds,
    Serves (fun _ input => input.Undisturbed) inputs s cmds ∧
      (∀ line ∈ twoLines, CommandLine line) ∧ chunksOf inputs = [twoLines.flatten] ∧
      cmds.map some ≠ twoLines.map tokenise := by
  have run := (Serves.start (C := fun _ input => input.Undisturbed)).step (.malloc (some [])) nofun
    rfl
  have run := run.step (.recv (str "ls\n?\n")) trivial rfl
  exact ⟨_, _, _, run, commandLine_twoLines, rfl, by decide⟩

end Aesd
