import Aesd.Server.Framing

/-!
# Only complete lines are executed

What a client has sent falls into pieces that end in a newline, and a rest. A session that is not
cut off in the middle of a line, loses nothing to a failed `realloc`, can count what it has received
and finds zeros behind it dispatches commands of such pieces only, each at most once and in order.
-/

namespace Aesd

open CInt Bytes

/-- The commands are, in order, commands of successive pieces of the stream. Each piece ends in a
newline, and so each starts at the beginning of a line. -/
def CompleteLines (stream : List Byte) (cmds : List Command) : Prop :=
  ∃ ms : List (List Byte), ms.flatten <+: stream ∧ (∀ m ∈ ms, m.getLast? = some newline) ∧
    (cmds.map some).Sublist (ms.map tokenise)

/-- The step does not cut off a line: no `realloc` fails, memory comes filled with zeros, the `int`
that counts the bytes of the message does not overflow, and when the client closes the connection
there are only separators behind its last newline. -/
def Orderly (s : Session) : SessionInput → Prop
  | .realloc none => False
  | .recv bytes   => ∀ r, s = .receiving r → r.totalBytesRecvd + bytes.length < 2 ^ 31
  | .recvClosed   => ∀ r, s = .receiving r →
      ∀ b ∈ r.received.rtakeWhile (· ≠ newline), isSeparator b = true
  | input         => input.Zeroed

lemma Orderly.zeroed {s : Session} {input : SessionInput} (h : Orderly s input) :
    input.Zeroed := by
  cases input with
  | realloc memory =>
    cases memory with
    | none => trivial
    | some memory => exact h
  | recv bytes => trivial
  | recvClosed => trivial
  | _ => exact h

/-! ### Separators at the end of a text -/

lemma cString_append_separators (s : List Byte) {t : List Byte}
    (ht : ∀ b ∈ t, isSeparator b = true) :
    ∃ t', cString (s ++ t) = cString s ++ t' ∧ ∀ b ∈ t', isSeparator b = true := by
  rw [cString, cString, List.takeWhile_append]
  split_ifs with hlength
  · refine ⟨t.takeWhile (· ≠ 0), ?_, fun b hb => ht b (List.takeWhile_subset _ hb)⟩
    rw [(List.takeWhile_prefix _).eq_of_length hlength]
  · exact ⟨[], (List.append_nil _).symm, by simp⟩

lemma tokenise_append_separators (s : List Byte) {t : List Byte}
    (ht : ∀ b ∈ t, isSeparator b = true) : tokenise (s ++ t) = tokenise s := by
  obtain ⟨t', hcString, ht'⟩ := cString_append_separators s ht
  rw [tokenise, hcString, words_append_separators _ _ ht', tokenise]

/-- Up to its last newline a text is empty or ends in a newline. -/
lemma rdropWhile_newline (x : List Byte) :
    x.rdropWhile (· ≠ newline) = [] ∨
      (x.rdropWhile (· ≠ newline)).getLast? = some newline := by
  by_cases hne : x.rdropWhile (· ≠ newline) = []
  · exact Or.inl hne
  · right
    have hlast := List.rdropWhile_last_not (· ≠ newline) x hne
    rw [List.getLast?_eq_some_getLast hne]
    simpa using hlast

/-! ### Runs -/

/-- The invariant: what has been sent are the pieces `ms`, and `x` of the current message. -/
def InPieces (stream : List Byte) (s : Session) (cmds : List Command) : Prop :=
  (s = .ended ∧ CompleteLines stream cmds) ∨
    ∃ (ms : List (List Byte)) (x : List Byte), Live s x ∧ stream = ms.flatten ++ x ∧
      (∀ m ∈ ms, m.getLast? = some newline) ∧ (cmds.map some).Sublist (ms.map tokenise)

lemma CompleteLines.mono {stream stream' : List Byte} {cmds : List Command}
    (h : CompleteLines stream cmds) (hbegins : stream <+: stream') :
    CompleteLines stream' cmds := by
  obtain ⟨ms, hms, hlast, hcmds⟩ := h
  exact ⟨ms, hms.trans hbegins, hlast, hcmds⟩

lemma InPieces.completeLines {stream : List Byte} {s : Session} {cmds : List Command}
    (h : InPieces stream s cmds) : CompleteLines stream cmds := by
  rcases h with ⟨-, h⟩ | ⟨ms, x, -, rfl, hlast, hcmds⟩
  · exact h
  · exact ⟨ms, List.prefix_append _ _, hlast, hcmds⟩

/-- One more piece, with its command if it has one. -/
lemma sublist_concat {ms : List (List Byte)} {cmds : List Command}
    (hcmds : (cmds.map some).Sublist (ms.map tokenise)) (m : List Byte) :
    ((cmds ++ (tokenise m).toList).map some).Sublist ((ms ++ [m]).map tokenise) := by
  rw [List.map_append, List.map_append]
  apply hcmds.append
  cases htok : tokenise m with
  | none => exact List.nil_sublist _
  | some c => simp [htok]

lemma chunksOf_flatten_of_append (inputs : List SessionInput) (input : SessionInput) :
    (chunksOf inputs).flatten <+: (chunksOf (inputs ++ [input])).flatten := by
  rw [chunksOf, chunksOf, List.filterMap_append, List.flatten_append]
  exact List.prefix_append _ _

lemma getLast?_concat_pieces {ms : List (List Byte)} (hlast : ∀ m ∈ ms, m.getLast? = some newline)
    {m : List Byte} (hm : m.getLast? = some newline) :
    ∀ m' ∈ ms ++ [m], m'.getLast? = some newline := by
  intro m' hm'
  rcases List.mem_append.mp hm' with hm' | hm'
  · exact hlast m' hm'
  · rw [List.mem_singleton.mp hm']
    exact hm

/-- The connection closed behind a complete line. -/
lemma completeLines_closed {ms : List (List Byte)} {x : List Byte} {cmds : List Command}
    (hlast : ∀ m ∈ ms, m.getLast? = some newline)
    (hcmds : (cmds.map some).Sublist (ms.map tokenise))
    (hrest : ∀ b ∈ x.rtakeWhile (· ≠ newline), isSeparator b = true) :
    CompleteLines (ms.flatten ++ x) (cmds ++ (tokenise x).toList) := by
  have hsplit : x.rdropWhile (· ≠ newline) ++ x.rtakeWhile (· ≠ newline) = x :=
    List.rdropWhile_append_rtakeWhile
  have htok : tokenise x = tokenise (x.rdropWhile (· ≠ newline)) := by
    conv_lhs => rw [← hsplit]
    exact tokenise_append_separators _ hrest
  rcases rdropWhile_newline x with hnil | hnewline
  · rw [htok, hnil]
    refine ⟨ms, List.prefix_append _ _, hlast, ?_⟩
    simpa [tokenise, cString, words_nil, Command.ofWords] using hcmds
  · refine ⟨ms ++ [x.rdropWhile (· ≠ newline)], ?_, getLast?_concat_pieces hlast hnewline, ?_⟩
    · rw [List.flatten_concat, List.prefix_append_right_inj]
      exact List.rdropWhile_prefix _ _
    · rw [htok]
      exact sublist_concat hcmds _

lemma InPieces.step {s s' : Session} {cmds out : List Command} {inputs : List SessionInput}
    {input : SessionInput} (h : InPieces (chunksOf inputs).flatten s cmds) (hC : Orderly s input)
    (hstep : s.step input = some (s', out)) :
    InPieces (chunksOf (inputs ++ [input])).flatten s' (cmds ++ out) := by
  rcases h with ⟨rfl, hdone⟩ | ⟨ms, x, hlive, hstream, hlast, hcmds⟩
  · cases hstep
    rw [List.append_nil]
    exact Or.inl ⟨rfl, hdone.mono (chunksOf_flatten_of_append inputs input)⟩
  · have hdone : CompleteLines (chunksOf inputs).flatten cmds :=
      ⟨ms, hstream ▸ List.prefix_append _ _, hlast, hcmds⟩
    have hended : InPieces (chunksOf (inputs ++ [input])).flatten .ended (cmds ++ []) := by
      rw [List.append_nil]
      exact Or.inl ⟨rfl, hdone.mono (chunksOf_flatten_of_append inputs input)⟩
    cases step_spec hlive hC.zeroed hstep with
    | noMemory => exact hended
    | failed => exact hended
    | overflow _ hlong =>
      cases hlive with
      | starting => cases hstep
      | growing => cases hstep
      | @receiving r hz =>
        have hshort := hC r rfl
        rw [List.length_append, r.length_received] at hlong
        omega
    | tossed => exact hC.elim
    | allocated hlive' =>
      rw [chunksOf_concat_other inputs (by rintro _ ⟨⟩), List.append_nil]
      exact Or.inr ⟨ms, x, hlive', hstream, hlast, hcmds⟩
    | grown hlive' =>
      rw [chunksOf_concat_other inputs (by rintro _ ⟨⟩), List.append_nil]
      exact Or.inr ⟨ms, x, hlive', hstream, hlast, hcmds⟩
    | @collected bytes _ _ _ _ hlive' =>
      rw [chunksOf_concat_recv, List.flatten_concat, hstream, List.append_assoc, List.append_nil]
      exact Or.inr ⟨ms, x ++ bytes, hlive', rfl, hlast, hcmds⟩
    | @complete bytes _ _ hnewline =>
      obtain ⟨hstate, hout⟩ := dispatchCommand_cases (tokenise (x ++ bytes))
      have hlast' := getLast?_concat_pieces hlast hnewline
      have hcmds' := sublist_concat hcmds (x ++ bytes)
      have hstream' : (ms ++ [x ++ bytes]).flatten = ms.flatten ++ (x ++ bytes) :=
        List.flatten_concat ..
      rw [chunksOf_concat_recv, List.flatten_concat, hstream, List.append_assoc, ← hstream', hout]
      rcases hstate with hstate | hstate
      · rw [hstate]
        exact Or.inl ⟨rfl, _, List.prefix_rfl, hlast', hcmds'⟩
      · rw [hstate]
        exact Or.inr ⟨_, [], .starting, (List.append_nil _).symm, hlast', hcmds'⟩
    | closed =>
      rw [chunksOf_concat_other inputs (by rintro _ ⟨⟩), hstream]
      refine Or.inl ⟨rfl, completeLines_closed hlast hcmds ?_⟩
      cases hlive with
      | starting => cases hstep
      | growing => cases hstep
      | @receiving r hz => exact hC r rfl

/-- Every command of an orderly session is the command of text that starts at the beginning of a
line and that the client ended with a newline. -/
theorem only_complete_lines {inputs : List SessionInput} {s : Session} {cmds : List Command}
    (run : Serves Orderly inputs s cmds) : CompleteLines (chunksOf inputs).flatten cmds := by
  have hpieces : InPieces (chunksOf inputs).flatten s cmds := by
    induction run with
    | start => exact Or.inr ⟨[], [], .starting, rfl, by simp, List.Sublist.refl _⟩
    | step run input hC hstep ih => exact ih.step hC hstep
  exact hpieces.completeLines

/-- Without a newline there is nothing to dispatch. -/
lemma not_completeLines {stream : List Byte} {cmds : List Command} (hno : newline ∉ stream)
    (hne : cmds ≠ []) : ¬ CompleteLines stream cmds := by
  rintro ⟨ms, hbegins, hlast, hcmds⟩
  cases ms with
  | nil =>
    apply hne
    simpa using hcmds
  | cons m ms =>
    apply hno
    have hm := List.mem_of_getLast? (hlast m (by simp))
    exact hbegins.subset (List.mem_flatten_of_mem (by simp) hm)

/-- A client that closes the connection behind its line and some blanks. -/
theorem only_complete_lines_blanks : ∃ inputs s cmds, Serves Orderly inputs s cmds ∧
    (chunksOf inputs).flatten = str "rmpart 12\n " ∧
    cmds = [⟨str "rmpart", some (str "12"), none, none, none⟩] ∧
    CompleteLines (chunksOf inputs).flatten cmds := by
  have run := (Serves.start (C := Orderly)).step (.malloc (some [])) nofun rfl
  have run := run.step (.recv (str "rmpart 12\n ")) (by rintro r ⟨⟩; decide) rfl
  have hblank : ∀ b ∈ List.rtakeWhile (· ≠ newline) (str "rmpart 12\n "), isSeparator b = true := by
    intro b hb
    obtain rfl : b = 32 := List.mem_singleton.mp hb
    rfl
  have run := run.step .recvClosed (by rintro r ⟨⟩; exact hblank) rfl
  exact ⟨_, _, _, run, rfl, rfl, only_complete_lines run⟩

/-- A client cut off in `rmpart 12` has partition 1 removed. -/
theorem incomplete_line_closed : ∃ inputs s cmds, Serves (fun _ _ => True) inputs s cmds ∧
    (chunksOf inputs).flatten = str "rmpart 1" ∧
    cmds = [⟨str "rmpart", some (str "1"), none, none, none⟩] ∧
    ¬ CompleteLines (chunksOf inputs).flatten cmds := by
  have run := (Serves.start (C := fun _ _ => True)).step (.malloc (some [])) trivial rfl
  have run := run.step (.recv (str "rmpart 1")) trivial rfl
  have run := run.step .recvClosed trivial rfl
  exact ⟨_, _, _, run, rfl, rfl, not_completeLines (by decide) nofun⟩

end Aesd
