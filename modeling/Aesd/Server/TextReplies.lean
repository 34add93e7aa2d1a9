import Aesd.Server.SectorSizes

/-!
# Text replies

`sendOnSocketf` formats a text into 1024 bytes and hands it to `send` once. It returns 0 although
the client does not get what did not fit, or what `send` did not take (`replyComplete_iff`). The
text of `read` fits for one sector only.
-/

namespace Aesd

open Effect CInt

/-! ### What the client gets -/

/-- A connection: how often `send` has been called, and the bytes delivered to the client. -/
structure Outbound where
  sends : ℕ
  delivered : Text

/-- The results of `send`: the call with number `k`, of `m` bytes, returns `count k m`. -/
structure SendPattern where
  count : ℕ → ℕ → ℤ
  count_le : ∀ k m, count k m ≤ m

/-- Nothing but `send` delivers bytes: as many as it returns, none if it fails. -/
def SendPattern.exec (pattern : SendPattern) :
    (op : SysOp) → Outbound → Answer op → Outbound → Prop
  | .send _ text, s, r, s' => r = pattern.count s.sends text.length ∧
      s' = ⟨s.sends + 1, s.delivered ++ text.take r.toNat⟩
  | _, s, _, s' => s' = s

/-- If `sendOnSocketf` returns 0 then the whole text has been delivered. -/
def ReplyComplete (pattern : SendPattern) (s : Outbound) (fd : ℤ) (text : Text) : Prop :=
  ∀ r s', (sendOnSocketf fd text).Eval pattern.exec s r s' → r = 0 →
    s'.delivered = s.delivered ++ text

/-- The reply of `read` without `-b`, for the contents of its buffer. -/
def readReply (contents : List Byte) : Text :=
  str "Read " ++ contents.takeWhile (· ≠ 0) ++ str " from socket\n"

example (clientFD : ℤ) (contents : List Byte) :
    showSectors clientFD false contents = reply clientFD (readReply contents) := rfl

variable {pattern : SendPattern} {s : Outbound} {fd : ℤ} {text : Text} {n : ℕ}

lemma length_sentText (hnul : 0 ∉ text) : (sentText text).length = min 1023 text.length := by
  have hstring : 0 ∉ text.take 1023 := fun h => hnul (List.mem_of_mem_take h)
  rw [sentText, Bytes.takeWhile_ne_of_not_mem hstring, List.length_take]

/-- The beginning of what is sent is the text only if the text is sent as it is, and completely. -/
lemma take_sentText_eq_self_iff {k : ℕ} (hk : k ≤ (sentText text).length) :
    (sentText text).take k = text ↔ text.length ≤ 1023 ∧ 0 ∉ text ∧ k = text.length := by
  have hinit : sentText text <+: text :=
    (List.takeWhile_prefix _).trans (List.take_prefix _ _)
  rw [← and_assoc, ← sentText_eq_self_iff]
  constructor
  · intro h
    have hlength := congrArg List.length h
    rw [List.length_take, min_eq_left hk] at hlength
    exact ⟨hinit.eq_of_length (le_antisymm hinit.length_le (hlength ▸ hk)), hlength⟩
  · rintro ⟨h, rfl⟩
    rw [h, List.take_length]

/-! ### Complete replies -/

/-- A text that is sent is complete if the call fails or takes all of it. -/
lemma replyComplete_sent_iff (hfd : 0 ≤ fd) (hlen : text.length < 2 ^ 31) :
    ReplyComplete pattern s fd text ↔ pattern.count s.sends (sentText text).length < 0 ∨
      (sentText text).take (pattern.count s.sends (sentText text).length).toNat = text := by
  have heval : ∀ r s', (sendOnSocketf fd text).Eval pattern.exec s r s' ↔
      r = (if pattern.count s.sends (sentText text).length < 0 then -1 else 0) ∧
        s' = ⟨s.sends + 1, s.delivered ++
          (sentText text).take (pattern.count s.sends (sentText text).length).toNat⟩ := by
    intro r s'
    rw [sendOnSocketf, if_neg (not_lt.mpr hfd), if_neg (not_le.mpr hlen)]
    constructor
    · rintro ⟨_, _, ⟨rfl, rfl⟩, rfl, rfl⟩
      exact ⟨rfl, rfl⟩
    · rintro ⟨rfl, rfl⟩
      exact ⟨_, _, ⟨rfl, rfl⟩, rfl, rfl⟩
  unfold ReplyComplete
  constructor
  · intro h
    by_cases hfail : pattern.count s.sends (sentText text).length < 0
    · exact Or.inl hfail
    · exact Or.inr (List.append_cancel_left
        (h _ _ ((heval _ _).mpr ⟨rfl, rfl⟩) (if_neg hfail)))
  · intro h r s' hrun hzero
    obtain ⟨rfl, rfl⟩ := (heval r s').mp hrun
    rcases h with hfail | h
    · rw [if_pos hfail] at hzero
      cases hzero
    · exact congrArg (s.delivered ++ ·) h

lemma replyComplete_text_iff : ReplyComplete pattern s fd text ↔
    fd < 0 ∨ 2 ^ 31 ≤ text.length ∨ pattern.count s.sends (sentText text).length < 0 ∨
      (text.length ≤ 1023 ∧ 0 ∉ text ∧ pattern.count s.sends text.length = text.length) := by
  rcases lt_or_ge fd 0 with hfd | hfd
  · refine iff_of_true ?_ (Or.inl hfd)
    intro r s' hrun hzero
    rw [sendOnSocketf, if_pos hfd] at hrun
    cases hrun.1.symm.trans hzero
  rcases le_or_gt (2 ^ 31) text.length with hlen | hlen
  · refine iff_of_true ?_ (Or.inr (Or.inl hlen))
    intro r s' hrun hzero
    rw [sendOnSocketf, if_neg (not_lt.mpr hfd), if_pos hlen] at hrun
    cases hrun.1.symm.trans hzero
  have hle := pattern.count_le s.sends (sentText text).length
  rw [replyComplete_sent_iff hfd hlen, take_sentText_eq_self_iff (by omega)]
  constructor
  · rintro (hfail | ⟨hshort, hnul, hcount⟩)
    · exact Or.inr (Or.inr (Or.inl hfail))
    · rw [sentText_eq_self_iff.mpr ⟨hshort, hnul⟩] at hcount ⊢
      rcases lt_or_ge (pattern.count s.sends text.length) 0 with hfail | hsent
      · exact Or.inr (Or.inr (Or.inl hfail))
      · exact Or.inr (Or.inr (Or.inr ⟨hshort, hnul, by omega⟩))
  · rintro (h | h | hfail | ⟨hshort, hnul, hcount⟩)
    · omega
    · omega
    · exact Or.inl hfail
    · rw [sentText_eq_self_iff.mpr ⟨hshort, hnul⟩, hcount]
      exact Or.inr ⟨hshort, hnul, Int.toNat_natCast _⟩

/-- The reply for the contents of full sectors has all of them but for the last byte. -/
lemma readReply_sectors {bytes : List Byte} (hpos : 1 ≤ n) (hlength : bytes.length = 512 * n)
    (hnul : 0 ∉ bytes) (leftover : ℕ → Byte) :
    readReply (readBufferContents (512 * n : ℕ) bytes leftover) =
      str "Read " ++ bytes.take (512 * n - 1) ++ str " from socket\n" := by
  have hstring : (bytes.take (512 * n - 1)).takeWhile (· ≠ 0) = bytes.take (512 * n - 1) :=
    Bytes.takeWhile_ne_of_not_mem fun h => hnul (List.mem_of_mem_take h)
  have hset : bytes.set (512 * n - 1) 0 = bytes.take (512 * n - 1) ++ [0] := by
    rw [List.set_eq_take_append_cons_drop, if_pos (by omega), List.drop_eq_nil_of_le (by omega)]
  rw [readBufferContents_eq_set hlength, hset, readReply, List.takeWhile_append, hstring]
  simp

lemma length_readReply_sectors {bytes : List Byte} (hpos : 1 ≤ n) (hlength : bytes.length = 512 * n)
    (hnul : 0 ∉ bytes) (leftover : ℕ → Byte) :
    (readReply (readBufferContents (512 * n : ℕ) bytes leftover)).length = 512 * n + 17 := by
  have hfirst : (str "Read ").length = 5 := by decide
  have hlast : (str " from socket\n").length = 13 := by decide
  rw [readReply_sectors hpos hlength hnul, List.length_append, List.length_append, List.length_take,
    hfirst, hlast]
  omega

/-- The client has the whole text exactly if nothing is sent, or the text fits and `send` takes all
of it. -/
theorem replyComplete_iff (pattern : SendPattern) (s : Outbound) (fd : ℤ) :
    (∀ text, ReplyComplete pattern s fd text ↔
      fd < 0 ∨ 2 ^ 31 ≤ text.length ∨ pattern.count s.sends (sentText text).length < 0 ∨
        (text.length ≤ 1023 ∧ 0 ∉ text ∧ pattern.count s.sends text.length = text.length)) ∧
    ∀ n bytes leftover, 1 ≤ n → bytes.length = 512 * n → 0 ∉ bytes →
      (ReplyComplete pattern s fd
          (readReply (readBufferContents (512 * n : ℕ) bytes leftover)) ↔
        fd < 0 ∨ 2 ^ 31 ≤ 512 * n + 17 ∨ pattern.count s.sends (min 1023 (512 * n + 17)) < 0 ∨
          (n = 1 ∧ pattern.count s.sends 529 = 529)) := by
  refine ⟨fun _ => replyComplete_text_iff, ?_⟩
  intro n bytes leftover hpos hlength hnul
  have hstring : 0 ∉ readReply (readBufferContents (512 * n : ℕ) bytes leftover) := by
    rw [readReply_sectors hpos hlength hnul, List.mem_append, List.mem_append, not_or, not_or]
    exact ⟨⟨by decide, fun h => hnul (List.mem_of_mem_take h)⟩, by decide⟩
  rw [replyComplete_text_iff, length_sentText hstring,
    length_readReply_sectors hpos hlength hnul leftover]
  constructor
  · rintro (h | h | h | ⟨hfits, -, hcount⟩)
    · exact Or.inl h
    · exact Or.inr (Or.inl h)
    · exact Or.inr (Or.inr (Or.inl h))
    · obtain rfl : n = 1 := by omega
      exact Or.inr (Or.inr (Or.inr ⟨rfl, hcount⟩))
  · rintro (h | h | h | ⟨rfl, hcount⟩)
    · exact Or.inl h
    · exact Or.inr (Or.inl h)
    · exact Or.inr (Or.inr (Or.inl h))
    · exact Or.inr (Or.inr (Or.inr ⟨by decide, hstring, hcount⟩))

/-- `send` takes all it is given. -/
def takesAll : SendPattern where
  count _ m := m
  count_le _ _ := le_rfl

lemma nul_not_mem_letters (m : ℕ) : (0 : Byte) ∉ List.replicate m 65 :=
  fun h => by cases List.eq_of_mem_replicate h

theorem replyComplete_oneSector :
    ReplyComplete takesAll ⟨0, []⟩ 4
      (readReply (readBufferContents 512 (List.replicate 512 65) fun _ => 0)) :=
  ((replyComplete_iff takesAll ⟨0, []⟩ 4).2 1 _ _ le_rfl List.length_replicate
    (nul_not_mem_letters 512)).mpr (Or.inr (Or.inr (Or.inr ⟨rfl, rfl⟩)))

/-- Even if `send` takes all it is given, the client gets 1023 of the 1041 bytes that `read 1 0 2`
has for two sectors full of `A`. -/
theorem not_replyComplete_twoSectors :
    ¬ ReplyComplete takesAll ⟨0, []⟩ 4
      (readReply (readBufferContents 1024 (List.replicate 1024 65) fun _ => 0)) := by
  have hlen := length_readReply_sectors (n := 2) (by decide) List.length_replicate
    (nul_not_mem_letters _) fun _ => 0
  intro h
  rcases replyComplete_text_iff.mp h with h | h | h | ⟨h, -, -⟩
  · cases h
  · exact absurd (hlen ▸ h) (by decide)
  · exact absurd h (not_lt.mpr (Int.natCast_nonneg _))
  · exact absurd (hlen ▸ h) (by decide)

end Aesd
