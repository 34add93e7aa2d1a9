import Mathlib

/-!
# Byte strings

What programs that collect text piece by piece need: storing a piece into a block of memory,
grouping pieces into messages at a terminator, and taking messages apart into words. Nothing here
depends on what a byte is.
-/

namespace Bytes

variable {α : Type}

/-! ### Storing into a block -/

/-- The bytes of a block after `data` has been stored at `offset`. -/
def overwrite (bytes : List α) (offset : ℕ) (data : List α) : List α :=
  bytes.take offset ++ data ++ bytes.drop (offset + data.length)

lemma length_overwrite {bytes data : List α} {offset : ℕ}
    (hfits : offset + data.length ≤ bytes.length) :
    (overwrite bytes offset data).length = bytes.length := by
  simp only [overwrite, List.length_append, List.length_take, List.length_drop]
  omega

lemma take_overwrite {bytes data : List α} {offset : ℕ} (hoffset : offset ≤ bytes.length) :
    (overwrite bytes offset data).take (offset + data.length) = bytes.take offset ++ data := by
  have hlength : (bytes.take offset ++ data).length = offset + data.length := by
    rw [List.length_append, List.length_take, Nat.min_eq_left hoffset]
  rw [overwrite, ← hlength, List.take_left]

lemma drop_overwrite {bytes data : List α} {offset : ℕ} (hoffset : offset ≤ bytes.length) :
    (overwrite bytes offset data).drop (offset + data.length) =
      bytes.drop (offset + data.length) := by
  have hlength : (bytes.take offset ++ data).length = offset + data.length := by
    rw [List.length_append, List.length_take, Nat.min_eq_left hoffset]
  rw [overwrite, List.drop_append_of_le_length hlength.ge, ← hlength, List.drop_length,
    List.nil_append]

/-- Data stored over the whole block. -/
lemma overwrite_all {bytes data : List α} (hlength : data.length = bytes.length) :
    overwrite bytes 0 data = data := by
  simp [overwrite, hlength]

/-- Data stored in the middle of the block. -/
lemma overwrite_append {a old tail data : List α} (hlength : old.length = data.length) :
    overwrite (a ++ (old ++ tail)) a.length data = a ++ data ++ tail := by
  rw [overwrite, List.take_left, List.drop_length_add_append, ← hlength, List.drop_left]

/-- Data stored behind a prefix of the block. -/
lemma prefix_overwrite {r bytes data : List α} (hr : r <+: bytes) :
    r ++ data <+: overwrite bytes r.length data := by
  rw [overwrite, ← List.prefix_iff_eq_take.mp hr]
  exact List.prefix_append _ _

/-! ### Lines -/

section

variable (nl : α)

/-- A terminated piece without a terminator inside. -/
def IsLine (line : List α) : Prop := ∃ body, line = body ++ [nl] ∧ nl ∉ body

/-- The first terminator of a text is at one place only. -/
lemma append_cons_inj {a b s t : List α} (ha : nl ∉ a) (hb : nl ∉ b)
    (h : a ++ nl :: s = b ++ nl :: t) : a = b ∧ s = t := by
  rcases List.append_eq_append_iff.mp h with ⟨c, rfl, hc⟩ | ⟨c, rfl, hc⟩
  · cases c with
    | nil => simpa using hc
    | cons x c =>
      rw [List.cons_append, List.cons.injEq] at hc
      rw [hc.1] at hb
      exact absurd (by simp) hb
  · cases c with
    | nil => simpa using hc.symm
    | cons x c =>
      rw [List.cons_append, List.cons.injEq] at hc
      rw [hc.1] at ha
      exact absurd (by simp) ha

/-- Text falls apart into lines in one way only. -/
lemma lines_unique {ms lines : List (List α)} {r : List α} (hms : ∀ m ∈ ms, IsLine nl m)
    (hlines : ∀ l ∈ lines, IsLine nl l) (hr : nl ∉ r)
    (h : ms.flatten ++ r = lines.flatten) : ms = lines ∧ r = [] := by
  induction ms generalizing lines with
  | nil =>
    cases lines with
    | nil => exact ⟨rfl, h⟩
    | cons l lines =>
      obtain ⟨body, rfl, -⟩ := hlines l (by simp)
      rw [List.flatten_nil, List.nil_append] at h
      rw [h] at hr
      exact absurd (by simp) hr
  | cons m ms ih =>
    obtain ⟨body, rfl, hbody⟩ := hms m (by simp)
    cases lines with
    | nil => simp at h
    | cons l lines =>
      obtain ⟨body', rfl, hbody'⟩ := hlines l (by simp)
      simp only [List.flatten_cons, List.append_assoc, List.singleton_append] at h
      obtain ⟨rfl, htail⟩ := append_cons_inj nl hbody hbody' h
      obtain ⟨rfl, rfl⟩ := ih (fun m hm => hms m (by simp [hm]))
        (fun l hl => hlines l (by simp [hl])) htail
      exact ⟨rfl, rfl⟩

/-- The terminated pieces of a text, without their terminators. -/
def splitLines [DecidableEq α] (text : List α) : List (List α) := (text.splitOn nl).dropLast

lemma splitLines_flatMap [DecidableEq α] {lines : List (List α)} (hlines : ∀ l ∈ lines, nl ∉ l) :
    splitLines nl (lines.flatMap fun l => l ++ [nl]) = lines := by
  have hsplit : (lines.flatMap fun l => l ++ [nl]).splitOn nl = lines ++ [[]] := by
    induction lines with
    | nil => rfl
    | cons l lines ih =>
      have hl : ∀ b ∈ l, (b == nl) = false := by
        intro b hb
        rw [beq_eq_false_iff_ne]
        rintro rfl
        exact hlines l List.mem_cons_self hb
      have ih := ih fun l' hl' => hlines l' (List.mem_cons_of_mem _ hl')
      rw [List.splitOn] at ih ⊢
      rw [List.flatMap_cons, List.append_assoc, List.singleton_append,
        List.splitOnP_append_cons (p := fun x => x == nl) l _ (beq_self_eq_true nl),
        List.splitOnP_eq_singleton hl, ih]
      rfl
  rw [splitLines, hsplit, List.dropLast_concat]

end

lemma takeWhile_ne_of_not_mem [DecidableEq α] {b : α} {s : List α} (hb : b ∉ s) :
    s.takeWhile (· ≠ b) = s := by
  rw [List.takeWhile_eq_self_iff]
  intro c hc
  exact decide_eq_true (ne_of_mem_of_not_mem hc hb)

/-! ### Pieces of one length -/

/-- The first `n` pieces of length `k`, one after the other. -/
lemma flatMap_pieces (k n : ℕ) (s : List α) :
    ((List.range n).flatMap fun i => (s.drop (k * i)).take k) = s.take (k * n) := by
  induction n with
  | zero => simp
  | succ n ih =>
    rw [List.range_succ, List.flatMap_append, ih, List.flatMap_singleton, Nat.mul_succ,
      List.take_add]

lemma filterMap_range_getElem? (xs : List α) (n : ℕ) :
    ((List.range n).filterMap fun i => xs[i]?) = xs.take n := by
  induction n with
  | zero => simp
  | succ n ih =>
    rw [List.range_succ, List.filterMap_append, ih, List.take_add_one]
    cases hx : xs[n]? with
    | none => simp [hx]
    | some x => simp [hx]

/-- Reading what every piece was written for. -/
lemma mapM_map_of_forall {β γ : Type} {f : α → β} {g : β → Option γ} {h : α → γ} {s : List α}
    (hread : ∀ x ∈ s, g (f x) = some (h x)) : (s.map f).mapM g = some (s.map h) := by
  induction s with
  | nil => rfl
  | cons x s ih =>
    have ih := ih fun y hy => hread y (List.mem_cons_of_mem _ hy)
    rw [List.map_cons, List.mapM_cons, hread x List.mem_cons_self, ih]
    rfl

/-! ### Chunks and messages -/

section

variable [DecidableEq α] (nl : α)

/-- The messages so far and the unfinished one after one more chunk. -/
def addChunk (x : List (List α) × List α) (chunk : List α) : List (List α) × List α :=
  if (x.2 ++ chunk).getLast? = some nl then (x.1 ++ [x.2 ++ chunk], [])
  else (x.1, x.2 ++ chunk)

/-- The chunks grouped into messages, each ending at the first chunk after which its bytes end in
the terminator `nl`; the second component is the unfinished message. -/
def messages (chunks : List (List α)) : List (List α) × List α :=
  chunks.foldl (addChunk nl) ([], [])

/-- The last byte of a chunk decides. -/
lemma addChunk_concat (x : List (List α) × List α) (body : List α) (last : α) :
    addChunk nl x (body ++ [last]) =
      if last = nl then (x.1 ++ [x.2 ++ body ++ [last]], []) else (x.1, x.2 ++ body ++ [last]) := by
  simp [addChunk]

lemma messages_concat (chunks : List (List α)) (chunk : List α) :
    messages nl (chunks ++ [chunk]) = addChunk nl (messages nl chunks) chunk :=
  List.foldl_concat ..

/-- No byte is lost. -/
lemma messages_flatten (chunks : List (List α)) :
    (messages nl chunks).1.flatten ++ (messages nl chunks).2 = chunks.flatten := by
  induction chunks using List.reverseRecOn with
  | nil => rfl
  | append_singleton chunks chunk ih =>
    rw [messages_concat, List.flatten_concat, ← ih, addChunk]
    split_ifs with hlast
    · simp
    · simp

/-- An unfinished message does not end in the terminator. -/
lemma messages_snd_last (chunks : List (List α)) :
    (messages nl chunks).2.getLast? ≠ some nl := by
  induction chunks using List.reverseRecOn with
  | nil => nofun
  | append_singleton chunks chunk ih =>
    rw [messages_concat, addChunk]
    split_ifs with hlast
    · nofun
    · exact hlast

/-- Every chunk that ends in the terminator completes a message, so what is missing to one message
for each terminator are those inside chunks. -/
lemma messages_length (chunks : List (List α)) :
    (messages nl chunks).1.length + (chunks.map fun chunk => chunk.dropLast.count nl).sum =
      chunks.flatten.count nl := by
  induction chunks using List.reverseRecOn with
  | nil => rfl
  | append_singleton chunks chunk ih =>
    rw [messages_concat, List.flatten_concat, List.count_append, ← ih, List.map_append,
      List.sum_append]
    rcases List.eq_nil_or_concat' chunk with rfl | ⟨body, last, rfl⟩
    · rw [addChunk, List.append_nil, if_neg (messages_snd_last nl chunks)]
      rfl
    · rw [addChunk_concat, List.count_append]
      split_ifs with hlast
      · simp [hlast]
        omega
      · simp [hlast]
        omega

lemma count_lines {lines : List (List α)} (hlines : ∀ l ∈ lines, IsLine nl l) :
    lines.flatten.count nl = lines.length := by
  induction lines with
  | nil => rfl
  | cons l lines ih =>
    obtain ⟨body, rfl, hbody⟩ := hlines l (by simp)
    rw [List.flatten_cons, List.count_append, List.count_append, List.count_eq_zero.mpr hbody,
      ih fun l hl => hlines l (by simp [hl])]
    simp
    omega

/-- There is one message for each terminator exactly if no chunk has one inside. -/
lemma messages_length_eq_iff (chunks : List (List α)) :
    (messages nl chunks).1.length = chunks.flatten.count nl ↔
      ∀ chunk ∈ chunks, nl ∉ chunk.dropLast := by
  have hsum : (chunks.map fun chunk => chunk.dropLast.count nl).sum = 0 ↔
      ∀ chunk ∈ chunks, nl ∉ chunk.dropLast := by
    simp [List.sum_eq_zero_iff_forall_eq_nat, List.count_eq_zero]
  rw [← hsum]
  have := messages_length nl chunks
  omega

/-- If no chunk has the terminator inside, the messages are lines. -/
lemma isLine_messages {chunks : List (List α)} (haligned : ∀ chunk ∈ chunks, nl ∉ chunk.dropLast) :
    (∀ m ∈ (messages nl chunks).1, IsLine nl m) ∧ nl ∉ (messages nl chunks).2 := by
  induction chunks using List.reverseRecOn with
  | nil => exact ⟨nofun, nofun⟩
  | append_singleton chunks chunk ih =>
    obtain ⟨hms, hr⟩ := ih fun c hc => haligned c (by simp [hc])
    rw [messages_concat]
    rcases List.eq_nil_or_concat' chunk with rfl | ⟨body, last, rfl⟩
    · rw [addChunk, List.append_nil, if_neg fun h => hr (List.mem_of_getLast? h)]
      exact ⟨hms, hr⟩
    · have hbody : nl ∉ body := by
        simpa using haligned (body ++ [last]) (List.mem_append_right _ (List.mem_singleton_self _))
      rw [addChunk_concat]
      split_ifs with hlast
      · refine ⟨fun m hm => ?_, nofun⟩
        rcases List.mem_append.mp hm with hm | hm
        · exact hms m hm
        · rw [List.mem_singleton.mp hm, hlast]
          exact ⟨_, rfl, by simp [hr, hbody]⟩
      · refine ⟨hms, ?_⟩
        simp [hr, hbody, Ne.symm hlast]

/-- They are then the lines that were cut into chunks. -/
lemma messages_eq_lines {chunks lines : List (List α)} (hlines : ∀ l ∈ lines, IsLine nl l)
    (haligned : ∀ chunk ∈ chunks, nl ∉ chunk.dropLast) (h : chunks.flatten = lines.flatten) :
    messages nl chunks = (lines, []) := by
  obtain ⟨hms, hr⟩ := isLine_messages nl haligned
  obtain ⟨hfst, hsnd⟩ := lines_unique nl hms hlines hr ((messages_flatten nl chunks).trans h)
  exact Prod.ext hfst hsnd

end

/-! ### Words -/

section

variable (p : α → Bool)

/-- The maximal runs of bytes that are not separators. -/
def words (s : List α) : List (List α) := (s.splitOnP p).filter fun w => !w.isEmpty

lemma words_append_cons (s t : List α) {sep : α} (hsep : p sep = true) :
    words p (s ++ sep :: t) = words p s ++ words p t := by
  rw [words, List.splitOnP_append_cons _ _ hsep, List.filter_append]
  rfl

lemma words_nil : words p [] = [] := rfl

/-- Text without separators is one word. -/
lemma words_of_none {s : List α} (hs : ∀ b ∈ s, p b = false) (hne : s ≠ []) :
    words p s = [s] := by
  rw [words, List.splitOnP_eq_singleton hs]
  simp [hne]

/-- Separators in front do not count. -/
lemma words_dropWhile (s : List α) : words p (s.dropWhile p) = words p s := by
  induction s with
  | nil => rfl
  | cons b s ih =>
    rw [List.dropWhile_cons]
    split_ifs with hb
    · rw [ih]
      exact (words_append_cons p [] s hb).symm
    · rfl

/-- Separators at the end do not count. -/
lemma words_append_separators (s : List α) {t : List α} (ht : ∀ b ∈ t, p b = true) :
    words p (s ++ t) = words p s := by
  cases t with
  | nil => rw [List.append_nil]
  | cons b t =>
    rw [words_append_cons p s t (ht b (by simp)), ← words_dropWhile p t,
      List.dropWhile_eq_nil_iff.mpr fun b hb => ht b (by simp [hb]), words_nil, List.append_nil]

/-- Pieces that end with a separator have their words for themselves. -/
lemma words_flatMap {β : Type} {f : β → List α} {xs : List β}
    (hf : ∀ x ∈ xs, ∃ s sep, p sep = true ∧ f x = s ++ [sep]) :
    words p (xs.flatMap f) = xs.flatMap fun x => words p (f x) := by
  induction xs with
  | nil => rfl
  | cons x xs ih =>
    obtain ⟨s, sep, hsep, hx⟩ := hf x List.mem_cons_self
    have hsep' : ∀ b ∈ [sep], p b = true := by simpa using hsep
    rw [List.flatMap_cons, List.flatMap_cons, ← ih fun y hy => hf y (List.mem_cons_of_mem _ hy),
      hx, List.append_assoc, List.singleton_append, words_append_cons p _ _ hsep,
      words_append_separators p s hsep']

/-- Text is all separators, or has a first word, with nothing or a separator behind it. -/
lemma exists_first_word (s : List α) :
    (∀ b ∈ s, p b = true) ∨
      ∃ seps w t, s = seps ++ (w ++ t) ∧ (∀ b ∈ seps, p b = true) ∧ w ≠ [] ∧
        (∀ b ∈ w, p b = false) ∧ ∀ b, t.head? = some b → p b = true := by
  have hsplit : s.takeWhile p ++ s.dropWhile p = s := List.takeWhile_append_dropWhile
  cases hs : s.dropWhile p with
  | nil => exact Or.inl (List.dropWhile_eq_nil_iff.mp hs)
  | cons b t =>
    right
    have hb : p b = false := by
      have := List.dropWhile_get_zero_not p s (by simp [hs])
      simpa [hs] using this
    refine ⟨s.takeWhile p, (b :: t).takeWhile (!p ·), (b :: t).dropWhile (!p ·), ?_, ?_, ?_, ?_, ?_⟩
    · rw [List.takeWhile_append_dropWhile, ← hs, hsplit]
    · intro x hx
      exact List.mem_takeWhile_imp hx
    · simp [hb]
    · intro x hx
      simpa using List.mem_takeWhile_imp hx
    · intro x hx
      simpa [hx] using List.head?_dropWhile_not (!p ·) (b :: t)

/-- The first word, and then those of the rest. -/
lemma words_first {seps w t : List α} (hseps : ∀ b ∈ seps, p b = true) (hne : w ≠ [])
    (hw : ∀ b ∈ w, p b = false) (ht : ∀ b, t.head? = some b → p b = true) :
    words p (seps ++ (w ++ t)) = w :: words p t.tail := by
  rw [← words_dropWhile, List.dropWhile_append_of_pos hseps, words_dropWhile]
  cases t with
  | nil => rw [List.append_nil, words_of_none p hw hne, List.tail_nil, words_nil]
  | cons sep t =>
    rw [words_append_cons p _ _ (ht sep rfl), words_of_none p hw hne]
    rfl

/-- Text that ends in a separator is all separators, or has a first word with a separator behind
it. -/
lemma words_cases {s : List α} (hlast : ∀ b, s.getLast? = some b → p b = true) :
    ((∀ b ∈ s, p b = true) ∧ words p s = []) ∨
      ∃ seps w sep t, s = seps ++ w ++ sep :: t ∧ (∀ b ∈ seps, p b = true) ∧ w ≠ [] ∧
        (∀ b ∈ w, p b = false) ∧ p sep = true ∧ (∀ b, t.getLast? = some b → p b = true) ∧
        words p s = w :: words p t := by
  rcases exists_first_word p s with hall | ⟨seps, w, t, rfl, hseps, hne, hw, ht⟩
  · exact Or.inl ⟨hall, words_append_separators p [] hall⟩
  · right
    cases t with
    | nil =>
      -- the last byte would be one of the word
      have hend := hlast (w.getLast hne) (by
        rw [List.append_nil, List.getLast?_append_of_ne_nil _ hne, List.getLast?_eq_some_getLast])
      rw [hw _ (List.getLast_mem hne)] at hend
      cases hend
    | cons sep t =>
      refine ⟨seps, w, sep, t, (List.append_assoc ..).symm, hseps, hne, hw, ht sep rfl, ?_,
        words_first p hseps hne hw ht⟩
      intro x hx
      apply hlast
      rw [List.getLast?_append, List.getLast?_append, List.getLast?_cons, hx]
      rfl

/-- One step of `strtok`: the first word, if there is one, and what is behind the separator that
ends it. -/
def nextWord (s : List α) : Option (List α) × List α :=
  let s := s.dropWhile p
  if s.isEmpty then (none, [])
  else (some (s.takeWhile (!p ·)), (s.dropWhile (!p ·)).tail)

/-- A word in front, with nothing or a separator behind it. -/
lemma nextWord_append {w s : List α} (hne : w ≠ []) (hw : ∀ b ∈ w, p b = false)
    (hs : ∀ b, s.head? = some b → p b = true) : nextWord p (w ++ s) = (some w, s.tail) := by
  have hword : ∀ b ∈ w, (!p b) = true := by
    intro b hb
    simp [hw b hb]
  have hfirst : (w ++ s).dropWhile p = w ++ s := by
    obtain ⟨b, w, rfl⟩ := List.exists_cons_of_ne_nil hne
    exact List.dropWhile_cons_of_neg (by simp [hw b List.mem_cons_self])
  have hstop : s.takeWhile (!p ·) = [] ∧ s.dropWhile (!p ·) = s := by
    cases s with
    | nil => exact ⟨rfl, rfl⟩
    | cons b s => simp [hs b rfl]
  rw [nextWord, hfirst, if_neg (by simp [hne]), List.takeWhile_append_of_pos hword,
    List.dropWhile_append_of_pos hword, hstop.1, hstop.2, List.append_nil]

/-- It takes the words in order. -/
lemma words_eq_nextWord (s : List α) :
    words p s = (nextWord p s).1.elim [] (· :: words p (nextWord p s).2) := by
  rcases exists_first_word p s with hall | ⟨seps, w, t, rfl, hseps, hne, hw, ht⟩
  · rw [nextWord, List.dropWhile_eq_nil_iff.mpr hall]
    exact words_append_separators p [] hall
  · have hskip : nextWord p (seps ++ (w ++ t)) = nextWord p (w ++ t) := by
      rw [nextWord, List.dropWhile_append_of_pos hseps, nextWord]
    rw [words_first p hseps hne hw ht, hskip, nextWord_append p hne hw ht]
    rfl

lemma nextWord_fst (s : List α) : (nextWord p s).1 = (words p s).head? := by
  rw [words_eq_nextWord]
  cases (nextWord p s).1 with
  | none => rfl
  | some w => rfl

lemma words_nextWord_snd (s : List α) : words p (nextWord p s).2 = (words p s).tail := by
  cases hfst : (nextWord p s).1 with
  | none =>
    have hnil : (nextWord p s).2 = [] := by
      rw [nextWord] at hfst ⊢
      split_ifs at hfst ⊢ with hempty
      rfl
    rw [words_eq_nextWord p s, hfst, hnil]
    rfl
  | some w =>
    rw [words_eq_nextWord p s, hfst]
    rfl

end

end Bytes
