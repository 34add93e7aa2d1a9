import Mathlib.Data.List.Basic
import Mathlib.Data.List.Flatten
import Mathlib.Tactic

/-!
# Buffered streams

Items come in batches, each for one destination, and are collected in a buffer. At each batch a rule
decides whether anything is passed on: if so, all that is in the buffer goes first, then the
beginning of the batch, and all of it goes to the destination of the batch. The rule may look at
all batches so far, so nothing is assumed about when the buffer is emptied. Every destination gets
its own items exactly if the buffer is empty wherever the destination changes
(`Buffered.sent_eq_iff`).
-/

/-- The batches so far, the chunks passed on with the destination each has gone to, and what is
still in the buffer, item by item with the destination it is meant for. -/
structure Buffered (δ α : Type) where
  batches : List (δ × List α) := []
  chunks : List (δ × List (δ × α)) := []
  buffer : List (δ × α) := []

namespace Buffered

variable {δ α β : Type}

/-- From the batches before, and a batch: how many of its items are passed on behind what is in the
buffer, if anything is passed on. -/
abbrev Rule (α : Type) := List (List α) → List α → Option ℕ

/-- What is in the buffer after a batch. -/
def kept (n : Option ℕ) (buffer batch : List β) : List β :=
  match n with
  | none   => buffer ++ batch
  | some n => batch.drop n

/-- The items of a batch. -/
def items (x : δ × List α) : List (δ × α) := x.2.map (Prod.mk x.1)

/-- What a batch leads to being passed on. -/
def passed (n : Option ℕ) (buffer : List (δ × α)) (x : δ × List α) :
    List (δ × List (δ × α)) :=
  match n with
  | none   => []
  | some n => [(x.1, buffer ++ (items x).take n)]

variable (rule : Rule α)

/-- One more batch. -/
def put (s : Buffered δ α) (x : δ × List α) : Buffered δ α :=
  let n := rule (s.batches.map Prod.snd) x.2
  { batches := s.batches ++ [x]
    chunks := s.chunks ++ passed n s.buffer x
    buffer := kept n s.buffer (items x) }

/-- The stream after some batches. -/
def ofList (xs : List (δ × List α)) : Buffered δ α := xs.foldl (put rule) {}

/-- What is in the buffer after some batches, whatever their destinations. -/
def pending (batches : List (List α)) : List α :=
  (batches.foldl (fun s batch => (s.1 ++ [batch], kept (rule s.1 batch) s.2 batch)) ([], [])).2

variable {rule} {s : Buffered δ α} {xs ys : List (δ × List α)} {x y : δ × List α}

lemma kept_map {γ : Type} (f : β → γ) (n : Option ℕ) (buffer batch : List β) :
    (kept n buffer batch).map f = kept n (buffer.map f) (batch.map f) := by
  cases n with
  | none => exact List.map_append
  | some n => exact List.map_drop

lemma items_ne_nil (hx : x.2 ≠ []) : items x ≠ [] := by
  rwa [items, ne_eq, List.map_eq_nil_iff]

lemma dest_of_mem_items {z : δ × α} (hz : z ∈ items x) : z.1 = x.1 := by
  obtain ⟨_, -, rfl⟩ := List.mem_map.mp hz
  rfl

lemma items_map_snd (x : δ × List α) : (items x).map Prod.snd = x.2 := by
  simp [items]

lemma batches_ofList (rule : Rule α) (xs : List (δ × List α)) : (ofList rule xs).batches = xs := by
  induction xs using List.reverseRecOn with
  | nil => rfl
  | append_singleton xs x ih =>
    rw [ofList, List.foldl_concat, ← ofList, put, ih]

lemma chunks_concat (xs : List (δ × List α)) (x : δ × List α) :
    (ofList rule (xs ++ [x])).chunks = (ofList rule xs).chunks ++
      passed (rule (xs.map Prod.snd) x.2) (ofList rule xs).buffer x := by
  rw [ofList, List.foldl_concat, ← ofList, put, batches_ofList]

lemma buffer_concat (xs : List (δ × List α)) (x : δ × List α) :
    (ofList rule (xs ++ [x])).buffer =
      kept (rule (xs.map Prod.snd) x.2) (ofList rule xs).buffer (items x) := by
  rw [ofList, List.foldl_concat, ← ofList, put, batches_ofList]

lemma pending_concat (batches : List (List α)) (batch : List α) :
    pending rule (batches ++ [batch]) =
      kept (rule batches batch) (pending rule batches) batch := by
  have hfst : ∀ l : List (List α), (l.foldl (fun s batch =>
      (s.1 ++ [batch], kept (rule s.1 batch) s.2 batch)) (([], []) : _ × List α)).1 = l := by
    intro l
    induction l using List.reverseRecOn with
    | nil => rfl
    | append_singleton l batch ih => rw [List.foldl_concat, ih]
  rw [pending, List.foldl_concat, hfst]
  rfl

/-- What is in the buffer does not depend on the destinations. -/
lemma buffer_map_snd (rule : Rule α) (xs : List (δ × List α)) :
    (ofList rule xs).buffer.map Prod.snd = pending rule (xs.map Prod.snd) := by
  induction xs using List.reverseRecOn with
  | nil => rfl
  | append_singleton xs x ih =>
    rw [buffer_concat, kept_map, ih, items_map_snd, List.map_append, List.map_singleton,
      pending_concat]

lemma buffer_eq_nil_iff (rule : Rule α) (xs : List (δ × List α)) :
    (ofList rule xs).buffer = [] ↔ pending rule (xs.map Prod.snd) = [] := by
  rw [← buffer_map_snd, List.map_eq_nil_iff]

/-- Nothing is lost, and the order is kept. -/
lemma chunks_append_buffer (rule : Rule α) (xs : List (δ × List α)) :
    (ofList rule xs).chunks.flatMap Prod.snd ++ (ofList rule xs).buffer = xs.flatMap items := by
  induction xs using List.reverseRecOn with
  | nil => rfl
  | append_singleton xs x ih =>
    rw [chunks_concat, buffer_concat, List.flatMap_append, List.flatMap_append, ← ih]
    cases rule (xs.map Prod.snd) x.2 <;> simp [passed, kept]

/-! ### Where the destination changes -/

/-- All items of a chunk are meant for where it has gone. -/
def Clean (chunk : δ × List (δ × α)) : Prop := ∀ z ∈ chunk.2, z.1 = chunk.1

/-- Where the destination changes, and at the end unless the last batch is meant for `start`, the
batches so far have a property. -/
structure Settled (flushed : List (δ × List α) → Prop) (start : δ) (xs : List (δ × List α)) :
    Prop where
  inner : ∀ before x y after, xs = before ++ x :: y :: after → x.1 ≠ y.1 → flushed (before ++ [x])
  last : ∀ before x, xs = before ++ [x] → x.1 ≠ start → flushed xs

variable {start : δ}

lemma Settled.imp {P Q : List (δ × List α) → Prop} (h : Settled P start xs)
    (hPQ : ∀ ys, ys <+: xs → P ys → Q ys) : Settled Q start xs where
  inner before x y after heq hxy :=
    hPQ _ ⟨y :: after, by rw [heq]; simp⟩ (h.inner before x y after heq hxy)
  last before x heq hx := hPQ _ List.prefix_rfl (h.last before x heq hx)

/-- What is in the buffer after a batch ends with an item of it. -/
lemma exists_mem_buffer (hx : x.2 ≠ []) (hbuffer : (ofList rule (xs ++ [x])).buffer ≠ []) :
    ∃ z ∈ (ofList rule (xs ++ [x])).buffer, z.1 = x.1 := by
  rw [buffer_concat] at hbuffer ⊢
  cases hn : rule (xs.map Prod.snd) x.2 with
  | none =>
    obtain ⟨z, hz⟩ := List.exists_mem_of_ne_nil _ (items_ne_nil hx)
    exact ⟨z, List.mem_append_right _ hz, dest_of_mem_items hz⟩
  | some n =>
    rw [hn] at hbuffer
    obtain ⟨z, hz⟩ := List.exists_mem_of_ne_nil _ hbuffer
    exact ⟨z, hz, dest_of_mem_items (List.mem_of_mem_drop hz)⟩

lemma chunks_subset (xs ys : List (δ × List α)) :
    (ofList rule xs).chunks ⊆ (ofList rule (xs ++ ys)).chunks := by
  induction ys using List.reverseRecOn with
  | nil => rw [List.append_nil]; exact fun _ h => h
  | append_singleton ys y ih =>
    rw [← List.append_assoc, chunks_concat]
    exact List.Subset.trans ih (List.subset_append_left _ _)

/-- Items that are in the buffer together stay together: there, or in one chunk. -/
lemma buffer_stays (xs ys : List (δ × List α)) :
    (∃ chunk ∈ (ofList rule (xs ++ ys)).chunks, (ofList rule xs).buffer ⊆ chunk.2) ∨
      (ofList rule xs).buffer ⊆ (ofList rule (xs ++ ys)).buffer := by
  induction ys using List.reverseRecOn with
  | nil =>
    rw [List.append_nil]
    exact Or.inr fun _ h => h
  | append_singleton ys y ih =>
    rw [← List.append_assoc, chunks_concat, buffer_concat]
    rcases ih with ⟨chunk, hchunk, hsub⟩ | hsub
    · exact Or.inl ⟨chunk, List.mem_append_left _ hchunk, hsub⟩
    · cases rule ((xs ++ ys).map Prod.snd) y.2 with
      | none => exact Or.inr (List.Subset.trans hsub (List.subset_append_left _ _))
      | some n =>
        exact Or.inl ⟨_, List.mem_append_right _ (List.mem_singleton_self _),
          List.Subset.trans hsub (List.subset_append_left _ _)⟩

/-- If the buffer is empty wherever the destination changes, chunks are clean, and what is in the
buffer has the destination of the last batch. -/
lemma clean_of_inner (hinner : ∀ before x y after, xs = before ++ x :: y :: after →
    x.1 ≠ y.1 → (ofList rule (before ++ [x])).buffer = []) :
    (∀ chunk ∈ (ofList rule xs).chunks, Clean chunk) ∧
      ∀ before x, xs = before ++ [x] → ∀ z ∈ (ofList rule xs).buffer, z.1 = x.1 := by
  induction xs using List.reverseRecOn with
  | nil =>
    refine ⟨fun chunk hchunk => ?_, fun before x heq z hz => ?_⟩
    · cases hchunk
    · cases hz
  | append_singleton xs y ih =>
    obtain ⟨hchunks, hlast⟩ := ih fun before x z after heq =>
      hinner before x z (after ++ [y]) (by rw [heq]; simp)
    have hbuffer : ∀ z ∈ (ofList rule xs).buffer, z.1 = y.1 := by
      intro z hz
      cases xs using List.reverseRecOn with
      | nil => cases hz
      | append_singleton xs x =>
        by_contra hne
        have hxy : x.1 ≠ y.1 := fun heq => hne ((hlast xs x rfl z hz).trans heq)
        rw [hinner xs x y [] (by simp) hxy] at hz
        cases hz
    constructor
    · intro chunk hchunk
      rw [chunks_concat] at hchunk
      rcases List.mem_append.mp hchunk with hchunk | hchunk
      · exact hchunks chunk hchunk
      · cases hn : rule (xs.map Prod.snd) y.2 with
        | none =>
          rw [hn] at hchunk
          cases hchunk
        | some n =>
          rw [hn] at hchunk
          obtain rfl := List.mem_singleton.mp hchunk
          intro z hz
          rcases List.mem_append.mp hz with hz | hz
          · exact hbuffer z hz
          · exact dest_of_mem_items (List.mem_of_mem_take hz)
    · intro before x heq z hz
      obtain ⟨-, hx⟩ := List.append_inj' heq rfl
      obtain rfl := List.singleton_injective hx
      rw [buffer_concat] at hz
      cases hn : rule (xs.map Prod.snd) y.2 with
      | none =>
        rw [hn] at hz
        rcases List.mem_append.mp hz with hz | hz
        · exact hbuffer z hz
        · exact dest_of_mem_items hz
      | some n =>
        rw [hn] at hz
        exact dest_of_mem_items (List.mem_of_mem_drop hz)

/-- If chunks are clean and all that is left is meant for `start`, the buffer was empty wherever the
destination changed. -/
lemma buffer_eq_nil_of_clean {before after : List (δ × List α)}
    (hchunks : ∀ chunk ∈ (ofList rule (before ++ x :: y :: after)).chunks, Clean chunk)
    (hleft : ∀ z ∈ (ofList rule (before ++ x :: y :: after)).buffer, z.1 = start)
    (hx : x.2 ≠ []) (hy : y.2 ≠ []) (hne : x.1 ≠ y.1) :
    (ofList rule (before ++ [x])).buffer = [] := by
  by_contra hbuffer
  obtain ⟨z, hz, hzx⟩ := exists_mem_buffer hx hbuffer
  have heq : before ++ x :: y :: after = before ++ [x] ++ [y] ++ after := by simp
  rw [heq] at hchunks hleft
  cases hn : rule ((before ++ [x]).map Prod.snd) y.2 with
  | some n =>
    have hmem : (y.1, (ofList rule (before ++ [x])).buffer ++ (items y).take n) ∈
        (ofList rule (before ++ [x] ++ [y])).chunks := by
      rw [chunks_concat, hn]
      exact List.mem_append_right _ (List.mem_singleton_self _)
    have hzy := hchunks _ (chunks_subset _ after hmem) z (List.mem_append_left _ hz)
    exact hne (hzx.symm.trans hzy)
  | none =>
    -- items for both are in the buffer, and stay together
    obtain ⟨w, hw⟩ := List.exists_mem_of_ne_nil _ (items_ne_nil hy)
    have hwy := dest_of_mem_items hw
    have hboth : (ofList rule (before ++ [x] ++ [y])).buffer =
        (ofList rule (before ++ [x])).buffer ++ items y := by
      rw [buffer_concat, hn]
      rfl
    have hzmem : z ∈ (ofList rule (before ++ [x] ++ [y])).buffer := by
      rw [hboth]
      exact List.mem_append_left _ hz
    have hwmem : w ∈ (ofList rule (before ++ [x] ++ [y])).buffer := by
      rw [hboth]
      exact List.mem_append_right _ hw
    have hstays : (∃ chunk ∈ (ofList rule (before ++ [x] ++ [y] ++ after)).chunks,
        (ofList rule (before ++ [x] ++ [y])).buffer ⊆ chunk.2) ∨
        (ofList rule (before ++ [x] ++ [y])).buffer ⊆
          (ofList rule (before ++ [x] ++ [y] ++ after)).buffer :=
      buffer_stays _ after
    have hzw : z.1 = w.1 := by
      rcases hstays with ⟨chunk, hchunk, hsub⟩ | hsub
      · rw [hchunks chunk hchunk z (hsub hzmem), hchunks chunk hchunk w (hsub hwmem)]
      · rw [hleft z (hsub hzmem), hleft w (hsub hwmem)]
    exact hne (hzx.symm.trans (hzw.trans hwy))

/-- The buffer is empty at every change of destination, and at the end if it has to be, if and only
if chunks are clean and the buffer has only items for `start`. -/
theorem settled_iff (hne : ∀ x ∈ xs, x.2 ≠ []) :
    Settled (fun ys => (ofList rule ys).buffer = []) start xs ↔
      (∀ chunk ∈ (ofList rule xs).chunks, Clean chunk) ∧
        ∀ z ∈ (ofList rule xs).buffer, z.1 = start := by
  constructor
  · intro h
    obtain ⟨hchunks, hlast⟩ := clean_of_inner h.inner
    refine ⟨hchunks, fun z hz => ?_⟩
    cases xs using List.reverseRecOn with
    | nil => cases hz
    | append_singleton xs y =>
      by_contra hstart
      have hy : y.1 ≠ start := fun heq => hstart ((hlast xs y rfl z hz).trans heq)
      rw [h.last xs y rfl hy] at hz
      cases hz
  · rintro ⟨hchunks, hleft⟩
    constructor
    · rintro before x y after rfl hxy
      exact buffer_eq_nil_of_clean hchunks hleft (hne x (by simp)) (hne y (by simp)) hxy
    · rintro before x rfl hx
      by_contra hbuffer
      obtain ⟨z, hz, hzx⟩ := exists_mem_buffer (hne x (by simp)) hbuffer
      exact hx (hzx.symm.trans (hleft z hz))

/-! ### Destinations -/

variable [DecidableEq δ]

/-- What has been passed on to a destination. -/
def sent (s : Buffered δ α) (d : δ) : List (δ × α) :=
  (s.chunks.filter fun chunk => chunk.1 = d).flatMap Prod.snd

lemma sent_concat (xs : List (δ × List α)) (x : δ × List α) (d : δ) :
    (ofList rule (xs ++ [x])).sent d = (ofList rule xs).sent d ++
      if x.1 = d then (passed (rule (xs.map Prod.snd) x.2) (ofList rule xs).buffer x).flatMap
        Prod.snd else [] := by
  rw [sent, chunks_concat, List.filter_append, List.flatMap_append, ← sent]
  cases rule (xs.map Prod.snd) x.2 with
  | none => simp [passed]
  | some n => by_cases hx : x.1 = d <;> simp [passed, hx]

/-- If chunks are clean, every destination gets its items of them. -/
lemma sent_eq_filter (hchunks : ∀ chunk ∈ s.chunks, Clean chunk) (d : δ) :
    s.sent d = (s.chunks.flatMap Prod.snd).filter fun z => z.1 = d := by
  rw [sent]
  generalize s.chunks = chunks at hchunks
  induction chunks with
  | nil => rfl
  | cons chunk rest ih =>
    have hrest := ih fun chunk' h => hchunks chunk' (List.mem_cons_of_mem _ h)
    have hclean := hchunks chunk List.mem_cons_self
    rw [List.flatMap_cons, List.filter_append, ← hrest]
    by_cases hd : chunk.1 = d
    · have hall : chunk.2.filter (fun z => z.1 = d) = chunk.2 :=
        List.filter_eq_self.mpr fun z hz => decide_eq_true ((hclean z hz).trans hd)
      rw [List.filter_cons_of_pos (by simp [hd]), List.flatMap_cons, hall]
    · have hnone : chunk.2.filter (fun z => z.1 = d) = [] := by
        refine List.filter_eq_nil_iff.mpr fun z hz => ?_
        rw [hclean z hz, decide_eq_true_eq]
        exact hd
      rw [List.filter_cons_of_neg (by simp [hd]), hnone, List.nil_append]

/-- What has not been passed on to a destination: the chunks sent elsewhere, and the buffer. -/
def unsent (s : Buffered δ α) (d : δ) : List (δ × α) :=
  (s.chunks.filter fun chunk => !decide (chunk.1 = d)).flatMap Prod.snd ++ s.buffer

lemma countP_sent_unsent (rule : Rule α) (xs : List (δ × List α)) (p : δ × α → Bool) (d : δ) :
    (xs.flatMap items).countP p =
      ((ofList rule xs).sent d).countP p + ((ofList rule xs).unsent d).countP p := by
  have hperm := List.filter_append_perm (fun chunk => decide (chunk.1 = d)) (ofList rule xs).chunks
  rw [← chunks_append_buffer rule xs, List.countP_append,
    ← (hperm.flatMap_right Prod.snd).countP_eq, List.flatMap_append, List.countP_append,
    Nat.add_assoc, ← List.countP_append]
  rfl

/-- If a destination has been sent its items, no other place has one of them. -/
lemma ne_of_mem_unsent {d : δ}
    (hsent : (ofList rule xs).sent d = (xs.flatMap items).filter fun z => z.1 = d) :
    ∀ z ∈ (ofList rule xs).unsent d, z.1 ≠ d := by
  have hcount := countP_sent_unsent rule xs (fun z => z.1 = d) d
  rw [hsent, List.countP_filter] at hcount
  simp only [Bool.and_self, Nat.left_eq_add, List.countP_eq_zero, decide_eq_true_eq] at hcount
  exact hcount

/-- Every destination but `start` has been sent its own items, if and only if the buffer was empty
wherever the destination changed. -/
theorem sent_eq_iff (hne : ∀ x ∈ xs, x.2 ≠ []) :
    (∀ d, d ≠ start → (ofList rule xs).sent d = (xs.flatMap items).filter fun z => z.1 = d) ↔
      Settled (fun ys => (ofList rule ys).buffer = []) start xs := by
  rw [settled_iff hne]
  constructor
  · intro hsent
    refine ⟨fun chunk hchunk z hz => ?_, fun z hz => ?_⟩
    · by_contra hzne
      by_cases hstart : chunk.1 = start
      · -- an item for a client has gone to `start`, and so not to the client
        have hmem : z ∈ (ofList rule xs).unsent z.1 :=
          List.mem_append_left _ (List.mem_flatMap.mpr
            ⟨chunk, List.mem_filter.mpr ⟨hchunk, by simpa using Ne.symm hzne⟩, hz⟩)
        exact ne_of_mem_unsent (hsent z.1 (hstart ▸ hzne)) z hmem rfl
      · -- a client has been sent an item that is not meant for it
        have hmem : z ∈ (ofList rule xs).sent chunk.1 :=
          List.mem_flatMap.mpr ⟨chunk, List.mem_filter.mpr ⟨hchunk, by simp⟩, hz⟩
        rw [hsent chunk.1 hstart] at hmem
        exact hzne (of_decide_eq_true (List.mem_filter.mp hmem).2)
    · by_contra hstart
      exact ne_of_mem_unsent (hsent z.1 hstart) z (List.mem_append_right _ hz) rfl
  · rintro ⟨hchunks, hleft⟩ d hd
    have hnil : (ofList rule xs).buffer.filter (fun z => z.1 = d) = [] :=
      List.filter_eq_nil_iff.mpr fun z hz => by simp [hleft z hz, hd.symm]
    rw [sent_eq_filter hchunks]
    conv_rhs => rw [← chunks_append_buffer rule xs, List.filter_append, hnil, List.append_nil]

end Buffered
