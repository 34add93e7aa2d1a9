import Aesd.Driver.Contents

/-!
# Buffers that share the flag

`aesd_circular_buffer_add_entry` keeps `hasBufferBeenFilled` in a function-level static, so all
buffers of a process share it and `aesd_circular_buffer_init` does not reset it. Where entries are
put does not depend on it. The place to read from does: if the flag is already set when a buffer
gets its first entry, `out_offs` follows `in_offs` from then on and runs ahead over slots that are
still empty (`buffer_independent_iff`). Empty slots add nothing to a position, so a lookup is right
all the same (`find_entry_of_history`).
-/

namespace Aesd

open CInt

variable {ι : Type} [DecidableEq ι]

/-! ### Histories -/

/-- A call that changes one of the buffers. -/
inductive BufferCall (ι : Type) where
  | init (b : ι)
  | addEntry (b : ι) (add : BufferEntry)
  deriving DecidableEq

/-- The buffers of a process, at first with every byte zero, and the static flag. -/
structure Buffers (ι : Type) where
  buffer : ι → CircularBuffer := fun _ => .init
  hasBufferBeenFilled : Bool := false

/-- One call. -/
def Buffers.step (s : Buffers ι) : BufferCall ι → Buffers ι
  | .init b         => { s with buffer := Function.update s.buffer b .init }
  | .addEntry b add =>
    let (_, filled, buffer) := (s.buffer b).addEntry s.hasBufferBeenFilled add
    ⟨Function.update s.buffer b buffer, filled⟩

/-- The buffers after some calls. -/
def runCalls (calls : List (BufferCall ι)) : Buffers ι := calls.foldl Buffers.step {}

/-- The entries added to a buffer since its last `init`, with one more call. -/
def addCall (b : ι) (added : List BufferEntry) : BufferCall ι → List BufferEntry
  | .init b'         => if b' = b then [] else added
  | .addEntry b' add => if b' = b then added ++ [add] else added

/-- The entries added to a buffer since its last `init`, oldest first. -/
def addedTo (b : ι) (calls : List (BufferCall ι)) : List BufferEntry :=
  calls.foldl (addCall b) []

/-- Some buffer has got as many entries as it has slots. -/
def FilledOne (calls : List (BufferCall ι)) : Prop :=
  ∃ before b, before <+: calls ∧ maxWriteOperationsSupported ≤ (addedTo b before).length

/-- When the buffer got its first entry since its last `init`, some buffer had been filled. -/
def FilledBefore (b : ι) (calls : List (BufferCall ι)) : Prop :=
  ∃ before add after, calls = before ++ .addEntry b add :: after ∧ addedTo b before = [] ∧
    .init b ∉ after ∧ FilledOne before

variable {b b' : ι} {calls : List (BufferCall ι)} {c : BufferCall ι}

lemma runCalls_concat : runCalls (calls ++ [c]) = (runCalls calls).step c :=
  List.foldl_concat ..

lemma addedTo_concat : addedTo b (calls ++ [c]) = addCall b (addedTo b calls) c :=
  List.foldl_concat ..

/-- Entries added are there until the next `init`. -/
lemma addedTo_ne_nil {before after : List (BufferCall ι)} {add : BufferEntry}
    (hafter : .init b ∉ after) : addedTo b (before ++ .addEntry b add :: after) ≠ [] := by
  induction after using List.reverseRecOn with
  | nil => simp [addedTo_concat, addCall]
  | append_singleton after c ih =>
    rw [List.mem_append, not_or] at hafter
    have hne := ih hafter.1
    rw [← List.cons_append, ← List.append_assoc, addedTo_concat]
    cases c with
    | init b' =>
      have hb : b' ≠ b := by
        rintro rfl
        exact hafter.2 (List.mem_singleton_self _)
      simpa [addCall, hb] using hne
    | addEntry b' add' =>
      by_cases hb : b' = b
      · simp [addCall, hb]
      · simpa [addCall, hb] using hne

lemma filledOne_concat : FilledOne (calls ++ [c]) ↔
    FilledOne calls ∨ ∃ b, maxWriteOperationsSupported ≤ (addedTo b (calls ++ [c])).length := by
  constructor
  · rintro ⟨before, b, hprefix, hlen⟩
    rcases List.prefix_concat_iff.mp hprefix with rfl | hprefix
    · exact Or.inr ⟨b, hlen⟩
    · exact Or.inl ⟨before, b, hprefix, hlen⟩
  · rintro (⟨before, b, hprefix, hlen⟩ | ⟨b, hlen⟩)
    · exact ⟨before, b, hprefix.trans (List.prefix_append _ _), hlen⟩
    · exact ⟨_, b, List.prefix_rfl, hlen⟩

lemma FilledOne.of_length (hlen : maxWriteOperationsSupported ≤ (addedTo b calls).length) :
    FilledOne calls := ⟨calls, b, List.prefix_rfl, hlen⟩

lemma FilledBefore.ne_nil (h : FilledBefore b calls) : addedTo b calls ≠ [] := by
  obtain ⟨before, add, after, rfl, -, hafter, -⟩ := h
  exact addedTo_ne_nil hafter

lemma FilledBefore.filledOne (h : FilledBefore b calls) : FilledOne calls := by
  obtain ⟨before, add, after, rfl, -, -, before', b', hprefix, hlen⟩ := h
  exact ⟨before', b', hprefix.trans (List.prefix_append _ _), hlen⟩

/-- The first entry since the last `init` decides, and only an `init` makes that undone. -/
lemma filledBefore_concat : FilledBefore b (calls ++ [c]) ↔
    (∃ add, c = .addEntry b add ∧ addedTo b calls = [] ∧ FilledOne calls) ∨
      (c ≠ .init b ∧ FilledBefore b calls) := by
  constructor
  · rintro ⟨before, add, after, heq, hbefore, hafter, hfilled⟩
    rcases List.eq_nil_or_concat' after with rfl | ⟨after, c', rfl⟩
    · obtain ⟨rfl, hc⟩ := List.append_inj' heq rfl
      exact Or.inl ⟨add, List.singleton_inj.mp hc, hbefore, hfilled⟩
    · rw [← List.cons_append, ← List.append_assoc] at heq
      obtain ⟨rfl, hc⟩ := List.append_inj' heq rfl
      obtain rfl := List.singleton_inj.mp hc
      rw [List.mem_append, not_or] at hafter
      refine Or.inr ⟨?_, before, add, after, rfl, hbefore, hafter.1, hfilled⟩
      rintro rfl
      exact hafter.2 (List.mem_singleton_self _)
  · rintro (⟨add, rfl, hnil, hfilled⟩ | ⟨hc, before, add, after, rfl, hbefore, hafter, hfilled⟩)
    · exact ⟨calls, add, [], rfl, hnil, List.not_mem_nil, hfilled⟩
    · refine ⟨before, add, after ++ [c], by simp, hbefore, ?_, hfilled⟩
      rw [List.mem_append, not_or, List.mem_singleton]
      exact ⟨hafter, hc.symm⟩

/-! ### What the buffers hold -/

/-- A buffer with the entries `added`. Where they are depends on nothing else; where reading starts
depends on whether some buffer had been filled before the first of them. -/
structure Places (buffer : CircularBuffer) (added : List BufferEntry) (filledBefore : Prop) :
    Prop where
  slots : ∀ f, (buffer.ring f).Slots .zero added
  ahead : filledBefore ∨ maxWriteOperationsSupported ≤ added.length →
    buffer.outOffs = buffer.inOffs
  behind : ¬ filledBefore → added.length < maxWriteOperationsSupported → buffer.outOffs = 0

variable {buffer : CircularBuffer} {added : List BufferEntry} {filledBefore : Prop}

lemma places_init : Places .init [] filledBefore :=
  ⟨fun _ => ⟨rfl, by simp, fun _ _ => rfl⟩, fun _ => rfl, fun _ _ => rfl⟩

lemma Places.inOffs (h : Places buffer added filledBefore) :
    buffer.inOffs = Fin.ofNat _ added.length := (h.slots false).inOffs

/-- One more entry, with the flag as other buffers may have left it. -/
lemma Places.addEntry (h : Places buffer added filledBefore) {filled : Bool} (add : BufferEntry)
    (hfilled : filledBefore ∨ maxWriteOperationsSupported ≤ added.length → filled = true)
    (hnil : added = [] → ¬ filledBefore) :
    Places (buffer.addEntry filled add).2.2 (added ++ [add])
      (filledBefore ∨ (added = [] ∧ filled = true)) := by
  have hin : (buffer.addEntry filled add).2.2.inOffs = buffer.inOffs + 1 := nextOffs_eq _
  have hout : (buffer.addEntry filled add).2.2.outOffs =
      if filled = true ∧ buffer.outOffs = buffer.inOffs then buffer.outOffs + 1
      else buffer.outOffs := by
    rw [← nextOffs_eq]
    rfl
  have hlength : (added ++ [add]).length = added.length + 1 := by simp
  refine ⟨fun f => ?_, ?_, ?_⟩
  · have hpush := (h.slots filled).push add
    rw [← (buffer.addEntry_eq_push filled add).2] at hpush
    exact ⟨hpush.inOffs, hpush.recent, hpush.unused⟩
  · -- the place to read from becomes, or stays, the place to write to
    intro hahead
    rw [hin, hout]
    by_cases hbefore : filledBefore ∨ maxWriteOperationsSupported ≤ added.length
    · rw [if_pos ⟨hfilled hbefore, h.ahead hbefore⟩, h.ahead hbefore]
    · rw [not_or, not_le] at hbefore
      have hzero := h.behind hbefore.1 hbefore.2
      rcases hahead with (hahead | ⟨rfl, hset⟩) | hahead
      · exact absurd hahead hbefore.1
      · have hinzero : buffer.inOffs = 0 := h.inOffs
        rw [if_pos ⟨hset, hzero.trans hinzero.symm⟩, hzero, hinzero]
      · -- the tenth entry: the place to write comes back to the first slot
        rw [hlength] at hahead
        have hnine : added.length = 9 :=
          Nat.le_antisymm (Nat.le_of_lt_succ hbefore.2) (Nat.le_of_succ_le_succ hahead)
        have hinnine : buffer.inOffs = 9 := by
          rw [h.inOffs, hnine]
          rfl
        rw [hzero, hinnine, if_neg (by simp)]
        rfl
  · -- nothing has been filled, and the place to read from is the first slot
    intro hbehind hshort
    rw [not_or, not_and] at hbehind
    rw [hlength] at hshort
    have hzero := h.behind hbehind.1 (by omega)
    rw [hout, if_neg]
    · exact hzero
    · rintro ⟨hfilled, heq⟩
      apply hbehind.2 ?_ hfilled
      rw [hzero, h.inOffs] at heq
      have hval := congrArg Fin.val heq
      rw [RingBuffer.val_ofNat_of_lt (by omega)] at hval
      exact List.eq_nil_of_length_eq_zero hval.symm

/-- The buffers after some calls. -/
structure Buffers.Tracks (s : Buffers ι) (calls : List (BufferCall ι)) : Prop where
  filled : s.hasBufferBeenFilled = true ↔ FilledOne calls
  places : ∀ b, Places (s.buffer b) (addedTo b calls) (FilledBefore b calls)

variable {s : Buffers ι}

lemma tracks_nil : ({} : Buffers ι).Tracks [] := by
  have hfilled : ¬ FilledOne ([] : List (BufferCall ι)) := by
    rintro ⟨before, b, hprefix, hlen⟩
    rw [List.prefix_nil.mp hprefix] at hlen
    simp [addedTo] at hlen
  exact ⟨by simp [hfilled], fun _ => places_init⟩

/-- The step lemma for `aesd_circular_buffer_init`. -/
lemma Buffers.Tracks.init (h : s.Tracks calls) (b : ι) :
    (s.step (.init b)).Tracks (calls ++ [.init b]) := by
  have hadded : ∀ b', addedTo b' (calls ++ [.init b]) = if b = b' then [] else addedTo b' calls :=
    fun b' => addedTo_concat
  refine ⟨?_, fun b' => ?_⟩
  · rw [filledOne_concat]
    -- an initialisation fills nothing, and does not clear the flag
    refine h.filled.trans (or_iff_left_of_imp ?_).symm
    rintro ⟨b', hlen⟩
    rw [hadded] at hlen
    split_ifs at hlen with hb
    · simp at hlen
    · exact .of_length hlen
  · -- the buffer that has been initialised is empty, the others are as they were
    rw [hadded]
    by_cases hb : b = b'
    · subst hb
      rw [if_pos rfl]
      show Places (Function.update s.buffer b .init b) _ _
      rw [Function.update_self]
      exact places_init
    · have hsame : FilledBefore b' (calls ++ [.init b]) = FilledBefore b' calls := by
        simp [filledBefore_concat, hb]
      show Places (Function.update s.buffer b .init b') _ _
      rw [if_neg hb, hsame, Function.update_of_ne (Ne.symm hb)]
      exact h.places b'

/-- The step lemma for `aesd_circular_buffer_add_entry`. -/
lemma Buffers.Tracks.addEntry (h : s.Tracks calls) (b : ι) (add : BufferEntry) :
    (s.step (.addEntry b add)).Tracks (calls ++ [.addEntry b add]) := by
  have hadded : ∀ b', addedTo b' (calls ++ [.addEntry b add]) =
      if b = b' then addedTo b' calls ++ [add] else addedTo b' calls := fun b' => addedTo_concat
  refine ⟨?_, fun b' => ?_⟩
  · rw [filledOne_concat, ← h.filled]
    show (if (s.buffer b).inOffs.val + 1 = maxWriteOperationsSupported then true
      else s.hasBufferBeenFilled) = true ↔ _
    have hin : (s.buffer b).inOffs.val = (addedTo b calls).length % 10 := by
      rw [(h.places b).inOffs]
      rfl
    constructor
    · intro hfilled
      split_ifs at hfilled with hwrap
      · right
        refine ⟨b, ?_⟩
        rw [hadded, if_pos rfl, List.length_append, List.length_singleton]
        simp only [maxWriteOperationsSupported] at hwrap ⊢
        omega
      · exact Or.inl hfilled
    · rintro (hfilled | ⟨b', hlen⟩)
      · simp [hfilled]
      · split_ifs with hwrap
        · rfl
        · rw [h.filled]
          rw [hadded] at hlen
          split_ifs at hlen with hb
          · subst hb
            rw [List.length_append, List.length_singleton] at hlen
            refine .of_length (b := b) ?_
            simp only [maxWriteOperationsSupported] at hwrap hlen ⊢
            omega
          · exact .of_length hlen
  · -- the buffer that was added to has one entry more, the others are as they were
    rw [hadded]
    by_cases hb : b = b'
    · subst hb
      have hsame : FilledBefore b (calls ++ [.addEntry b add]) =
          (FilledBefore b calls ∨ (addedTo b calls = [] ∧ s.hasBufferBeenFilled = true)) := by
        rw [h.filled, filledBefore_concat, or_comm]
        simp
      show Places (Function.update s.buffer b _ b) _ _
      rw [if_pos rfl, hsame, Function.update_self]
      refine (h.places b).addEntry add ?_ fun hnil hbefore => hbefore.ne_nil hnil
      rintro (hbefore | hlen)
      · exact h.filled.mpr hbefore.filledOne
      · exact h.filled.mpr (.of_length hlen)
    · have hsame : FilledBefore b' (calls ++ [.addEntry b add]) = FilledBefore b' calls := by
        simp [filledBefore_concat, hb]
      show Places (Function.update s.buffer b _ b') _ _
      rw [if_neg hb, hsame, Function.update_of_ne (Ne.symm hb)]
      exact h.places b'

/-- The run lemma. -/
lemma tracks_runCalls (calls : List (BufferCall ι)) : (runCalls calls).Tracks calls := by
  induction calls using List.reverseRecOn with
  | nil => exact tracks_nil
  | append_singleton calls c ih =>
    rw [runCalls_concat]
    cases c with
    | init b => exact ih.init b
    | addEntry b add => exact ih.addEntry b add

/-! ### Independence -/

/-- The newest of the entries added, as many as there are slots, oldest first. -/
def newest (added : List BufferEntry) : List BufferEntry :=
  added.drop (added.length - maxWriteOperationsSupported)

/-- The `i`-th oldest entry is in slot `(out_offs + i) mod 10`. -/
def InPlace (buffer : CircularBuffer) (added : List BufferEntry) : Prop :=
  ∀ i e, (newest added)[i]? = some e → buffer.entry (buffer.place i) = e

lemma length_newest_le (added : List BufferEntry) :
    (newest added).length ≤ maxWriteOperationsSupported := by
  rw [newest, List.length_drop]
  omega

lemma newest_of_le (hlen : added.length ≤ maxWriteOperationsSupported) : newest added = added := by
  rw [newest, Nat.sub_eq_zero_of_le hlen, List.drop_zero]

lemma getElem?_walk_ring (buffer : CircularBuffer) {i : ℕ} (hi : i < maxWriteOperationsSupported) :
    (buffer.ring false).walk[i]? = some (buffer.entry (buffer.place i)) :=
  RingBuffer.getElem?_walk _ hi

/-- Reading begins with the newest entries. -/
lemma inPlace_iff_newest : InPlace buffer added ↔ newest added <+: (buffer.ring false).walk := by
  rw [List.prefix_iff_getElem?]
  constructor
  · intro h i hi
    rw [getElem?_walk_ring buffer (hi.trans_le (length_newest_le added))]
    exact congrArg some (h i _ (List.getElem?_eq_getElem hi))
  · intro h i e he
    obtain ⟨hi, rfl⟩ := List.getElem?_eq_some_iff.mp he
    have hwalk := h i hi
    rw [getElem?_walk_ring buffer (hi.trans_le (length_newest_le added)),
      Option.some.injEq] at hwalk
    exact hwalk

/-- A list that begins with something else than itself, moved back, has nothing else in it. -/
lemma eq_of_prefix_replicate_append {α : Type} {xs : List α} {x : α} {m : ℕ} (hm : 0 < m)
    (h : xs <+: List.replicate m x ++ xs) : ∀ y ∈ xs, y = x := by
  have hindex : ∀ (i : ℕ) y, xs[i]? = some y → y = x := by
    intro i
    induction i using Nat.strong_induction_on with
    | _ i ih =>
      intro y hy
      obtain ⟨hi, rfl⟩ := List.getElem?_eq_some_iff.mp hy
      have hshift := List.prefix_iff_getElem?.mp h i hi
      by_cases him : i < m
      · rw [List.getElem?_append_left (by simpa using him), List.getElem?_replicate,
          if_pos him] at hshift
        exact (Option.some.inj hshift).symm
      · rw [List.getElem?_append_right (by simpa using him), List.length_replicate] at hshift
        exact ih (i - m) (by omega) _ hshift
  intro y hy
  obtain ⟨i, hi⟩ := List.getElem?_of_mem hy
  exact hindex i y hi

lemma Places.inPlace_iff (h : Places buffer added filledBefore)
    (hnil : added = [] → ¬ filledBefore) :
    InPlace buffer added ↔ added.length = 0 ∨ maxWriteOperationsSupported ≤ added.length ∨
      ¬ filledBefore ∨ ∀ e ∈ added, e = .zero := by
  rw [inPlace_iff_newest]
  by_cases hlong : maxWriteOperationsSupported ≤ added.length
  · -- the buffer is full, and walked from its oldest entry
    rw [(h.slots false).walk_of_inOffs (h.ahead (Or.inr hlong)), Nat.sub_eq_zero_of_le hlong]
    simp [hlong, newest]
  rw [not_le] at hlong
  rw [newest_of_le hlong.le]
  by_cases hbefore : filledBefore
  · -- the flag was set too early, and the walk begins in front of the first entry
    rw [(h.slots false).walk_of_inOffs (h.ahead (Or.inl hbefore)),
      Nat.sub_eq_zero_of_le hlong.le, List.drop_zero]
    have hne : added.length ≠ 0 := by
      intro hzero
      exact hnil (List.eq_nil_of_length_eq_zero hzero) hbefore
    simp only [hne, hlong.not_ge, hbefore, not_true, false_or]
    constructor
    · exact eq_of_prefix_replicate_append (by omega)
    · intro hzero
      obtain ⟨k, hk⟩ : ∃ k, added = List.replicate k .zero :=
        ⟨_, List.eq_replicate_of_mem hzero⟩
      rw [hk, List.length_replicate, List.replicate_append_replicate]
      refine ⟨List.replicate (maxWriteOperationsSupported - k) .zero, ?_⟩
      rw [List.replicate_append_replicate, Nat.add_comm]
  · -- nothing was filled before, and the walk begins at the first entry
    rw [(h.slots false).walk_of_zero (h.behind hbefore hlong) hlong.le]
    simp [hbefore]

/-- The entries and the place to read from determine the buffer. -/
lemma Places.buffer_eq {buffer' : CircularBuffer} {filledBefore' : Prop}
    (h : Places buffer added filledBefore) (h' : Places buffer' added filledBefore')
    (hout : buffer.outOffs = buffer'.outOffs) : buffer = buffer' := by
  have hentry : buffer.entry = buffer'.entry := (h.slots false).unique (h'.slots false)
  have hin : buffer.inOffs = buffer'.inOffs := h.inOffs.trans h'.inOffs.symm
  cases buffer
  cases buffer'
  congr

/-- Reading does not start at the first slot if a buffer had been filled before. -/
lemma Places.outOffs_ne_zero (h : Places buffer added filledBefore) (hbefore : filledBefore)
    (hpos : added.length ≠ 0) (hshort : added.length < maxWriteOperationsSupported) :
    buffer.outOffs ≠ 0 := by
  intro hzero
  rw [h.ahead (Or.inl hbefore), h.inOffs] at hzero
  have hval := congrArg Fin.val hzero
  rw [RingBuffer.val_ofNat_of_lt hshort] at hval
  exact hpos hval

/-- Two histories with the same entries since the last `init` of a buffer leave it the same, with
each entry in its place, if it got none or enough to fill it, or if no buffer had been filled before
the first of them. Only entries that are all zero hide the difference otherwise. -/
theorem buffer_independent_iff (b : ι) {calls calls' : List (BufferCall ι)}
    (hadded : addedTo b calls = addedTo b calls') :
    ((runCalls calls).buffer b = (runCalls calls').buffer b ∧
      InPlace ((runCalls calls).buffer b) (addedTo b calls) ∧
      InPlace ((runCalls calls').buffer b) (addedTo b calls')) ↔
    ((addedTo b calls).length = 0 ∨ maxWriteOperationsSupported ≤ (addedTo b calls).length ∨
      (¬ FilledBefore b calls ∧ ¬ FilledBefore b calls') ∨
      (FilledBefore b calls ∧ FilledBefore b calls' ∧ ∀ e ∈ addedTo b calls, e = .zero)) := by
  have h := (tracks_runCalls calls).places b
  have h' := (tracks_runCalls calls').places b
  rw [h.inPlace_iff fun hnil hbefore => hbefore.ne_nil hnil,
    h'.inPlace_iff fun hnil hbefore => hbefore.ne_nil hnil]
  rw [← hadded] at h' ⊢
  constructor
  · rintro ⟨heq, hplace, hplace'⟩
    by_cases hzero : (addedTo b calls).length = 0
    · exact Or.inl hzero
    by_cases hlong : maxWriteOperationsSupported ≤ (addedTo b calls).length
    · exact Or.inr (Or.inl hlong)
    rw [not_le] at hlong
    right; right
    by_cases hbefore : FilledBefore b calls
    · have hne := h.outOffs_ne_zero hbefore hzero hlong
      right
      refine ⟨hbefore, ?_, ?_⟩
      · by_contra hbefore'
        rw [heq, h'.behind hbefore' hlong] at hne
        exact hne rfl
      · simpa [hzero, hlong.not_ge, hbefore] using hplace
    · left
      refine ⟨hbefore, fun hbefore' => ?_⟩
      have hne := h'.outOffs_ne_zero hbefore' hzero hlong
      rw [← heq, h.behind hbefore hlong] at hne
      exact hne rfl
  · intro hcond
    refine ⟨h.buffer_eq h' ?_, ?_, ?_⟩
    · have hin := h.inOffs.trans h'.inOffs.symm
      rcases hcond with hzero | hlong | ⟨hbefore, hbefore'⟩ | ⟨hbefore, hbefore', -⟩
      · have hnil := List.eq_nil_of_length_eq_zero hzero
        rw [h.behind (fun hbefore => hbefore.ne_nil hnil) (by simp [hnil]),
          h'.behind (fun hbefore => hbefore.ne_nil (hadded ▸ hnil)) (by simp [hnil])]
      · rw [h.ahead (Or.inr hlong), h'.ahead (Or.inr hlong), hin]
      · by_cases hlong : maxWriteOperationsSupported ≤ (addedTo b calls).length
        · rw [h.ahead (Or.inr hlong), h'.ahead (Or.inr hlong), hin]
        · rw [h.behind hbefore (not_le.mp hlong), h'.behind hbefore' (not_le.mp hlong)]
      · rw [h.ahead (Or.inl hbefore), h'.ahead (Or.inl hbefore'), hin]
    · exact hcond.imp_right (Or.imp_right (Or.imp And.left fun hzero => hzero.2.2))
    · exact hcond.imp_right (Or.imp_right (Or.imp And.right fun hzero => hzero.2.2))

/-- Ten entries in a buffer, with or without ten entries in another one before them. -/
theorem buffer_independent_iff_filled :
    let e : BufferEntry := ⟨some 0, 1⟩
    let calls : List (BufferCall ℕ) :=
      List.replicate 10 (.addEntry 0 e) ++ List.replicate 10 (.addEntry 1 e)
    let calls' : List (BufferCall ℕ) := List.replicate 10 (.addEntry 1 e)
    addedTo 1 calls = addedTo 1 calls' ∧
      (runCalls calls).buffer 1 = (runCalls calls').buffer 1 := by
  intro e calls calls'
  have hadded : addedTo 1 calls = addedTo 1 calls' := rfl
  exact ⟨hadded, ((buffer_independent_iff 1 hadded).mpr (Or.inr (Or.inl (by decide)))).1⟩

/-- A buffer is initialised again after it has been filled, and gets one entry: reading starts
behind the entry, not at it as in a new buffer. -/
theorem reinit_differs_from_new :
    let e : BufferEntry := ⟨some 0, 1⟩
    let calls : List (BufferCall ℕ) := List.replicate 10 (.addEntry 0 e) ++ [.init 0, .addEntry 0 e]
    let calls' : List (BufferCall ℕ) := [.init 0, .addEntry 0 e]
    addedTo 0 calls = addedTo 0 calls' ∧
      (runCalls calls).buffer 0 ≠ (runCalls calls').buffer 0 ∧
      ¬ InPlace ((runCalls calls).buffer 0) (addedTo 0 calls) := by
  refine ⟨rfl, ?_, ?_⟩
  · intro heq
    have hout : (1 : Fin maxWriteOperationsSupported) = 0 := congrArg CircularBuffer.outOffs heq
    exact absurd hout (by decide)
  · intro hplace
    have hentry : BufferEntry.zero = ⟨some 0, 1⟩ := hplace 0 _ rfl
    cases hentry

/-! ### Lookup -/

/-- The bytes of an entry. -/
def BufferEntry.content (h : Heap) (e : BufferEntry) : List Byte :=
  ((e.buffptr.bind h).getD []).take e.size.toNat

/-- The memory of an entry has as many bytes as its size says. -/
def BufferEntry.Readable (h : Heap) (e : BufferEntry) : Prop := e.size = (e.content h).length

variable {h : Heap} {e : BufferEntry}

lemma content_zero : BufferEntry.zero.content h = [] := rfl

/-- A byte of an entry's content is one of the block behind its pointer. -/
lemma exists_load_of_content {o : ℕ} {x : Byte} (hx : (e.content h)[o]? = some x) :
    ∃ q bytes, e.buffptr = some q ∧ h q = some bytes ∧ bytes[o]? = some x := by
  rw [BufferEntry.content, List.getElem?_take] at hx
  split_ifs at hx with ho
  cases hptr : e.buffptr with
  | none => simp [hptr] at hx
  | some q =>
    cases hblock : h q with
    | none => simp [hptr, hblock] at hx
    | some bytes => exact ⟨q, bytes, rfl, hblock, by simpa [hptr, hblock] using hx⟩

/-- Reading goes over the newest entries in their order and otherwise over empty slots. -/
lemma Places.walk_eq (hp : Places buffer added filledBefore) :
    ∃ m n, (buffer.ring false).walk =
      List.replicate m .zero ++ newest added ++ List.replicate n .zero := by
  by_cases hahead : filledBefore ∨ maxWriteOperationsSupported ≤ added.length
  · refine ⟨maxWriteOperationsSupported - added.length, 0, ?_⟩
    rw [(hp.slots false).walk_of_inOffs (hp.ahead hahead), List.replicate_zero, List.append_nil]
    rfl
  · rw [not_or, not_le] at hahead
    refine ⟨0, maxWriteOperationsSupported - added.length, ?_⟩
    rw [(hp.slots false).walk_of_zero (hp.behind hahead.1 hahead.2) hahead.2.le,
      newest_of_le hahead.2.le, List.replicate_zero, List.nil_append]

/-- The contents of the ten slots in the order in which they are read. -/
def slotContents (buffer : CircularBuffer) (h : Heap) : List (List Byte) :=
  (buffer.ring false).walk.map (BufferEntry.content h)

lemma length_slotContents (buffer : CircularBuffer) (h : Heap) :
    (slotContents buffer h).length = maxWriteOperationsSupported := by
  rw [slotContents, List.length_map, RingBuffer.length_walk]

lemma getElem?_slotContents (buffer : CircularBuffer) (h : Heap) {i : ℕ}
    (hi : i < maxWriteOperationsSupported) :
    (slotContents buffer h)[i]? = some ((buffer.entry (buffer.place i)).content h) := by
  rw [slotContents, List.getElem?_map, getElem?_walk_ring buffer hi]
  rfl

/-- Empty slots add nothing. -/
lemma Places.slotContents_flatten (hp : Places buffer added filledBefore) (h : Heap) :
    (slotContents buffer h).flatten = (newest added).flatMap (BufferEntry.content h) := by
  obtain ⟨m, n, hwalk⟩ := hp.walk_eq
  rw [slotContents, hwalk, List.map_append, List.map_append, List.map_replicate,
    List.map_replicate, content_zero, List.flatMap_def]
  simp

lemma Places.readable (hp : Places buffer added filledBefore)
    (hreadable : ∀ e ∈ newest added, e.Readable h) {i : ℕ} (hi : i < maxWriteOperationsSupported) :
    (buffer.entry (buffer.place i)).Readable h := by
  obtain ⟨m, n, hwalk⟩ := hp.walk_eq
  have hmem := List.mem_of_getElem? (getElem?_walk_ring buffer hi)
  rw [hwalk, List.mem_append, List.mem_append] at hmem
  rcases hmem with (hmem | hmem) | hmem
  · rw [List.eq_of_mem_replicate hmem]
    rfl
  · exact hreadable _ hmem
  · rw [List.eq_of_mem_replicate hmem]
    rfl

/-- Whatever other buffers did, a position in the newest entries of a buffer leads to the entry
and the offset where its byte is. -/
theorem find_entry_of_history (b : ι) (calls : List (BufferCall ι)) (h : Heap)
    (hreadable : ∀ e ∈ newest (addedTo b calls), e.Readable h)
    (hsmall : ((newest (addedTo b calls)).flatMap (BufferEntry.content h)).length ≤ 2 ^ 31 - 1)
    {p : ℕ} (hp : p < ((newest (addedTo b calls)).flatMap (BufferEntry.content h)).length) :
    ∃ slot, ∃ o : ℕ, ∃ q bytes,
      ((runCalls calls).buffer b).findEntryOffsetForFpos p = some (slot, (o : ℤ)) ∧
      o < (((runCalls calls).buffer b).entry slot).size ∧
      (((runCalls calls).buffer b).entry slot).buffptr = some q ∧ h q = some bytes ∧
      bytes[o]? = ((newest (addedTo b calls)).flatMap (BufferEntry.content h))[p]? := by
  have hplaces := (tracks_runCalls calls).places b
  generalize (runCalls calls).buffer b = buffer at hplaces ⊢
  generalize addedTo b calls = added at hplaces hreadable hsmall hp ⊢
  rw [← hplaces.slotContents_flatten h] at hsmall hp ⊢
  have hsizes : ∀ i < maxWriteOperationsSupported,
      (bytesBefore (slotContents buffer h) (i + 1) : ℤ) =
        bytesBefore (slotContents buffer h) i + (buffer.entry (buffer.place i)).size := by
    intro i hi
    rw [bytesBefore_succ_of_getElem? (getElem?_slotContents buffer h hi),
      hplaces.readable hreadable hi]
    push_cast
    rfl
  obtain ⟨j, hj, hle, hlt, hfind⟩ := findEntryOffsetForFpos_of_sizes hsizes
    (length_slotContents buffer h).le (by omega) hp
  have hcontent := getElem?_slotContents buffer h hj
  obtain ⟨o, rfl⟩ := Nat.exists_eq_add_of_le hle
  rw [bytesBefore_succ_of_getElem? hcontent] at hlt
  have ho : o < ((buffer.entry (buffer.place j)).content h).length := by omega
  have hbyte := List.getElem?_eq_getElem ho
  obtain ⟨q, bytes, hptr, hblock, hload⟩ := exists_load_of_content hbyte
  refine ⟨buffer.place j, o, q, bytes, ?_, ?_, hptr, hblock, ?_⟩
  · rw [hfind]
    push_cast
    rw [add_sub_cancel_left]
  · rw [hplaces.readable hreadable hj]
    exact_mod_cast ho
  · have hdrop := congrArg (·[0]?) (drop_bytesBefore hcontent ho.le)
    rw [List.getElem?_drop, Nat.add_zero, List.getElem?_append_left (by simp; omega),
      List.getElem?_drop, Nat.add_zero] at hdrop
    rw [hload, hdrop, hbyte]

/-- A buffer is initialised again after it has been filled, and gets two bytes. -/
theorem find_entry_of_history_reinit :
    let h : Heap := Function.update (fun _ => none) 7 (some [104, 105])
    let calls : List (BufferCall ℕ) :=
      List.replicate 10 (.addEntry 0 ⟨none, 0⟩) ++ [.init 0, .addEntry 0 ⟨some 7, 2⟩]
    (newest (addedTo 0 calls)).flatMap (BufferEntry.content h) = [104, 105] ∧
      ∃ slot, ∃ o : ℕ, ∃ q bytes,
        ((runCalls calls).buffer 0).findEntryOffsetForFpos (1 : ℕ) = some (slot, (o : ℤ)) ∧
        (((runCalls calls).buffer 0).entry slot).buffptr = some q ∧ h q = some bytes ∧
        bytes[o]? = some 105 := by
  intro h calls
  have hbytes : (newest (addedTo 0 calls)).flatMap (BufferEntry.content h) = [104, 105] := rfl
  have hreadable : ∀ e ∈ newest (addedTo 0 calls), e.Readable h := by
    intro e he
    rw [List.mem_singleton.mp he]
    rfl
  obtain ⟨slot, o, q, bytes, hfind, -, hptr, hblock, hload⟩ :=
    find_entry_of_history 0 calls h hreadable (by rw [hbytes]; decide)
      (by rw [hbytes]; decide : 1 < _)
  rw [hbytes] at hload
  exact ⟨hbytes, slot, o, q, bytes, hfind, hptr, hblock, hload⟩

end Aesd
