import Mathlib

/-!
# Owners of blocks

Some places, each of which may own a block, and a set of live blocks. `Ownership own live` says
that no block has two owners and that the blocks with an owner are exactly the live ones. It is
kept when a place gets a block that was not live, when the block of a place is given back, when a
block is replaced, and when places exchange what they own.
-/

variable {ι β : Type*} {own : ι → Option β} {live : Set β}

/-- Each live block has exactly one owner, and nothing else is owned. -/
structure Ownership (own : ι → Option β) (live : Set β) : Prop where
  mem_iff : ∀ p, p ∈ live ↔ ∃ a, own a = some p
  unique : ∀ a b p, own a = some p → own b = some p → a = b

namespace Ownership

lemma mem (h : Ownership own live) {a : ι} {p : β} (ha : own a = some p) : p ∈ live :=
  (h.mem_iff p).mpr ⟨a, ha⟩

lemma empty : Ownership (fun _ : ι => (none : Option β)) ∅ := by
  refine ⟨fun p => ?_, ?_⟩
  · simp
  · simp

lemma of_eq (h : Ownership own live) {own' : ι → Option β} (heq : ∀ a, own' a = own a) :
    Ownership own' live := by
  rwa [funext heq]

/-- Places may exchange what they own. -/
lemma comp (h : Ownership own live) (e : Equiv.Perm ι) : Ownership (own ∘ e) live := by
  refine ⟨fun p => ?_, ?_⟩
  · rw [h.mem_iff p]
    exact e.surjective.exists
  · intro a b p ha hb
    exact e.injective (h.unique (e a) (e b) p ha hb)

variable [DecidableEq ι]

/-- A block that was not live goes to a place that owns nothing. -/
lemma acquire (h : Ownership own live) {a : ι} {p : β} (ha : own a = none) (hp : p ∉ live) :
    Ownership (Function.update own a (some p)) (insert p live) := by
  have hfresh : ∀ b, own b ≠ some p := fun b hb => hp (h.mem hb)
  refine ⟨fun q => ?_, ?_⟩
  · rw [Set.mem_insert_iff, h.mem_iff q]
    constructor
    · rintro (rfl | ⟨b, hb⟩)
      · exact ⟨a, Function.update_self ..⟩
      · refine ⟨b, ?_⟩
        rw [Function.update_of_ne]
        · exact hb
        · rintro rfl
          rw [ha] at hb
          cases hb
    · rintro ⟨b, hb⟩
      by_cases hab : b = a
      · subst hab
        rw [Function.update_self] at hb
        exact Or.inl (Option.some.inj hb).symm
      · rw [Function.update_of_ne hab] at hb
        exact Or.inr ⟨b, hb⟩
  · intro b c q hb hc
    by_cases hba : b = a
    · by_cases hca : c = a
      · rw [hba, hca]
      · rw [hba, Function.update_self] at hb
        rw [Function.update_of_ne hca, ← hb] at hc
        exact absurd hc (hfresh c)
    · rw [Function.update_of_ne hba] at hb
      by_cases hca : c = a
      · rw [hca, Function.update_self, ← hb] at hc
        exact absurd hc.symm (hfresh b)
      · rw [Function.update_of_ne hca] at hc
        exact h.unique b c q hb hc

/-- A block is given back. -/
lemma release (h : Ownership own live) {a : ι} {p : β} (ha : own a = some p) :
    Ownership (Function.update own a none) (live \ {p}) := by
  refine ⟨fun q => ?_, ?_⟩
  · rw [Set.mem_sdiff, Set.mem_singleton_iff, h.mem_iff q]
    constructor
    · rintro ⟨⟨b, hb⟩, hne⟩
      refine ⟨b, ?_⟩
      rw [Function.update_of_ne]
      · exact hb
      · rintro rfl
        exact hne (Option.some.inj (hb.symm.trans ha))
    · rintro ⟨b, hb⟩
      by_cases hab : b = a
      · rw [hab, Function.update_self] at hb
        cases hb
      · rw [Function.update_of_ne hab] at hb
        refine ⟨⟨b, hb⟩, ?_⟩
        rintro rfl
        exact hab (h.unique b a q hb ha)
  · intro b c q hb hc
    by_cases hba : b = a
    · rw [hba, Function.update_self] at hb
      cases hb
    · by_cases hca : c = a
      · rw [hca, Function.update_self] at hc
        cases hc
      · rw [Function.update_of_ne hba] at hb
        rw [Function.update_of_ne hca] at hc
        exact h.unique b c q hb hc

/-- A block is replaced, perhaps by itself. -/
lemma replace (h : Ownership own live) {a : ι} {p q : β} (ha : own a = some p)
    (hq : q = p ∨ q ∉ live) :
    Ownership (Function.update own a (some q)) (insert q (live \ {p})) := by
  have hfresh : q ∉ live \ {p} := by
    rintro ⟨hlive, hne⟩
    rcases hq with rfl | hq
    · exact hne rfl
    · exact hq hlive
  have hreplaced := (h.release ha).acquire (Function.update_self ..) hfresh
  rwa [Function.update_idem] at hreplaced

end Ownership
