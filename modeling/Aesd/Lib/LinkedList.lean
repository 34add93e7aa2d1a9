import Mathlib.Data.List.Nodup
import Mathlib.Logic.Function.Basic

/-!
# Singly linked lists in memory

Cells in memory, each with a link to the next one. `Links` gives the link of each live cell, and
`Path l p xs q` says that from `p` one comes through the cells `xs`, in this order, to `q`; a list
is a path to the null pointer (`Chain`).

A path depends on its own cells only, so that cells may be allocated, changed and freed elsewhere.
Unlinking a cell needs the cell in front of it, which `findPrev` looks for.
-/

namespace LinkedList

variable {Addr : Type}

/-- For each address the link of the cell that is live there, if there is one. -/
abbrev Links (Addr : Type) := Addr → Option (Option Addr)

/-- From `p` the links lead through the cells `xs` to `q`. -/
def Path (l : Links Addr) : Option Addr → List Addr → Option Addr → Prop
  | p, [], q      => p = q
  | p, a :: xs, q => p = some a ∧ ∃ r, l a = some r ∧ Path l r xs q

/-- The list that starts at `p` has the cells `xs`. -/
def Chain (l : Links Addr) (p : Option Addr) (xs : List Addr) : Prop := Path l p xs none

variable {l l' : Links Addr} {p q r : Option Addr} {a b : Addr} {xs ys : List Addr}

@[simp] lemma path_nil : Path l p [] q ↔ p = q := Iff.rfl

@[simp] lemma path_cons : Path l p (a :: xs) q ↔ p = some a ∧ ∃ r, l a = some r ∧ Path l r xs q :=
  Iff.rfl

/-- A path through two parts passes a point in between. -/
lemma path_append : Path l p (xs ++ ys) q ↔ ∃ r, Path l p xs r ∧ Path l r ys q := by
  induction xs generalizing p with
  | nil => simp
  | cons a xs ih =>
    simp only [List.cons_append, path_cons, ih]
    constructor
    · rintro ⟨rfl, s, hs, r, hxs, hys⟩
      exact ⟨r, ⟨rfl, s, hs, hxs⟩, hys⟩
    · rintro ⟨r, ⟨rfl, s, hs, hxs⟩, hys⟩
      exact ⟨rfl, s, hs, r, hxs, hys⟩

/-- Only the links of its own cells matter for a path. -/
lemma Path.congr (h : Path l p xs q) (hl : ∀ a ∈ xs, l' a = l a) : Path l' p xs q := by
  induction xs generalizing p with
  | nil => exact h
  | cons a xs ih =>
    obtain ⟨rfl, r, hr, hxs⟩ := h
    refine ⟨rfl, r, ?_, ih hxs fun b hb => hl b (List.mem_cons_of_mem _ hb)⟩
    rw [hl a List.mem_cons_self, hr]

/-- The cells of a path are live. -/
lemma Path.exists_link (h : Path l p xs q) (ha : a ∈ xs) : ∃ r, l a = some r := by
  induction xs generalizing p with
  | nil => cases ha
  | cons b xs ih =>
    obtain ⟨rfl, r, hr, hxs⟩ := h
    rcases List.mem_cons.mp ha with rfl | ha
    · exact ⟨r, hr⟩
    · exact ih hxs ha

lemma Chain.congr (h : Chain l p xs) (hl : ∀ a ∈ xs, l' a = l a) : Chain l' p xs := Path.congr h hl

/-- The pointer to an empty list is null, and conversely. -/
lemma Chain.eq_nil_iff (h : Chain l p xs) : xs = [] ↔ p = none := by
  cases xs with
  | nil => exact iff_of_true rfl h
  | cons a xs =>
    obtain ⟨rfl, -⟩ := h
    simp

section Update

variable [DecidableEq Addr]

/-- A cell in front of a list. -/
lemma Chain.push (h : Chain l p xs) (ha : a ∉ xs) :
    Chain (Function.update l a (some p)) (some a) (a :: xs) := by
  refine ⟨rfl, p, Function.update_self .., h.congr fun b hb => ?_⟩
  exact Function.update_of_ne (ne_of_mem_of_not_mem hb ha) ..

/-- What happens to a cell that is not in the list does not matter. -/
lemma Chain.update (h : Chain l p xs) (ha : a ∉ xs) (r : Option (Option Addr)) :
    Chain (Function.update l a r) p xs :=
  h.congr fun _ hb => Function.update_of_ne (ne_of_mem_of_not_mem hb ha) ..

/-- The cell behind `b` is unlinked. -/
lemma Chain.unlink (h : Chain l p (xs ++ b :: a :: ys)) (hnodup : (xs ++ b :: a :: ys).Nodup)
    (hr : l a = some r) : Chain (Function.update l b (some r)) p (xs ++ b :: ys) := by
  obtain ⟨s, hxs, rfl, s', hs', rfl, s'', hs'', hys⟩ := path_append.mp h
  obtain rfl := Option.some.inj (hr.symm.trans hs'')
  have hb : b ∉ xs := by
    intro hb
    exact (List.nodup_append.mp hnodup).2.2 b hb b List.mem_cons_self rfl
  have hb' : b ∉ ys := by
    intro hb'
    have hnodup' := (List.nodup_append.mp hnodup).2.1
    exact (List.nodup_cons.mp hnodup').1 (List.mem_cons_of_mem _ hb')
  refine path_append.mpr ⟨some b, ?_, rfl, r, Function.update_self .., ?_⟩
  · exact Path.congr hxs fun c hc => Function.update_of_ne (ne_of_mem_of_not_mem hc hb) ..
  · exact Path.congr hys fun c hc => Function.update_of_ne (ne_of_mem_of_not_mem hc hb') ..

/-- Follow the links from `p` until the next cell is `a`, at most so many times; `none` if that
leads to no live cell. -/
def findPrev (l : Links Addr) (a : Addr) : ℕ → Option Addr → Option Addr
  | 0, _     => none
  | n + 1, p =>
    match p with
    | none     => none
    | some cur =>
      match l cur with
      | none      => none
      | some next => if next = some a then some cur else findPrev l a n next

/-- It finds the cell in front of `a`. -/
lemma findPrev_eq {n : ℕ} (h : Path l p (xs ++ [b]) (some a)) (ha : a ∉ xs ++ [b])
    (hn : xs.length < n) : findPrev l a n p = some b := by
  induction xs generalizing p n with
  | nil =>
    obtain ⟨rfl, r, hr, rfl⟩ := h
    cases n with
    | zero => cases hn
    | succ n => simp [findPrev, hr]
  | cons c xs ih =>
    obtain ⟨rfl, r, hr, hxs⟩ := h
    cases n with
    | zero => cases hn
    | succ n =>
      have hra : r ≠ some a := by
        rintro rfl
        cases xs with
        | nil =>
          obtain ⟨hba, -⟩ := hxs
          exact ha (by simp [Option.some.inj hba])
        | cons d xs =>
          obtain ⟨hda, -⟩ := hxs
          exact ha (by simp [Option.some.inj hda])
      simp only [findPrev, hr, if_neg hra]
      exact ih hxs (fun hmem => ha (List.mem_cons_of_mem _ hmem))
        (by simpa using hn)

end Update

end LinkedList
