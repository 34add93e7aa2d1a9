import Mathlib.Data.List.Infix
import Mathlib.Order.Basic

/-!
# Windows that slide over a growing sequence

Of a sequence to which elements are only added at the end, a window shows all but the oldest ones.
A reader counts its position from the first element that the window shows: while it waits, as many
elements pass it by as leave the window, whether it had read those or not. Whatever it reads is,
in order, part of the sequence up to its place (`Follows`), and in one piece as long as the window
stays where it is (`isPrefix_append`).
-/

/-- A sequence, and how many of its elements a window over it does not show any more. -/
structure SlidingWindow (α : Type) where
  all : List α
  gone : ℕ

namespace SlidingWindow

variable {α : Type} {w w' : SlidingWindow α} {xs ys : List α}

/-- What the window shows. -/
def shown (w : SlidingWindow α) : List α := w.all.drop w.gone

/-- The window `w'` is a later one than `w`. -/
structure Slides (w w' : SlidingWindow α) : Prop where
  grows : w.all <+: w'.all
  gone_le : w.gone ≤ w'.gone

lemma Slides.refl (w : SlidingWindow α) : Slides w w := ⟨List.prefix_rfl, le_rfl⟩

/-- A reader that has received `xs` is behind as many elements as `xs` has and have left the
window. Among those it has received its own, in order. -/
def Follows (w : SlidingWindow α) (xs : List α) : Prop :=
  xs.Sublist (w.all.take (w.gone + xs.length))

lemma follows_nil (w : SlidingWindow α) : Follows w [] := List.nil_sublist _

lemma Follows.slide (h : Follows w xs) (hslides : Slides w w') : Follows w' xs := by
  refine List.Sublist.trans h (List.IsPrefix.sublist ?_)
  have hlonger := List.take_prefix_take_left (l := w'.all)
    (Nat.add_le_add_right hslides.gone_le xs.length)
  exact (hslides.grows.take _).trans hlonger

/-- It receives what the window shows at its place. -/
lemma Follows.read (h : Follows w xs) (hys : ys <+: w.shown.drop xs.length) :
    Follows w (xs ++ ys) := by
  rw [shown, List.drop_drop] at hys
  rw [Follows, List.length_append, ← Nat.add_assoc, List.take_add,
    ← List.prefix_iff_eq_take.mp hys]
  exact h.append (List.Sublist.refl ys)

/-- Two consecutive pieces of a sequence are one. -/
lemma isPrefix_append {l : List α} (hxs : xs <+: l) (hys : ys <+: l.drop xs.length) :
    xs ++ ys <+: l := by
  obtain ⟨rest, rfl⟩ := hxs
  rw [List.drop_left] at hys
  exact (List.prefix_append_right_inj xs).mpr hys

end SlidingWindow
