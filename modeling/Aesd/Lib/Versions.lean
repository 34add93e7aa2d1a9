import Mathlib.Data.List.Basic

/-!
# Versions without conflict detection

A store whose value is replaced as a whole. Whoever changes it has read a version of it, and puts a
version of its own in the place of whatever is there by then. A change is a pair of the version that
was read and the one that was written. Each version descends from the first one by some of the
changes, one after the other (`Grown.exists_line`); the other changes are lost. None is if every
change was made to the version that it has replaced.
-/

namespace Versions

variable {V : Type} {v₀ v w : V} {changes line : List (V × V)}

/-- The first version, and those that were written. -/
def versions (v₀ : V) (changes : List (V × V)) : List V := v₀ :: changes.map Prod.snd

/-- After the changes, each made to one of the versions before it, the version is `v`. -/
inductive Grown (v₀ : V) : List (V × V) → V → Prop where
  | start : Grown v₀ [] v₀
  | change {changes : List (V × V)} {v read : V} (grown : Grown v₀ changes v)
      (hread : read ∈ versions v₀ changes) (written : V) :
      Grown v₀ (changes ++ [(read, written)]) written

/-- The changes lead from `v` to `w`, each made to what the one before has written. -/
def Line (v : V) : List (V × V) → V → Prop
  | [], w        => v = w
  | x :: rest, w => x.1 = v ∧ Line x.2 rest w

lemma versions_concat (v₀ : V) (changes : List (V × V)) (x : V × V) :
    versions v₀ (changes ++ [x]) = versions v₀ changes ++ [x.2] := by
  simp [versions]

/-- The version after the changes is one of them. -/
lemma Grown.mem (h : Grown v₀ changes v) : v ∈ versions v₀ changes := by
  cases h with
  | start => exact List.mem_singleton_self _
  | change grown hread written =>
    rw [versions_concat]
    exact List.mem_append_right _ List.mem_cons_self

lemma Line.concat (h : Line v line w) (u : V) : Line v (line ++ [(w, u)]) u := by
  induction line generalizing v with
  | nil => exact ⟨h.symm, rfl⟩
  | cons x line ih => exact ⟨h.1, ih h.2⟩

/-- Every version descends from the first one by some of the changes. -/
lemma Grown.exists_line (h : Grown v₀ changes v) (hw : w ∈ versions v₀ changes) :
    ∃ line, line.Sublist changes ∧ Line v₀ line w := by
  induction h generalizing w with
  | start =>
    obtain rfl := List.mem_singleton.mp hw
    exact ⟨[], .slnil, rfl⟩
  | change grown hread written ih =>
    rw [versions_concat] at hw
    rcases List.mem_append.mp hw with hw | hw
    · obtain ⟨line, hsub, hline⟩ := ih hw
      exact ⟨line, hsub.trans (List.sublist_append_left _ _), hline⟩
    · -- the version just written comes from the one that was read
      obtain rfl := List.mem_singleton.mp hw
      obtain ⟨line, hsub, hline⟩ := ih hread
      exact ⟨_, hsub.append (List.Sublist.refl _), hline.concat _⟩

end Versions
