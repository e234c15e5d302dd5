import NelderMead.Proofs.Run

/-!
# Iterations that take nothing

An iteration that evaluates twice and takes neither vertex leaves the simplex as it is, and the next
one finds the same standing.  As long as that goes on, all rows show the same two samples and the
count goes up by two from each to the next.

* `Trace.better_better` — a sample that is recorded again changes nothing.
* `Search.Unmoved`, **`Search.Unmoved.next`** — the states on the way, and one more iteration.
-/

namespace NelderMead

/-- A sample that is recorded again is no better than it was. -/
lemma Trace.better_better (last : Option Row) (y : Sample) (evaluations : ℕ) :
    better (some ⟨y, better last y, evaluations⟩) y = better last y := by
  show (if y.objective < (better last y).objective then y else better last y) = better last y
  cases last with
  | none => exact ite_self y
  | some row =>
    by_cases hlt : y.objective < row.best.objective
    · rw [better, if_pos hlt, ite_self]
    · rw [better, if_neg hlt, if_neg hlt]

/-- **The state `u`, after `l` iterations that took nothing** from the state `s` with the standing
`t`. -/
structure Search.Unmoved (t : Standing) (s : Search) (l : ℕ) (u : Search) : Prop where
  simplex : u.simplex = s.simplex
  evaluations : u.evaluations = s.evaluations + 2 * l
  rows : u.trace.rows.toList = s.trace.rows.toList ++ (List.range l).map fun i =>
    ⟨t.best.sample, Trace.better s.trace.rows.back? t.best.sample, s.evaluations + 2 * i⟩
  /-- The next row will show the same best sample. -/
  best : Trace.better u.trace.rows.back? t.best.sample =
    Trace.better s.trace.rows.back? t.best.sample

namespace Search.Unmoved

variable {t : Standing} {s u : Search} {l : ℕ}

lemma refl (t : Standing) (s : Search) : Unmoved t s 0 s where
  simplex := rfl
  evaluations := rfl
  rows := (List.append_nil _).symm
  best := rfl

/-- **One more iteration** that takes nothing. -/
theorem next (h : Unmoved t s l u) {m : Move} (hnew : m.newcomer = none) (hspent : m.spent = 2) :
    Unmoved t s (l + 1) (u.next t m) where
  simplex := by
    rw [Search.next, hnew]
    exact h.simplex
  evaluations := by
    show u.evaluations + m.spent = s.evaluations + 2 * (l + 1)
    rw [hspent, h.evaluations, Nat.add_assoc, Nat.mul_succ]
  rows := by
    rw [rows_next, h.rows, h.best, h.evaluations, List.range_succ, List.map_append,
      List.append_assoc]
    rfl
  best := by
    have hlast : (u.next t m).trace.rows.back? = some
        ⟨t.best.sample, Trace.better u.trace.rows.back? t.best.sample, u.evaluations⟩ :=
      Array.back?_push
    rw [hlast, Trace.better_better, h.best]

end Search.Unmoved

end NelderMead
