import NelderMead.Proofs.EntryPoints
import NelderMead.Proofs.Oblivious
import NelderMead.Proofs.Parameters

/-!
# Sampled simplexes

A generator stands for the stream of normal numbers that it draws one after the other.  A sampled
simplex is the matrix made of the first of them, row by row, and a run that samples its first
simplex is a run from that matrix.

* `normalAt` — number `k` of the stream; **`standardNormals_eq`** says that draws are a piece of it.
* **`sampledPoints_eq`** — the sampled points and the generator behind them, by position.
* `Problem.sampledMatrix` — a sampled simplex as a matrix.
* `Problem.Validates` — what is checked before the first draw; `generator_minimizeWith` says what is
  drawn where it holds, and that nothing is drawn where it does not.
* **`Problem.Validates.minimizeWith_agrees`**, `Solver.minimize_agrees` — sampling a simplex and
  giving the same simplex come to the same.
-/

namespace NelderMead

open NelderMead.Random

variable {σ γ : Type} [WordSource γ]

/-! ## Streams of normal numbers -/

namespace Random

/-- **Number `k` of the stream** of standard normal numbers of a generator. -/
def normalAt (g : γ) (k : ℕ) : Float := (standardNormal (advance k g)).1

lemma normalAt_advance (m k : ℕ) (g : γ) : normalAt (advance m g) k = normalAt g (m + k) := by
  rw [normalAt, normalAt, advance_add]

/-- **Draws are a piece of the stream.** -/
theorem standardNormals_eq (n : ℕ) (g : γ) :
    (standardNormals n g).1 = (List.range n).map (normalAt g) := by
  induction n generalizing g with
  | zero => rfl
  | succ n ih =>
    have htail : normalAt (standardNormal g).2 = normalAt g ∘ Nat.succ := by
      funext k
      exact (normalAt_advance 1 k g).trans (congrArg (normalAt g) (Nat.add_comm 1 k))
    rw [List.range_succ_eq_map, List.map_cons, List.map_map, ← htail, ← ih]
    rfl

end Random

/-! ## Points by position -/

/-- **Sampled points by position.**  Point `i` takes the numbers from `i * n` on, and all of them
together move the generator by `k * n`. -/
theorem sampledPoints_eq (x0 spread : Point) (k : ℕ) (g : γ) :
    sampledPoints x0 spread k g =
      ((List.range k).map fun i => displaced x0 spread
          ((List.range x0.length).map fun j => normalAt g (i * x0.length + j)),
        advance (k * x0.length) g) := by
  induction k generalizing g with
  | zero =>
    rw [Nat.zero_mul, advance_zero]
    rfl
  | succ k ih =>
    have hshift : ∀ i j, normalAt (advance x0.length g) (i * x0.length + j) =
        normalAt g (i.succ * x0.length + j) := by
      intro i j
      rw [normalAt_advance, Nat.succ_mul, ← Nat.add_assoc, Nat.add_comm (i * x0.length)]
    have hstep : sampledPoints x0 spread (k + 1) g =
        (displaced x0 spread (standardNormals x0.length g).1 ::
          (sampledPoints x0 spread k (advance x0.length g)).1,
          (sampledPoints x0 spread k (advance x0.length g)).2) := rfl
    rw [hstep, ih, List.range_succ_eq_map, List.map_cons, List.map_map, standardNormals_eq,
      ← advance_add, Nat.succ_mul, Nat.add_comm x0.length]
    simp only [hshift, Function.comp_def, Nat.zero_mul, Nat.zero_add]

/-- A displaced point, coordinate by coordinate. -/
lemma displaced_map (x0 spread : Point) (z : ℕ → Float) (h : spread.length = x0.length) :
    displaced x0 spread ((List.range x0.length).map z) =
      (x0.zip spread).mapIdx fun j d => d.1 + d.2 * z j := by
  refine List.ext_getElem ?_ fun j _ _ => ?_
  · simp [displaced, h]
  · simp [displaced]

namespace Problem

variable (q : Problem σ) (o : Options)

/-! ## A sampled simplex as a matrix -/

lemma length_zip_spread : (q.x0.zip (q.bounds.spread o.spreadFraction)).length = q.dimension := by
  rw [List.length_zip, Bounds.length_spread, q.length_bounds, Nat.min_self, dimension]

/-- **The matrix of a sampled simplex** for the normal numbers `z`, in dimension `n`.  Its entry in
row `i` and column `j` is coordinate `j` of the starting point, displaced by `z (i * n + j)` times
the deviation of that coordinate. -/
def sampledMatrix (z : ℕ → Float) : Matrix where
  cols := q.dimension
  rows := (List.range (q.dimension + 1)).map fun i =>
    (q.x0.zip (q.bounds.spread o.spreadFraction)).mapIdx fun j d =>
      d.1 + d.2 * z (i * q.dimension + j)
  length_row := by
    intro row hrow
    obtain ⟨i, -, rfl⟩ := List.mem_map.mp hrow
    rw [List.length_mapIdx, length_zip_spread]

/-- The rows are the points that the generator of the numbers samples. -/
lemma rows_sampledMatrix (g : γ) :
    (q.sampledMatrix o (normalAt g)).rows = (Start.sampled g).points q o := by
  have hlength : (q.bounds.spread o.spreadFraction).length = q.x0.length := by
    rw [Bounds.length_spread, q.length_bounds]
  rw [Start.points, sampledPoints_eq]
  simp only [displaced_map _ _ _ hlength]
  rfl

lemma fits_sampledMatrix (z : ℕ → Float) : (Start.given (q.sampledMatrix o z)).Fits q o :=
  ⟨by rw [Matrix.rowCount, sampledMatrix, List.length_map, List.length_range], rfl⟩

/-! ## Checks before the first draw -/

/-- **The problem passes the checks** that come before a simplex is sampled: those of the options,
of the coefficient of the penalty and of the deviations of all coordinates. -/
structure Validates : Prop where
  spreadFraction : isFiniteNonneg o.spreadFraction = true
  mu : isFiniteNonneg o.mu = true
  spread : ∀ s ∈ q.bounds.spread o.spreadFraction, s.isFinite = true

instance : Decidable (q.Validates o) :=
  decidable_of_iff (isFiniteNonneg o.spreadFraction = true ∧ isFiniteNonneg o.mu = true ∧
      ∀ s ∈ q.bounds.spread o.spreadFraction, s.isFinite = true)
    ⟨fun h => ⟨h.1, h.2.1, h.2.2⟩, fun h => ⟨h.spreadFraction, h.mu, h.spread⟩⟩

variable {q o}

lemma accepts_sampled_iff {g : γ} : q.Accepts o (.sampled g) ↔ q.Validates o := by
  constructor
  · rintro ⟨hfraction, hmu, hfits⟩
    exact ⟨hfraction, hmu, fun s hs => (Bounds.isFiniteNonneg_spread hfraction hs).mp (hfits s hs)⟩
  · rintro ⟨hfraction, hmu, hfinite⟩
    exact ⟨hfraction, hmu, fun s hs =>
      (Bounds.isFiniteNonneg_spread hfraction hs).mpr (hfinite s hs)⟩

/-- A problem that passes the checks draws a simplex. -/
theorem Validates.generator_minimizeWith (h : q.Validates o) (maxIter : ℕ) (g : γ) :
    (q.minimizeWith maxIter o g).2 = advance (q.dimension * (q.dimension + 1)) g := by
  have hgood := firstBadSpread?_eq_none_iff.mpr (accepts_sampled_iff (g := g) |>.mpr h).start
  rw [minimizeWith, penalized_eq_ok h.spreadFraction h.mu, Nat.mul_comm]
  simp only [hgood, sampledPoints_eq]
  rfl

/-- Any other problem draws nothing. -/
theorem generator_minimizeWith_of_not_validates (h : ¬q.Validates o) (maxIter : ℕ) (g : γ) :
    (q.minimizeWith maxIter o g).2 = g := by
  rw [minimizeWith]
  rcases hoptions : o.objection? with _ | e
  · obtain ⟨hfraction, hmu⟩ := Options.objection?_eq_none_iff.mp hoptions
    have hbad : firstBadSpread? (q.bounds.spread o.spreadFraction) ≠ none := fun hnone =>
      h (accepts_sampled_iff (g := g) |>.mp
        ⟨hfraction, hmu, firstBadSpread?_eq_none_iff.mp hnone⟩)
    obtain ⟨s, hs⟩ := Option.ne_none_iff_exists'.mp hbad
    rw [penalized_eq_ok hfraction hmu]
    simp only [hs]
  · rw [penalized_of_objection hoptions]

end Problem

/-! ## Both ways to begin -/

/-- **The computations agree**: from any world they come to the same outcome by the same calls. -/
def Run.Agrees {ε α : Type} (r r' : Run σ ε α) : Prop :=
  ∀ w : σ, (r.execIn w).1 = (r'.execIn w).1 ∧ (r.execIn w).2.SameCalls (r'.execIn w).2

/-- **Requests that are accepted agree** if they search the same points. -/
theorem Problem.Accepts.agrees {q : Problem σ} {o : Options} {start start' : Start}
    (h : q.Accepts o start) (h' : q.Accepts o start')
    (hpoints : start.points q o = start'.points q o) (maxIter : ℕ) :
    (q.run o maxIter start).Agrees (q.run o maxIter start') := by
  intro w
  obtain ⟨j, hworld, hempty, hexec⟩ := h.exec_run maxIter w
  obtain ⟨j', hworld', hempty', hexec'⟩ := h'.exec_run maxIter w
  have hsame : j.SameCalls j' := ⟨hworld.trans hworld'.symm, hempty.trans hempty'.symm⟩
  rw [hexec, hexec', ← hpoints]
  exact oblivious_search h.penalty q.dimension _ maxIter j j' hsame

/-- **A run that samples its first simplex** agrees with one from the matrix of the same numbers. -/
theorem Problem.Validates.minimizeWith_agrees {q : Problem σ} {o : Options} (h : q.Validates o)
    (maxIter : ℕ) (g : γ) :
    (q.minimizeWith maxIter o g).1.Agrees
      (q.minimizeFrom (q.sampledMatrix o (normalAt g)) maxIter o) := by
  have hsampled : q.Accepts o (.sampled g) := accepts_sampled_iff.mpr h
  have hgiven : q.Accepts o (.given (q.sampledMatrix o (normalAt g))) :=
    ⟨h.spreadFraction, h.mu, q.fits_sampledMatrix o _⟩
  exact hsampled.agrees hgiven (q.rows_sampledMatrix o g).symm maxIter

/-- **A solver begins either way to the same effect.** -/
theorem Solver.minimize_agrees (s : Solver) (q : Problem σ) (h : q.Validates s.options)
    (maxIter : ℕ) :
    (s.minimize q maxIter).1.Agrees
      (s.minimizeFrom q (q.sampledMatrix s.options (normalAt s.generator)) maxIter) :=
  h.minimizeWith_agrees maxIter s.generator

/-- A seeded solver. -/
def Solver.seven : Solver := ⟨{ seed := some 7 }, ChaCha8.ofSeed 7⟩

lemma validates_square : square.Validates Solver.seven.options := by
  decide +kernel

theorem Solver.minimize_agrees_square : (Solver.seven.minimize square 3).1.Agrees
    (Solver.seven.minimizeFrom square
      (square.sampledMatrix { seed := some 7 } (normalAt (ChaCha8.ofSeed 7))) 3) :=
  Solver.seven.minimize_agrees square validates_square 3

end NelderMead
