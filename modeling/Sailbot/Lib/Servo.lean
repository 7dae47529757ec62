import Mathlib.Algebra.BigOperators.Group.List.Basic
import Mathlib.Algebra.Order.Field.Basic
import Mathlib.Data.List.Induction
import Mathlib.Tactic.Linarith
import Mathlib.Tactic.Ring

/-!
# Sampled servos

A servo that is told a goal takes up a rate in proportion to how far away the goal is, and keeps
that rate, tick after tick, until it is told the next one.

* `Servo.after_goal`      — where it is some ticks after a goal.
* `Servo.after_between`   — it stays where its goals are, if it is told them often enough.
* `Servo.after_rounds_le` — how far it is from a goal that it is told again and again.
-/

namespace Sailbot.Lib

variable {K : Type*}

structure Servo (K : Type*) where
  pos  : K
  rate : K

inductive ServoMsg (K : Type*)
  | goal (g : K)
  | tick

namespace Servo

section

variable [Ring K] (gain period : K)

def step (s : Servo K) : ServoMsg K → Servo K
  | .goal g => { s with rate := gain * (g - s.pos) }
  | .tick => { s with pos := s.pos + s.rate * period }

def after (s : Servo K) (ms : List (ServoMsg K)) : Servo K := ms.foldl (step gain period) s

/-- Messages in two parts. -/
theorem after_append (s : Servo K) (ms ms' : List (ServoMsg K)) :
    s.after gain period (ms ++ ms') = (s.after gain period ms).after gain period ms' :=
  List.foldl_append

@[simp] theorem after_concat (s : Servo K) (ms : List (ServoMsg K)) (m : ServoMsg K) :
    s.after gain period (ms ++ [m]) = (s.after gain period ms).step gain period m :=
  List.foldl_append

end

/-- After a goal there are at most `n` ticks until the next one. -/
def Paced (n : Nat) (ms : List (ServoMsg K)) : Prop :=
  ∀ pre g j, pre ++ .goal g :: List.replicate j .tick <+: ms → j ≤ n

/-- What is paced has a paced beginning. -/
theorem Paced.initial {n : Nat} {ms ms' : List (ServoMsg K)} (h : Paced n ms)
    (hPrefix : ms' <+: ms) : Paced n ms' :=
  fun pre g j hIn => h pre g j (hIn.trans hPrefix)

/-- The ticks of rounds, each of which begins with the same goal. -/
def rounds (g : K) (js : List Nat) : List (ServoMsg K) :=
  js.flatMap fun j => .goal g :: List.replicate j .tick

/-- No round is longer than the pace. -/
theorem Paced.le_of_mem {n : Nat} {g : K} {js : List Nat} (h : Paced n (rounds g js)) {j : Nat}
    (hj : j ∈ js) : j ≤ n := by
  obtain ⟨before, after, rfl⟩ := List.append_of_mem hj
  refine h (rounds g before) g j ⟨rounds g after, ?_⟩
  simp [rounds]

/-- Only ticks, or some ticks after the last goal. -/
theorem eq_ticks_or_goal (ms : List (ServoMsg K)) :
    ms = List.replicate ms.length .tick ∨
      ∃ pre g j, ms = pre ++ .goal g :: List.replicate j .tick := by
  induction ms using List.reverseRecOn with
  | nil => exact .inl rfl
  | append_singleton ms m ih =>
    cases m with
    | goal g => exact .inr ⟨ms, g, 0, rfl⟩
    | tick =>
      rcases ih with hTicks | ⟨pre, g, j, rfl⟩
      · refine .inl ?_
        rw [List.length_append, List.length_singleton, List.replicate_succ', ← hTicks]
      · refine .inr ⟨pre, g, j + 1, ?_⟩
        rw [List.replicate_succ', List.append_assoc, List.cons_append]

variable [Field K]

/-- A servo that is told nothing goes on at its speed. -/
theorem after_ticks (gain period : K) (s : Servo K) (j : Nat) :
    s.after gain period (List.replicate j .tick) = ⟨s.pos + j * (s.rate * period), s.rate⟩ := by
  induction j with
  | zero => simp [after]
  | succ j ih =>
    rw [List.replicate_succ', after_concat, ih]
    simp only [step, Servo.mk.injEq, and_true]
    push_cast
    ring

/-- A part of the way to a goal, from where the servo was when it was told. -/
theorem after_goal (gain period : K) (s : Servo K) (pre : List (ServoMsg K)) (g : K) (j : Nat) :
    let p := (s.after gain period pre).pos
    (s.after gain period (pre ++ .goal g :: List.replicate j .tick)).pos =
      p + j * (gain * period) * (g - p) := by
  rw [← List.singleton_append, ← List.append_assoc, after_append, after_concat, after_ticks]
  simp only [step]
  ring

/-- Every round takes a part of the error away. -/
theorem after_rounds (gain period : K) (s : Servo K) (g : K) (js : List Nat) :
    (s.after gain period (rounds g js)).pos - g =
      (js.map fun j : Nat => 1 - (j : K) * (gain * period)).prod * (s.pos - g) := by
  induction js using List.reverseRecOn with
  | nil => simp [rounds, after]
  | append_singleton js j ih =>
    have hRound : rounds g (js ++ [j]) = rounds g js ++ .goal g :: List.replicate j .tick := by
      simp [rounds]
    calc (s.after gain period (rounds g (js ++ [j]))).pos - g
        = (1 - j * (gain * period)) * ((s.after gain period (rounds g js)).pos - g) := by
          rw [hRound, after_goal]
          ring
      _ = _ := by
          rw [ih, List.map_append, List.prod_append, List.map_singleton, List.prod_singleton]
          ring

variable [LinearOrder K] [IsStrictOrderedRing K] {gain period : K} {s : Servo K}
  {ms : List (ServoMsg K)} {n : Nat} {a b : K}

/-- It is still, its goals are in the interval that it is in, and there is none that it would pass
before the next one. -/
structure Asked (gain period : K) (n : Nat) (a b : K) (s : Servo K) (ms : List (ServoMsg K)) :
    Prop where
  still  : s.rate = 0
  start  : a ≤ s.pos ∧ s.pos ≤ b
  part   : 0 ≤ gain * period
  paced  : Paced n ms
  whole  : n * (gain * period) ≤ 1
  goals  : ∀ g, .goal g ∈ ms → a ≤ g ∧ g ≤ b

omit [IsStrictOrderedRing K] in
/-- What holds of all messages holds of the first ones. -/
theorem Asked.initial {ms' : List (ServoMsg K)} (h : Asked gain period n a b s ms)
    (hPrefix : ms' <+: ms) : Asked gain period n a b s ms' where
  still := h.still
  start := h.start
  part := h.part
  paced := h.paced.initial hPrefix
  whole := h.whole
  goals := fun g hIn => h.goals g (hPrefix.subset hIn)

/-- In a round the servo goes no further than its goal. -/
theorem Asked.part_le {j : Nat} (h : Asked gain period n a b s ms) (hj : j ≤ n) :
    0 ≤ (j : K) * (gain * period) ∧ (j : K) * (gain * period) ≤ 1 := by
  have hLe : (j : K) ≤ n := Nat.cast_le.mpr hj
  exact ⟨mul_nonneg (Nat.cast_nonneg j) h.part,
    (mul_le_mul_of_nonneg_right hLe h.part).trans h.whole⟩

/-- A part of the way between two places stays where they are. -/
theorem part_between {x y c : K} (hx : a ≤ x ∧ x ≤ b) (hy : a ≤ y ∧ y ≤ b)
    (hc : 0 ≤ c ∧ c ≤ 1) : a ≤ x + c * (y - x) ∧ x + c * (y - x) ≤ b := by
  have hEq : x + c * (y - x) = (1 - c) * x + c * y := by ring
  have hLeft : 0 ≤ 1 - c := sub_nonneg.mpr hc.2
  rw [hEq]
  constructor
  · calc a = (1 - c) * a + c * a := by ring
      _ ≤ (1 - c) * x + c * y :=
        add_le_add (mul_le_mul_of_nonneg_left hx.1 hLeft) (mul_le_mul_of_nonneg_left hy.1 hc.1)
  · calc (1 - c) * x + c * y ≤ (1 - c) * b + c * b :=
        add_le_add (mul_le_mul_of_nonneg_left hx.2 hLeft) (mul_le_mul_of_nonneg_left hy.2 hc.1)
      _ = b := by ring

/-- It never leaves the interval. By induction over the goals: between two of them, it goes a part
of the way. -/
theorem after_between (h : Asked gain period n a b s ms) :
    a ≤ (s.after gain period ms).pos ∧ (s.after gain period ms).pos ≤ b := by
  induction hLength : ms.length using Nat.strongRecOn generalizing ms with
  | _ length ih =>
    rcases eq_ticks_or_goal ms with hOnly | ⟨pre, g, j, rfl⟩
    · rw [hOnly, after_ticks, h.still]
      simpa using h.start
    · have hBefore : a ≤ (s.after gain period pre).pos ∧ (s.after gain period pre).pos ≤ b := by
        refine ih pre.length ?_ (h.initial (List.prefix_append pre _)) rfl
        rw [← hLength, List.length_append, List.length_cons]
        omega
      rw [after_goal]
      exact part_between hBefore (h.goals g (by simp))
        (h.part_le (h.paced pre g j (List.prefix_refl _)))

/-- The part of the error that is left, when each round takes at most all of it away. -/
theorem left_le {c : K} {js : List Nat} (hc : 0 ≤ c) (hjs : ∀ j ∈ js, (j : K) * c ≤ 1) :
    0 ≤ (js.map fun j : Nat => 1 - (j : K) * c).prod ∧
      (js.map fun j : Nat => 1 - (j : K) * c).prod ≤ (1 - c) ^ (js.countP (0 < ·)) := by
  induction js with
  | nil => simp
  | cons j js ih =>
    obtain ⟨hPos, hLe⟩ := ih fun i hi => hjs i (List.mem_cons_of_mem _ hi)
    have hPart : (j : K) * c ≤ 1 := hjs j (List.mem_cons_self ..)
    have hLeft : 0 ≤ 1 - (j : K) * c := sub_nonneg.mpr hPart
    rw [List.map_cons, List.prod_cons]
    refine ⟨mul_nonneg hLeft hPos, ?_⟩
    rcases Nat.eq_zero_or_pos j with rfl | hj
    · rw [List.countP_cons_of_neg (by decide), Nat.cast_zero, zero_mul, sub_zero, one_mul]
      exact hLe
    · have hMore : c ≤ (j : K) * c := le_mul_of_one_le_left hc (Nat.one_le_cast.mpr hj)
      rw [List.countP_cons_of_pos (by simpa using hj), pow_succ']
      exact mul_le_mul (by linarith) hLe hPos (by linarith)

/-- Every round with ticks in it brings the servo nearer to the goal. -/
theorem after_rounds_le {g : K} {js : List Nat} (h : Asked gain period n a b s (rounds g js)) :
    |(s.after gain period (rounds g js)).pos - g| ≤
      (1 - gain * period) ^ (js.countP (0 < ·)) * |s.pos - g| := by
  obtain ⟨hPos, hLe⟩ := left_le h.part fun j hj => (h.part_le (h.paced.le_of_mem hj)).2
  rw [after_rounds, abs_mul, abs_of_nonneg hPos]
  exact mul_le_mul_of_nonneg_right hLe (abs_nonneg _)

end Servo

end Sailbot.Lib
