import Mathlib.Data.List.Basic

/-!
# Runs of a partial step function

A system is given by `step : σ → α → Option σ`: the action `a` is enabled in
the state `s` when `step s a` is defined. A run is the fold of `step` over a
list of actions, and is defined when every action was enabled in its turn.

* `run`          — the state a list of actions leads to, if all are enabled.
* `Along`        — a condition on (state, action) pairs that holds at every
  step of a run; this is how a hypothesis about a whole run is stated.
* `inv_of_run`   — the invariant rule: initial plus preserved by every step
  that meets the condition gives every state reached.
* `along_of_inv` — the same for a condition that an invariant turns into another.
* `rel_of_run`   — the same for a reflexive and transitive relation between
  the first and the last state.
* `exists_step_of_not_along` — a run that breaks a condition has a first step
  that breaks it, in a state that the run reaches.
* `noted`        — the system with a note of what has happened so far.
-/

namespace Sailbot.Lib

variable {σ α : Type*} (step : σ → α → Option σ)

/-- The state that the actions `as` lead to from `s`. -/
def run (s : σ) (as : List α) : Option σ := as.foldlM step s

@[simp] theorem run_nil (s : σ) : run step s [] = some s := rfl

@[simp] theorem run_cons (s : σ) (a : α) (as : List α) :
    run step s (a :: as) = (step s a).bind fun s' => run step s' as := rfl

/-- A run of one step. -/
theorem run_singleton (s : σ) (a : α) : run step s [a] = step s a := Option.bind_fun_some _

/-- A run in two parts. -/
theorem run_append (s : σ) (as bs : List α) :
    run step s (as ++ bs) = (run step s as).bind fun s' => run step s' bs :=
  List.foldlM_append

variable {step}

/-- A run that begins with a step. -/
theorem run_cons_eq_some {s s' : σ} {a : α} {as : List α} :
    run step s (a :: as) = some s' ↔
      ∃ t, step s a = some t ∧ run step t as = some s' := by
  rw [run_cons, Option.bind_eq_some_iff]

/-- A run in two parts that has a result. -/
theorem run_append_eq_some {s s' : σ} {as bs : List α} :
    run step s (as ++ bs) = some s' ↔
      ∃ t, run step s as = some t ∧ run step t bs = some s' := by
  rw [run_append, Option.bind_eq_some_iff]

/-- A run that ends with a step. -/
theorem run_concat_eq_some {s s' : σ} {as : List α} {a : α} :
    run step s (as ++ [a]) = some s' ↔
      ∃ t, run step s as = some t ∧ step t a = some s' := by
  rw [run_append_eq_some]
  refine exists_congr fun t => and_congr_right fun _ => ?_
  show (step t a).bind some = some s' ↔ _
  rw [Option.bind_fun_some]

-- ---------------------------------------------------------------------------
-- Conditions that hold at every step of a run
-- ---------------------------------------------------------------------------

variable (step) in
/-- `P` holds of every (state, action) pair met on the way from `s` along `as`. -/
def Along (P : σ → α → Prop) : σ → List α → Prop
  | _, [] => True
  | s, a :: as => P s a ∧ ∀ t, step s a = some t → Along P t as

/-- A run can be checked for a condition that can be decided. -/
instance decidableAlong (P : σ → α → Prop) [∀ s a, Decidable (P s a)] :
    ∀ s as, Decidable (Along step P s as)
  | _, [] => .isTrue trivial
  | s, a :: as =>
    match h : step s a with
    | none => decidable_of_iff (P s a) (by simp [Along, h])
    | some t =>
      have := decidableAlong P t as
      decidable_of_iff (P s a ∧ Along step P t as) (by simp [Along, h])

/-- What holds at a step and along the rest. -/
theorem along_cons {P : σ → α → Prop} {s t : σ} {a : α} {as : List α}
    (hstep : step s a = some t) (hP : P s a) (hRest : Along step P t as) :
    Along step P s (a :: as) := by
  refine ⟨hP, ?_⟩
  intro u hu
  rw [hstep, Option.some.injEq] at hu
  exact hu ▸ hRest

/-- What holds along a run holds at the step after each of its states. -/
theorem along_at {P : σ → α → Prop} {a : α} {pre post : List α} :
    ∀ {s t : σ}, Along step P s (pre ++ a :: post) → run step s pre = some t → P t a := by
  induction pre with
  | nil =>
    intro s t hAlong hrun
    rw [run_nil, Option.some.injEq] at hrun
    exact hrun ▸ hAlong.1
  | cons b pre ih =>
    intro s t hAlong hrun
    obtain ⟨u, hu, hrun⟩ := run_cons_eq_some.mp hrun
    exact ih (hAlong.2 u hu) hrun

/-- A condition that mentions only the action holds along a run when it holds
of all its actions. -/
theorem along_of_forall {P : σ → α → Prop} {as : List α}
    (h : ∀ a ∈ as, ∀ s, P s a) : ∀ s, Along step P s as := by
  induction as with
  | nil => exact fun _ => trivial
  | cons a as ih =>
    intro s
    refine ⟨h a (List.mem_cons_self ..) s, ?_⟩
    intro t _
    exact ih (fun b hb => h b (List.mem_cons_of_mem _ hb)) t

/-- What holds along a run that goes through and mentions only the action holds
of all its actions. -/
theorem forall_of_along {Q : α → Prop} {as : List α} :
    ∀ {s s' : σ}, Along step (fun _ a => Q a) s as → run step s as = some s' →
      ∀ a ∈ as, Q a := by
  induction as with
  | nil => exact fun _ _ a ha => absurd ha (List.not_mem_nil)
  | cons b as ih =>
    intro s s' hAlong hrun a ha
    obtain ⟨t, ht, hrun⟩ := run_cons_eq_some.mp hrun
    rcases List.mem_cons.mp ha with rfl | ha
    · exact hAlong.1
    · exact ih (hAlong.2 t ht) hrun a ha

/-- A condition that implies another in the states of an invariant does so along a run,
where the invariant needs to be preserved by steps that meet the condition only. -/
theorem along_of_inv {I : σ → Prop} {P Q : σ → α → Prop}
    (hstep : ∀ s a s', I s → P s a → step s a = some s' → I s')
    (h : ∀ s a, I s → P s a → Q s a) {as : List α} :
    ∀ {s : σ}, I s → Along step P s as → Along step Q s as := by
  induction as with
  | nil => exact fun _ _ => trivial
  | cons a as ih =>
    intro s hInv hP
    exact ⟨h s a hInv hP.1, fun t ht => ih (hstep s a t hInv hP.1 ht) (hP.2 t ht)⟩

/-- Conditions that agree in the states of an invariant agree along a run. -/
theorem along_congr_of_inv {I : σ → Prop} {P Q : σ → α → Prop}
    (hstep : ∀ s a s', I s → step s a = some s' → I s')
    (h : ∀ s a, I s → (P s a ↔ Q s a)) {as : List α} {s : σ} (hInv : I s) :
    Along step P s as ↔ Along step Q s as :=
  ⟨along_of_inv (fun s a s' hInv _ => hstep s a s' hInv) (fun s a hInv => (h s a hInv).mp) hInv,
    along_of_inv (fun s a s' hInv _ => hstep s a s' hInv) (fun s a hInv => (h s a hInv).mpr) hInv⟩

/-- Conditions that say the same at every step. -/
theorem along_congr {P Q : σ → α → Prop} (h : ∀ s a, P s a ↔ Q s a) {as : List α} {s : σ} :
    Along step P s as ↔ Along step Q s as :=
  along_congr_of_inv (I := fun _ => True) (fun _ _ _ _ _ => trivial) (fun s a _ => h s a) trivial

/-- Two conditions along one run. -/
theorem along_and {P Q : σ → α → Prop} {as : List α} :
    ∀ {s : σ}, Along step P s as → Along step Q s as →
      Along step (fun s a => P s a ∧ Q s a) s as := by
  induction as with
  | nil => exact fun _ _ => trivial
  | cons a as ih =>
    intro s hP hQ
    exact ⟨⟨hP.1, hQ.1⟩, fun t ht => ih (hP.2 t ht) (hQ.2 t ht)⟩

/-- What holds along a run holds along its beginning. -/
theorem along_append_left {P : σ → α → Prop} {as bs : List α} :
    ∀ {s : σ}, Along step P s (as ++ bs) → Along step P s as := by
  induction as with
  | nil => exact fun _ => trivial
  | cons a as ih =>
    intro s h
    exact ⟨h.1, fun t ht => ih (h.2 t ht)⟩

/-- What holds along a run and at one more step. -/
theorem along_concat {P : σ → α → Prop} {a : α} {as : List α} :
    ∀ {s t : σ}, run step s as = some t →
      (Along step P s (as ++ [a]) ↔ Along step P s as ∧ P t a) := by
  induction as with
  | nil =>
    intro s t hrun
    obtain rfl := Option.some.inj hrun
    exact ⟨fun h => ⟨trivial, h.1⟩, fun h => ⟨h.2, fun _ _ => trivial⟩⟩
  | cons b as ih =>
    intro s t hrun
    obtain ⟨u, hu, hrun⟩ := run_cons_eq_some.mp hrun
    constructor
    · intro h
      obtain ⟨hRest, hLast⟩ := (ih hrun).mp (h.2 u hu)
      exact ⟨along_cons hu h.1 hRest, hLast⟩
    · intro h
      exact along_cons hu h.1.1 ((ih hrun).mpr ⟨h.1.2 u hu, h.2⟩)

/-- A run goes through when each of its actions is enabled in its turn. -/
theorem run_isSome_iff {as : List α} :
    ∀ {s : σ}, (run step s as).isSome ↔ Along step (fun s a => (step s a).isSome) s as := by
  induction as with
  | nil => exact fun {s} => ⟨fun _ => trivial, fun _ => rfl⟩
  | cons a as ih =>
    intro s
    rw [run_cons]
    cases h : step s a with
    | none => simp [Along, h]
    | some t =>
      rw [Option.bind_some, ih, Along, h]
      refine ⟨fun hRest => ⟨rfl, fun u hu => Option.some.inj hu ▸ hRest⟩, ?_⟩
      intro hRest
      exact hRest.2 t rfl

/-- A run that does not meet a condition meets it up to a first step at which
it does not. -/
theorem exists_step_of_not_along {P : σ → α → Prop} {as : List α} :
    ∀ {s : σ}, ¬ Along step P s as →
      ∃ pre a post t, as = pre ++ a :: post ∧ run step s pre = some t ∧
        Along step P s pre ∧ ¬ P t a := by
  induction as with
  | nil => exact fun h => absurd trivial h
  | cons a as ih =>
    intro s h
    by_cases hP : P s a
    · -- the first step is fine, so a later one is not
      have hrest : ∃ t, step s a = some t ∧ ¬ Along step P t as := by
        by_contra hcon
        push Not at hcon
        exact h ⟨hP, hcon⟩
      obtain ⟨t, ht, hnot⟩ := hrest
      obtain ⟨pre, b, post, u, rfl, hrun, hAlong, hb⟩ := ih hnot
      exact ⟨a :: pre, b, post, u, rfl, run_cons_eq_some.mpr ⟨t, ht, hrun⟩,
        along_cons ht hP hAlong, hb⟩
    · exact ⟨[], a, as, s, rfl, rfl, trivial, hP⟩

-- ---------------------------------------------------------------------------
-- Induction over a run
-- ---------------------------------------------------------------------------

/-- **Invariant rule.** What holds of the first state and is preserved by
every step that meets the condition `P` holds of every state that a run meeting
`P` reaches. -/
theorem inv_of_run {I : σ → Prop} {P : σ → α → Prop}
    (hstep : ∀ s a s', I s → P s a → step s a = some s' → I s')
    {as : List α} : ∀ {s s' : σ}, I s → Along step P s as →
      run step s as = some s' → I s' := by
  induction as with
  | nil =>
    intro s s' hInv _ hrun
    rw [run_nil, Option.some.injEq] at hrun
    exact hrun ▸ hInv
  | cons a as ih =>
    intro s s' hInv hP hrun
    obtain ⟨t, ht, hrun⟩ := run_cons_eq_some.mp hrun
    exact ih (hstep s a t hInv hP.1 ht) (hP.2 t ht) hrun

/-- The invariant rule for what every step preserves. -/
theorem inv_of_run_forall {I : σ → Prop} (hstep : ∀ s a s', I s → step s a = some s' → I s')
    {as : List α} {s s' : σ} (hInv : I s) (hrun : run step s as = some s') : I s' :=
  inv_of_run (P := fun _ _ => True) (fun s a s' hInv _ => hstep s a s' hInv) hInv
    (along_of_forall (fun _ _ _ => trivial) s) hrun

/-- **Relation rule.** A reflexive and transitive relation that every step
respects holds between the two ends of a run. -/
theorem rel_of_run {R : σ → σ → Prop} (hrefl : ∀ s, R s s)
    (htrans : ∀ s t u, R s t → R t u → R s u)
    (hR : ∀ s a s', step s a = some s' → R s s')
    {as : List α} : ∀ {s s' : σ}, run step s as = some s' → R s s' := by
  induction as with
  | nil =>
    intro s s' hrun
    rw [run_nil, Option.some.injEq] at hrun
    exact hrun ▸ hrefl s
  | cons a as ih =>
    intro s s' hrun
    obtain ⟨t, ht, hrun⟩ := run_cons_eq_some.mp hrun
    exact htrans s t s' (hR s a t ht) (ih hrun)

-- ---------------------------------------------------------------------------
-- Notes
-- ---------------------------------------------------------------------------

variable {η : Type*} {note : σ → α → η → η}

variable (step note) in
/-- A step that also keeps a note, which the system itself does not see. -/
def noted (x : σ × η) (a : α) : Option (σ × η) :=
  (step x.1 a).map fun t => (t, note x.1 a x.2)

/-- A step with a note takes the step and writes the note. -/
theorem noted_eq_some {x y : σ × η} {a : α} :
    noted step note x a = some y ↔ step x.1 a = some y.1 ∧ note x.1 a x.2 = y.2 := by
  rw [noted, Option.map_eq_some_iff]
  constructor
  · rintro ⟨t, hstep, rfl⟩
    exact ⟨hstep, rfl⟩
  · rintro ⟨hstep, hNote⟩
    exact ⟨y.1, hstep, Prod.ext rfl hNote⟩

/-- The system runs as it does without the note. -/
theorem run_of_noted {as : List α} : ∀ {x y : σ × η}, run (noted step note) x as = some y →
    run step x.1 as = some y.1 := by
  induction as with
  | nil =>
    intro x y hrun
    obtain rfl := Option.some.inj hrun
    rfl
  | cons a as ih =>
    intro x y hrun
    obtain ⟨z, hstep, hrun⟩ := run_cons_eq_some.mp hrun
    exact run_cons_eq_some.mpr ⟨z.1, (noted_eq_some.mp hstep).1, ih hrun⟩

end Sailbot.Lib
