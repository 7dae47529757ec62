import Mathlib.Algebra.BigOperators.Group.List.Defs

/-!
# Checked accesses and counted loops

A program with vectors is a partial function: an access behind the end of a vector has no
result. A loop over indices is the fold of its body, which is partial in the same way.

* `setAt`, `atInt`, `resize` — the accesses to a vector, and `std::vector::resize`.
* `foldlM_total`  — the rule for a loop: where the body keeps an invariant and has a result,
  the loop has a result, which the invariant holds of.
* `range'_total`  — the same with an invariant that counts the rounds.
* `foldl_eq_sum`  — a loop that adds up.
* `foldl_getD`, `foldl_toList` — a loop that sets a value, or notes it.
-/

namespace Sailbot.Lib

variable {α β σ : Type*}

-- ---------------------------------------------------------------------------
-- Accesses
-- ---------------------------------------------------------------------------

/-- `l[i] = x`. -/
def setAt (l : List α) (i : Nat) (x : α) : Option (List α) :=
  if i < l.length then some (l.set i x) else none

/-- `l[i]` for an `int`; a negative number is behind the end of every vector. -/
def atInt (l : List α) (i : Int) : Option α := if 0 ≤ i then l[i.toNat]? else none

/-- `std::vector::resize`; new elements are `x`. -/
def resize (l : List α) (n : Nat) (x : α) : List α := l.take n ++ List.replicate (n - l.length) x

/-- Inside the list the write has a result. -/
theorem setAt_eq {l : List α} {i : Nat} (h : i < l.length) (x : α) :
    setAt l i x = some (l.set i x) := if_pos h

/-- Inside the list the read has a result. -/
theorem atInt_eq {l : List α} {i : Int} (h0 : 0 ≤ i) (h : i < l.length) :
    ∃ x ∈ l, atInt l i = some x := by
  have hLt : i.toNat < l.length := by omega
  exact ⟨l[i.toNat], List.getElem_mem hLt, by rw [atInt, if_pos h0, List.getElem?_eq_getElem hLt]⟩

/-- A read with a result was not of an empty list. -/
theorem atInt_length {l : List α} {i : Int} {x : α} (h : atInt l i = some x) :
    l.length ≠ 0 := by
  intro hZero
  rw [List.length_eq_zero_iff.mp hZero, atInt] at h
  split at h <;> cases h

/-- An element that is there. -/
theorem getElem?_total {l : List α} {i : Nat} (h : i < l.length) : ∃ x ∈ l, l[i]? = some x :=
  ⟨l[i], List.getElem_mem h, List.getElem?_eq_getElem h⟩

/-- Writing an element that has the same image as the old one does not change the images. -/
theorem map_set_of_eq {f : α → β} {l : List α} {i : Nat} {x y : α} (h : l[i]? = some y)
    (hxy : f x = f y) : (l.set i x).map f = l.map f := by
  obtain ⟨hLt, rfl⟩ := List.getElem?_eq_some_iff.mp h
  have hMap : i < (l.map f).length := by rwa [List.length_map]
  have hAt : (l.map f)[i] = f x := by rw [List.getElem_map, hxy]
  rw [List.map_set, ← hAt, List.set_getElem_self]

/-- A vector is known by its length and its elements. -/
theorem eq_map_range {l : List α} {n : Nat} {f : Nat → α} (hLength : l.length = n)
    (h : ∀ j < n, l[j]? = some (f j)) : l = (List.range n).map f := by
  refine List.ext_getElem? ?_
  intro j
  rcases Nat.lt_or_ge j n with hLt | hGe
  · rw [h j hLt, List.getElem?_map, List.getElem?_range hLt]
    rfl
  · rw [List.getElem?_eq_none (by omega), List.getElem?_eq_none (by simpa using hGe)]

@[simp] theorem length_resize (l : List α) (n : Nat) (x : α) : (resize l n x).length = n := by
  rw [resize, List.length_append, List.length_take, List.length_replicate]
  omega

-- ---------------------------------------------------------------------------
-- Loops
-- ---------------------------------------------------------------------------

/-- **Loop rule.** A loop whose body always has a result and keeps an invariant has a result,
and the invariant holds of it. -/
theorem foldlM_total {f : σ → β → Option σ} {I : σ → Prop} {l : List β}
    (hBody : ∀ s, ∀ b ∈ l, I s → ∃ t, f s b = some t ∧ I t) :
    ∀ {s : σ}, I s → ∃ t, l.foldlM f s = some t ∧ I t := by
  induction l with
  | nil => exact fun {s} h => ⟨s, rfl, h⟩
  | cons b l ih =>
    intro s h
    obtain ⟨t, ht, hI⟩ := hBody s b List.mem_cons_self h
    obtain ⟨u, hu, hI⟩ := ih (fun s b hb => hBody s b (List.mem_cons_of_mem _ hb)) hI
    refine ⟨u, ?_, hI⟩
    rw [List.foldlM_cons, ht]
    exact hu

/-- The loop rule for an invariant that knows the elements before. -/
theorem foldlM_seen {f : σ → β → Option σ} {I : List β → σ → Prop} {l : List β}
    (hBody : ∀ seen s, ∀ b ∈ l, I seen s → ∃ t, f s b = some t ∧ I (seen ++ [b]) t) :
    ∀ (seen : List β) (s : σ), I seen s → ∃ t, l.foldlM f s = some t ∧ I (seen ++ l) t := by
  induction l with
  | nil => exact fun seen s h => ⟨s, rfl, by rwa [List.append_nil]⟩
  | cons b l ih =>
    intro seen s h
    obtain ⟨t, ht, hI⟩ := hBody seen s b List.mem_cons_self h
    obtain ⟨u, hu, hI⟩ :=
      ih (fun seen s b hb => hBody seen s b (List.mem_cons_of_mem _ hb)) (seen ++ [b]) t hI
    refine ⟨u, ?_, by rwa [List.append_assoc] at hI⟩
    rw [List.foldlM_cons, ht]
    exact hu

/-- The loop rule for an invariant that knows the round. -/
theorem range'_total {f : σ → Nat → Option σ} {I : Nat → σ → Prop} {n : Nat} :
    ∀ {a : Nat}, (∀ s i, a ≤ i → i < a + n → I i s → ∃ t, f s i = some t ∧ I (i + 1) t) →
      ∀ {s : σ}, I a s → ∃ t, (List.range' a n).foldlM f s = some t ∧ I (a + n) t := by
  induction n with
  | zero => exact fun _ s h => ⟨s, rfl, h⟩
  | succ n ih =>
    intro a hBody s h
    obtain ⟨t, ht, hI⟩ := hBody s a (Nat.le_refl a) (by omega) h
    obtain ⟨u, hu, hI⟩ := ih (fun s i hi hLt => hBody s i (by omega) (by omega)) hI
    refine ⟨u, ?_, by rwa [Nat.add_right_comm, Nat.add_assoc] at hI⟩
    rw [List.range'_succ, List.foldlM_cons, ht]
    exact hu

/-- A loop has a result, if its body keeps an invariant and has one. -/
theorem range_total {f : σ → Nat → Option σ} {I : Nat → σ → Prop} {n : Nat}
    (hBody : ∀ s i, i < n → I i s → ∃ t, f s i = some t ∧ I (i + 1) t) {s : σ} (h : I 0 s) :
    ∃ t, (List.range n).foldlM f s = some t ∧ I n t := by
  obtain ⟨t, ht, hI⟩ := range'_total (n := n) (fun s i _ hi => hBody s i (by omega)) h
  refine ⟨t, ?_, by rwa [Nat.zero_add] at hI⟩
  rw [List.range_eq_range']
  exact ht

/-- A loop that adds up computes the sum. -/
theorem foldl_eq_sum [AddMonoid σ] (f : α → σ) (l : List α) (c : σ) :
    l.foldl (fun s a => s + f a) c = c + (l.map f).sum := by
  induction l generalizing c with
  | nil => rw [List.foldl_nil, List.map_nil, List.sum_nil, add_zero]
  | cons a l ih => rw [List.foldl_cons, ih, List.map_cons, List.sum_cons, add_assoc]

/-- A value that only one round of a loop sets. -/
theorem foldl_getD {f : σ → β → σ} {g : σ → α} {set : β → Option α}
    (h : ∀ s b, g (f s b) = (set b).getD (g s)) {v : α} {l : List β} :
    ∀ {s : σ}, l.filterMap set = [v] → g (l.foldl f s) = v := by
  have hKept : ∀ {l : List β} {s : σ}, l.filterMap set = [] → g (l.foldl f s) = g s := by
    intro l
    induction l with
    | nil => exact fun _ => rfl
    | cons b l ih =>
      intro s hNone
      cases hSet : set b with
      | some w =>
        rw [List.filterMap_cons_some hSet] at hNone
        cases hNone
      | none =>
        rw [List.filterMap_cons_none hSet] at hNone
        rw [List.foldl_cons, ih hNone, h, hSet, Option.getD_none]
  induction l with
  | nil => exact fun hOne => (nomatch hOne)
  | cons b l ih =>
    intro s hOne
    rw [List.foldl_cons]
    cases hSet : set b with
    | some w =>
      rw [List.filterMap_cons_some hSet] at hOne
      obtain ⟨rfl, hNone⟩ := List.cons.inj hOne
      rw [hKept hNone, h, hSet, Option.getD_some]
    | none =>
      rw [List.filterMap_cons_none hSet] at hOne
      exact ih hOne

/-- A list to which every round of a loop may append. -/
theorem foldl_toList {f : σ → β → σ} {g : σ → List α} {note : β → Option α}
    (h : ∀ s b, g (f s b) = g s ++ (note b).toList) {l : List β} :
    ∀ {s : σ}, g (l.foldl f s) = g s ++ l.filterMap note := by
  induction l with
  | nil => exact fun {s} => (List.append_nil _).symm
  | cons b l ih =>
    intro s
    rw [List.foldl_cons, ih, h, List.append_assoc]
    cases hNote : note b with
    | some w =>
      rw [List.filterMap_cons_some hNote]
      rfl
    | none =>
      rw [List.filterMap_cons_none hNote]
      rfl

end Sailbot.Lib
