import Mathlib.Logic.Function.Basic
import Sailbot.Lib.Latest
import Sailbot.Lib.Transition

/-!
# Channels

A log that every message is appended to, and readers that are given its entries. A reader may miss
entries, and may be given the newest one again, but never goes back. Positions are counted from
zero; a history variable keeps those that a reader was given.

* `Channel.step`            — a message is sent, or an entry is given to a reader.
* `Channel.Ordered`         — what holds of every channel: nobody goes back.
* `Channel.Informed`        — the reader was given the last message that sets a field.
* `Channel.Ordered.latest_received_eq` — he has the latest value then, whatever else he missed.
-/

namespace Sailbot.Lib

variable {M N : Type}

structure Channel (M N : Type) where
  sent : List M
  got  : N → List Nat

inductive ChannelAction (M N : Type)
  | send (m : M)
  | give (r : N) (i : Nat)

namespace Channel

def empty : Channel M N := ⟨[], fun _ => []⟩

/-- The entry can be given to the reader: it is behind the last one, or the newest. -/
def Ready (c : Channel M N) (r : N) (i : Nat) : Prop :=
  i < c.sent.length ∧ ∀ j ∈ (c.got r).getLast?, j < i ∨ i + 1 = c.sent.length

instance ready_decidable (c : Channel M N) (r : N) (i : Nat) : Decidable (c.Ready r i) :=
  inferInstanceAs (Decidable (_ ∧ _))

def send (c : Channel M N) (ms : List M) : Channel M N := { c with sent := c.sent ++ ms }

def give [DecidableEq N] (c : Channel M N) (r : N) (i : Nat) : Channel M N :=
  { c with got := Function.update c.got r (c.got r ++ [i]) }

def step [DecidableEq N] (c : Channel M N) : ChannelAction M N → Option (Channel M N)
  | .send m => some (c.send [m])
  | .give r i => if c.Ready r i then some (c.give r i) else none

/-- The messages that a reader was given. -/
def received (c : Channel M N) (r : N) : List M := (c.got r).filterMap (c.sent[·]?)

/-- Nobody was given what was not sent, and nobody goes back. -/
structure Ordered (c : Channel M N) : Prop where
  sent   : ∀ r, ∀ i ∈ c.got r, i < c.sent.length
  sorted : ∀ r, (c.got r).Pairwise (· ≤ ·)

/-- Nobody was given anything yet. -/
theorem ordered_empty : (empty : Channel M N).Ordered :=
  ⟨fun _ _ h => absurd h List.not_mem_nil, fun _ => .nil⟩

/-- New messages are behind what was given. -/
theorem Ordered.send {c : Channel M N} (h : c.Ordered) (ms : List M) : (c.send ms).Ordered where
  sent r i hi := by
    have hLt := h.sent r i hi
    rw [Channel.send, List.length_append]
    omega
  sorted := h.sorted

/-- What was received does not change when more is sent. -/
theorem Ordered.received_send {c : Channel M N} (h : c.Ordered) (ms : List M) (r : N) :
    (c.send ms).received r = c.received r :=
  List.filterMap_congr fun i hi => List.getElem?_append_left (h.sent r i hi)

/-- A reader was given nothing behind what it is given next. -/
theorem Ordered.le_of_ready {c : Channel M N} (h : c.Ordered) {r : N} {i : Nat}
    (hReady : c.Ready r i) : ∀ k ∈ c.got r, k ≤ i := by
  intro k hk
  have hSorted := h.sorted r
  cases hLast : (c.got r).getLast? with
  | none =>
    rw [List.getLast?_eq_none_iff.mp hLast] at hk
    cases hk
  | some j =>
    obtain ⟨l, hl⟩ := List.getLast?_eq_some_iff.mp hLast
    have hkj : k ≤ j := by
      rw [hl] at hk hSorted
      rcases List.mem_append.mp hk with hk | hk
      · exact (List.pairwise_append.mp hSorted).2.2 k hk j List.mem_cons_self
      · exact Nat.le_of_eq (List.mem_singleton.mp hk)
    have hLt := h.sent r j (hl ▸ List.mem_append_right _ List.mem_cons_self)
    rcases hReady.2 j hLast with hBehind | hNewest
    · omega
    · omega

section Give

variable [DecidableEq N] {c : Channel M N} {r q : N} {i : Nat}

@[simp] theorem give_got_self : (c.give r i).got r = c.got r ++ [i] := Function.update_self ..

/-- The other readers are given nothing. -/
theorem give_got_of_ne (h : q ≠ r) : (c.give r i).got q = c.got q := Function.update_of_ne h ..

/-- A reader is given one message more, in order. -/
theorem Ordered.give (h : c.Ordered) (hReady : c.Ready r i) : (c.give r i).Ordered where
  sent q k hk := by
    by_cases hq : q = r
    · subst hq
      rw [give_got_self] at hk
      rcases List.mem_append.mp hk with hk | hk
      · exact h.sent q k hk
      · rw [List.mem_singleton.mp hk]
        exact hReady.1
    · rw [give_got_of_ne hq] at hk
      exact h.sent q k hk
  sorted q := by
    by_cases hq : q = r
    · subst hq
      rw [give_got_self, List.pairwise_append]
      refine ⟨h.sorted q, List.pairwise_singleton _ _, ?_⟩
      intro k hk j hj
      rw [List.mem_singleton.mp hj]
      exact h.le_of_ready hReady k hk
    · rw [give_got_of_ne hq]
      exact h.sorted q

/-- It has received that message. -/
theorem received_give_self {m : M} (h : c.sent[i]? = some m) :
    (c.give r i).received r = c.received r ++ [m] := by
  have hOne : [i].filterMap (c.sent[·]?) = [m] := List.filterMap_cons_some h
  rw [received, give_got_self, List.filterMap_append, ← hOne]
  rfl

/-- The other readers have received the same. -/
theorem received_give_of_ne (h : q ≠ r) : (c.give r i).received q = c.received q := by
  rw [received, give_got_of_ne h]
  rfl

/-- Nobody ever goes back. -/
theorem step_ordered {c' : Channel M N} {a : ChannelAction M N} (h : c.Ordered)
    (hstep : step c a = some c') : c'.Ordered := by
  cases a with
  | send m =>
    obtain rfl := Option.some.inj hstep
    exact h.send [m]
  | give r i =>
    obtain ⟨hReady, hEq⟩ := Option.ite_none_right_eq_some.mp hstep
    obtain rfl := Option.some.inj hEq
    exact h.give hReady

/-- The order is kept in every run. -/
theorem run_ordered {c : Channel M N} {as : List (ChannelAction M N)}
    (hrun : run step empty as = some c) : c.Ordered :=
  inv_of_run_forall (fun _ _ _ hInv hstep => step_ordered hInv hstep) ordered_empty hrun

end Give

-- ---------------------------------------------------------------------------
-- The latest value of a field
-- ---------------------------------------------------------------------------

variable {β : Type} {field : M → Option β} {v : β}

/-- From position `k` on only `v` is set. -/
def SettledFrom (c : Channel M N) (field : M → Option β) (k : Nat) (v : β) : Prop :=
  ∀ i m, k ≤ i → c.sent[i]? = some m → field m = none ∨ field m = some v

/-- Behind all messages everything is settled. -/
theorem settledFrom_length (c : Channel M N) (field : M → Option β) (v : β) :
    c.SettledFrom field c.sent.length v := by
  intro i m hle hi
  exact absurd (List.getElem?_eq_some_iff.mp hi).1 (by omega)

/-- Messages that set the field to the same value, or not at all, leave it settled. -/
theorem SettledFrom.send {c : Channel M N} {k : Nat} (h : c.SettledFrom field k v) {ms : List M}
    (hAll : ∀ m ∈ ms, field m = none ∨ field m = some v) :
    (c.send ms).SettledFrom field k v := by
  intro i m hle hi
  rcases Nat.lt_or_ge i c.sent.length with hIn | hOut
  · exact h i m hle ((List.getElem?_append_left hIn).symm.trans hi)
  · exact hAll m (List.mem_of_getElem? ((List.getElem?_append_right hOut).symm.trans hi))

/-- A reader that was given a message which sets `v`, when nothing else was set later. -/
theorem Ordered.latest_received {c : Channel M N} (h : c.Ordered) {r : N} {k : Nat} {m : M}
    (hGot : k ∈ c.got r) (hSent : c.sent[k]? = some m) (hSet : field m = some v)
    (hSettled : c.SettledFrom field k v) (first : β) : latest field first (c.received r) = v := by
  obtain ⟨l₁, l₂, hSplit⟩ := List.append_of_mem hGot
  have hSorted := h.sorted r
  rw [hSplit] at hSorted
  have hLater : ∀ i ∈ l₂, k ≤ i := (List.pairwise_cons.mp (List.pairwise_append.mp hSorted).2.1).1
  rw [received, hSplit, List.filterMap_append, List.filterMap_cons_some hSent, latest_append,
    ← List.singleton_append, latest_append]
  have hHere : ∀ w, latest field w [m] = v := by
    intro w
    show (field m).getD w = v
    rw [hSet]
    rfl
  rw [hHere]
  refine latest_of_forall ?_
  intro b hb
  obtain ⟨i, hi, hEq⟩ := List.mem_filterMap.mp hb
  exact hSettled i b (hLater i hi) hEq

/-- Position `k` is the last one whose message sets the field, to `v`. -/
structure LastSet (c : Channel M N) (field : M → Option β) (k : Nat) (v : β) : Prop where
  sets  : ∃ m, c.sent[k]? = some m ∧ field m = some v
  after : ∀ i m, k < i → c.sent[i]? = some m → field m = none

/-- The reader was given the last message that sets the field, if there is one. -/
def Informed (c : Channel M N) (field : M → Option β) (r : N) : Prop :=
  ∀ k v, c.LastSet field k v → k ∈ c.got r

/-- The last message that sets a field settles it. -/
theorem LastSet.settled {c : Channel M N} {k : Nat} (h : c.LastSet field k v) :
    c.SettledFrom field k v := by
  intro i m hle hi
  rcases Nat.eq_or_lt_of_le hle with rfl | hlt
  · obtain ⟨m', hm', hSet⟩ := h.sets
    rw [hm'] at hi
    obtain rfl := Option.some.inj hi
    exact .inr hSet
  · exact .inl (h.after i m hlt hi)

/-- Its value is the latest one. -/
theorem LastSet.latest_sent {c : Channel M N} {k : Nat} (h : c.LastSet field k v) (first : β) :
    latest field first c.sent = v := by
  obtain ⟨m, hm, hSet⟩ := h.sets
  have hTake : latest field first (c.sent.take (k + 1)) = v := by
    rw [latest_take_succ hm, hSet]
    rfl
  rw [← List.take_append_drop (k + 1) c.sent, latest_append, hTake]
  refine latest_of_forall ?_
  intro b hb
  obtain ⟨j, hj⟩ := List.mem_iff_getElem?.mp hb
  rw [List.getElem?_drop] at hj
  exact .inl (h.after _ b (by omega) hj)

/-- Nobody has set the field, or somebody was the last. -/
theorem exists_lastSet (c : Channel M N) (field : M → Option β) :
    (∀ m ∈ c.sent, field m = none) ∨ ∃ k v, c.LastSet field k v := by
  obtain ⟨sent, got⟩ := c
  induction sent using List.reverseRecOn with
  | nil => exact .inl fun _ h => absurd h List.not_mem_nil
  | append_singleton l a ih =>
    cases hField : field a with
    | some v =>
      refine .inr ⟨l.length, v, ⟨a, List.getElem?_concat_length, hField⟩, ?_⟩
      intro i m hlt hi
      obtain ⟨hBound, -⟩ := List.getElem?_eq_some_iff.mp hi
      rw [List.length_append, List.length_singleton] at hBound
      omega
    | none =>
      rcases ih with hNone | ⟨k, v, ⟨m, hm, hSet⟩, hAfter⟩
      · refine .inl ?_
        intro b hb
        rcases List.mem_append.mp hb with hb | hb
        · exact hNone b hb
        · rw [List.mem_singleton.mp hb]
          exact hField
      · have hLt := (List.getElem?_eq_some_iff.mp hm).1
        refine .inr ⟨k, v, ⟨m, ?_, hSet⟩, ?_⟩
        · exact (List.getElem?_append_left hLt).trans hm
        · intro i b hlt hi
          rcases Nat.lt_or_ge i l.length with hIn | hOut
          · exact hAfter i b hlt ((List.getElem?_append_left hIn).symm.trans hi)
          · rw [List.getElem?_append_right hOut, List.getElem?_singleton] at hi
            split_ifs at hi
            rw [← Option.some.inj hi]
            exact hField

/-- **Informed readers know the latest value**, whatever else they missed. -/
theorem Ordered.latest_received_eq {c : Channel M N} (h : c.Ordered) {r : N}
    (hInformed : c.Informed field r) (first : β) :
    latest field first (c.received r) = latest field first c.sent := by
  rcases c.exists_lastSet field with hNone | ⟨k, v, hLast⟩
  · rw [latest_of_forall fun m hm => .inl (hNone m hm), latest_of_forall]
    intro m hm
    obtain ⟨i, -, hi⟩ := List.mem_filterMap.mp hm
    exact .inl (hNone m (List.mem_of_getElem? hi))
  · obtain ⟨m, hm, hSet⟩ := hLast.sets
    rw [hLast.latest_sent, h.latest_received (hInformed k v hLast) hm hSet hLast.settled]

end Channel

end Sailbot.Lib
