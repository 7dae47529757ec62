import Sailbot.Can.Node

/-!
# What a published message depends on

`DecodeAndSend` decodes every payload of a PGN into one and the same message,
`store_msg_`, and never clears it. What it publishes is therefore the pile of
what all payloads so far have written, the latest one on top:

* `CANMessage.written`, `CANMessage.undefined` — what a payload writes, field by
  field, and the enum numbers in it that are not defined.
* `lastWritten`, `unknowns` — what a list of payloads leaves behind.
* `published_eq_stored` — the published message as a function of the payloads.
* `published_eq_iff` — two histories that end with the same payload publish the
  same message exactly when they leave the same behind where that payload writes
  nothing.
-/

namespace Sailbot.Can

open Lib

variable {D : Type} (A : Arith D)

-- ---------------------------------------------------------------------------
-- Payloads and what they leave behind
-- ---------------------------------------------------------------------------

/-- The fields that the payload of `m` writes, by their numbers. -/
def CANMessage.written (m : CANMessage D) : Nat → Option (Value D) :=
  writtenFields A m.desc m.pgn m.payload

/-- The enum numbers in the payload of `m` that their enums do not define. -/
def CANMessage.undefined (m : CANMessage D) : List (Nat × Int) :=
  undefinedFrom A m.desc m.payload m.pgn.fieldList 0 0

/-- The value that the latest of the payloads to write field `num` has given it. -/
def lastWritten (num : Nat) (history : List (CANMessage D)) : Option (Value D) :=
  history.reverse.findSome? fun m => m.written A num

/-- The undefined enum numbers in the payloads. -/
def unknowns (history : List (CANMessage D)) : List (Nat × Int) :=
  history.flatMap fun m => m.undefined A

/-- The payloads of one PGN among the calls, in order. -/
def historyOf (pgn : Nat) (calls : List (Call D)) : List (CANMessage D) :=
  (calls.filter fun c => c.msg.pgn.pgn == pgn).map Call.msg

/-- The messages of the payloads laid over each other. -/
def overlayAll (history : List (CANMessage D)) : PgnMsg D where
  fields := fun num => lastWritten A num history
  unknown := unknowns A history

/-- `store_msg_` of a PGN after the payloads. -/
def stored (pgn : Nat) : List (CANMessage D) → CANMaster D
  | [] => {}
  | m :: history =>
    { outgoing := some false
      sub := Function.update (fun _ => none) pgn (some (overlayAll A (m :: history))) }

/-- What was written last, after one more message. -/
theorem lastWritten_concat (num : Nat) (history : List (CANMessage D)) (m : CANMessage D) :
    lastWritten A num (history ++ [m]) =
      (m.written A num).or (lastWritten A num history) := by
  rw [lastWritten, List.reverse_append, List.reverse_singleton, List.singleton_append,
    List.findSome?_cons, lastWritten]
  cases m.written A num <;> rfl

/-- The message that is kept, after one more. -/
theorem overlayAll_concat (history : List (CANMessage D)) (m : CANMessage D) :
    overlayAll A (history ++ [m]) =
      (overlayAll A history).overlay ⟨m.written A, m.undefined A⟩ := by
  ext : 1
  · funext num
    exact lastWritten_concat A num history m
  · show unknowns A (history ++ [m]) = _
    rw [unknowns, List.flatMap_append, List.flatMap_singleton]
    rfl

/-- After a message there is one for its number. -/
theorem stored_of_ne_nil (pgn : Nat) {history : List (CANMessage D)} (h : history ≠ []) :
    stored A pgn history =
      { outgoing := some false
        sub := Function.update (fun _ => none) pgn (some (overlayAll A history)) } := by
  cases history with
  | nil => exact absurd rfl h
  | cons m history => rfl

/-- What a new message is decoded over. -/
theorem stored_mutableMessage (pgn : Nat) (history : List (CANMessage D)) :
    (stored A pgn history).mutableMessage pgn = overlayAll A history := by
  cases history with
  | nil => rfl
  | cons m history => simp [stored, CANMaster.mutableMessage]

/-- One more payload. -/
theorem decodeAndSend_eq_stored {m : CANMessage D} {history : List (CANMessage D)}
    (h : m.store = stored A m.pgn.pgn history) :
    decodeAndSend A m = stored A m.pgn.pgn (history ++ [m]) := by
  rw [stored_of_ne_nil A m.pgn.pgn (by simp), decodeAndSend, h, stored_mutableMessage,
    decode_eq_overlay, overlayAll_concat]
  ext : 1
  · rfl
  · show Function.update (stored A m.pgn.pgn history).sub m.pgn.pgn _ = _
    cases history with
    | nil => rfl
    | cons m' history =>
      rw [stored_of_ne_nil A m.pgn.pgn (List.cons_ne_nil m' history), Function.update_idem]
      rfl

-- ---------------------------------------------------------------------------
-- Runs
-- ---------------------------------------------------------------------------

/-- A call is the last one of its number. -/
theorem historyOf_concat_self (calls : List (Call D)) (c : Call D) :
    historyOf c.msg.pgn.pgn (calls ++ [c]) = historyOf c.msg.pgn.pgn calls ++ [c.msg] := by
  simp [historyOf]

/-- The other numbers have the calls that they had. -/
theorem historyOf_concat_of_ne {pgn : Nat} (calls : List (Call D)) {c : Call D}
    (h : pgn ≠ c.msg.pgn.pgn) : historyOf pgn (calls ++ [c]) = historyOf pgn calls := by
  have hNe : (c.msg.pgn.pgn == pgn) = false := beq_false_of_ne (Ne.symm h)
  simp [historyOf, hNe]

/-- Every store, and every message published so far, is what the payloads of its
PGN up to then have left. -/
structure StoresOk (s : CanNode D) : Prop where
  store : ∀ k m, s.msgs k = some m → m.store = stored A k (historyOf k s.calls)
  published : ∀ i c, s.calls[i]? = some c →
    c.published = stored A c.msg.pgn.pgn (historyOf c.msg.pgn.pgn (s.calls.take i) ++ [c.msg])

/-- At the start nothing is stored. -/
theorem storesOk_init : StoresOk A (CanNode.init D) := by
  refine ⟨fun k m hm => ?_, fun i c hc => by cases hc⟩
  rw [(CanNode.init_msgs hm).1]
  rfl

/-- Every frame leaves what its history says. -/
theorem storesOk_step {s s' : CanNode D} {f : CanFrame} (hs : StoresOk A s)
    (h : iterate A s f = some s') : StoresOk A s' := by
  obtain ⟨-, rfl⟩ | ⟨m, m', hMsg, hMerge, hCase⟩ := iterate_cases A h
  · exact hs
  · obtain ⟨hPgn, -, hStore, -⟩ := CANMessage.merge_eq_some hMerge
    have hKey : m'.pgn.pgn = f.pgn := by rw [hPgn, s.msgs_pgn _ _ hMsg]
    have hBefore : m'.store = stored A m'.pgn.pgn (historyOf m'.pgn.pgn s.calls) := by
      rw [hStore, hKey]
      exact hs.store _ _ hMsg
    obtain ⟨-, rfl⟩ | ⟨-, rfl⟩ := hCase
    · refine ⟨fun k m₁ hm₁ => ?_, hs.published⟩
      by_cases hk : k = m'.pgn.pgn
      · rw [hk, CanNode.setMsg_self, Option.some.injEq] at hm₁
        rw [← hm₁, hk]
        exact hBefore
      · rw [s.setMsg_of_ne hk] at hm₁
        exact hs.store k m₁ hm₁
    · have hAfter := decodeAndSend_eq_stored A hBefore
      refine ⟨?_, ?_⟩
      · intro k m₁ hm₁
        by_cases hk : k = m'.pgn.pgn
        · rw [hk, CanNode.decoded_self, Option.some.injEq] at hm₁
          rw [← hm₁, hk, CanNode.decoded_calls]
          exact hAfter.trans (congrArg _ (historyOf_concat_self s.calls ⟨m', _⟩).symm)
        · rw [s.decoded_of_ne A hk] at hm₁
          rw [CanNode.decoded_calls, historyOf_concat_of_ne s.calls hk]
          exact hs.store k m₁ hm₁
      · intro i c hc
        rw [CanNode.decoded_calls] at hc ⊢
        rcases Nat.lt_or_ge i s.calls.length with hlt | hge
        · rw [List.getElem?_append_left hlt] at hc
          rw [List.take_append_of_le_length (Nat.le_of_lt hlt)]
          exact hs.published i c hc
        · -- the new call
          rw [List.getElem?_append_right hge, List.getElem?_singleton] at hc
          split at hc
          · next hi =>
            obtain rfl : i = s.calls.length := by omega
            rw [Option.some.injEq] at hc
            subst hc
            rw [List.take_left]
            exact hAfter
          · cases hc

/-- **What is published.** The message of a call is made up of the payloads of
its PGN in the calls before it and its own. -/
theorem published_eq_stored {fs : List CanFrame} {s : CanNode D}
    (hrun : run (iterate A) (CanNode.init D) fs = some s) {pre : List (Call D)} {c : Call D}
    {post : List (Call D)} (hc : s.calls = pre ++ c :: post) :
    c.published = stored A c.msg.pgn.pgn (historyOf c.msg.pgn.pgn pre ++ [c.msg]) := by
  have hOk : StoresOk A s :=
    inv_of_run_forall (fun _ _ _ hI hstep => storesOk_step A hI hstep) (storesOk_init A) hrun
  have hPub := hOk.published pre.length c (by rw [hc]; simp)
  rwa [hc, List.take_left] at hPub

-- ---------------------------------------------------------------------------
-- Two histories with the same last payload
-- ---------------------------------------------------------------------------

/-- Payloads with the same bytes write the same. -/
theorem written_congr {m₁ m₂ : CANMessage D} {p : Pgn} (h₁ : m₁.pgn = p) (h₂ : m₂.pgn = p)
    (hSame : ∀ i < p.payloadBytes, m₁.payload i = m₂.payload i) :
    m₁.written A = m₂.written A ∧ m₁.undefined A = m₂.undefined A := by
  have hDecode := decode_congr A (h₁ ▸ m₁.pgn_mem) m₂.desc hSame {}
  rw [decode_eq_overlay, decode_eq_overlay, PgnMsg.empty_overlay, PgnMsg.empty_overlay,
    PgnMsg.mk.injEq] at hDecode
  rw [CANMessage.written, CANMessage.written, CANMessage.undefined, CANMessage.undefined,
    CANMessage.desc_congr (h₁.trans h₂.symm), h₁, h₂]
  exact hDecode

/-- With the same first choice, two choices agree when the first one is made or
the second ones agree. -/
theorem or_eq_or_iff {α : Type*} (x y z : Option α) :
    x.or y = x.or z ↔ (x = none → y = z) := by
  cases x with
  | none => simp
  | some a => simp

/-- Two histories with one more payload each that writes the same. -/
theorem overlayAll_concat_eq_iff {history₁ history₂ : List (CANMessage D)}
    {m₁ m₂ : CANMessage D} (hWritten : m₁.written A = m₂.written A)
    (hUndefined : m₁.undefined A = m₂.undefined A) :
    overlayAll A (history₁ ++ [m₁]) = overlayAll A (history₂ ++ [m₂]) ↔
      (∀ num, m₁.written A num = none →
        lastWritten A num history₁ = lastWritten A num history₂) ∧
      unknowns A history₁ = unknowns A history₂ := by
  rw [overlayAll_concat, overlayAll_concat, ← hWritten, ← hUndefined, PgnMsg.ext_iff, funext_iff]
  refine and_congr (forall_congr' ?_) ?_
  · intro num
    exact or_eq_or_iff _ _ _
  · exact List.append_left_inj _

/--
**Published messages and stale fields, exactly.** Take two runs whose last calls
are for the same PGN with the same payload. They publish the same message if and
only if every field that this payload leaves unwritten was last written with the
same value in both runs, or in neither, and the enum numbers that the message
type does not know are the same in both runs so far.
-/
theorem published_eq_iff {fs₁ fs₂ : List CanFrame} {s₁ s₂ : CanNode D}
    (hrun₁ : run (iterate A) (CanNode.init D) fs₁ = some s₁)
    (hrun₂ : run (iterate A) (CanNode.init D) fs₂ = some s₂)
    {pre₁ pre₂ : List (Call D)} {c₁ c₂ : Call D}
    (hc₁ : s₁.calls = pre₁ ++ [c₁]) (hc₂ : s₂.calls = pre₂ ++ [c₂])
    {p : Pgn} (hp₁ : c₁.msg.pgn = p) (hp₂ : c₂.msg.pgn = p)
    (hSame : ∀ i < p.payloadBytes, c₁.msg.payload i = c₂.msg.payload i) :
    c₁.published = c₂.published ↔
      (∀ num, c₁.msg.written A num = none →
        lastWritten A num (historyOf p.pgn pre₁) = lastWritten A num (historyOf p.pgn pre₂)) ∧
      unknowns A (historyOf p.pgn pre₁) = unknowns A (historyOf p.pgn pre₂) := by
  obtain ⟨hWritten, hUndefined⟩ := written_congr A hp₁ hp₂ hSame
  have hPub₁ := published_eq_stored A hrun₁ hc₁
  have hPub₂ := published_eq_stored A hrun₂ hc₂
  rw [hp₁] at hPub₁
  rw [hp₂] at hPub₂
  rw [hPub₁, hPub₂, stored_of_ne_nil A p.pgn (by simp), stored_of_ne_nil A p.pgn (by simp),
    ← overlayAll_concat_eq_iff A hWritten hUndefined]
  constructor
  · intro h
    have hSub := congrFun (congrArg CANMaster.sub h) p.pgn
    simpa using hSub
  · intro h
    rw [h]

/-- The message on the wind: SID 1, the speed `speed` in 1/100 m/s, the angle
not available and the reference apparent. -/
def windFrame (speed : BitVec 16) : CanFrame where
  canId := 0x95FD0215
  canDlc := 8
  data := #v[1, speed.setWidth 8, (speed >>> 8).setWidth 8, 0xFF, 0xFF, 2, 0xFF, 0xFF]
  dlc_le := by decide

/-- What the last call of a run was about and published. -/
def lastCall (fs : List CanFrame) : Option (Call ℚ) :=
  (run (iterate Arith.exact) (CanNode.init ℚ) fs).bind fun s => s.calls.getLast?

/-- The last call of a run. -/
theorem lastCall_eq_some {fs : List CanFrame} {c : Call ℚ} (h : lastCall fs = some c) :
    ∃ s pre, run (iterate Arith.exact) (CanNode.init ℚ) fs = some s ∧ s.calls = pre ++ [c] := by
  obtain ⟨s, hs, hLast⟩ := Option.bind_eq_some_iff.mp h
  exact ⟨s, s.calls.dropLast, hs, (List.dropLast_append_getLast? c hLast).symm⟩

/-- Two histories of wind messages that end with one whose speed is not
available: a run with that message alone, and one with a speed of 1 m/s before
it. The messages of the two last calls differ, as the second one still has the
speed. -/
theorem unavailable_speed_shows_last_one :
    ∃ c₁ c₂ : Call ℚ, lastCall [windFrame 0xFFFF] = some c₁ ∧
      lastCall [windFrame 100, windFrame 0xFFFF] = some c₂ ∧
      c₁.msg.pgn = c₂.msg.pgn ∧
      (∀ i < c₁.msg.pgn.payloadBytes, c₁.msg.payload i = c₂.msg.payload i) ∧
      (c₁.published.mutableMessage 130306).fields 2 = none ∧
      (c₂.published.mutableMessage 130306).fields 2 = some (.real 1) ∧
      c₁.published ≠ c₂.published := by
  have h₁ : (lastCall [windFrame 0xFFFF]).map (fun c => (c.msg.pgn.pgn, c.msg.pgn.payloadBytes,
      (List.range 6).map c.msg.payload, (c.published.mutableMessage 130306).fields 2)) =
      some (130306, 6, [1, 0xFF, 0xFF, 0xFF, 0xFF, 2], none) := by decide +kernel
  have h₂ : (lastCall [windFrame 100, windFrame 0xFFFF]).map (fun c => (c.msg.pgn.pgn,
      c.msg.pgn.payloadBytes, (List.range 6).map c.msg.payload,
      (c.published.mutableMessage 130306).fields 2)) =
      some (130306, 6, [1, 0xFF, 0xFF, 0xFF, 0xFF, 2], some (.real 1)) := by decide +kernel
  obtain ⟨c₁, hc₁, hv₁⟩ := Option.map_eq_some_iff.mp h₁
  obtain ⟨c₂, hc₂, hv₂⟩ := Option.map_eq_some_iff.mp h₂
  simp only [Prod.mk.injEq] at hv₁ hv₂
  obtain ⟨hPgn₁, hBytes₁, hData₁, hSpeed₁⟩ := hv₁
  obtain ⟨hPgn₂, hBytes₂, hData₂, hSpeed₂⟩ := hv₂
  refine ⟨c₁, c₂, hc₁, hc₂, pgn_injective c₁.msg.pgn_mem c₂.msg.pgn_mem (hPgn₁.trans hPgn₂.symm),
    fun i hi => ?_, hSpeed₁, hSpeed₂, fun hEq => ?_⟩
  · rw [hBytes₁] at hi
    exact List.map_inj_left.mp (hData₁.trans hData₂.symm) i (List.mem_range.mpr hi)
  · rw [hEq, hSpeed₂] at hSpeed₁
    cases hSpeed₁

/-- Two runs that both end with a wind message of 1 m/s. -/
theorem published_eq_iff_wind :
    ∃ c₁ c₂ : Call ℚ, ∃ pre₁ pre₂, lastCall [windFrame 100] = some c₁ ∧
      lastCall [windFrame 200, windFrame 100] = some c₂ ∧
      (c₁.published = c₂.published ↔
        (∀ num, c₁.msg.written Arith.exact num = none →
          lastWritten Arith.exact num (historyOf c₁.msg.pgn.pgn pre₁) =
            lastWritten Arith.exact num (historyOf c₁.msg.pgn.pgn pre₂)) ∧
        unknowns Arith.exact (historyOf c₁.msg.pgn.pgn pre₁) =
          unknowns Arith.exact (historyOf c₁.msg.pgn.pgn pre₂)) := by
  have h₁ : (lastCall [windFrame 100]).map (fun c => (c.msg.pgn.pgn, c.msg.pgn.payloadBytes,
      (List.range 6).map c.msg.payload)) =
      some (130306, 6, [1, 100, 0, 0xFF, 0xFF, 2]) := by decide +kernel
  have h₂ : (lastCall [windFrame 200, windFrame 100]).map (fun c => (c.msg.pgn.pgn,
      c.msg.pgn.payloadBytes, (List.range 6).map c.msg.payload)) =
      some (130306, 6, [1, 100, 0, 0xFF, 0xFF, 2]) := by decide +kernel
  obtain ⟨c₁, hc₁, hv₁⟩ := Option.map_eq_some_iff.mp h₁
  obtain ⟨c₂, hc₂, hv₂⟩ := Option.map_eq_some_iff.mp h₂
  simp only [Prod.mk.injEq] at hv₁ hv₂
  obtain ⟨hPgn₁, hBytes₁, hData₁⟩ := hv₁
  obtain ⟨hPgn₂, hBytes₂, hData₂⟩ := hv₂
  obtain ⟨s₁, pre₁, hrun₁, hcalls₁⟩ := lastCall_eq_some hc₁
  obtain ⟨s₂, pre₂, hrun₂, hcalls₂⟩ := lastCall_eq_some hc₂
  have hp₂ : c₂.msg.pgn = c₁.msg.pgn :=
    pgn_injective c₂.msg.pgn_mem c₁.msg.pgn_mem (hPgn₂.trans hPgn₁.symm)
  refine ⟨c₁, c₂, pre₁, pre₂, hc₁, hc₂,
    published_eq_iff Arith.exact hrun₁ hrun₂ hcalls₁ hcalls₂ rfl hp₂ fun i hi => ?_⟩
  rw [hBytes₁] at hi
  exact List.map_inj_left.mp (hData₁.trans hData₂.symm) i (List.mem_range.mpr hi)

end Sailbot.Can
