import Mathlib.Algebra.Group.Nat.Defs
import Mathlib.Tactic.Common

/-!
# CAN identifiers

`can/pgn.h` and `can/pgn.cc`. A CAN id is a 32-bit number whose bits are those
of the packed structure `CANID`; the compiler lays bit-fields out from the least
significant bit, so the structure is the concatenation of its fields with the
last one in the highest bits.

The PGN of a message is spread over three of the fields: `DP`, `PF` and, from
`PF = 240` on, `PS`, which is a destination address otherwise.
-/

namespace Sailbot.Can

structure CANID where
  source   : BitVec 8
  PS       : BitVec 8
  PF       : BitVec 8
  DP       : BitVec 1
  reserved : BitVec 1
  priority : BitVec 3
  unused   : BitVec 2
  effIdent : BitVec 1
  deriving DecidableEq, Repr

/-- The constructor: it leaves the other fields of `id` as they happen to be. -/
def CANID.new (id : CANID) : CANID := { id with reserved := 0, unused := 0, effIdent := 1 }

/-- The cast of a `CANID` to a number. -/
def constructID (id : CANID) : BitVec 32 :=
  id.effIdent ++ id.unused ++ id.priority ++ id.reserved ++ id.DP ++ id.PF ++ id.PS ++ id.source

/-- The cast of a number to a `CANID`. -/
def retrieveID (rawId : BitVec 32) : CANID where
  source   := rawId.extractLsb' 0 8
  PS       := rawId.extractLsb' 8 8
  PF       := rawId.extractLsb' 16 8
  DP       := rawId.extractLsb' 24 1
  reserved := rawId.extractLsb' 25 1
  priority := rawId.extractLsb' 26 3
  unused   := rawId.extractLsb' 29 2
  effIdent := rawId.extractLsb' 31 1

def getPGN (id : CANID) : Nat :=
  id.DP.toNat <<< 16 + id.PF.toNat <<< 8 + (if id.PF.toNat < 240 then 0 else id.PS.toNat)

def setPGN (id : CANID) (pgn : Nat) : CANID :=
  let low := BitVec.ofNat 8 pgn
  let id := { id with PF := BitVec.ofNat 8 (pgn >>> 8), DP := BitVec.ofNat 1 (pgn >>> 8 >>> 8) }
  if id.PF.toNat ≥ 240 then { id with PS := low } else id

/-- The two casts are inverse to each other. -/
theorem retrieveID_constructID (id : CANID) : retrieveID (constructID id) = id := by
  obtain ⟨source, PS, PF, DP, reserved, priority, unused, effIdent⟩ := id
  simp only [retrieveID, constructID, CANID.mk.injEq]
  refine ⟨?_, ?_, ?_, ?_, ?_, ?_, ?_, ?_⟩ <;>
  · apply BitVec.eq_of_getLsbD_eq
    intro i hi
    simp only [BitVec.getLsbD_extractLsb', BitVec.getLsbD_append, hi, decide_true, Bool.true_and]
    grind

/-- A PGN of 17 bits that leaves no room for a destination address survives the
way into a CAN id and back. -/
theorem getPGN_setPGN (id : CANID) {pgn : Nat} (hBits : pgn < 2 ^ 17)
    (hBroadcast : 240 ≤ pgn / 256 % 256) : getPGN (setPGN id pgn) = pgn := by
  have hPF : (BitVec.ofNat 8 (pgn >>> 8)).toNat = pgn / 256 % 256 := by
    rw [BitVec.toNat_ofNat, Nat.shiftRight_eq_div_pow]
  have hDP : (BitVec.ofNat 1 (pgn >>> 8 >>> 8)).toNat = pgn / 65536 := by
    rw [BitVec.toNat_ofNat, Nat.shiftRight_eq_div_pow, Nat.shiftRight_eq_div_pow]
    omega
  have hPS : (BitVec.ofNat 8 pgn).toNat = pgn % 256 := BitVec.toNat_ofNat pgn 8
  have hNot : ¬ pgn / 256 % 256 < 240 := by omega
  simp only [setPGN, getPGN, hPF, ge_iff_le, hBroadcast, if_true, hDP, hPS, hNot, if_false,
    Nat.shiftLeft_eq]
  omega

end Sailbot.Can
