import Neroshop.Routing.HexText
import Neroshop.Routing.Table
import Neroshop.Routing.Ultrametric

/-!
# Refreshing a bucket

`refresh` looks up a random id in the range of a bucket that has not changed
for an hour.  `generate_random_node_id` makes it from the own id by flipping
the bit of the bucket and, at random, the bits behind it.
-/

namespace Neroshop.Routing

open Neroshop.Foundation

/-! ## A random id -/

/-- `result[i / 8] ^= (1 << (7 - i % 8))`. -/
def XorId.flipBit (id : XorId) (i : Nat) : XorId where
  bytes := id.bytes.modify (i / 8) fun byte =>
    byte ^^^ (1 <<< UInt8.ofNat (7 - i % 8))
  size := by rw [List.length_modify, id.size]

/-- One round of the loop; `draws` are the outcomes of `dist(gen)`. -/
def XorId.drawBit (draws : Nat → Bool) (id : XorId) (i : Nat) : XorId :=
  if draws i then id.flipBit i else id

namespace RoutingTable

def generateRandomNodeId (table : RoutingTable) (bucketIndex : Int)
    (draws : Nat → Bool) : Except Fault XorId :=
  if bucketIndex < 0 ∨ 256 ≤ bucketIndex then .error .invalidArgument
  else
    let i := bucketIndex.toNat
    .ok ((List.range' (i + 1) (255 - i)).foldl (XorId.drawBit draws)
      (table.id.flipBit i))

def generateRandomHexString (table : RoutingTable) (bucketIndex : Int)
    (draws : Nat → Bool) : Except Fault String := do
  return nodeIdToHexString (← table.generateRandomNodeId bucketIndex draws)

/-- `std::chrono::hours(1)`, in ticks of the steady clock. -/
def oneHour : Int := 3600 * 10 ^ 9

/--
The id that `refresh` looks up for a bucket, where it does not skip it.
`last_changed` is the smallest time point until a node has been added.
-/
def refreshTarget (table : RoutingTable) (lastChanged : Option Int)
    (now : Int) (i : Fin 256) (draws : Nat → Bool) :
    Except Fault (Option String) :=
  match lastChanged with
  | none => .ok none
  | some changed =>
      if (table.buckets i).isEmpty then .ok none
      else if now - changed < oneHour then .ok none
      else do return some (← table.generateRandomHexString i draws)

end RoutingTable

/-! ## The bits that are flipped -/

theorem getElem?_flatMap_byteBits (bytes : List UInt8) (k : Nat) :
    (bytes.flatMap byteBits)[k]? =
      bytes[k / 8]?.bind fun byte => (byteBits byte)[k % 8]? := by
  induction bytes generalizing k with
  | nil => simp
  | cons byte bytes ih =>
      rw [List.flatMap_cons]
      by_cases hk : k < 8
      · rw [List.getElem?_append_left (by simpa using hk),
          Nat.div_eq_of_lt hk, Nat.mod_eq_of_lt hk]
        rfl
      · have hdiv : k / 8 = (k - 8) / 8 + 1 := by omega
        have hmod : k % 8 = (k - 8) % 8 := by omega
        rw [List.getElem?_append_right (by simpa using hk), length_byteBits, ih,
          hdiv, hmod, List.getElem?_cons_succ]

theorem byteBits_shift {r : Nat} (h : r < 8) :
    byteBits (1 <<< UInt8.ofNat (7 - r)) =
      (List.range 8).map fun j => decide (j = r) := by
  have hall : ∀ r : Fin 8, byteBits (1 <<< UInt8.ofNat (7 - r)) =
      (List.range 8).map fun j => decide (j = r.val) := by
    decide
  exact hall ⟨r, h⟩

theorem getElem?_byteBits_flip (byte : UInt8) {r : Nat} (hr : r < 8) (j : Nat) :
    (byteBits (byte ^^^ (1 <<< UInt8.ofNat (7 - r))))[j]? =
      (byteBits byte)[j]?.map fun bit => bit ^^ decide (j = r) := by
  rw [byteBits_xor, byteBits_shift hr, List.getElem?_zipWith]
  by_cases hj : j < 8
  · have hbit : j < (byteBits byte).length := by simpa using hj
    rw [List.getElem?_eq_getElem hbit, List.getElem?_map, List.getElem?_range hj]
    simp only [Option.map_some]
    cases (byteBits byte)[j] <;> simp
  · rw [List.getElem?_eq_none (by simpa using hj)]
    rfl

/-- Only the bit at that index is flipped. -/
theorem getElem?_bits_flipBit (id : XorId) (i k : Nat) :
    (id.flipBit i).bits[k]? =
      id.bits[k]?.map fun bit => bit ^^ decide (k = i) := by
  rw [XorId.bits, XorId.bits, getElem?_flatMap_byteBits,
    getElem?_flatMap_byteBits, XorId.flipBit, List.getElem?_modify]
  cases id.bytes[k / 8]? with
  | none => rfl
  | some byte =>
      rw [Option.map_eq_map, Option.map_some, Option.bind_some,
        Option.bind_some]
      by_cases hbyte : i / 8 = k / 8
      · have hsame : (k % 8 = i % 8) = (k = i) := propext (by omega)
        rw [if_pos hbyte, getElem?_byteBits_flip byte (Nat.mod_lt i (by omega))]
        simp only [hsame]
      · have hne : k ≠ i := by
          rintro rfl
          exact hbyte rfl
        rw [if_neg hbyte]
        simp [hne]

/-- Bits in front of all those that are drawn stay. -/
theorem getElem?_bits_foldl_drawBit {draws : Nat → Bool} {k : Nat}
    {positions : List Nat} (hk : ∀ i ∈ positions, k < i) (id : XorId) :
    (positions.foldl (XorId.drawBit draws) id).bits[k]? = id.bits[k]? := by
  induction positions generalizing id with
  | nil => rfl
  | cons i positions ih =>
      rw [List.forall_mem_cons] at hk
      rw [List.foldl_cons, ih hk.2, XorId.drawBit]
      split
      · rw [getElem?_bits_flipBit]
        simp [Nat.ne_of_lt hk.1]
      · rfl

/-! ## The range of a bucket -/

section Range

variable {table : RoutingTable} {i : Fin 256}

theorem generateRandomNodeId_returns (table : RoutingTable) (i : Fin 256)
    (draws : Nat → Bool) :
    ∃ random, table.generateRandomNodeId i draws = .ok random ∧
      ∀ k ≤ i.val, random.bits[k]? =
        table.id.bits[k]?.map fun bit => bit ^^ decide (k = i) := by
  have hrange : ¬ ((i.val : Int) < 0 ∨ 256 ≤ (i.val : Int)) := by omega
  refine ⟨_, if_neg hrange, fun k hk => ?_⟩
  rw [Int.toNat_natCast, getElem?_bits_foldl_drawBit, getElem?_bits_flipBit]
  intro position hposition
  have hle := (List.mem_range'_1.mp hposition).1
  omega

theorem differsFirstAt_random {random : XorId}
    (hbits : ∀ k ≤ i.val, random.bits[k]? =
      table.id.bits[k]?.map fun bit => bit ^^ decide (k = i)) :
    DiffersFirstAt table.id.bits random.bits i := by
  constructor
  · refine List.ext_getElem? fun k => ?_
    rw [List.getElem?_take, List.getElem?_take]
    split
    · next hk =>
        rw [hbits k hk.le]
        simp [Nat.ne_of_lt hk]
    · rfl
  · have hlength : i.val < table.id.bits.length := by
      rw [length_bits]
      exact i.isLt
    rw [hbits i le_rfl, List.getElem?_eq_getElem hlength]
    cases table.id.bits[i.val] <;> simp

/-- The range of a bucket is what is closer than its index to any id in it. -/
theorem lt_distance_iff {own random other : XorId}
    (hrandom : xorDistanceBitIndex own random = i) :
    i.val < xorDistanceBitIndex random other ↔
      xorDistanceBitIndex own other = i := by
  have hne : own ≠ random := by
    rintro rfl
    rw [xorDistanceBitIndex_eq_size.mpr rfl] at hrandom
    have hi := i.isLt
    omega
  constructor
  · intro hlt
    rw [← hrandom] at hlt ⊢
    rw [xorDistanceBitIndex_eq_min (Nat.ne_of_lt hlt)]
    omega
  · intro hother
    rw [← hrandom]
    exact lt_xorDistanceBitIndex hne (hother.trans hrandom.symm)

end Range

/--
The random id differs from the own one first at the bit of the bucket, and for
a bucket that is stale it is what `refresh` looks up.
-/
theorem refresh_targets_bucket (uninitialized : XorId) (table : RoutingTable)
    (i : Fin 256) (draws : Nat → Bool) :
    ∃ random, table.generateRandomNodeId i draws = .ok random ∧
      DiffersFirstAt table.id.bits random.bits i ∧
      xorDistanceBitIndex table.id random = i ∧
      ∀ changed now, table.buckets i ≠ [] →
        RoutingTable.oneHour ≤ now - changed →
        ∃ target, table.refreshTarget (some changed) now i draws =
            .ok (some target) ∧
          hexStringToNodeId uninitialized target = .ok random := by
  obtain ⟨random, hrandom, hbits⟩ :=
    generateRandomNodeId_returns table i draws
  have hdiffers := differsFirstAt_random hbits
  refine ⟨random, hrandom, hdiffers, ?_, fun changed now hbucket hstale => ?_⟩
  · rw [xorDistanceBitIndex_eq]
    exact commonFront_of_differsFirstAt hdiffers
  · refine ⟨nodeIdToHexString random, ?_, readNodeId_printed _ random⟩
    have hempty : ¬ (table.buckets i).isEmpty = true := by
      simpa using hbucket
    rw [RoutingTable.refreshTarget, if_neg hempty,
      if_neg (Int.not_lt.mpr hstale), RoutingTable.generateRandomHexString,
      hrandom]
    rfl

end Neroshop.Routing
