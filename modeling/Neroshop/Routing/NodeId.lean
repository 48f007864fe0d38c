import Mathlib.Tactic.Ring
import Neroshop.Foundation.CommonFront
import Neroshop.Json

/-!
# Node ids and their distance

An id is 32 bytes, read from a hexadecimal string.  `xorDistanceBitIndex`
walks two ids bytewise; on their bits it is the length of the common front.
-/

namespace Neroshop.Routing

open Neroshop.Foundation

structure XorId where
  bytes : List UInt8
  size : bytes.length = 32
  deriving DecidableEq

/-- The bytes of a `std::string`. -/
def chars (text : String) : List UInt8 := text.toUTF8.data.toList

def hexCharToByte (c : UInt8) : Except Fault UInt8 :=
  if 48 ≤ c ∧ c ≤ 57 then .ok (c - 48)
  else if 97 ≤ c ∧ c ≤ 102 then .ok (10 + (c - 97))
  else if 65 ≤ c ∧ c ≤ 70 then .ok (10 + (c - 65))
  else .error .invalidArgument

/-- A pair that cannot be read is logged, and its byte stays as it was. -/
def readPairs : List UInt8 → List UInt8 → List UInt8
  | byte :: bytes, high :: low :: digits =>
      (match hexCharToByte high, hexCharToByte low with
        | .ok first, .ok second => (first <<< 4) ||| second
        | _, _ => byte) :: readPairs bytes digits
  | bytes, _ => bytes

theorem length_readPairs (bytes digits : List UInt8) :
    (readPairs bytes digits).length = bytes.length := by
  fun_induction readPairs bytes digits with
  | case1 byte bytes high low digits ih => simp [ih]
  | case2 => rfl

/-- The array that is filled starts out with `uninitialized` contents. -/
def hexStringToNodeId (uninitialized : XorId) (hex : String) :
    Except Fault XorId :=
  if (chars hex).length ≠ 64 then .error .invalidArgument
  else .ok ⟨readPairs uninitialized.bytes (chars hex), by
    rw [length_readPairs, uninitialized.size]⟩

/-- Index from the left of the highest bit, or -1 where there is none. -/
def msbIndexFromLeft (byte : UInt8) : Int :=
  if byte = 0 then -1
  else
    match (List.range 8).find? fun i =>
        byte &&& (1 <<< UInt8.ofNat (7 - i)) ≠ 0 with
    | some i => i
    | none => -1

def xorDistanceFrom : Nat → List UInt8 → List UInt8 → Nat
  | i, first :: firsts, second :: seconds =>
      if first ^^^ second ≠ 0
      then (i * 8 + msbIndexFromLeft (first ^^^ second)).toNat
      else xorDistanceFrom (i + 1) firsts seconds
  | i, _, _ => i * 8

def xorDistanceBitIndex (first second : XorId) : Nat :=
  xorDistanceFrom 0 first.bytes second.bytes

def byteBits (byte : UInt8) : List Bool :=
  (List.range 8).map fun i => byte.toNat.testBit (7 - i)

/-- The 256 bits of an id, the highest first. -/
def XorId.bits (id : XorId) : List Bool := id.bytes.flatMap byteBits

/-! ## The distance on bits -/

@[simp] theorem length_byteBits (byte : UInt8) : (byteBits byte).length = 8 := by
  simp [byteBits]

theorem length_flatMap_byteBits (bytes : List UInt8) :
    (bytes.flatMap byteBits).length = bytes.length * 8 := by
  simp [List.length_flatMap]

theorem length_bits (id : XorId) : id.bits.length = 256 := by
  rw [XorId.bits, length_flatMap_byteBits, id.size]

theorem msbIndexFromLeft_eq (byte : UInt8) (hne : byte ≠ 0) :
    msbIndexFromLeft byte = (byteBits byte).findIdx id := by
  have hall : ∀ n : Fin 256, UInt8.ofNat n ≠ 0 →
      msbIndexFromLeft (UInt8.ofNat n) =
        (byteBits (UInt8.ofNat n)).findIdx id := by
    decide +kernel
  have hbyte := hall ⟨byte.toNat, byte.toNat_lt⟩
  simp only [UInt8.ofNat_toNat] at hbyte
  exact hbyte hne

theorem byteBits_xor (first second : UInt8) :
    byteBits (first ^^^ second) =
      List.zipWith (fun a b => decide (a ≠ b)) (byteBits first)
        (byteBits second) := by
  simp only [byteBits, UInt8.toNat_xor, Nat.testBit_xor, List.zipWith_map,
    List.zipWith_self]
  refine List.map_congr_left fun i _ => ?_
  cases first.toNat.testBit (7 - i) <;> cases second.toNat.testBit (7 - i) <;>
    rfl

theorem byteBits_inj {first second : UInt8} :
    byteBits first = byteBits second ↔ first = second := by
  refine ⟨fun h => ?_, fun h => h ▸ rfl⟩
  refine UInt8.toNat_inj.mp (Nat.eq_of_testBit_eq fun i => ?_)
  by_cases hi : i < 8
  · have hget := congrArg (fun bits => bits[7 - i]?) h
    simpa [byteBits, show 7 - i < 8 by omega, show 7 - (7 - i) = i by omega]
      using hget
  · have hsmall (byte : UInt8) : byte.toNat < 2 ^ i :=
      lt_of_lt_of_le byte.toNat_lt (Nat.pow_le_pow_right (by omega) (by omega))
    rw [Nat.testBit_lt_two_pow (hsmall first),
      Nat.testBit_lt_two_pow (hsmall second)]

theorem flatMap_byteBits_inj {firsts seconds : List UInt8}
    (h : firsts.flatMap byteBits = seconds.flatMap byteBits) :
    firsts = seconds := by
  induction firsts generalizing seconds with
  | nil =>
      have hlength := congrArg List.length h
      rw [length_flatMap_byteBits, length_flatMap_byteBits] at hlength
      exact (List.length_eq_zero_iff.mp (by simpa using hlength.symm)).symm
  | cons first firsts ih =>
      cases seconds with
      | nil =>
          have hlength := congrArg List.length h
          rw [length_flatMap_byteBits, length_flatMap_byteBits] at hlength
          simp at hlength
      | cons second seconds =>
          rw [List.flatMap_cons, List.flatMap_cons] at h
          obtain ⟨hhead, htail⟩ := List.append_inj h (by simp)
          rw [byteBits_inj.mp hhead, ih htail]

theorem bits_inj {first second : XorId} :
    first.bits = second.bits ↔ first = second := by
  refine ⟨fun h => ?_, fun h => h ▸ rfl⟩
  obtain ⟨bytes, hsize⟩ := first
  obtain ⟨bytes', hsize'⟩ := second
  have hbytes : bytes = bytes' := flatMap_byteBits_inj h
  subst hbytes
  rfl

theorem xorDistanceFrom_eq (i : Nat) {firsts seconds : List UInt8}
    (hlength : firsts.length = seconds.length) :
    xorDistanceFrom i firsts seconds =
      i * 8 + commonFront (firsts.flatMap byteBits)
        (seconds.flatMap byteBits) := by
  induction firsts generalizing i seconds with
  | nil =>
      have hnil : seconds = [] := List.length_eq_zero_iff.mp hlength.symm
      simp [hnil, xorDistanceFrom]
  | cons first firsts ih =>
      cases seconds with
      | nil => simp at hlength
      | cons second seconds =>
          have hxor : first ^^^ second = 0 ↔ first = second := by
            rw [UInt8.xor_eq_zero_iff]
          rw [xorDistanceFrom, List.flatMap_cons, List.flatMap_cons,
            commonFront_append (by simp)]
          by_cases heq : first = second
          · rw [if_neg (by simpa using hxor.mpr heq),
              if_pos (byteBits_inj.mpr heq), ih (i + 1) (by simpa using hlength),
              length_byteBits]
            ring
          · have hne : first ^^^ second ≠ 0 := fun h => heq (hxor.mp h)
            rw [if_pos hne, if_neg (fun h => heq (byteBits_inj.mp h)),
              msbIndexFromLeft_eq _ hne,
              byteBits_xor, ← commonFront_eq_findIdx _ _ (by simp)]
            omega

/-- The distance is the number of leading bits on which two ids agree. -/
theorem xorDistanceBitIndex_eq (first second : XorId) :
    xorDistanceBitIndex first second =
      commonFront first.bits second.bits := by
  rw [xorDistanceBitIndex,
    xorDistanceFrom_eq 0 (first.size.trans second.size.symm), zero_mul,
    zero_add]
  rfl

theorem xorDistanceBitIndex_le (first second : XorId) :
    xorDistanceBitIndex first second ≤ 256 := by
  rw [xorDistanceBitIndex_eq, ← length_bits first]
  exact commonFront_le_length _ _

theorem xorDistanceBitIndex_eq_size {first second : XorId} :
    xorDistanceBitIndex first second = 256 ↔ first = second := by
  rw [xorDistanceBitIndex_eq]
  constructor
  · intro h
    refine bits_inj.mp (eq_of_commonFront_eq ?_ ?_)
    · rw [length_bits, length_bits]
    · rw [h, length_bits]
  · rintro rfl
    rw [commonFront_self, length_bits]

theorem xorDistanceBitIndex_lt {first second : XorId} (hne : second ≠ first) :
    xorDistanceBitIndex first second < 256 :=
  lt_of_le_of_ne (xorDistanceBitIndex_le _ _)
    fun heq => hne (xorDistanceBitIndex_eq_size.mp heq).symm

/-- Different ids differ first at the bit that is their distance. -/
theorem differsFirstAt_distance {first second : XorId} (hne : first ≠ second) :
    DiffersFirstAt first.bits second.bits
      (xorDistanceBitIndex first second) := by
  rw [xorDistanceBitIndex_eq]
  exact differsFirstAt_commonFront
    (by rw [length_bits, length_bits]) (fun h => hne (bits_inj.mp h))

/-! ## Hexadecimal ids -/

def isHexDigit (c : UInt8) : Bool :=
  match hexCharToByte c with
  | .ok _ => true
  | .error _ => false

structure NodeIdHex where
  text : String
  length : (chars text).length = 64
  digits : ∀ c ∈ chars text, isHexDigit c = true

theorem NodeIdHex.ext {first second : NodeIdHex}
    (h : first.text = second.text) : first = second := by
  cases first
  cases second
  simp_all

theorem readPairs_congr {bytes bytes' digits : List UInt8}
    (hlength : bytes.length = bytes'.length)
    (hdigits : digits.length = 2 * bytes.length)
    (hhex : ∀ c ∈ digits, isHexDigit c = true) :
    readPairs bytes digits = readPairs bytes' digits := by
  induction bytes generalizing bytes' digits with
  | nil => rw [List.length_eq_zero_iff.mp hlength.symm]
  | cons byte bytes ih =>
      cases bytes' with
      | nil => simp at hlength
      | cons byte' bytes' =>
          match digits, hdigits, hhex with
          | high :: low :: digits, hdigits, hhex =>
              have hdigits' : digits.length = 2 * bytes.length := by
                simp only [List.length_cons] at hdigits
                omega
              have hlength' : bytes.length = bytes'.length := by
                simpa using hlength
              have hrest := ih hlength' hdigits'
                (fun c hc => hhex c (by simp [hc]))
              have hhigh := hhex high (by simp)
              have hlow := hhex low (by simp)
              rw [readPairs, readPairs, hrest]
              unfold isHexDigit at hhigh hlow
              cases hfirst : hexCharToByte high with
              | error => simp [hfirst] at hhigh
              | ok first =>
                  cases hsecond : hexCharToByte low with
                  | error => simp [hsecond] at hlow
                  | ok second => rfl
          | [_], hdigits, _ => simp at hdigits; omega
          | [], hdigits, _ => simp at hdigits

def XorId.zero : XorId := ⟨List.replicate 32 0, by simp⟩

theorem XorId.exists_other (id : XorId) : ∃ other, id ≠ other := by
  by_cases hzero : id = .zero
  · exact ⟨⟨List.replicate 32 1, by simp⟩, by rw [hzero]; decide⟩
  · exact ⟨.zero, hzero⟩

def NodeIdHex.xorId (hex : NodeIdHex) : XorId :=
  ⟨readPairs XorId.zero.bytes (chars hex.text), by
    rw [length_readPairs, XorId.zero.size]⟩

theorem hexStringToNodeId_text (uninitialized : XorId) (hex : NodeIdHex) :
    hexStringToNodeId uninitialized hex.text = .ok hex.xorId := by
  rw [hexStringToNodeId, if_neg (not_not.mpr hex.length)]
  congr 2
  exact readPairs_congr (uninitialized.size.trans XorId.zero.size.symm)
    (by rw [hex.length, uninitialized.size]) hex.digits

end Neroshop.Routing
