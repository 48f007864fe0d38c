import Neroshop.Foundation.BitGroups
import Neroshop.Routing.NodeId

/-!
# The base32 text of an I2P address

`base32_i2p_encode` shifts every byte into an `int` that it never masks, and
takes five bits at a time from the low end of it.  The bits above them are those
of earlier bytes, until they are shifted out.
-/

namespace Neroshop.Network

open Neroshop.Foundation Neroshop.Routing

/-- The lower-case base32 alphabet. -/
def alphabet : List Char := "abcdefghijklmnopqrstuvwxyz234567".toList

theorem masked_lt (value : BitVec 32) :
    (value &&& 31).toNat < alphabet.length := by
  have hle : (value &&& 31).toNat ≤ 31 := by
    rw [BitVec.toNat_and]
    exact Nat.and_le_right
  exact Nat.lt_of_le_of_lt hle (by decide)

/-- `alphabet[value & 31]`. -/
def letter (value : BitVec 32) : Char :=
  alphabet.get ⟨(value &&& 31).toNat, masked_lt value⟩

/-- The inner loop, and how many bits it leaves. -/
def takeLetters (value : BitVec 32) (bits : Nat) (result : List Char) :
    Nat × List Char :=
  if 5 ≤ bits then
    takeLetters value (bits - 5)
      (result ++ [letter (value.sshiftRight (bits - 5))])
  else (bits, result)
termination_by bits

/-- The loop over the bytes, and the letter that is filled up behind it. -/
def encodeFrom (value : BitVec 32) (bits : Nat) (result : List Char) :
    List UInt8 → List Char
  | [] =>
      if 0 < bits then result ++ [letter (value <<< (5 - bits))] else result
  | byte :: data =>
      let value := (value <<< 8) ||| byte.toBitVec.setWidth 32
      let (bits, result) := takeLetters value (bits + 8) result
      encodeFrom value bits result data

def base32I2pEncode (data : List UInt8) : List Char := encodeFrom 0 0 [] data

/-! ## What the text should be -/

/-- The character of a group of five bits. -/
def groupLetter (group : List Bool) : Char :=
  letter (BitVec.ofNat 32 (numberOf group))

/-! ## The accumulator -/

/-- The low bits of the accumulator are those that no letter has been made of. -/
def Holds (value : BitVec 32) (pending : List Bool) : Prop :=
  value.toNat % 2 ^ pending.length = numberOf pending

section Accumulator

variable {value : BitVec 32} {pending : List Bool}

theorem numberOf_byteBits (byte : UInt8) :
    numberOf (byteBits byte) = byte.toNat := by
  have hall : ∀ n : Fin 256,
      numberOf (byteBits (UInt8.ofNat n)) = (UInt8.ofNat n).toNat := by
    decide +kernel
  have hbyte := hall ⟨byte.toNat, byte.toNat_lt⟩
  simpa only [UInt8.ofNat_toNat] using hbyte

theorem toNat_shifted (value : BitVec 32) (byte : UInt8) :
    ((value <<< 8) ||| byte.toBitVec.setWidth 32).toNat =
      (value.toNat * 256 + byte.toNat) % 2 ^ 32 := by
  have hbyte := byte.toNat_lt
  have hlow : (byte.toBitVec.setWidth 32).toNat = byte.toNat := by
    rw [BitVec.toNat_setWidth, UInt8.toNat_toBitVec]
    exact Nat.mod_eq_of_lt (by omega)
  have hhigh : (value <<< 8).toNat = (value.toNat % 2 ^ 24) <<< 8 := by
    rw [BitVec.toNat_shiftLeft, Nat.shiftLeft_eq, Nat.shiftLeft_eq]
    omega
  rw [BitVec.toNat_or, hlow, hhigh, ← Nat.shiftLeft_add_eq_or_of_lt hbyte,
    Nat.shiftLeft_eq]
  omega

/-- A byte is shifted in; what is shifted out was no longer held. -/
theorem Holds.shift (h : Holds value pending) (hfits : pending.length ≤ 24)
    (byte : UInt8) :
    Holds ((value <<< 8) ||| byte.toBitVec.setWidth 32)
      (pending ++ byteBits byte) := by
  have hpow : 2 ^ pending.length * 2 ^ 8 ∣ 2 ^ 32 := by
    rw [← pow_add]
    exact pow_dvd_pow 2 (by omega)
  have hbyte := byte.toNat_lt
  rw [Holds, toNat_shifted, List.length_append, length_byteBits, pow_add,
    Nat.mod_mod_of_dvd _ hpow, numberOf_append, numberOf_byteBits,
    length_byteBits, ← h]
  change (value.toNat * 256 + byte.toNat) % (2 ^ pending.length * 256) =
    value.toNat % 2 ^ pending.length * 256 + byte.toNat
  have hquotient : (value.toNat * 256 + byte.toNat) / 256 = value.toNat := by
    omega
  rw [Nat.mul_comm (2 ^ pending.length), Nat.mod_mul, hquotient]
  omega

theorem Holds.drop (h : Holds value pending) (count : Nat) :
    Holds value (pending.drop count) := by
  have hpow : 2 ^ (pending.length - count) ∣ 2 ^ pending.length :=
    pow_dvd_pow 2 (Nat.sub_le _ _)
  rw [Holds, List.length_drop, numberOf_drop, ← h, Nat.mod_mod_of_dvd _ hpow]

theorem letter_congr {first second : BitVec 32}
    (h : first.toNat % 32 = second.toNat % 32) : letter first = letter second := by
  have hmask (value : BitVec 32) : (value &&& 31).toNat = value.toNat % 32 := by
    rw [BitVec.toNat_and]
    exact Nat.and_two_pow_sub_one_eq_mod value.toNat 5
  rw [letter, letter]
  congr 2
  rw [hmask, hmask, h]

/-- The sign of the accumulator is not among the bits that are taken. -/
theorem toNat_sshiftRight_mod {count : Nat} (hcount : count ≤ 27) :
    (value.sshiftRight count).toNat % 32 = value.toNat / 2 ^ count % 32 := by
  have hmask (number : Nat) : number % 32 = number &&& 31 :=
    (Nat.and_two_pow_sub_one_eq_mod number 5).symm
  refine Nat.eq_of_testBit_eq fun i => ?_
  rw [hmask, hmask, Nat.testBit_and, Nat.testBit_and, Nat.testBit_div_two_pow]
  by_cases hi : i < 5
  · have hshift : (value.sshiftRight count).toNat.testBit i =
        value.toNat.testBit (count + i) := by
      change (value.sshiftRight count).getLsbD i = value.getLsbD (count + i)
      rw [BitVec.getLsbD_sshiftRight]
      simp [show ¬ 32 ≤ i by omega, show count + i < 32 by omega]
    rw [hshift, Nat.add_comm]
  · have hzero : Nat.testBit 31 i = false :=
      Nat.testBit_lt_two_pow
        (lt_of_lt_of_le (by decide) (Nat.pow_le_pow_right (by decide)
          (Nat.not_lt.mp hi)))
    rw [hzero, Bool.and_false, Bool.and_false]

theorem Holds.letter_take (h : Holds value pending) (hfive : 5 ≤ pending.length)
    (hfits : pending.length ≤ 32) :
    letter (value.sshiftRight (pending.length - 5)) =
      groupLetter (pending.take 5) := by
  have hlt := numberOf_lt (pending.take 5)
  rw [List.length_take, Nat.min_eq_left hfive] at hlt
  have hgroup : numberOf (pending.take 5) % 32 = numberOf (pending.take 5) :=
    Nat.mod_eq_of_lt hlt
  refine letter_congr ?_
  rw [toNat_sshiftRight_mod (by omega), BitVec.toNat_ofNat,
    Nat.mod_mod_of_dvd _ (by decide), hgroup, numberOf_take, ← h]
  have hpow : 2 ^ pending.length = 2 ^ (pending.length - 5) * 2 ^ 5 := by
    rw [← pow_add, Nat.sub_add_cancel hfive]
  rw [hpow, Nat.mod_mul, Nat.add_comm, Nat.mul_add_div (Nat.two_pow_pos _),
    Nat.div_eq_of_lt (Nat.mod_lt _ (Nat.two_pow_pos _)), Nat.add_zero]
  rfl

theorem Holds.letter_last (h : Holds value pending)
    (hfive : pending.length < 5) :
    letter (value <<< (5 - pending.length)) =
      groupLetter (pending.rightpad 5 false) := by
  have hlt := numberOf_lt pending
  have hpow : 2 ^ pending.length * 2 ^ (5 - pending.length) = 32 := by
    rw [← pow_add, Nat.add_sub_cancel' hfive.le]
    rfl
  have hmod (number : Nat) : number * 2 ^ (5 - pending.length) % 32 =
      number % 2 ^ pending.length * 2 ^ (5 - pending.length) := by
    rw [← hpow, Nat.mul_mod_mul_right]
  refine letter_congr ?_
  rw [BitVec.toNat_shiftLeft, Nat.shiftLeft_eq, BitVec.toNat_ofNat,
    numberOf_rightpad, Nat.mod_mod_of_dvd _ (by decide),
    Nat.mod_mod_of_dvd _ (by decide), hmod, hmod, h, Nat.mod_eq_of_lt hlt]

end Accumulator

/-! ## The text -/

/-- The inner loop writes whole groups and leaves less than one. -/
theorem takeLetters_spec {value : BitVec 32} {pending : List Bool}
    (h : Holds value pending) (hfits : pending.length ≤ 32)
    (result : List Char) :
    ∃ rest after, takeLetters value pending.length result =
        (rest.length, after) ∧
      Holds value rest ∧ rest.length < 5 ∧
      ∀ more, result ++ (bitGroups 5 (pending ++ more)).map groupLetter =
        after ++ (bitGroups 5 (rest ++ more)).map groupLetter := by
  induction hlength : pending.length using Nat.strongRecOn
    generalizing pending result with
  | ind length ih =>
  subst hlength
  rw [takeLetters]
  by_cases hfive : 5 ≤ pending.length
  · have hdrop : (pending.drop 5).length = pending.length - 5 :=
      List.length_drop
    have hfront : (pending.take 5).length = 5 := by
      rw [List.length_take, Nat.min_eq_left hfive]
    obtain ⟨rest, after, hrun, hrest, hless, hafter⟩ :=
      ih (pending.drop 5).length (by omega) (h.drop 5) (by omega)
        (result ++ [letter (value.sshiftRight (pending.length - 5))]) rfl
    refine ⟨rest, after, ?_, hrest, hless, fun more => ?_⟩
    · rw [if_pos hfive, ← hdrop]
      exact hdrop ▸ hrun
    · rw [← hafter more, h.letter_take hfive hfits, List.append_assoc]
      have hsplit : pending ++ more =
          pending.take 5 ++ (pending.drop 5 ++ more) := by
        rw [← List.append_assoc, List.take_append_drop]
      rw [hsplit, bitGroups_append (by omega) hfront, List.map_cons,
        List.singleton_append]
  · exact ⟨pending, result, if_neg hfive, h, Nat.not_le.mp hfive, fun _ => rfl⟩

theorem encodeFrom_eq {value : BitVec 32} {pending : List Bool}
    (h : Holds value pending) (hless : pending.length < 5)
    (result : List Char) (data : List UInt8) :
    encodeFrom value pending.length result data =
      result ++ (bitGroups 5 (pending ++ data.flatMap byteBits)).map
        groupLetter := by
  induction data generalizing value pending result with
  | nil =>
      rw [encodeFrom, List.flatMap_nil, List.append_nil]
      by_cases hnil : pending = []
      · rw [hnil, List.length_nil, if_neg (Nat.lt_irrefl 0),
          bitGroups_nil (by omega), List.map_nil, List.append_nil]
      · rw [if_pos (List.length_pos_iff.mpr hnil), bitGroups_of_lt hless hnil,
          h.letter_last hless]
        rfl
  | cons byte data ih =>
      have hshift := h.shift (by omega) byte
      have hlength : (pending ++ byteBits byte).length = pending.length + 8 := by
        rw [List.length_append, length_byteBits]
      obtain ⟨rest, after, hrun, hrest, hrestLess, hafter⟩ :=
        takeLetters_spec hshift (by omega) result
      rw [hlength] at hrun
      rw [encodeFrom]
      simp only [hrun]
      rw [ih hrest hrestLess after, ← hafter, List.flatMap_cons,
        List.append_assoc]

theorem base32I2pEncode_eq (data : List UInt8) :
    base32I2pEncode data =
      (bitGroups 5 (data.flatMap byteBits)).map groupLetter := by
  have hstart : Holds 0 [] := rfl
  exact encodeFrom_eq hstart (by decide) [] data

/-- The number of a group is the place of its letter. -/
theorem alphabet_numberOf {group : List Bool} (h : group.length = 5) :
    alphabet[numberOf group]? = some (groupLetter group) := by
  have hall : ∀ n : Fin 32, alphabet[n.val]? = some (letter (BitVec.ofNat 32 n)) := by
    decide
  have hlt := numberOf_lt group
  rw [h] at hlt
  exact hall ⟨_, hlt⟩

theorem groupLetter_inj {first second : List Bool} (hfirst : first.length = 5)
    (hsecond : second.length = 5) (h : groupLetter first = groupLetter second) :
    first = second := by
  have hall : ∀ n m : Fin 32, letter (BitVec.ofNat 32 n) =
      letter (BitVec.ofNat 32 m) → n = m := by
    decide
  have hltFirst := numberOf_lt first
  have hltSecond := numberOf_lt second
  rw [hfirst] at hltFirst
  rw [hsecond] at hltSecond
  refine numberOf_inj (hfirst.trans hsecond.symm) ?_
  exact Fin.mk.inj (hall ⟨_, hltFirst⟩ ⟨_, hltSecond⟩ h)

theorem map_groupLetter_inj {first second : List (List Bool)}
    (hfirst : ∀ group ∈ first, group.length = 5)
    (hsecond : ∀ group ∈ second, group.length = 5)
    (h : first.map groupLetter = second.map groupLetter) : first = second := by
  induction first generalizing second with
  | nil => exact (List.map_eq_nil_iff.mp h.symm).symm
  | cons group first ih =>
      cases second with
      | nil => simp at h
      | cons other second =>
          rw [List.map_cons, List.map_cons, List.cons.injEq] at h
          rw [List.forall_mem_cons] at hfirst hsecond
          rw [groupLetter_inj hfirst.1 hsecond.1 h.1,
            ih hfirst.2 hsecond.2 h.2]

/--
The text is the base32 text of the bytes: for each group of five bits, the last
one filled up with zeros, the letter of its number.  Different bytes of one
length have different texts.
-/
theorem base32I2pEncode_correct (data : List UInt8) :
    (base32I2pEncode data).length = (data.length * 8 + 4) / 5 ∧
      (∀ i < (data.length * 8 + 4) / 5, (base32I2pEncode data)[i]? =
        alphabet[numberOf ((((data.flatMap byteBits).drop (5 * i)).take
          5).rightpad 5 false)]?) ∧
      ∀ other : List UInt8, other.length = data.length →
        base32I2pEncode other = base32I2pEncode data → other = data := by
  have hbits := length_flatMap_byteBits data
  refine ⟨?_, fun i hi => ?_, fun other hlength h => ?_⟩
  · rw [base32I2pEncode_eq, List.length_map, length_bitGroups, hbits]
  · have hcount : i < ((data.flatMap byteBits).length + (5 - 1)) / 5 := by
      rw [hbits]
      exact hi
    have hgroup := getElem?_bitGroups hcount
    rw [base32I2pEncode_eq, List.getElem?_map, hgroup, Option.map_some]
    exact (alphabet_numberOf
      (length_of_mem_bitGroups (List.mem_of_getElem? hgroup))).symm
  · rw [base32I2pEncode_eq, base32I2pEncode_eq] at h
    have hgroups := map_groupLetter_inj
      (fun group hgroup => length_of_mem_bitGroups hgroup)
      (fun group hgroup => length_of_mem_bitGroups hgroup) h
    refine flatMap_byteBits_inj (bitGroups_inj (by decide) ?_ hgroups)
    rw [length_flatMap_byteBits, length_flatMap_byteBits, hlength]

end Neroshop.Network
