import Neroshop.Routing.NodeId

/-!
# Ids as hexadecimal texts

`node_id_to_hex_string` prints each byte with two lower-case digits, and
`hex_string_to_node_id` reads such a text back.  A text of the right length
with other characters in it is read as well; the bytes that they are part of
stay as they were.
-/

namespace Neroshop.Routing

open Neroshop.Foundation

/-- `std::hex << std::setw(2) << std::setfill('0')` on a byte. -/
def printByte (byte : UInt8) : List Char :=
  (Nat.toDigits 16 byte.toNat).leftpad 2 '0'

def nodeIdToHexString (id : XorId) : String :=
  String.ofList (id.bytes.flatMap printByte)

/-- `hex_string_to_node_id` on any bytes, text or not. -/
def readNodeId (uninitialized : XorId) (hex : List UInt8) : Except Fault XorId :=
  if hex.length ≠ 64 then .error .invalidArgument
  else .ok ⟨readPairs uninitialized.bytes hex, by
    rw [length_readPairs, uninitialized.size]⟩

theorem hexStringToNodeId_eq (uninitialized : XorId) (hex : String) :
    hexStringToNodeId uninitialized hex =
      readNodeId uninitialized (chars hex) := rfl

def isLowerHexDigit (c : UInt8) : Bool :=
  (48 ≤ c && c ≤ 57) || (97 ≤ c && c ≤ 102)

/-! ## What is asked of the two conversions -/

structure IsHexId (hex : List UInt8) : Prop where
  length : hex.length = 64
  digits : ∀ c ∈ hex, isHexDigit c = true

structure IsLowerHexId (hex : List UInt8) : Prop where
  length : hex.length = 64
  digits : ∀ c ∈ hex, isLowerHexDigit c = true

structure ConvertsHex (uninitialized id : XorId) (hex : List UInt8) : Prop where
  printed : readNodeId uninitialized (chars (nodeIdToHexString id)) = .ok id
  read : IsLowerHexId hex → ∃ read, readNodeId uninitialized hex = .ok read ∧
    chars (nodeIdToHexString read) = hex
  rejected : ¬ IsHexId hex → ∃ fault, readNodeId uninitialized hex = .error fault

/-! ## Digits -/

/-- The lower-case digit of a number below 16. -/
def digitByte (n : Nat) : UInt8 :=
  if n < 10 then UInt8.ofNat (48 + n) else UInt8.ofNat (87 + n)

theorem hexCharToByte_digitByte {n : Nat} (h : n < 16) :
    hexCharToByte (digitByte n) = .ok (UInt8.ofNat n) := by
  have hall : ∀ n : Fin 16,
      hexCharToByte (digitByte n) = .ok (UInt8.ofNat n) := by
    decide
  exact hall ⟨n, h⟩

theorem exists_digitByte {c : UInt8} (h : isLowerHexDigit c = true) :
    ∃ n, n < 16 ∧ c = digitByte n := by
  have hall : ∀ n : Fin 256, isLowerHexDigit (UInt8.ofNat n) = true →
      ∃ m : Fin 16, UInt8.ofNat n = digitByte m := by
    decide +kernel
  have hbyte := hall ⟨c.toNat, c.toNat_lt⟩
  simp only [UInt8.ofNat_toNat] at hbyte
  obtain ⟨m, hm⟩ := hbyte h
  exact ⟨m, m.isLt, hm⟩

theorem utf8Encode_printByte (byte : UInt8) :
    (printByte byte).flatMap String.utf8EncodeChar =
      [digitByte (byte.toNat / 16), digitByte (byte.toNat % 16)] := by
  have hall : ∀ n : Fin 256,
      (printByte (UInt8.ofNat n)).flatMap String.utf8EncodeChar =
        [digitByte ((UInt8.ofNat n).toNat / 16),
          digitByte ((UInt8.ofNat n).toNat % 16)] := by
    decide +kernel
  have hbyte := hall ⟨byte.toNat, byte.toNat_lt⟩
  simpa only [UInt8.ofNat_toNat] using hbyte

/-- The high digit and the low one. -/
def digitPair (byte : UInt8) : List UInt8 :=
  [digitByte (byte.toNat / 16), digitByte (byte.toNat % 16)]

theorem chars_nodeIdToHexString (id : XorId) :
    chars (nodeIdToHexString id) = id.bytes.flatMap digitPair := by
  have hencode : chars (nodeIdToHexString id) =
      (id.bytes.flatMap printByte).flatMap String.utf8EncodeChar := by
    simp [chars, nodeIdToHexString, List.utf8Encode]
  rw [hencode, List.flatMap_assoc]
  exact List.flatMap_congr fun byte _ => utf8Encode_printByte byte

theorem length_flatMap_digitPair (bytes : List UInt8) :
    (bytes.flatMap digitPair).length = 2 * bytes.length := by
  induction bytes with
  | nil => rfl
  | cons byte bytes ih =>
      rw [List.flatMap_cons, List.length_append, ih, List.length_cons]
      change 2 + 2 * bytes.length = _
      omega

/-- Two digits make the byte that they are printed from. -/
theorem shift_or_digits {high low : Nat} (hhigh : high < 16) (hlow : low < 16) :
    (UInt8.ofNat high <<< 4) ||| UInt8.ofNat low =
      UInt8.ofNat (high * 16 + low) := by
  have hall : ∀ high low : Fin 16,
      (UInt8.ofNat high <<< 4) ||| UInt8.ofNat low =
        UInt8.ofNat (high * 16 + low) := by
    decide
  exact hall ⟨high, hhigh⟩ ⟨low, hlow⟩

theorem readPairs_digits {high low : Nat} (hhigh : high < 16) (hlow : low < 16)
    (byte : UInt8) (bytes digits : List UInt8) :
    readPairs (byte :: bytes) (digitByte high :: digitByte low :: digits) =
      UInt8.ofNat (high * 16 + low) :: readPairs bytes digits := by
  rw [readPairs, hexCharToByte_digitByte hhigh, hexCharToByte_digitByte hlow,
    ← shift_or_digits hhigh hlow]

/-! ## There and back -/

theorem readPairs_printed {bytes printed : List UInt8}
    (hlength : bytes.length = printed.length) :
    readPairs bytes (printed.flatMap digitPair) = printed := by
  induction printed generalizing bytes with
  | nil => rw [List.length_eq_zero_iff.mp hlength]; rfl
  | cons byte printed ih =>
      cases bytes with
      | nil => simp at hlength
      | cons old bytes =>
          have hlt := byte.toNat_lt
          have hwhole : byte.toNat / 16 * 16 + byte.toNat % 16 = byte.toNat :=
            Nat.div_add_mod' _ _
          rw [List.flatMap_cons]
          change readPairs (old :: bytes) (digitByte (byte.toNat / 16) ::
            digitByte (byte.toNat % 16) :: printed.flatMap digitPair) = _
          rw [readPairs_digits (by omega) (by omega), hwhole, UInt8.ofNat_toNat,
            ih (by simpa using hlength)]

theorem readNodeId_printed (uninitialized id : XorId) :
    readNodeId uninitialized (chars (nodeIdToHexString id)) = .ok id := by
  rw [chars_nodeIdToHexString, readNodeId,
    if_neg (by rw [length_flatMap_digitPair, id.size, not_not])]
  congr
  exact readPairs_printed (uninitialized.size.trans id.size.symm)

theorem printed_readPairs {bytes digits : List UInt8}
    (hlength : digits.length = 2 * bytes.length)
    (hlower : ∀ c ∈ digits, isLowerHexDigit c = true) :
    (readPairs bytes digits).flatMap digitPair = digits := by
  induction bytes generalizing digits with
  | nil =>
      rw [List.length_eq_zero_iff.mp hlength]
      rfl
  | cons byte bytes ih =>
      match digits, hlength, hlower with
      | [], hlength, _ => simp at hlength
      | [_], hlength, _ => simp at hlength; omega
      | high :: low :: digits, hlength, hlower =>
          obtain ⟨m, hm, rfl⟩ := exists_digitByte (hlower high (by simp))
          obtain ⟨n, hn, rfl⟩ := exists_digitByte (hlower low (by simp))
          have hdigits : digits.length = 2 * bytes.length := by
            simp only [List.length_cons] at hlength
            omega
          have hrest := ih hdigits (fun c hc => hlower c (by simp [hc]))
          have hbyte : (UInt8.ofNat (m * 16 + n)).toNat = m * 16 + n :=
            UInt8.toNat_ofNat_of_lt' (by
              change m * 16 + n < 256
              omega)
          have hpair : digitPair (UInt8.ofNat (m * 16 + n)) =
              [digitByte m, digitByte n] := by
            rw [digitPair, hbyte]
            congr 2
            · omega
            · congr 1
              omega
          rw [readPairs_digits hm hn, List.flatMap_cons, hpair, hrest]
          rfl

theorem readNodeId_returns (uninitialized : XorId) {hex : List UInt8}
    (hlength : hex.length = 64) :
    ∃ read, readNodeId uninitialized hex = .ok read ∧
      read.bytes = readPairs uninitialized.bytes hex :=
  ⟨_, if_neg (not_not_intro hlength), rfl⟩

/--
Both round trips hold of every id and every text.  A text that is no id is
rejected for its length alone.
-/
theorem convertsHex_iff (uninitialized id : XorId) (hex : List UInt8) :
    ConvertsHex uninitialized id hex ↔
      hex.length ≠ 64 ∨ ∀ c ∈ hex, isHexDigit c = true := by
  have hread : IsLowerHexId hex → ∃ read,
      readNodeId uninitialized hex = .ok read ∧
        chars (nodeIdToHexString read) = hex := by
    intro h
    obtain ⟨read, hread, hbytes⟩ := readNodeId_returns uninitialized h.length
    refine ⟨read, hread, ?_⟩
    rw [chars_nodeIdToHexString, hbytes]
    refine printed_readPairs ?_ h.digits
    rw [h.length, uninitialized.size]
  by_cases hlength : hex.length = 64
  · constructor
    · rintro ⟨-, -, hrejected⟩
      by_contra hnot
      rw [not_or, not_not] at hnot
      obtain ⟨fault, hfault⟩ := hrejected fun h => hnot.2 h.digits
      obtain ⟨read, hok, -⟩ := readNodeId_returns uninitialized hlength
      rw [hok] at hfault
      cases hfault
    · rintro (hne | hdigits)
      · exact absurd hlength hne
      · exact ⟨readNodeId_printed uninitialized id, hread,
          fun h => absurd ⟨hlength, hdigits⟩ h⟩
  · refine iff_of_true ⟨readNodeId_printed uninitialized id, hread, fun _ => ?_⟩
      (.inl hlength)
    exact ⟨.invalidArgument, if_pos hlength⟩

/-- 64 characters, none of which is a digit, are read as whatever was there. -/
theorem text_without_digits :
    readNodeId .zero (chars (String.ofList (List.replicate 64 'z'))) =
        .ok .zero ∧
      ¬ ConvertsHex .zero .zero
        (chars (String.ofList (List.replicate 64 'z'))) := by
  have hread : readNodeId .zero
      (chars (String.ofList (List.replicate 64 'z'))) = .ok .zero := by
    decide
  refine ⟨hread, fun h => ?_⟩
  obtain ⟨fault, hfault⟩ := h.rejected fun hhex => by
    have hdigit := hhex.digits 122 (by decide)
    cases hdigit
  rw [hread] at hfault
  cases hfault

end Neroshop.Routing
