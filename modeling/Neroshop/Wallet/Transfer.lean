import Mathlib.Algebra.BigOperators.Group.List.Basic
import Mathlib.Algebra.Order.Floor.Ring
import Mathlib.Data.Rat.Floor
import Mathlib.Data.UInt
import Mathlib.Tactic.Linarith
import Mathlib.Tactic.Positivity

/-!
# Paying several recipients

`transfer` adds up all amounts before it looks at the addresses, and leaves the
recipients whose address is not valid out of the transaction.  Amounts are
exact.  The conversion to piconero is undefined outside `uint64_t`.
-/

namespace Neroshop

/-! ## The wallet -/

/-- A wallet, with what the library under it answers. -/
structure Wallet where
  opened : Bool
  synced : Bool
  unlockedBalance : UInt64
  isValidAddress : String → Bool
  /-- `create_tx` returns. -/
  creates : Bool
  /-- `relay_tx` returns. -/
  relays : Bool

namespace Wallet

def piconero : ℚ := 1 / 10 ^ 12

structure Recipient where
  address : String
  amount : ℚ

structure Destination where
  address : String
  amount : UInt64
  deriving DecidableEq

inductive Outcome where
  | throws (message : String)
  | createTxThrows
  /-- The transaction is created, and `relay_tx` throws. -/
  | relayTxThrows (destinations : List Destination)
  /-- An error is logged. -/
  | nothing (message : String)
  /-- One transaction with these destinations. -/
  | relays (destinations : List Destination)
  | undefined
  deriving DecidableEq

/-- A number that is converted to `uint64_t` loses its fraction. -/
def toPiconero (amount : ℚ) : Option UInt64 :=
  if -1 < amount / piconero ∧ amount / piconero < 2 ^ 64 then
    some (UInt64.ofNat ⌊amount / piconero⌋.toNat)
  else none

/-- The second loop; none where a conversion is undefined. -/
def destinations (wallet : Wallet) :
    List Recipient → Option (List Destination)
  | [] => some []
  | recipient :: recipients =>
      if wallet.isValidAddress recipient.address then
        match toPiconero recipient.amount with
        | none => none
        | some amount =>
            (wallet.destinations recipients).map (⟨recipient.address, amount⟩ :: ·)
      else wallet.destinations recipients

def totalAmount (recipients : List Recipient) : ℚ :=
  (recipients.map Recipient.amount).sum

def transfer (wallet : Wallet) (recipients : List Recipient) : Outcome :=
  if wallet.opened = false then .throws "monero_wallet_full is not opened"
  else if wallet.synced = false then
    .throws "wallet is not synced with a daemon"
  else
    match toPiconero (totalAmount recipients) with
    | none => .undefined
    | some total =>
        if wallet.unlockedBalance < total then
          .nothing "Wallet balance is insufficient"
        else
          match wallet.destinations recipients with
          | none => .undefined
          | some [] => .nothing "No destinations for this transfer"
          | some (first :: rest) =>
              if wallet.creates = false then .createTxThrows
              else if wallet.relays = false then .relayTxThrows (first :: rest)
              else .relays (first :: rest)

/-! ## What is asked of a transfer -/

/-- The recipient is paid what is owed, which is more than nothing. -/
structure Pays (recipient : Recipient) (destination : Destination) : Prop where
  address : destination.address = recipient.address
  amount : toPiconero recipient.amount = some destination.amount
  positive : 0 < destination.amount

def sum (destinations : List Destination) : Nat :=
  (destinations.map (·.amount.toNat)).sum

/-- All recipients are paid from the balance, or no transaction is created. -/
def AllOrNothing (wallet : Wallet) (recipients : List Recipient) :
    Outcome → Prop
  | .relays destinations =>
      List.Forall₂ Pays recipients destinations ∧
        sum destinations ≤ wallet.unlockedBalance.toNat
  | .relayTxThrows _ => False
  | .undefined => False
  | _ => True

/-- `uint64_t` has room for the amount. -/
def Converts (amount : ℚ) : Prop :=
  -1 < amount / piconero ∧ amount / piconero < 2 ^ 64

instance (amount : ℚ) : Decidable (Converts amount) := by
  unfold Converts
  infer_instance

/-- Every recipient can be paid at least a piconero. -/
def Payable (wallet : Wallet) (recipients : List Recipient) : Prop :=
  ∀ recipient ∈ recipients,
    wallet.isValidAddress recipient.address = true ∧
      piconero ≤ recipient.amount

/-! ## Conversions -/

theorem toPiconero_eq_none {amount : ℚ} :
    toPiconero amount = none ↔ ¬ Converts amount := by
  rw [toPiconero, Converts]
  split
  case isTrue h => exact iff_of_false nofun (not_not_intro h)
  case isFalse h => exact iff_of_true rfl h

theorem toPiconero_eq_some {amount : ℚ} {picos : UInt64} :
    toPiconero amount = some picos ↔
      Converts amount ∧ picos.toNat = ⌊amount / piconero⌋.toNat := by
  rw [toPiconero, Option.ite_none_right_eq_some]
  refine and_congr_right fun hconverts => ?_
  have hless : ⌊amount / piconero⌋ < 2 ^ 64 := by
    rw [Int.floor_lt]
    exact_mod_cast hconverts.2
  rw [Option.some.injEq, ← UInt64.toNat_inj, UInt64.toNat_ofNat',
    Nat.mod_eq_of_lt (by omega)]
  exact eq_comm

theorem piconero_pos : 0 < piconero := by
  rw [piconero]
  positivity

/-- At least a piconero is what does not become nothing. -/
theorem positive_iff {amount : ℚ} {picos : UInt64}
    (h : toPiconero amount = some picos) : 0 < picos ↔ piconero ≤ amount := by
  rw [UInt64.lt_iff_toNat_lt, (toPiconero_eq_some.mp h).2, UInt64.toNat_zero,
    Int.lt_toNat, Nat.cast_zero, Int.floor_pos, one_le_div piconero_pos]

theorem picos_le {amount : ℚ} {picos : UInt64}
    (h : toPiconero amount = some picos) (hamount : 0 ≤ amount) :
    (picos.toNat : ℚ) ≤ amount / piconero := by
  have hnonneg : 0 ≤ ⌊amount / piconero⌋ :=
    Int.floor_nonneg.mpr (div_nonneg hamount piconero_pos.le)
  rw [(toPiconero_eq_some.mp h).2]
  calc ((⌊amount / piconero⌋.toNat : ℕ) : ℚ)
      = ((⌊amount / piconero⌋ : ℤ) : ℚ) := by
        exact_mod_cast congrArg (Int.cast : ℤ → ℚ) (Int.toNat_of_nonneg hnonneg)
    _ ≤ amount / piconero := Int.floor_le _

/-! ## The destinations -/

section Destinations

variable {wallet : Wallet} {recipients : List Recipient}

theorem destinations_cons_of_valid {recipient : Recipient}
    (h : wallet.isValidAddress recipient.address = true)
    {destinations : List Destination} :
    wallet.destinations (recipient :: recipients) = some destinations ↔
      ∃ amount rest, toPiconero recipient.amount = some amount ∧
        wallet.destinations recipients = some rest ∧
        ⟨recipient.address, amount⟩ :: rest = destinations := by
  rw [Wallet.destinations, if_pos h]
  cases toPiconero recipient.amount with
  | none => simp
  | some amount => simp [Option.map_eq_some_iff]

theorem destinations_cons_of_invalid {recipient : Recipient}
    (h : wallet.isValidAddress recipient.address = false) :
    wallet.destinations (recipient :: recipients) =
      wallet.destinations recipients := by
  rw [Wallet.destinations, if_neg (Bool.eq_false_iff.mp h)]

/-- The loop ends where every amount that it converts can be converted. -/
theorem exists_destinations :
    (∃ destinations, wallet.destinations recipients = some destinations) ↔
      ∀ recipient ∈ recipients,
        wallet.isValidAddress recipient.address = true →
          Converts recipient.amount := by
  induction recipients with
  | nil => exact iff_of_true ⟨[], rfl⟩ nofun
  | cons recipient recipients ih =>
      rw [List.forall_mem_cons, ← ih]
      cases hvalid : wallet.isValidAddress recipient.address with
      | false => simp [destinations_cons_of_invalid hvalid]
      | true =>
          have hconverts : Converts recipient.amount ↔
              ∃ amount, toPiconero recipient.amount = some amount := by
            rw [← Option.ne_none_iff_exists', Ne, toPiconero_eq_none, not_not]
          simp only [destinations_cons_of_valid hvalid, hconverts, forall_const]
          constructor
          · rintro ⟨_, amount, rest, hamount, hrest, -⟩
            exact ⟨⟨amount, hamount⟩, rest, hrest⟩
          · rintro ⟨⟨amount, hamount⟩, rest, hrest⟩
            exact ⟨_, amount, rest, hamount, hrest, rfl⟩

theorem destinations_eq_nil {destinations : List Destination}
    (h : wallet.destinations recipients = some destinations) :
    destinations = [] ↔ ∀ recipient ∈ recipients,
      wallet.isValidAddress recipient.address = false := by
  induction recipients generalizing destinations with
  | nil =>
      cases h
      exact iff_of_true rfl nofun
  | cons recipient recipients ih =>
      rw [List.forall_mem_cons]
      cases hvalid : wallet.isValidAddress recipient.address with
      | false =>
          rw [destinations_cons_of_invalid hvalid] at h
          simp [ih h]
      | true =>
          obtain ⟨amount, rest, -, -, rfl⟩ := (destinations_cons_of_valid hvalid).mp h
          simp

theorem length_destinations_le {destinations : List Destination}
    (h : wallet.destinations recipients = some destinations) :
    destinations.length ≤ recipients.length := by
  induction recipients generalizing destinations with
  | nil =>
      cases h
      exact le_rfl
  | cons recipient recipients ih =>
      cases hvalid : wallet.isValidAddress recipient.address with
      | false =>
          rw [destinations_cons_of_invalid hvalid] at h
          exact (ih h).trans (Nat.le_succ _)
      | true =>
          obtain ⟨amount, rest, -, hrest, rfl⟩ :=
            (destinations_cons_of_valid hvalid).mp h
          exact Nat.succ_le_succ (ih hrest)

/-- One recipient left out, or one paid nothing, and not all are paid. -/
theorem forall_pays_iff {destinations : List Destination}
    (h : wallet.destinations recipients = some destinations) :
    List.Forall₂ Pays recipients destinations ↔ wallet.Payable recipients := by
  induction recipients generalizing destinations with
  | nil =>
      cases h
      exact iff_of_true .nil nofun
  | cons recipient recipients ih =>
      rw [Payable, List.forall_mem_cons]
      cases hvalid : wallet.isValidAddress recipient.address with
      | false =>
          rw [destinations_cons_of_invalid hvalid] at h
          have hlength := length_destinations_le h
          refine iff_of_false (fun hpays => ?_) fun hpayable => ?_
          · have hequal := hpays.length_eq
            rw [List.length_cons] at hequal
            omega
          · exact Bool.false_ne_true hpayable.1.1
      | true =>
          obtain ⟨amount, rest, hamount, hrest, rfl⟩ :=
            (destinations_cons_of_valid hvalid).mp h
          rw [List.forall₂_cons, ih hrest, Payable, ← positive_iff hamount]
          refine and_congr_left fun _ => ⟨fun hpays => ⟨rfl, hpays.positive⟩,
            fun hpositive => ⟨rfl, hamount, hpositive.2⟩⟩

theorem sum_destinations_le {destinations : List Destination}
    (h : wallet.destinations recipients = some destinations)
    (hpayable : wallet.Payable recipients) :
    (sum destinations : ℚ) ≤ totalAmount recipients / piconero := by
  induction recipients generalizing destinations with
  | nil =>
      cases h
      simp [sum, totalAmount]
  | cons recipient recipients ih =>
      rw [Payable, List.forall_mem_cons] at hpayable
      obtain ⟨⟨hvalid, hamount⟩, hrest⟩ := hpayable
      obtain ⟨amount, rest, hpicos, hdestinations, rfl⟩ :=
        (destinations_cons_of_valid hvalid).mp h
      have hfirst := picos_le hpicos (piconero_pos.le.trans hamount)
      have hlater := ih hdestinations hrest
      have hsum : sum (⟨recipient.address, amount⟩ :: rest) =
          amount.toNat + sum rest := by
        simp [sum]
      have htotal : totalAmount (recipient :: recipients) =
          recipient.amount + totalAmount recipients := by
        simp [totalAmount]
      rw [hsum, htotal, Nat.cast_add, add_div]
      exact add_le_add hfirst hlater

/-- What is paid is no more than the total that was checked. -/
theorem sum_le_total {destinations : List Destination} {total : UInt64}
    (h : wallet.destinations recipients = some destinations)
    (hpayable : wallet.Payable recipients)
    (htotal : toPiconero (totalAmount recipients) = some total) :
    sum destinations ≤ total.toNat := by
  have hfloor : (sum destinations : ℤ) ≤
      ⌊totalAmount recipients / piconero⌋ :=
    Int.le_floor.mpr (by exact_mod_cast sum_destinations_le h hpayable)
  rw [(toPiconero_eq_some.mp htotal).2]
  omega

end Destinations

/-! ## When all are paid or none -/

/-- The total is in range, and the balance is short of it or every conversion
is in range and no transaction is created, or one that pays each of them is
relayed. -/
def Spares (wallet : Wallet) (recipients : List Recipient) : Prop :=
  Converts (totalAmount recipients) ∧
    (wallet.unlockedBalance.toNat <
        ⌊totalAmount recipients / piconero⌋.toNat ∨
      (∀ recipient ∈ recipients,
        wallet.isValidAddress recipient.address = true →
          Converts recipient.amount) ∧
      ((∀ recipient ∈ recipients,
          wallet.isValidAddress recipient.address = false) ∨
        wallet.creates = false ∨
        (wallet.relays = true ∧ wallet.Payable recipients)))

/--
All recipients are paid or none exactly where the transfer does not begin, or
where no address of several is invalid, no amount is below a piconero and the
transaction that is created is relayed.
-/
theorem transfer_all_or_nothing_iff (wallet : Wallet)
    (recipients : List Recipient) :
    wallet.AllOrNothing recipients (wallet.transfer recipients) ↔
      wallet.opened = false ∨ wallet.synced = false ∨
        wallet.Spares recipients := by
  rw [transfer]
  split
  case isTrue hopened => exact iff_of_true trivial (.inl hopened)
  case isFalse hopened =>
    split
    case isTrue hsynced => exact iff_of_true trivial (.inr (.inl hsynced))
    case isFalse hsynced =>
      rw [or_iff_right hopened, or_iff_right hsynced]
      split
      case h_1 htotal =>
        exact iff_of_false id fun h => toPiconero_eq_none.mp htotal h.1
      case h_2 total htotal =>
        obtain ⟨hconverts, htoNat⟩ := toPiconero_eq_some.mp htotal
        rw [Spares, and_iff_right hconverts, ← htoNat]
        split
        case isTrue hshort =>
          exact iff_of_true trivial (.inl (UInt64.lt_iff_toNat_lt.mp hshort))
        case isFalse henough =>
          rw [UInt64.lt_iff_toNat_lt] at henough
          rw [or_iff_right henough, ← exists_destinations]
          split
          case h_1 hnone =>
            refine iff_of_false id fun h => ?_
            obtain ⟨destinations, hsome⟩ := h.1
            rw [hnone] at hsome
            cases hsome
          case h_2 hempty =>
            refine iff_of_true trivial ⟨⟨_, hempty⟩, .inl ?_⟩
            exact (destinations_eq_nil hempty).mp rfl
          case h_3 first rest hsome =>
            have hpaid : ¬ ∀ recipient ∈ recipients,
                wallet.isValidAddress recipient.address = false :=
              fun h => List.cons_ne_nil _ _ ((destinations_eq_nil hsome).mpr h)
            rw [and_iff_right ⟨_, hsome⟩, or_iff_right hpaid]
            cases hcreates : wallet.creates with
            | false => exact iff_of_true trivial (.inl rfl)
            | true =>
                rw [if_neg Bool.noConfusion, or_iff_right Bool.noConfusion]
                cases hrelays : wallet.relays with
                | false => exact iff_of_false id fun h => Bool.false_ne_true h.1
                | true =>
                    rw [if_neg Bool.noConfusion, and_iff_right rfl, AllOrNothing,
                      forall_pays_iff hsome, and_iff_left_iff_imp]
                    intro hpayable
                    have hsum := sum_le_total hsome hpayable htotal
                    omega

def seller : Recipient := ⟨"seller", 1⟩

def misspelt : Recipient := ⟨"arbiter?", 1⟩

/-- Three monero, of which the network knows the address of the seller. -/
def funded : Wallet :=
  ⟨true, true, 3 * 10 ^ 12, fun address => address = "seller", true, true⟩

/-- Of two recipients the one with a valid address is paid. -/
theorem transfer_pays_some :
    funded.transfer [seller, misspelt] = .relays [⟨"seller", 10 ^ 12⟩] ∧
      ¬ funded.AllOrNothing [seller, misspelt]
        (funded.transfer [seller, misspelt]) := by
  have htransfer : funded.transfer [seller, misspelt] =
      .relays [⟨"seller", 10 ^ 12⟩] := by
    decide +kernel
  refine ⟨htransfer, fun h => ?_⟩
  rw [htransfer] at h
  exact absurd h.1.length_eq (by decide)

end Wallet
end Neroshop
