import Neroshop.Foundation.Effects
import Neroshop.Routing.NodeId
import Neroshop.Tools.Strings

/-!
# Payment URIs

`make_uri` escapes the spaces of the recipient and the description, and nothing
else.  `parse_uri` splits at the first colon and question mark, at every
ampersand and at the first equals sign of what is between two of these.
-/

namespace Neroshop.Wallet.Uri

open Neroshop.Foundation Neroshop.Routing Neroshop.Tools

/-! ## Writing -/

inductive WalletType where
  | monero
  | wownero
  deriving DecidableEq

def base58Alphabet : List UInt8 :=
  chars "123456789ABCDEFGHJKLMNPQRSTUVWXYZabcdefghijkmnopqrstuvwxyz"

/-- `monero_utils`, whose addresses are in base 58. -/
structure MoneroUtils where
  isValidAddress : List UInt8 → Bool
  base58 : ∀ address, isValidAddress address = true →
    ∀ byte ∈ address, byte ∈ base58Alphabet

def isValidAddress (utils : MoneroUtils) : WalletType → List UInt8 → Bool
  | .monero, address => utils.isValidAddress address
  | .wownero, _ => false

def coinPrefix : WalletType → List UInt8
  | .monero => chars "monero:"
  | .wownero => chars "wownero:"

def makeUri (utils : MoneroUtils) (walletType : WalletType)
    (paymentAddress : List UInt8) (amount : ℚ)
    (description recipient : List UInt8) : List UInt8 :=
  let walletTxUri := coinPrefix walletType
  let walletTxUri :=
    if isValidAddress utils walletType paymentAddress then
      walletTxUri ++ paymentAddress
    else walletTxUri
  let hasAmount : Bool := 0 < amount
  let walletTxUri :=
    if hasAmount then walletTxUri ++ chars "?tx_amount=" ++ precision amount
    else walletTxUri
  let hasRecipient := !recipient.isEmpty
  let walletTxUri :=
    if hasRecipient then
      walletTxUri ++ (if hasAmount then chars "&recipient_name="
        else chars "?recipient_name=") ++ swapSpaces recipient
    else walletTxUri
  if description.isEmpty then walletTxUri
  else
    walletTxUri ++ (if hasAmount || hasRecipient then chars "&tx_description="
      else chars "?tx_description=") ++ swapSpaces description

/-! ## Reading -/

/-- What `parse_uri` writes to. -/
structure Payment where
  address : List UInt8
  amount : ℚ
  description : List UInt8
  recipient : List UInt8
  deriving DecidableEq

def Payment.blank : Payment := ⟨[], 0, [], []⟩

inductive ParseFailure where
  /-- `parse_uri` returns false, and has written this. -/
  | returnsFalse (payment : Payment)
  /-- `std::stod` throws. -/
  | throws

section Reading

variable (otherNotation : List UInt8 → Option ℚ)

def assignToken (payment : Payment) (token : List UInt8) :
    Except ParseFailure Payment :=
  match splitAround [61] token with
  | none => .error (.returnsFalse payment)
  | some (key, value) =>
      let value := urlDecode value
      if key = chars "tx_amount" then
        match stod otherNotation value with
        | none => .error .throws
        | some amount => .ok { payment with amount := amount }
      else if key = chars "recipient_name" then
        .ok { payment with recipient := value }
      else if key = chars "tx_description" then
        .ok { payment with description := value }
      else .ok payment

/-- A successful end is one that returns true.  Where the question mark comes
first, the length of the address wraps around. -/
def parseUri (walletTxUri : List UInt8) : Except ParseFailure Payment :=
  if 58 ∉ walletTxUri ∨ 63 ∉ walletTxUri then .error (.returnsFalse .blank)
  else
    let coinPrefixEnd := walletTxUri.idxOf 58
    let pos := walletTxUri.idxOf 63
    let count :=
      if coinPrefixEnd < pos then pos - coinPrefixEnd - 1 else walletTxUri.length
    let paymentAddress := (walletTxUri.drop (coinPrefixEnd + 1)).take count
    (getlines 38 (walletTxUri.drop (pos + 1))).foldlM (assignToken otherNotation)
      { Payment.blank with address := paymentAddress }

end Reading

/-! ## The parts of a URI -/

/-- One field after the other, with ampersands between them. -/
def joinFields : List (List UInt8) → List UInt8
  | [] => []
  | [field] => field
  | field :: next :: fields => field ++ 38 :: joinFields (next :: fields)

def amountField (amount : ℚ) : List (List UInt8) :=
  if 0 < amount then [chars "tx_amount=" ++ precision amount] else []

def textField (name text : List UInt8) : List (List UInt8) :=
  if text.isEmpty then [] else [name ++ 61 :: swapSpaces text]

def fields (amount : ℚ) (description recipient : List UInt8) :
    List (List UInt8) :=
  amountField amount ++ textField (chars "recipient_name") recipient ++
    textField (chars "tx_description") description

def query : List (List UInt8) → List UInt8
  | [] => []
  | field :: fields => 63 :: joinFields (field :: fields)

/-- The separators are parts of the literals that are written. -/
theorem chars_literals :
    chars "?tx_amount=" = 63 :: chars "tx_amount=" ∧
      chars "?recipient_name=" = 63 :: chars "recipient_name" ++ [61] ∧
      chars "&recipient_name=" = 38 :: chars "recipient_name" ++ [61] ∧
      chars "?tx_description=" = 63 :: chars "tx_description" ++ [61] ∧
      chars "&tx_description=" = 38 :: chars "tx_description" ++ [61] := by
  decide

theorem makeUri_eq {utils : MoneroUtils} {walletType : WalletType}
    {address : List UInt8}
    (haddress : isValidAddress utils walletType address = true) (amount : ℚ)
    (description recipient : List UInt8) :
    makeUri utils walletType address amount description recipient =
      coinPrefix walletType ++ address ++
        query (fields amount description recipient) := by
  obtain ⟨hamount, hrecipient, hrecipient', hdescription, hdescription'⟩ :=
    chars_literals
  simp only [makeUri, haddress, if_true, fields, amountField, textField]
  by_cases hpositive : 0 < amount <;> cases recipient <;> cases description <;>
    simp [hpositive, query, joinFields, hamount, hrecipient, hrecipient',
      hdescription, hdescription']

/-! ## Field by field -/

section Fields

variable {otherNotation : List UInt8 → Option ℚ}

variable (otherNotation) in
/-- The loop over the tokens of some fields. -/
def parseFields (payment : Payment) (fields : List (List UInt8)) :
    Except ParseFailure Payment :=
  (getlines 38 (joinFields fields)).foldlM (assignToken otherNotation) payment

/-- A field without ampersands is one token. -/
theorem parseFields_cons {payment : Payment} {field : List UInt8}
    {fields : List (List UInt8)} (hfield : field ≠ []) (hplain : 38 ∉ field) :
    parseFields otherNotation payment (field :: fields) =
      assignToken otherNotation payment field >>= fun next =>
        parseFields otherNotation next fields := by
  cases fields with
  | nil =>
      rw [parseFields, joinFields, getlines_of_notMem hplain hfield,
        List.foldlM_cons]
      rfl
  | cons next fields =>
      rw [parseFields, joinFields, getlines_append hplain, List.foldlM_cons]
      rfl

/-- The last fields are read behind whatever the others have left. -/
theorem parseFields_append {payment after : Payment}
    {first fields : List (List UInt8)} (hfields : fields ≠ [])
    (h : parseFields otherNotation payment (first ++ fields) = .ok after) :
    ∃ middle, parseFields otherNotation middle fields = .ok after := by
  induction first generalizing payment with
  | nil => exact ⟨payment, h⟩
  | cons field first ih =>
      have hjoin : joinFields (field :: first ++ fields) =
          field ++ 38 :: joinFields (first ++ fields) := by
        obtain ⟨next, more, hnext⟩ :=
          List.exists_cons_of_ne_nil (List.append_ne_nil_of_right_ne_nil first hfields)
        rw [List.cons_append, hnext]
        rfl
      rw [parseFields, hjoin, getlines_append_delimiter, List.foldlM_append,
        bind_eq_ok] at h
      obtain ⟨middle, -, hrest⟩ := h
      exact ih hrest

end Fields

/-! ## One token -/

theorem splitAround_cons (byte : UInt8) (rest : List UInt8) :
    splitAround [61] (byte :: rest) =
      if byte = 61 then some ([], rest)
      else (splitAround [61] rest).map fun (front, back) => (byte :: front, back) := by
  by_cases h : byte = 61
  · simp [splitAround, List.isPrefixOf, h]
  · simp [splitAround, List.isPrefixOf, h, Ne.symm h]

/-- Escaping spaces leaves the first equals sign where it is. -/
theorem splitAround_swapSpaces (text : List UInt8) :
    splitAround [61] (swapSpaces text) =
      (splitAround [61] text).map fun (key, value) =>
        (swapSpaces key, swapSpaces value) := by
  induction text with
  | nil => rfl
  | cons byte rest ih =>
      by_cases hspace : byte = 32
      · rw [hspace, swapSpaces_cons, if_pos rfl]
        change splitAround [61] (37 :: 50 :: 48 :: swapSpaces rest) = _
        simp only [splitAround_cons, ih, show (37 : UInt8) ≠ 61 by decide,
          show (50 : UInt8) ≠ 61 by decide, show (48 : UInt8) ≠ 61 by decide,
          show (32 : UInt8) ≠ 61 by decide, if_false, Option.map_map]
        rfl
      · rw [swapSpaces_cons_of_ne hspace, splitAround_cons, splitAround_cons, ih]
        split
        case isTrue => rfl
        case isFalse =>
          rw [Option.map_map, Option.map_map]
          congr 1
          funext ⟨key, value⟩
          exact Prod.ext (swapSpaces_cons_of_ne hspace key).symm rfl

theorem length_of_splitAround {text key value : List UInt8}
    (h : splitAround [61] text = some (key, value)) :
    value.length < text.length := by
  induction text generalizing key with
  | nil => cases h
  | cons byte rest ih =>
      rw [splitAround_cons] at h
      split at h
      case isTrue =>
        cases h
        exact Nat.lt_succ_self _
      case isFalse =>
        obtain ⟨⟨front, back⟩, hrest, hpair⟩ := Option.map_eq_some_iff.mp h
        cases hpair
        exact (ih hrest).trans (Nat.lt_succ_self _)

/-- The fields that are free text. -/
inductive TextSlot where
  | recipient
  | description

namespace TextSlot

def name : TextSlot → List UInt8
  | .recipient => chars "recipient_name"
  | .description => chars "tx_description"

def get : TextSlot → Payment → List UInt8
  | .recipient, payment => payment.recipient
  | .description, payment => payment.description

def set : TextSlot → Payment → List UInt8 → Payment
  | .recipient, payment, text => { payment with recipient := text }
  | .description, payment, text => { payment with description := text }

theorem get_set (slot : TextSlot) (payment : Payment) (text : List UInt8) :
    slot.get (slot.set payment text) = text := by
  cases slot <;> rfl

theorem name_plain (slot : TextSlot) :
    38 ∉ slot.name ∧ 61 ∉ slot.name ∧ slot.name ≠ chars "tx_amount" := by
  cases slot <;> decide

theorem field_plain (slot : TextSlot) {text : List UInt8}
    (h : 38 ∉ text) : 38 ∉ slot.name ++ 61 :: swapSpaces text := by
  rw [List.mem_append, List.mem_cons]
  rintro (hname | hequals | htext)
  · exact slot.name_plain.1 hname
  · exact absurd hequals (by decide)
  · exact h (mem_of_mem_swapSpaces (by decide) htext)

end TextSlot

section Tokens

variable {otherNotation : List UInt8 → Option ℚ}

theorem splitAround_field {key : List UInt8} (hkey : 61 ∉ key)
    (value : List UInt8) :
    splitAround [61] (key ++ 61 :: value) = some (key, value) := by
  have hfront : ∀ byte ∈ key, [(61 : UInt8)].head? ≠ some byte :=
    fun byte hbyte h => hkey (Option.some.inj h ▸ hbyte)
  have hsplit := splitAround_append (List.cons_ne_nil 61 []) value hfront
  rwa [List.append_assoc] at hsplit

/-- A token puts its value into a slot, or leaves the slot alone. -/
theorem assignToken_get {payment next : Payment} {token : List UInt8}
    (h : assignToken otherNotation payment token = .ok next)
    (slot : TextSlot) :
    ∃ key value, splitAround [61] token = some (key, value) ∧
      (key = slot.name ∧ slot.get next = urlDecode value ∨
        key ≠ slot.name ∧ slot.get next = slot.get payment) := by
  rw [assignToken] at h
  split at h
  case h_1 => cases h
  case h_2 key value hsplit =>
    refine ⟨key, value, hsplit, ?_⟩
    dsimp only at h
    split at h
    case isTrue hamount =>
      split at h
      case h_1 => cases h
      case h_2 amount hread =>
        cases h
        refine .inr ⟨fun hname => slot.name_plain.2.2 (hname ▸ hamount), ?_⟩
        cases slot <;> rfl
    case isFalse hamount =>
      split at h
      case isTrue hrecipient =>
        cases h
        cases slot with
        | recipient => exact .inl ⟨hrecipient, rfl⟩
        | description =>
            refine .inr ⟨fun hname => ?_, rfl⟩
            exact absurd (hrecipient.symm.trans hname) (by decide)
      case isFalse hrecipient =>
        split at h
        case isTrue hdescription =>
          cases h
          cases slot with
          | recipient => exact .inr ⟨hrecipient, rfl⟩
          | description => exact .inl ⟨hdescription, rfl⟩
        case isFalse hdescription =>
          cases h
          cases slot with
          | recipient => exact .inr ⟨hrecipient, rfl⟩
          | description => exact .inr ⟨hdescription, rfl⟩

theorem assignToken_slot (payment : Payment) (slot : TextSlot)
    (value : List UInt8) :
    assignToken otherNotation payment (slot.name ++ 61 :: value) =
      .ok (slot.set payment (urlDecode value)) := by
  rw [assignToken, splitAround_field slot.name_plain.2.1]
  dsimp only
  rw [if_neg slot.name_plain.2.2]
  cases slot with
  | recipient => exact if_pos rfl
  | description => exact (if_neg (by decide)).trans (if_pos rfl)

/-- Every token whose value is short leaves a short text in the slot. -/
theorem foldlM_get_short {slot : TextSlot} {bound : Nat}
    {tokens : List (List UInt8)} {payment after : Payment}
    (htokens : ∀ token ∈ tokens, ∀ key value,
      splitAround [61] token = some (key, value) →
        (urlDecode value).length < bound)
    (h : tokens.foldlM (assignToken otherNotation) payment = .ok after)
    (hpayment : (slot.get payment).length < bound) :
    (slot.get after).length < bound := by
  induction tokens generalizing payment with
  | nil =>
      cases h
      exact hpayment
  | cons token tokens ih =>
      rw [List.foldlM_cons, bind_eq_ok] at h
      obtain ⟨next, hassign, hrest⟩ := h
      rw [List.forall_mem_cons] at htokens
      refine ih htokens.2 hrest ?_
      obtain ⟨key, value, hsplit, hget⟩ := assignToken_get hassign slot
      rcases hget with ⟨-, hget⟩ | ⟨-, hget⟩
      · rw [hget]
        exact htokens.1 key value hsplit
      · rw [hget]
        exact hpayment

/-- A text that has an ampersand is not read back: every piece of it is shorter
than the whole. -/
theorem get_lt_of_ampersand (slot : TextSlot) {text : List UInt8}
    (hmem : 38 ∈ text) (tail : List UInt8) (htail : swapSpaces tail = tail)
    (hlength : tail.length ≤ 1) {payment after : Payment}
    (h : (getlines 38 (slot.name ++ 61 :: swapSpaces text ++ tail)).foldlM
      (assignToken otherNotation) payment = .ok after) :
    (slot.get after).length < text.length := by
  obtain ⟨front, back, rfl, hfront⟩ := List.eq_append_cons_of_mem hmem
  have hswap : slot.name ++ 61 :: swapSpaces (front ++ 38 :: back) ++ tail =
      slot.name ++ 61 :: swapSpaces front ++ 38 :: swapSpaces (back ++ tail) := by
    conv_lhs => rw [← htail]
    simp [swapSpaces]
  rw [hswap, getlines_append (slot.field_plain hfront), getlines_swapSpaces,
    List.foldlM_cons, assignToken_slot] at h
  refine foldlM_get_short (fun token htoken key value hsplit => ?_) h ?_
  · obtain ⟨line, hline, rfl⟩ := List.mem_map.mp htoken
    rw [splitAround_swapSpaces, Option.map_eq_some_iff] at hsplit
    obtain ⟨⟨key', value'⟩, hpair, heq⟩ := hsplit
    cases heq
    have hvalue := length_of_splitAround hpair
    have hline := length_of_mem_getlines hline
    have hdecode := length_urlDecode_swapSpaces_le value'
    rw [List.length_append] at hline ⊢
    rw [List.length_cons]
    omega
  · have hdecode := length_urlDecode_swapSpaces_le front
    rw [slot.get_set, List.length_append, List.length_cons]
    omega

end Tokens

/-! ## The fields of a URI -/

section Query

variable {otherNotation : List UInt8 → Option ℚ}

theorem parseFields_textField {slot : TextSlot} {payment : Payment}
    {text : List UInt8} {rest : List (List UInt8)} (hplain : 38 ∉ text)
    (hpayment : slot.get payment = []) :
    parseFields otherNotation payment (textField slot.name text ++ rest) =
      parseFields otherNotation
        (slot.set payment (urlDecode (swapSpaces text))) rest := by
  cases text with
  | nil =>
      have hsame : slot.set payment [] = payment := by
        rw [← hpayment]
        cases slot <;> rfl
      exact congrArg (parseFields otherNotation · rest) hsame.symm
  | cons byte text =>
      have hfield : textField slot.name (byte :: text) =
          [slot.name ++ 61 :: swapSpaces (byte :: text)] := rfl
      rw [hfield, List.singleton_append,
        parseFields_cons (List.append_ne_nil_of_right_ne_nil _ (List.cons_ne_nil _ _))
          (slot.field_plain hplain), assignToken_slot]
      rfl

/-- Digits and the point are not escaped. -/
theorem urlDecode_precision (amount : ℚ) :
    urlDecode (precision amount) = precision amount := by
  have hplain : ∀ text : List UInt8, 37 ∉ text → urlDecode text = text := by
    intro text
    induction text with
    | nil => exact fun _ => rfl
    | cons byte rest ih =>
        intro htext
        rw [List.mem_cons, not_or] at htext
        rw [urlDecode_cons_of_ne (Ne.symm htext.1), ih htext.2]
  refine hplain _ fun hmem => ?_
  rcases precision_digits hmem with h | h <;> exact absurd h (by decide)

theorem parseFields_amountField {payment : Payment} (piconeros : Nat)
    (rest : List (List UInt8)) (hpayment : payment.amount = 0) :
    parseFields otherNotation payment
        (amountField ((piconeros : ℚ) / 10 ^ 12) ++ rest) =
      parseFields otherNotation
        { payment with amount := (piconeros : ℚ) / 10 ^ 12 } rest := by
  by_cases hpositive : 0 < (piconeros : ℚ) / 10 ^ 12
  · have hname : chars "tx_amount=" = chars "tx_amount" ++ [61] ∧
        38 ∉ chars "tx_amount" ∧ 61 ∉ chars "tx_amount" := by decide
    obtain ⟨hname, hampersand, hequals⟩ := hname
    have hplain : 38 ∉ chars "tx_amount=" ++ precision ((piconeros : ℚ) / 10 ^ 12) := by
      rw [hname, List.mem_append, List.mem_append]
      rintro ((h | h) | h)
      · exact hampersand h
      · exact absurd h (by decide)
      · rcases precision_digits h with h | h <;> exact absurd h (by decide)
    rw [amountField, if_pos hpositive, List.singleton_append,
      parseFields_cons (by rw [hname]; simp) hplain, hname, List.append_assoc,
      List.singleton_append, assignToken, splitAround_field hequals]
    dsimp only
    rw [if_pos rfl, urlDecode_precision, stod_precision]
    rfl
  · have hzero : (piconeros : ℚ) / 10 ^ 12 = 0 :=
      le_antisymm (not_lt.mp hpositive) (by positivity)
    rw [amountField, if_neg hpositive, hzero, ← hpayment]
    rfl

/-- What is read where no text has an ampersand. -/
theorem parseFields_plain {address description recipient : List UInt8}
    (piconeros : Nat) (hdescription : 38 ∉ description)
    (hrecipient : 38 ∉ recipient) :
    parseFields otherNotation { Payment.blank with address := address }
        (fields ((piconeros : ℚ) / 10 ^ 12) description recipient) =
      .ok ⟨address, (piconeros : ℚ) / 10 ^ 12, urlDecode (swapSpaces description),
        urlDecode (swapSpaces recipient)⟩ := by
  rw [fields, List.append_assoc, parseFields_amountField piconeros _ rfl]
  have hfirst := @parseFields_textField otherNotation .recipient
    { Payment.blank with address := address, amount := (piconeros : ℚ) / 10 ^ 12 }
    recipient (textField (chars "tx_description") description) hrecipient rfl
  refine hfirst.trans ?_
  have hsecond := @parseFields_textField otherNotation .description
    ⟨address, (piconeros : ℚ) / 10 ^ 12, [], urlDecode (swapSpaces recipient)⟩
    description [] hdescription rfl
  rw [List.append_nil] at hsecond
  exact hsecond

/-- An ampersand in a text loses a part of the text. -/
theorem parseFields_ampersand {payment after : Payment} {amount : ℚ}
    {description recipient : List UInt8}
    (h : parseFields otherNotation payment (fields amount description recipient) =
      .ok after) (hmem : 38 ∈ description ∨ 38 ∈ recipient) :
    after.description.length < description.length ∨
      after.recipient.length < recipient.length := by
  have hone : ∀ {slot : TextSlot} {text : List UInt8}, 38 ∈ text →
      textField slot.name text = [slot.name ++ 61 :: swapSpaces text] := by
    intro slot text htext
    cases text with
    | nil => exact absurd htext List.not_mem_nil
    | cons byte text => rfl
  by_cases hdescription : 38 ∈ description
  · have hfield : textField (chars "tx_description") description = _ :=
      @hone .description _ hdescription
    rw [fields, hfield] at h
    obtain ⟨middle, hlast⟩ := parseFields_append (List.cons_ne_nil _ _) h
    rw [parseFields, joinFields, ← List.append_nil (_ ++ _)] at hlast
    exact .inl (get_lt_of_ampersand .description hdescription [] rfl
      (Nat.zero_le 1) hlast)
  · have hrecipient := hmem.resolve_left hdescription
    have hfield : textField (chars "recipient_name") recipient = _ :=
      @hone .recipient _ hrecipient
    rw [fields, hfield, List.append_assoc] at h
    obtain ⟨middle, hlast⟩ := parseFields_append (by simp) h
    refine .inr ?_
    cases description with
    | nil =>
        rw [parseFields, ← List.append_nil (joinFields _)] at hlast
        exact get_lt_of_ampersand .recipient hrecipient [] rfl (Nat.zero_le 1)
          hlast
    | cons byte description =>
        have hfield := TextSlot.description.field_plain hdescription
        have hjoin : joinFields ([TextSlot.recipient.name ++ 61 :: swapSpaces recipient] ++
            textField (chars "tx_description") (byte :: description)) =
            TextSlot.recipient.name ++ 61 :: swapSpaces recipient ++ 38 ::
              (TextSlot.description.name ++ 61 :: swapSpaces (byte :: description)) := rfl
        rw [parseFields, hjoin, getlines_append_delimiter, List.foldlM_append,
          bind_eq_ok, getlines_of_notMem hfield (by simp)] at hlast
        obtain ⟨next, hnext, hend⟩ := hlast
        rw [List.foldlM_cons, assignToken_slot] at hend
        have hshort := get_lt_of_ampersand .recipient hrecipient [38] rfl
          (Nat.le_refl 1) hnext
        cases hend
        exact hshort

end Query

/-! ## The round trip -/

section RoundTrip

variable {otherNotation : List UInt8 → Option ℚ}

theorem base58_plain :
    58 ∉ base58Alphabet ∧ 63 ∉ base58Alphabet := by
  decide

/-- The colon is the end of the prefix, the question mark the end of the
address. -/
theorem parseUri_query {utils : MoneroUtils} {walletType : WalletType}
    {address : List UInt8}
    (haddress : isValidAddress utils walletType address = true)
    (fields : List (List UInt8)) :
    parseUri otherNotation (coinPrefix walletType ++ address ++ query fields) =
      if fields = [] then .error (.returnsFalse .blank)
      else parseFields otherNotation { Payment.blank with address := address }
        fields := by
  cases walletType with
  | wownero => exact Bool.noConfusion haddress
  | monero =>
      have hcoin : coinPrefix .monero = chars "monero" ++ [58] ∧
          58 ∉ chars "monero" ∧ 63 ∉ coinPrefix .monero := by decide
      obtain ⟨hcoin, hcolon, hquestion⟩ := hcoin
      have hplain : 63 ∉ coinPrefix .monero ++ address := by
        rw [List.mem_append, not_or]
        exact ⟨hquestion, fun h => base58_plain.2 (utils.base58 _ haddress _ h)⟩
      cases fields with
      | nil =>
          rw [query, List.append_nil, parseUri, if_pos (.inr hplain), if_pos rfl]
      | cons field fields =>
          have hfirst : (coinPrefix .monero ++ address ++
              query (field :: fields)).idxOf 58 = (chars "monero").length := by
            rw [hcoin, List.append_assoc, List.append_assoc,
              List.idxOf_append_of_notMem hcolon]
            rfl
          have hsecond : (coinPrefix .monero ++ address ++
              query (field :: fields)).idxOf 63 =
              (coinPrefix .monero ++ address).length := by
            rw [List.idxOf_append_of_notMem hplain, query, List.idxOf_cons_self]
            rfl
          have hcount : (coinPrefix .monero ++ address).length =
              (chars "monero").length + 1 + address.length := by
            rw [hcoin, List.length_append, List.length_append]
            rfl
          rw [parseUri, if_neg]
          · dsimp only
            rw [hfirst, hsecond, if_pos (by omega), hcount,
              show (chars "monero").length + 1 + address.length -
                (chars "monero").length - 1 = address.length by omega]
            have hdrop : (coinPrefix .monero ++ address ++
                query (field :: fields)).drop ((chars "monero").length + 1) =
                address ++ query (field :: fields) := by
              rw [List.append_assoc]
              exact List.drop_left' (by rw [hcoin]; rfl)
            have hparameters : (coinPrefix .monero ++ address ++
                query (field :: fields)).drop
                ((chars "monero").length + 1 + address.length + 1) =
                joinFields (field :: fields) := by
              rw [← hcount, List.drop_length_add_append]
              rfl
            rw [hdrop, hparameters, List.take_left' rfl, if_neg (List.cons_ne_nil _ _)]
            rfl
          · rw [not_or, not_not, not_not]
            constructor
            · rw [hcoin]
              simp
            · simp [query]

/-- Nothing in the text is taken for a separator or an escape. -/
def PlainText (text : List UInt8) : Prop := 38 ∉ text ∧ hasEscape text = false

theorem fields_eq_nil_iff {piconeros : Nat} {description recipient : List UInt8} :
    fields ((piconeros : ℚ) / 10 ^ 12) description recipient = [] ↔
      ¬(0 < piconeros ∨ description ≠ [] ∨ recipient ≠ []) := by
  have hamount : (0 : ℚ) < (piconeros : ℚ) / 10 ^ 12 ↔ 0 < piconeros := by
    rw [div_pos_iff_of_pos_right (by positivity), Nat.cast_pos]
  have htext : ∀ name text : List UInt8, textField name text = [] ↔ text = [] := by
    intro name text
    cases text <;> simp [textField]
  rw [fields, List.append_eq_nil_iff, List.append_eq_nil_iff, htext, htext,
    amountField, ite_eq_right_iff, hamount]
  simp only [List.cons_ne_nil, imp_false]
  tauto

/-- An address, an amount and two texts are read back when there is something
to write behind the question mark and both texts are plain. -/
theorem uri_round_trip_iff (otherNotation : List UInt8 → Option ℚ)
    {utils : MoneroUtils} {walletType : WalletType} {address : List UInt8}
    (haddress : isValidAddress utils walletType address = true) (piconeros : Nat)
    (description recipient : List UInt8) :
    parseUri otherNotation (makeUri utils walletType address
        ((piconeros : ℚ) / 10 ^ 12) description recipient) =
      .ok ⟨address, (piconeros : ℚ) / 10 ^ 12, description, recipient⟩ ↔
      (0 < piconeros ∨ description ≠ [] ∨ recipient ≠ []) ∧
        PlainText description ∧ PlainText recipient := by
  rw [makeUri_eq haddress, parseUri_query haddress]
  by_cases hnone : fields ((piconeros : ℚ) / 10 ^ 12) description recipient = []
  · rw [if_pos hnone]
    exact iff_of_false (fun h => by cases h)
      fun h => fields_eq_nil_iff.mp hnone h.1
  · rw [if_neg hnone]
    have hsome := not_not.mp (mt fields_eq_nil_iff.mpr hnone)
    by_cases hmem : 38 ∈ description ∨ 38 ∈ recipient
    · refine iff_of_false (fun h => ?_) fun h => ?_
      · rcases parseFields_ampersand h hmem with hless | hless <;>
          exact absurd hless (lt_irrefl _)
      · exact hmem.elim h.2.1.1 h.2.2.1
    · rw [not_or] at hmem
      rw [parseFields_plain piconeros hmem.1 hmem.2, Except.ok.injEq,
        Payment.mk.injEq, urlDecode_swapSpaces_iff, urlDecode_swapSpaces_iff]
      exact ⟨fun h => ⟨hsome, ⟨hmem.1, h.2.2.1⟩, hmem.2, h.2.2.2⟩,
        fun h => ⟨rfl, rfl, h.2.1.2, h.2.2.2⟩⟩

end RoundTrip

/-! ## A recipient that sets the amount -/

def donationAddress : List UInt8 :=
  chars "83QbQvnnyo7515rEnW8XwF1hbP5qMab6sHXFzP6pg3EKGscgXCbVjbt1FX5SF7AV9p4Ur1tiommuQSzrQQRHkZicVYu6j8Y"

theorem donationAddress_base58 :
    ∀ address, decide (address = donationAddress) = true →
      ∀ byte ∈ address, byte ∈ base58Alphabet := by
  intro address haddress
  rw [of_decide_eq_true haddress]
  decide +kernel

/-- Only one address is valid. -/
def donationUtils : MoneroUtils where
  isValidAddress address := decide (address = donationAddress)
  base58 := donationAddress_base58

theorem donationAddress_valid :
    isValidAddress donationUtils .monero donationAddress = true := by
  decide

theorem uri_round_trip_iff_donation :
    isValidAddress donationUtils .monero donationAddress = true ∧
      parseUri (fun _ => none) (makeUri donationUtils .monero donationAddress
        ((1500000000000 : Nat) / 10 ^ 12) (chars "two cups") (chars "Bob=Co")) =
        .ok ⟨donationAddress, (1500000000000 : Nat) / 10 ^ 12, chars "two cups",
          chars "Bob=Co"⟩ :=
  ⟨donationAddress_valid, (uri_round_trip_iff (fun _ => none) donationAddress_valid
    1500000000000 (chars "two cups") (chars "Bob=Co")).mpr
      ⟨.inl (by decide), by unfold PlainText; decide,
        by unfold PlainText; decide⟩⟩

/-- The text behind the ampersand is read as an amount. -/
theorem parse_uri_recipient_sets_amount :
    isValidAddress donationUtils .monero donationAddress = true ∧
      (parseUri (fun _ => none) (makeUri donationUtils .monero donationAddress
        1 [] (chars "Bob&tx_amount=5"))).toOption =
        some ⟨donationAddress, 5, [], chars "Bob"⟩ := by
  decide +kernel

end Neroshop.Wallet.Uri
