import Neroshop.Node.Indexing
import Neroshop.Node.Succession

/-!
# Display names

The id and the display name of a user are terms of the same kind, which the
reader tells apart by their length.  The index keeps the names of all versions
of an account, and the first row that is found has the oldest one.
-/

namespace Neroshop.Gui

open Neroshop.Foundation Neroshop.Node

/-- `get_text_params`: the column of the first row, empty where there is none. -/
def getTextParams (column : Mapping → String) (condition : Mapping → Bool)
    (mappings : List Mapping) : String :=
  ((mappings.find? condition).map column).getD ""

def getDisplayNameByUserId (mappings : List Mapping) (userId : String) :
    String :=
  let key := getTextParams Mapping.key
    (fun row => row.searchTerm = userId ∧ row.content = "user") mappings
  if key = "" then userId
  else
    let displayName := getTextParams Mapping.searchTerm
      (fun row => row.key = key ∧ row.searchTerm.length ≤ 30 ∧
        row.content = "user") mappings
    if displayName ≠ "" then displayName else userId

/-! ## Histories of accounts -/

/-- The versions of all accounts, the oldest one first; each user keeps one
key. -/
structure AccountHistory (env : Externals) extends Indexed env "user" where
  sameKey : ∀ version ∈ documents, ∀ other ∈ documents,
    version.json.string? "monero_address" =
      other.json.string? "monero_address" → version.key = other.key

section Histories

variable {env : Externals}

/-- The latest version of the account of a user. -/
def AccountHistory.latest (history : AccountHistory env) (userId : String) :
    Option StoredDocument :=
  (history.documents.filter fun version =>
    version.json.string? "monero_address" = some userId).getLast?

/-- The first display name under a key. -/
def AccountHistory.firstName (history : AccountHistory env) (key : String) :
    Option String :=
  history.documents.findSome? fun version =>
    if version.key = key then version.json.string? "display_name" else none

/-- What is returned for a user when all versions are indexed. -/
def AccountHistory.Returns (history : AccountHistory env) (clock : Int)
    (userId name : String) : Prop :=
  ∃ mapper mappings,
    indexDocuments env clock history.others history.documents =
        .ok (mapper, mappings) ∧
      getDisplayNameByUserId mappings userId = name

/-! ## Ids and names -/

theorem address_of_accepted {key value : String} {json : Json}
    (haccepted : Accepted env key value json "user") :
    ∃ address, json.string? "monero_address" = some address ∧
      env.isValidAddress address = true := by
  obtain ⟨result, hresult, hsigned⟩ := verify_signed haccepted.parsed
    haccepted.isObject haccepted.kind (by decide) (by decide)
  cases haccepted.verified.symm.trans hresult
  obtain ⟨_, address, _, -, haddress, -, hvalid, -⟩ := hsigned.mp rfl
  exact ⟨address, haddress, hvalid⟩

theorem length_of_validUsername {name : String}
    (hvalid : isValidUsername name = true) :
    name ≠ "" ∧ name.length ≤ 30 := by
  rw [isValidUsername] at hvalid
  cases hfirst : name.toList with
  | nil =>
      rw [hfirst] at hvalid
      cases hvalid
  | cons first rest =>
      rw [hfirst] at hvalid
      dsimp only at hvalid
      cases hlast : rest.reverse with
      | nil =>
          rw [hlast] at hvalid
          cases hvalid
      | cons last middle =>
          rw [hlast] at hvalid
          have hmiddle : middle.length ≤ 28 := by
            simp only [Bool.and_eq_true, decide_eq_true_eq] at hvalid
            exact hvalid.2
          have hlength : name.length = rest.reverse.length + 1 := by
            rw [← String.length_toList, hfirst, List.length_cons,
              List.length_reverse]
          rw [hlast, List.length_cons] at hlength
          refine ⟨?_, by omega⟩
          rintro rfl
          cases hfirst

theorem of_not_rejected {check : Except Fault Bool}
    {rest : Except Fault Bool}
    (h : (check >>= fun rejected => if rejected = true then pure false
      else rest) = .ok true) : rest = .ok true := by
  obtain ⟨rejected, -, h⟩ := bind_eq_ok.mp h
  cases rejected with
  | false => exact h
  | true => cases h

theorem validateDisplayName_of_validateUser {json name : Json}
    (hvalid : validateUser json = .ok true)
    (hname : json.find? "display_name" = some name) :
    validateDisplayName name = .ok true := by
  have hcontains : json.contains "display_name" = true :=
    Json.contains_eq_true.mpr ⟨name, hname⟩
  have hobject := Json.isObject_of_contains hcontains
  rw [validateUser] at hvalid
  have hrest := of_not_rejected (of_not_rejected (of_not_rejected
    (of_not_rejected hvalid)))
  dsimp only at hrest
  have hindex : json.index "display_name" = .ok name := by
    rw [Json.index_of_isObject hobject, hname]
    rfl
  rw [if_pos hcontains, hindex] at hrest
  have hchecked : (validateDisplayName name >>= fun valid =>
      if (!valid) = true then pure false else pure true) = .ok true := by
    by_cases havatar : json.contains "avatar" = true
    · rw [if_pos havatar] at hrest
      obtain ⟨avatar, -, hrest⟩ := bind_eq_ok.mp hrest
      obtain ⟨valid, -, hrest⟩ := bind_eq_ok.mp hrest
      cases valid with
      | false => cases hrest
      | true => exact hrest
    · rw [if_neg havatar] at hrest
      exact hrest
  obtain ⟨valid, hvalidated, hchecked⟩ := bind_eq_ok.mp hchecked
  cases valid with
  | false => cases hchecked
  | true => exact hvalidated

theorem name_of_accepted {key value name : String} {json : Json}
    (haccepted : Accepted env key value json "user")
    (hname : json.string? "display_name" = some name) :
    name ≠ "" ∧ name.length ≤ 30 := by
  have hvalid := haccepted.fields
  rw [validateFields_eq haccepted.parsed haccepted.isObject haccepted.kind,
    if_pos rfl] at hvalid
  have hchecked := validateDisplayName_of_validateUser hvalid
    (Json.string?_eq_some.mp hname)
  apply length_of_validUsername
  by_contra hinvalid
  rw [validateDisplayName] at hchecked
  simp [Json.isString, Json.getString, hinvalid, bind, Except.bind, pure,
    Except.pure] at hchecked

theorem rows_user (version : StoredDocument) :
    version.rows "user" =
      (version.json.string? "monero_address").toList.map
          (fun address => ⟨address, version.key, "user"⟩) ++
        (version.json.string? "display_name").toList.map
          (fun name => ⟨name, version.key, "user"⟩) := by
  rw [StoredDocument.rows, termsOf, searchTerms, memberTerm, memberTerm]
  cases version.json.string? "monero_address" <;>
    cases version.json.string? "display_name" <;> rfl

theorem hasTerm_user (version : StoredDocument) {text : String} :
    version.hasTerm "user" text = true ↔
      version.json.string? "monero_address" = some text ∨
        version.json.string? "display_name" = some text := by
  rw [StoredDocument.hasTerm_iff]
  simp [searchTerms, memberTerm, exists_or]

theorem findSome?_congr {Item Value : Type} {items : List Item}
    {first second : Item → Option Value}
    (h : ∀ item ∈ items, first item = second item) :
    items.findSome? first = items.findSome? second := by
  induction items with
  | nil => rfl
  | cons item items ih =>
      obtain ⟨hitem, hrest⟩ := List.forall_mem_cons.mp h
      rw [List.findSome?_cons, List.findSome?_cons, hitem, ih hrest]

/-! ## What the reader finds -/

variable (hlong : ∀ address, env.isValidAddress address = true →
  30 < address.length)

section Reading

variable (history : AccountHistory env) {userId : String}
  {latest : StoredDocument} (hlatest : history.latest userId = some latest)

include hlatest

theorem AccountHistory.mem_latest :
    latest ∈ history.documents ∧
      latest.json.string? "monero_address" = some userId := by
  obtain ⟨hmem, haddress⟩ := List.mem_filter.mp
    (List.mem_of_getLast? hlatest)
  exact ⟨hmem, of_decide_eq_true haddress⟩

include hlong

theorem AccountHistory.length_userId : 30 < userId.length := by
  obtain ⟨hmem, haddress⟩ := history.mem_latest hlatest
  obtain ⟨address, hsame, hvalid⟩ :=
    address_of_accepted (history.accepted latest hmem)
  cases hsame.symm.trans haddress
  exact hlong _ hvalid

/-- No name is as long as an id, so the key that is found is the user's own. -/
theorem AccountHistory.key_of_userId :
    getTextParams Mapping.key
      (fun row => row.searchTerm = userId ∧ row.content = "user")
      history.mappings = latest.key := by
  obtain ⟨hmem, haddress⟩ := history.mem_latest hlatest
  have hlength := history.length_userId hlong hlatest
  have hcontent : ∀ row : Mapping,
      decide (row.searchTerm = userId ∧ row.content = "user") = true →
        row.content = "user" :=
    fun row htest => (of_decide_eq_true htest).2
  rw [getTextParams, history.find?_mappings hcontent]
  cases hfound : history.rows.find? fun row =>
      row.searchTerm = userId ∧ row.content = "user" with
  | none =>
      have hrow : (⟨userId, latest.key, "user"⟩ : Mapping) ∈ history.rows := by
        refine history.mem_rows.mpr ⟨rfl, latest, hmem, rfl, ?_⟩
        refine StoredDocument.hasTerm_iff.mpr ⟨.userIds, ?_⟩
        simp [searchTerms, memberTerm, haddress]
      exact absurd (decide_eq_true ⟨rfl, rfl⟩)
        (List.find?_eq_none.mp hfound _ hrow)
  | some row =>
      have htest := List.find?_some hfound
      obtain ⟨hterm, -⟩ := of_decide_eq_true htest
      obtain ⟨-, version, hversion, hkey, hterms⟩ :=
        history.mem_rows.mp (List.mem_of_find?_eq_some hfound)
      rw [hterm] at hterms
      change row.key = latest.key
      rw [← hkey]
      apply history.sameKey version hversion latest hmem
      rw [haddress]
      rcases (hasTerm_user version).mp hterms with hsame | hname
      · exact hsame
      · have hshort := (name_of_accepted (history.accepted version hversion)
          hname).2
        omega

omit hlatest in
/-- Of the rows of a version only that of the name is short enough. -/
theorem find?_name {version : StoredDocument}
    (haccepted : Accepted env version.key version.value version.json "user")
    (key : String) :
    ((version.rows "user").find? fun row => row.key = key ∧
        row.searchTerm.length ≤ 30 ∧ row.content = "user").map
          Mapping.searchTerm =
      if version.key = key then version.json.string? "display_name"
      else none := by
  obtain ⟨address, haddress, hvalid⟩ := address_of_accepted haccepted
  have haddressed := hlong address hvalid
  rw [rows_user, haddress]
  cases hname : version.json.string? "display_name" with
  | none => simp [haddressed]
  | some name =>
      have hshort := (name_of_accepted haccepted hname).2
      by_cases hkey : version.key = key
      · simp [haddressed, hkey, hshort]
      · simp [hkey]

omit hlatest in
/-- The names under a key are met from the oldest on. -/
theorem AccountHistory.name_of_key (key : String) :
    getTextParams Mapping.searchTerm
      (fun row => row.key = key ∧ row.searchTerm.length ≤ 30 ∧
        row.content = "user") history.mappings =
      (history.firstName key).getD "" := by
  have hcontent : ∀ row : Mapping,
      decide (row.key = key ∧ row.searchTerm.length ≤ 30 ∧
        row.content = "user") = true → row.content = "user" :=
    fun row htest => (of_decide_eq_true htest).2.2
  rw [getTextParams, history.find?_mappings hcontent, Indexed.rows,
    List.find?_flatMap, List.map_findSome?, AccountHistory.firstName]
  refine congrArg (Option.getD · "") (findSome?_congr fun version hversion => ?_)
  exact find?_name hlong (history.accepted version hversion) key

omit hlong hlatest in
theorem AccountHistory.firstName_of_some {key name : String}
    (hfirst : history.firstName key = some name) :
    name ≠ "" ∧ name.length ≤ 30 := by
  obtain ⟨version, hversion, hname⟩ := List.exists_of_findSome?_eq_some hfirst
  split at hname
  · exact name_of_accepted (history.accepted version hversion) hname
  · cases hname

theorem AccountHistory.getDisplayName_eq :
    getDisplayNameByUserId history.mappings userId =
      (history.firstName latest.key).getD userId := by
  obtain ⟨hmem, -⟩ := history.mem_latest hlatest
  have hkey : latest.key ≠ "" := by
    intro hempty
    exact absurd (hempty ▸ (history.accepted latest hmem).keyLength) (by decide)
  rw [getDisplayNameByUserId, history.key_of_userId hlong hlatest]
  dsimp only
  rw [if_neg hkey, history.name_of_key hlong]
  cases hfirst : history.firstName latest.key with
  | none => rfl
  | some name => exact if_pos (history.firstName_of_some hfirst).1

theorem AccountHistory.returns_iff (clock : Int) {name : String} :
    history.Returns clock userId name ↔
      (history.firstName latest.key).getD userId = name := by
  rw [AccountHistory.Returns, history.indexDocuments_eq,
    ← history.getDisplayName_eq hlong hlatest]
  constructor
  · rintro ⟨mapper, mappings, hindex, hname⟩
    obtain ⟨-, rfl⟩ := Prod.mk.inj (Except.ok.inj hindex)
    exact hname
  · intro hname
    exact ⟨[], history.mappings, rfl, hname⟩

end Reading

end Histories

/-! ## A user who takes another name -/

structure SampleAccount where
  key : String
  date : String
  name : String
  address : String
  deriving DecidableEq

namespace SampleAccount

variable (account : SampleAccount)

def text : String :=
  "\x7b\"created_at\":\"" ++ account.date ++ "\",\"display_name\":\"" ++
    account.name ++ "\",\"metadata\":\"user\",\"monero_address\":\"" ++
    account.address ++ "\",\"public_key\":\"\",\"signature\":\"" ++
    firstSignature ++ "\"\x7d"

def document : Json :=
  .object [("created_at", .string account.date),
    ("display_name", .string account.name), ("metadata", .string "user"),
    ("monero_address", .string account.address), ("public_key", .string ""),
    ("signature", .string firstSignature)]

def version : StoredDocument := ⟨account.key, account.text, account.document⟩

end SampleAccount

def alice : SampleAccount where
  key := "7c4a8d09ca3762af61e59520943dc26494f8941b7f3e2a1d0c9b8a7f6e5d4c3b"
  date := "2024-01-01T00:00:00Z"
  name := "alice"
  address := raterId

def laterAlice : SampleAccount := { alice with date := "2024-02-01T00:00:00Z" }

def alicia : SampleAccount := { laterAlice with name := "alicia" }

def bob : SampleAccount where
  key := "81b637d8fcd2c6da6359e6963113a1170de795e4b725b84d1e0b4cfd9ec58ce9"
  date := "2024-01-15T00:00:00Z"
  name := "bob"
  address := sellerId

def sampleAccounts : List SampleAccount := [alice, laterAlice, alicia, bob]

def accountExternals : Externals :=
  .ofSignatures
    (sampleAccounts.map fun account => (account.text, account.document))
    [(raterId, raterId, firstSignature), (sellerId, sellerId, firstSignature)]

theorem lookup_sampleAccount {accounts : List SampleAccount}
    (h : ∀ account ∈ accounts, ∀ other ∈ accounts,
      account.text = other.text → account = other)
    {account : SampleAccount} (haccount : account ∈ accounts) :
    (accounts.map fun account => (account.text, account.document)).lookup
      account.text = some account.document := by
  induction accounts with
  | nil => cases haccount
  | cons first accounts ih =>
      rw [List.map_cons, List.lookup_cons]
      by_cases htext : account.text = first.text
      · rw [h account haccount first List.mem_cons_self htext, beq_self_eq_true]
      · rw [beq_eq_false_iff_ne.mpr htext]
        refine ih (fun other hother => ?_) ?_
        · exact fun another hanother => h other (.tail _ hother) another
            (.tail _ hanother)
        · rcases List.mem_cons.mp haccount with rfl | hmem
          · exact absurd rfl htext
          · exact hmem

theorem parse_sampleAccounts : ∀ account ∈ sampleAccounts,
    accountExternals.parse account.text = .ok account.document := by
  have hdistinct : ∀ account ∈ sampleAccounts, ∀ other ∈ sampleAccounts,
      account.text = other.text → account = other := by
    decide +kernel
  intro account haccount
  change parseListed _ _ = _
  rw [parseListed, lookup_sampleAccount hdistinct haccount]

theorem accepted_sampleAccounts : ∀ account ∈ sampleAccounts,
    Accepted accountExternals account.key account.text account.document
      "user" := by
  intro account haccount
  have hparsed := parse_sampleAccounts account haccount
  simp only [sampleAccounts, List.mem_cons, List.not_mem_nil, or_false] at haccount
  rcases haccount with rfl | rfl | rfl | rfl
  all_goals
    exact {
      keyLength := by decide
      nonempty := by decide
      parsed := hparsed
      isObject := rfl
      kind := by decide
      known := by decide
      fields := by decide +kernel
      verified := by decide +kernel }

/-- These versions, one after the other. -/
def sampleHistory (accounts : List SampleAccount)
    (haccounts : accounts ⊆ sampleAccounts) : AccountHistory accountExternals where
  documents := accounts.map SampleAccount.version
  others := []
  accepted := by
    intro version hversion
    obtain ⟨account, haccount, rfl⟩ := List.mem_map.mp hversion
    exact accepted_sampleAccounts account (haccounts haccount)
  apart := by simp
  sameKey := by
    have hkeys : ∀ account ∈ sampleAccounts, ∀ other ∈ sampleAccounts,
        account.document.string? "monero_address" =
          other.document.string? "monero_address" → account.key = other.key := by
      decide +kernel
    intro version hversion other hother
    obtain ⟨account, haccount, rfl⟩ := List.mem_map.mp hversion
    obtain ⟨second, hsecond, rfl⟩ := List.mem_map.mp hother
    exact hkeys account (haccounts haccount) second (haccounts hsecond)

theorem long_account : ∀ address,
    accountExternals.isValidAddress address = true → 30 < address.length := by
  intro address hvalid
  obtain ⟨signed, hsigned, haddress⟩ := List.any_eq_true.mp hvalid
  rw [← of_decide_eq_true haddress]
  rcases List.mem_cons.mp hsigned with rfl | hsecond
  · decide
  · rw [List.mem_singleton.mp hsecond]
    decide

def renamedHistory : AccountHistory accountExternals :=
  sampleHistory [alice, bob, alicia] (by decide)

theorem latest_alicia : renamedHistory.latest raterId = some alicia.version := by
  have hother : sellerId ≠ raterId := by decide
  simp [AccountHistory.latest, renamedHistory, sampleHistory, SampleAccount.version,
    SampleAccount.document, alice, laterAlice, alicia, bob, Json.string?,
    Json.find?, List.lookup_cons, hother]

def keptHistory : AccountHistory accountExternals :=
  sampleHistory [alice, bob, laterAlice] (by decide)

theorem latest_laterAlice :
    keptHistory.latest raterId = some laterAlice.version := by
  have hother : sellerId ≠ raterId := by decide
  simp [AccountHistory.latest, keptHistory, sampleHistory, SampleAccount.version,
    SampleAccount.document, alice, laterAlice, bob, Json.string?, Json.find?,
    List.lookup_cons, hother]

end Neroshop.Gui
