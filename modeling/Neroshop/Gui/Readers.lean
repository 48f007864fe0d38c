import Neroshop.Gui.Rows
import Neroshop.Node.Succession

/-!
# The readers of accepted documents

The readers share one loop and differ in the kind of the documents and in the
members they fetch.  None catches what `get` throws, so one document with a
member of another type ends a reader, and the well-formed ones are not shown.
-/

namespace Neroshop.Gui

open Neroshop.Foundation Neroshop.Node Neroshop.Rpc

section Readers

variable (env : Externals) (desktop : Desktop)

def Desktop.keys (content : String) (searchTerm : Option String) :
    List String :=
  if desktop.prepares then selectKeys desktop.mappings content searchTerm
  else []

def readListings (view : ListingView) (searchTerm : Option String) :
    Session (List Row) :=
  readKeys desktop.lookup .blank
    (fun key => readDocument env "listing" (readShownListing desktop view key))
    (desktop.keys "listing" searchTerm)

def getListings (hideNsfw hideIllicit : Bool) : Session (List Row) :=
  readListings env desktop ⟨true, true, hideNsfw, hideIllicit⟩ none

/-- The category is the name of the category that is asked for. -/
def getListingsByCategory (category : String) (hideNsfw hideIllicit : Bool) :
    Session (List Row) :=
  readListings env desktop ⟨true, false, hideNsfw, hideIllicit⟩ (some category)

def getInventory (userId : String) (hideNsfw hideIllicit : Bool) :
    Session (List Row) :=
  readListings env desktop ⟨false, true, hideNsfw, hideIllicit⟩ (some userId)

def getSellerRatings (userId : String) : Session (List Row) :=
  readKeys desktop.lookup .blank
    (fun key => readDocument env "seller_rating" (readRating "score" false key))
    (desktop.keys "seller_rating" (some userId))

/-- Here, and nowhere else, a `parse_error` is caught. -/
def readProductRating (key value : String) : Except Fault (Option Row) :=
  match env.parse value with
  | .error .parseError => .ok none
  | _ =>
      readDocument env "product_rating" (readRating "stars" true key) value

def getProductRatings (productId : String) : Session (List Row) :=
  readKeys desktop.lookup .blank (readProductRating env)
    (desktop.keys "product_rating" (some productId))

/-- The first key is read, and the object is empty where there is no row. -/
def getUser (userId : String) : Session Row :=
  match (desktop.keys "user" (some userId)).head? with
  | none => pure .blank
  | some key =>
      if key = "" then pure .blank
      else do
        send (.get key)
        match desktop.lookup key with
        | .unreadable => return .blank
        | .missing => do
            send (.remove key)
            return .blank
        | .valueless => return .blank
        | .found value => do
            let row ← ofExcept (readDocument env "user" (readUser key) value)
            return row.getD .blank

def Row.timestamp : Row → String
  | .message row => row.timestamp
  | _ => ""

/-- `Z` is written as an offset before the text is read. -/
def messageInstant (row : Row) : Int :=
  desktop.instant
    (if row.timestamp.endsWith "Z"
      then (row.timestamp.dropEnd 1).toString ++ "+00:00" else row.timestamp)

/-- The most recent message comes first. -/
def getMessages (userId : String) : Session (List Row) := do
  let messages ← readKeys desktop.lookup .blank
    (fun key => readDocument env "message" (readMessage desktop key))
    (desktop.keys "message" (some userId))
  return messages.mergeSort fun first second =>
    messageInstant desktop second ≤ messageInstant desktop first

end Readers

/-! ## One reader for all kinds -/

inductive Reader where
  | listings (hideNsfw hideIllicit : Bool)
  | listingsByCategory (category : String) (hideNsfw hideIllicit : Bool)
  | inventory (userId : String) (hideNsfw hideIllicit : Bool)
  | sellerRatings (userId : String)
  | productRatings (productId : String)
  | user (userId : String)
  | messages (userId : String)
  deriving DecidableEq, Repr

/-- A reader as it is called; `getUser` returns one object. -/
def Reader.run (env : Externals) (desktop : Desktop) :
    Reader → Session (List Row)
  | .listings hideNsfw hideIllicit =>
      getListings env desktop hideNsfw hideIllicit
  | .listingsByCategory category hideNsfw hideIllicit =>
      getListingsByCategory env desktop category hideNsfw hideIllicit
  | .inventory userId hideNsfw hideIllicit =>
      getInventory env desktop userId hideNsfw hideIllicit
  | .sellerRatings userId => getSellerRatings env desktop userId
  | .productRatings productId => getProductRatings env desktop productId
  | .user userId => do return [← getUser env desktop userId]
  | .messages userId => getMessages env desktop userId

def Reader.kind : Reader → String
  | .listings _ _ | .listingsByCategory _ _ _ | .inventory _ _ _ => "listing"
  | .sellerRatings _ => "seller_rating"
  | .productRatings _ => "product_rating"
  | .user _ => "user"
  | .messages _ => "message"

def Reader.searchTerm : Reader → Option String
  | .listings _ _ => none
  | .listingsByCategory category _ _ => some category
  | .inventory userId _ _ => some userId
  | .sellerRatings userId => some userId
  | .productRatings productId => some productId
  | .user userId => some userId
  | .messages userId => some userId

/-- The keys whose values are read: the first one of a user. -/
def Reader.keys (desktop : Desktop) (reader : Reader) : List String :=
  match reader with
  | .user userId => (desktop.keys "user" (some userId)).head?.toList
  | _ => desktop.keys reader.kind reader.searchTerm

def Reader.readRow (desktop : Desktop) (key : String) :
    Reader → Json → Except Fault (Option Row)
  | .listings hideNsfw hideIllicit =>
      readShownListing desktop ⟨true, true, hideNsfw, hideIllicit⟩ key
  | .listingsByCategory _ hideNsfw hideIllicit =>
      readShownListing desktop ⟨true, false, hideNsfw, hideIllicit⟩ key
  | .inventory _ hideNsfw hideIllicit =>
      readShownListing desktop ⟨false, true, hideNsfw, hideIllicit⟩ key
  | .sellerRatings _ => readRating "score" false key
  | .productRatings _ => readRating "stars" true key
  | .user _ => readUser key
  | .messages _ => readMessage desktop key

def Reader.read (env : Externals) (desktop : Desktop) (reader : Reader)
    (key value : String) : Except Fault (Option Row) :=
  readDocument env reader.kind (reader.readRow desktop key) value

def Reader.Readable (desktop : Desktop) : Reader → Json → Prop
  | .listings _ _ | .listingsByCategory _ _ _ | .inventory _ _ _ =>
      ListingReadable
  | .sellerRatings _ => RatingReadable "score"
  | .productRatings _ => RatingReadable "stars"
  | .user _ => UserReadable
  | .messages _ => MessageReadable desktop

section Reading

variable {env : Externals} {desktop : Desktop} {reader : Reader}
  {key value metadata : String} {json : Json}

theorem yields_readRow (hobject : json.isObject = true) :
    Yields (reader.readRow desktop key json) ↔
      reader.Readable desktop json := by
  cases reader with
  | listings => exact yields_readShownListing hobject
  | listingsByCategory => exact yields_readShownListing hobject
  | inventory => exact yields_readShownListing hobject
  | sellerRatings => exact yields_readRating hobject
  | productRatings => exact yields_readRating hobject
  | user => exact yields_readUser hobject
  | messages => exact yields_readMessage hobject

theorem yields_read (haccepted : Accepted env key value json metadata) :
    Yields (reader.read env desktop key value) ↔
      (metadata = reader.kind → reader.Readable desktop json) := by
  rw [Reader.read, readDocument_of_parse haccepted.parsed haccepted.kind]
  by_cases hkind : metadata = reader.kind
  · simp [hkind, yields_readRow haccepted.isObject]
  · simp [hkind]

/-- What the node has accepted is parsed, so nothing is caught. -/
theorem readProductRating_of_accepted {productId : String}
    (haccepted : Accepted env key value json metadata) :
    readProductRating env key value =
      (Reader.productRatings productId).read env desktop key value := by
  rw [readProductRating, haccepted.parsed]
  rfl

theorem getUser_of_found {userId : String}
    (hkey : (desktop.keys "user" (some userId)).head? = some key)
    (hname : key ≠ "") (hfound : desktop.lookup key = .found value) :
    getUser env desktop userId =
      send (.get key) >>= fun _ =>
        ofExcept ((Reader.user userId).read env desktop key value) >>=
          fun row => pure (row.getD .blank) := by
  rw [getUser, hkey]
  dsimp only
  rw [if_neg hname, hfound]
  rfl

theorem returns_getUser_of_missing {userId : String}
    (hmissing : ∀ key ∈ (Reader.user userId).keys desktop, ∀ value,
      desktop.lookup key ≠ .found value) :
    Returns (getUser env desktop userId) [] := by
  rw [getUser]
  rw [Reader.keys] at hmissing
  cases hkey : (desktop.keys "user" (some userId)).head? with
  | none => exact returns_pure _
  | some key =>
      dsimp only
      by_cases hname : key = ""
      · rw [if_pos hname]
        exact returns_pure _
      rw [if_neg hname, returns_send_bind]
      cases hlookup : desktop.lookup key with
      | unreadable | missing | valueless => exact returns_pure _
      | found value => exact absurd hlookup (hmissing key (by simp [hkey]) value)

theorem shows_getUser_of_found {userId : String}
    (hkey : (desktop.keys "user" (some userId)).head? = some key)
    (hname : key ≠ "") (hfound : desktop.lookup key = .found value) :
    Shows desktop.lookup ((Reader.user userId).read env desktop) [key]
        ((Reader.user userId).run env desktop) ↔
      FoundRead desktop.lookup ((Reader.user userId).read env desktop)
        [key] := by
  have hrun : (Reader.user userId).run env desktop =
      getUser env desktop userId >>= fun row => pure [row] := rfl
  rw [hrun, getUser_of_found hkey hname hfound]
  constructor
  · intro h
    have hreturns := h.returns
    rw [returns_bind_pure, returns_send_bind, returns_ofExcept_bind] at hreturns
    obtain ⟨row, hread, -⟩ := hreturns
    intro other hother text hlookup
    cases List.mem_singleton.mp hother
    cases hfound.symm.trans hlookup
    exact ⟨row, hread⟩
  · intro h
    obtain ⟨row, hread⟩ := h key (by simp) value hfound
    refine ⟨[row.getD .blank], [.get key], ?_, ?_⟩
    · rw [hread]
      rfl
    · intro other hother text shown hlookup hshown
      cases List.mem_singleton.mp hother
      cases hfound.symm.trans hlookup
      cases hread.symm.trans hshown
      simp

theorem shows_getUser {userId : String}
    (hnames : ∀ key ∈ (Reader.user userId).keys desktop, ∀ value,
      desktop.lookup key = .found value → key ≠ "") :
    Shows desktop.lookup ((Reader.user userId).read env desktop)
        ((Reader.user userId).keys desktop)
        ((Reader.user userId).run env desktop) ↔
      FoundRead desktop.lookup ((Reader.user userId).read env desktop)
        ((Reader.user userId).keys desktop) := by
  by_cases hmissing : ∀ key ∈ (Reader.user userId).keys desktop, ∀ value,
      desktop.lookup key ≠ .found value
  · have hreturns : Returns ((Reader.user userId).run env desktop) [] :=
      returns_bind_pure.mpr (returns_getUser_of_missing hmissing)
    exact iff_of_true (shows_of_returns hmissing hreturns)
      (foundRead_of_missing hmissing)
  push Not at hmissing
  obtain ⟨key, hmem, value, hfound⟩ := hmissing
  have hkey : (desktop.keys "user" (some userId)).head? = some key := by
    simpa [Reader.keys] using hmem
  have hkeys : (Reader.user userId).keys desktop = [key] := by
    rw [Reader.keys, hkey]
    rfl
  rw [hkeys]
  exact shows_getUser_of_found hkey (hnames key hmem value hfound) hfound

theorem shows_run (reader : Reader)
    (hfound : ∀ key ∈ reader.keys desktop, ∀ value,
      desktop.lookup key = .found value →
        ∃ json metadata, Accepted env key value json metadata) :
    Shows desktop.lookup (reader.read env desktop) (reader.keys desktop)
        (reader.run env desktop) ↔
      FoundRead desktop.lookup (reader.read env desktop)
        (reader.keys desktop) := by
  have hnames : ∀ key ∈ reader.keys desktop, ∀ value,
      desktop.lookup key = .found value → key ≠ "NULL" ∧ key ≠ "" := by
    intro key hkey value hvalue
    obtain ⟨json, metadata, haccepted⟩ := hfound key hkey value hvalue
    constructor
    · rintro rfl
      exact absurd haccepted.keyLength (by decide)
    · rintro rfl
      exact absurd haccepted.keyLength (by decide)
  have hnull : ∀ key ∈ reader.keys desktop, ∀ value,
      desktop.lookup key = .found value → key ≠ "NULL" :=
    fun key hkey value hvalue => (hnames key hkey value hvalue).1
  cases reader with
  | listings => exact shows_readKeys hnull
  | listingsByCategory => exact shows_readKeys hnull
  | inventory => exact shows_readKeys hnull
  | sellerRatings => exact shows_readKeys hnull
  | productRatings productId =>
      rw [Reader.run, getProductRatings, readKeys_congr _ fun key hkey value
        hvalue => ?_]
      · exact shows_readKeys hnull
      obtain ⟨json, metadata, haccepted⟩ := hfound key hkey value hvalue
      exact readProductRating_of_accepted haccepted
  | user =>
      exact shows_getUser fun key hkey value hvalue =>
        (hnames key hkey value hvalue).2
  | messages =>
      exact shows_arranged hnull fun rows row hrow =>
        List.mem_mergeSort.mpr hrow

end Reading

/-! ## A rating whose score is a text -/

def malformedText : String :=
  "\x7b\"comments\":\"Shipped fast\",\"metadata\":\"seller_rating\"," ++
    "\"rater_id\":\"" ++ raterId ++ "\",\"score\":\"1\",\"seller_id\":\"" ++
    sellerId ++ "\",\"signature\":\"" ++ firstSignature ++
    "\",\"timestamp\":\"2024-01-01T00:00:00Z\"\x7d"

def malformedDocument : Json :=
  .object [("comments", .string "Shipped fast"),
    ("metadata", .string "seller_rating"), ("rater_id", .string raterId),
    ("score", .string "1"), ("seller_id", .string sellerId),
    ("signature", .string firstSignature),
    ("timestamp", .string "2024-01-01T00:00:00Z")]

def malformedKey : String :=
  "0b5e6a9c7d1f4e2f8a3b6c5d9e0f1a2b4c7d8e9f0a1b3c5d6e7f8a9b0c2d4e6f"

def readerExternals : Externals :=
  .ofSignatures
    [(ratingText sellerId firstSignature,
        ratingDocument sellerId firstSignature),
     (malformedText, malformedDocument)]
    [("Shipped fast", raterId, firstSignature)]

/-- A client of the node with these tables, whose mappings are its own. -/
def Desktop.ofTables (tables : Store) : Desktop where
  lookup key :=
    match tables.data.lookup key with
    | some value => .found value
    | none => .missing
  mappings := tables.mappings
  prepares := true
  toDouble count := count
  getPrice _ := 0
  quotient first second := first / second
  base64Read _ := (-1, [])
  rsaPrivateDecrypt _ := []
  verifyMessage _ _ _ := .ok false
  instant _ := 0

def ratedRow : Mapping := ⟨sellerId, ratingKey, "seller_rating"⟩

def malformedRow : Mapping := ⟨sellerId, malformedKey, "seller_rating"⟩

def ratedTables : Store := { ratedStore with mappings := [ratedRow] }

def spoiledTables : Store :=
  { ratedTables.insertData malformedKey malformedText with
    mappings := [ratedRow, malformedRow] }

end Neroshop.Gui
