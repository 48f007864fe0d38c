import Mathlib.Algebra.BigOperators.Ring.Finset
import Mathlib.Algebra.Order.BigOperators.Group.List
import Mathlib.Algebra.Order.Group.Int
import Mathlib.Data.UInt
import Neroshop.Foundation.Keyed
import Neroshop.Foundation.Transition
import Neroshop.Market.Listing

/-!
# The cart

A cart is in memory, as `contents`, and in the rows of `cart_item` that carry
its id, and every change is made to both by hand.  What a listing has in stock
is whatever its lookup reports at the time.
-/

namespace Neroshop.Market

open Neroshop.Foundation Neroshop.Node Neroshop.Rpc

/-! ## Numbers -/

/-- The values of an `int`. -/
def FitsInt (number : Int) : Prop := -2 ^ 31 ≤ number ∧ number < 2 ^ 31

instance (number : Int) : Decidable (FitsInt number) := by
  unfold FitsInt
  infer_instance

/-- The conversion of any integer to `int`. -/
def toInt (number : Int) : Int := number.bmod (2 ^ 32)

theorem toInt_of_fits {number : Int} (h : FitsInt number) :
    toInt number = number := by
  obtain ⟨hlow, hhigh⟩ := h
  exact Int.bmod_eq_of_le (by omega) (by omega)

/-- The conversion of any integer to `unsigned int`. -/
def toUnsigned (number : Int) : UInt32 := UInt32.ofInt number

theorem toUnsigned_toInt (quantity : UInt32) :
    toUnsigned (toInt quantity.toNat) = quantity := by
  have hlt := quantity.toNat_lt
  refine UInt32.toNat_inj.mp ?_
  rw [toUnsigned, toInt, UInt32.ofInt, UInt32.toNat_ofNat', Int.bmod_def]
  split <;> omega

/-! ## What a lookup reports -/

/-- The name that is logged: `product.name` where `product` is an object. -/
def itemName (listing : Json) (listingKey : String) : Except Fault String :=
  match listing.find? "product" with
  | some product =>
      if product.isObject then fetchString product "name" else .ok listingKey
  | none => .ok listingKey

def sellerOf (listing : Json) : Except Fault (Option String) :=
  if listing.contains "seller_id" then do
    return some (← fetchString listing "seller_id")
  else return none

def stockAvailable (listing : Json) : Except Fault Int :=
  if listing.contains "quantity" then fetchInt listing "quantity" else return 0

/-! ## The state -/

structure CartItem where
  key : String
  quantity : UInt32
  sellerId : String
  deriving DecidableEq

/-- A row of `cart_item` that belongs to the cart. -/
structure CartRow where
  listingKey : String
  quantity : Int
  sellerId : String
  deriving DecidableEq

def CartItem.entry (item : CartItem) : String × Int :=
  (item.key, item.quantity.toNat)

def CartRow.entry (row : CartRow) : String × Int :=
  (row.listingKey, row.quantity)

structure Cart where
  id : String
  ownerId : String
  contents : List CartItem
  /-- The `uuid` of the user's row of `cart`. -/
  uuid : Option String
  rows : List CartRow
  /-- `load` has been called, or there was nothing to load. -/
  loaded : Bool
  /-- The stock reported when the quantity of a listing was last set. -/
  stockSeen : String → Int
  /-- An index outside the contents, an iterator that `erase` has made invalid,
  or a sum that is no `int` has been used. -/
  undefined : Bool

inductive CartError where
  | ok
  | full
  | itemOutOfStock
  | itemQuantitySurpassed
  | itemQuantityNotSpecified
  | sellerAddOwnItem

inductive Ending (Value : Type) where
  | returns (value : Value)
  | throws (fault : Fault)
  | undefined

def maxItems : Nat := 10

def maxQuantity : UInt32 := 100

namespace Cart

def getQuantity (cart : Cart) : UInt32 :=
  (cart.contents.map CartItem.quantity).sum

def isFull (cart : Cart) : Bool :=
  maxItems ≤ cart.contents.length ∨ maxQuantity ≤ cart.getQuantity

def inCart (cart : Cart) (listingKey : String) : Bool :=
  cart.contents.any (·.key = listingKey)

/-- The number of contents where there is none with the key. -/
def getListingIndex (cart : Cart) (listingKey : String) : Nat :=
  cart.contents.findIdx (·.key = listingKey)

/-- `SELECT quantity`; zero where there is no row. -/
def itemQty (cart : Cart) (listingKey : String) : Int :=
  match cart.rows.find? (·.listingKey = listingKey) with
  | some row => toInt row.quantity
  | none => 0

/-- `SELECT SUM(quantity)`. -/
def cartQty (cart : Cart) : Int :=
  toInt (cart.rows.map CartRow.quantity).sum

/-- `UPDATE cart_item SET quantity`. -/
def updateRow (cart : Cart) (listingKey : String) (quantity : Int) : Cart :=
  { cart with rows := cart.rows.map fun row =>
      if row.listingKey = listingKey then { row with quantity := quantity }
      else row }

/-- The stock that the new quantity was compared with. -/
def see (cart : Cart) (listingKey : String) (stock : Int) : Cart :=
  { cart with stockSeen := Function.update cart.stockSeen listingKey stock }

def setContents (cart : Cart) (index : Nat) (quantity : Int) : Cart :=
  { cart with contents := cart.contents.modify index fun item =>
      { item with quantity := toUnsigned quantity } }

/-- The row is updated, and then `contents[listing_index]`. -/
def setQuantity (cart : Cart) (listingKey : String) (quantity stock : Int) :
    Cart × Ending CartError :=
  let index := cart.getListingIndex listingKey
  let cart := (cart.updateRow listingKey quantity).see listingKey stock
  if index < cart.contents.length then
    (cart.setContents index quantity, .returns .ok)
  else (cart, .undefined)

/-- `INSERT INTO cart_item`, which the index over the keys refuses for a key
that has a row, and the same in memory. -/
def insert (cart : Cart) (listingKey sellerId : String)
    (quantity stock : Int) : Cart :=
  let row := ⟨listingKey, quantity, sellerId⟩
  { cart.see listingKey stock with
    rows := if cart.rows.any (·.listingKey = listingKey) then cart.rows
      else cart.rows ++ [row]
    contents := cart.contents ++ [⟨listingKey, toUnsigned quantity, sellerId⟩] }

/-- A cart is created where the user has none. -/
def withCart (cart : Cart) (generated : String) : Cart :=
  { cart with uuid := some (cart.uuid.getD generated) }

/-- The part of `add` behind the check of the stock. -/
def addInStock (cart : Cart) (listingKey sellerId : String)
    (quantity stock : Int) : Cart × Ending CartError :=
  let itemQty := cart.itemQty listingKey
  if ¬ FitsInt (itemQty + quantity) then (cart, .undefined)
  else if stock < itemQty + quantity then
    if ¬ FitsInt (stock - itemQty) then (cart, .undefined)
    else if stock - itemQty = 0 then (cart, .returns .itemQuantitySurpassed)
    else cart.setQuantity listingKey (itemQty + (stock - itemQty)) stock
  else
    let cartQty := cart.cartQty
    if ¬ FitsInt (cartQty + quantity) then (cart, .undefined)
    else
      let quantity :=
        if maxQuantity < toUnsigned (cartQty + quantity) then
          toInt (maxQuantity - toUnsigned cartQty).toNat
        else quantity
      if cart.inCart listingKey ∧ 0 < quantity then
        cart.setQuantity listingKey (itemQty + quantity) stock
      else (cart.insert listingKey sellerId quantity stock, .returns .ok)

/-- The listing and its seller, as `add` finds them first. -/
def openListing (env : Externals) (listingKey : String) (lookup : Lookup) :
    Except Fault (Json × Option String) := do
  let listing ← getListingObject env lookup
  let _ ← itemName listing listingKey
  return (listing, ← sellerOf listing)

def add (env : Externals) (cart : Cart) (userId listingKey : String)
    (quantity : Int) (lookup : Lookup) (generated : String) :
    Cart × Ending CartError :=
  if quantity < 1 then (cart, .returns .itemQuantityNotSpecified)
  else
    match openListing env listingKey lookup with
    | .error fault => (cart, .throws fault)
    | .ok (listing, sellerId) =>
        if sellerId = some userId then (cart, .returns .sellerAddOwnItem)
        else
          let cart := cart.withCart generated
          if cart.isFull then (cart, .returns .full)
          else
            match stockAvailable listing with
            | .error fault => (cart, .throws fault)
            | .ok stock =>
                if stock = 0 then (cart, .returns .itemOutOfStock)
                else cart.addInStock listingKey (sellerId.getD "") quantity stock

/-- The stock that an item is compared with in `load`. -/
def lookupStock (env : Externals) (listingKey : String) (lookup : Lookup) :
    Except Fault Int := do
  let listing ← getListingObject env lookup
  let _ ← itemName listing listingKey
  stockAvailable listing

/-- The loop of `load` over the contents, of which `done` is behind it. -/
def loadItems (env : Externals) (lookups : String → Lookup) (cart : Cart)
    (done : List CartItem) : List CartItem → Cart × Ending Unit
  | [] => ({ cart with contents := done }, .returns ())
  | item :: items =>
      match lookupStock env item.key (lookups item.key) with
      | .error fault =>
          ({ cart with contents := done ++ item :: items }, .throws fault)
      | .ok stock =>
          if stock = 0 then
            -- the loop would go on with iterators from before the `erase`
            ({ cart with
              rows := cart.rows.filter (·.listingKey ≠ item.key)
              contents := (done ++ item :: items).filter (·.key ≠ item.key) },
              .undefined)
          else
            let quantity := toInt item.quantity.toNat
            let quantity := if stock ≤ quantity then stock else quantity
            loadItems env lookups
              ((cart.updateRow item.key quantity).see item.key stock)
              (done ++ [{ item with quantity := toUnsigned quantity }]) items

def load (env : Externals) (cart : Cart) (userId : String)
    (selected : List CartRow) (lookups : String → Lookup) :
    Cart × Ending Unit :=
  let items := selected.map fun row =>
    ⟨row.listingKey, toUnsigned row.quantity, row.sellerId⟩
  loadItems env lookups
    { cart with id := cart.uuid.getD "", ownerId := userId, loaded := true } []
    (cart.contents ++ items)

def empty (cart : Cart) : Cart :=
  if cart.id = "" then cart
  else
    { cart with
      rows := if cart.uuid = some cart.id then [] else cart.rows
      contents := [] }

end Cart

/-! ## Calls, and what is asked of the cart -/

inductive CartCall where
  /-- The query gives the rows in some order. -/
  | load (selected : List CartRow) (lookups : String → Lookup)
  | add (listingKey : String) (quantity : Int) (lookup : Lookup)
      (generated : String)
  | empty

/-- Behind undefined behaviour nothing more is said. -/
def Cart.settle {Value : Type} : Cart × Ending Value → Cart
  | (cart, .undefined) => { cart with undefined := true }
  | (cart, _) => cart

def Cart.step (env : Externals) (userId : String) (cart : Cart) : CartCall → Option Cart
  | .load selected lookups =>
      if cart.undefined = false ∧ selected.Perm cart.rows
      then some (settle (cart.load env userId selected lookups))
      else none
  | .add listingKey quantity lookup generated =>
      if cart.undefined = false ∧ FitsInt quantity ∧ generated ≠ ""
      then some (settle
        (cart.add env userId listingKey quantity lookup generated))
      else none
  | .empty => if cart.undefined = false then some cart.empty else none

structure SoundEntries (stockSeen : String → Int)
    (entries : List (String × Int)) : Prop where
  keys : (entries.map Prod.fst).Nodup
  quantity : ∀ entry ∈ entries, 1 ≤ entry.2 ∧ entry.2 ≤ stockSeen entry.1
  items : entries.length ≤ maxItems
  total : (entries.map Prod.snd).sum ≤ maxQuantity.toNat

/-- The rows are as they should be, and so is the memory once it is loaded. -/
structure Cart.Sound (cart : Cart) : Prop where
  rows : SoundEntries cart.stockSeen (cart.rows.map CartRow.entry)
  contents : if cart.loaded then
    (cart.contents.map CartItem.entry).Perm (cart.rows.map CartRow.entry)
    else cart.contents = []
  defined : cart.undefined = false
  id : cart.id = "" ∨ cart.uuid = some cart.id
  uuid : cart.uuid = none → cart.rows = []

/-- Before the first lookup that throws, every listing is in stock. -/
def InStock (env : Externals) (lookups : String → Lookup) :
    List String → Prop
  | [] => True
  | key :: keys =>
      match Cart.lookupStock env key (lookups key) with
      | .error _ => True
      | .ok stock => 1 ≤ stock ∧ InStock env lookups keys

/-- What the stock leaves of the quantity fits an item that is in the cart. -/
structure Cart.Room (cart : Cart) (listingKey : String)
    (quantity stock : Int) : Prop where
  sum : FitsInt (cart.itemQty listingKey + quantity)
  short : stock < cart.itemQty listingKey + quantity →
    stock = cart.itemQty listingKey ∨
      cart.inCart listingKey ∧ 1 ≤ stock ∧
        cart.cartQty - cart.itemQty listingKey + stock ≤ maxQuantity.toNat
  enough : cart.itemQty listingKey + quantity ≤ stock →
    FitsInt (cart.cartQty + quantity)

def Cart.Suits (env : Externals) (userId : String) (cart : Cart) :
    CartCall → Prop
  | .load selected lookups =>
      cart.contents = [] ∧ InStock env lookups (selected.map CartRow.listingKey)
  | .add listingKey quantity lookup _ =>
      cart.loaded = true ∧
        (1 ≤ quantity → cart.isFull = false → ∀ listing sellerId stock,
          Cart.openListing env listingKey lookup = .ok (listing, sellerId) →
          sellerId ≠ some userId → stockAvailable listing = .ok stock →
          stock ≠ 0 → cart.Room listingKey quantity stock)
  | .empty => True

section Sound

variable {stockSeen : String → Int} {entries : List (String × Int)}

theorem SoundEntries.assign (h : SoundEntries stockSeen entries)
    {key : String} {old quantity stock : Int} (hold : (key, old) ∈ entries)
    (hquantity : 1 ≤ quantity) (hstock : quantity ≤ stock)
    (htotal : (entries.map Prod.snd).sum - old + quantity ≤ maxQuantity.toNat) :
    SoundEntries (Function.update stockSeen key stock)
      (assign key quantity entries) := by
  have hsum := sum_assign h.keys hold quantity
  refine ⟨by rw [keys_assign]; exact h.keys, fun entry hentry => ?_,
    by rw [length_assign]; exact h.items, by omega⟩
  rcases mem_assign hentry with ⟨rfl, -⟩ | ⟨hne, hmem⟩
  · rw [Function.update_self]
    exact ⟨hquantity, hstock⟩
  · rw [Function.update_of_ne hne]
    exact h.quantity entry hmem

theorem SoundEntries.append (h : SoundEntries stockSeen entries)
    {key : String} {quantity stock : Int} (hkey : key ∉ entries.map Prod.fst)
    (hquantity : 1 ≤ quantity) (hstock : quantity ≤ stock)
    (hitems : entries.length < maxItems)
    (htotal : (entries.map Prod.snd).sum + quantity ≤ maxQuantity.toNat) :
    SoundEntries (Function.update stockSeen key stock)
      (entries ++ [(key, quantity)]) := by
  refine ⟨?_, fun entry hentry => ?_, ?_, ?_⟩
  · rw [List.map_append, List.map_singleton, List.nodup_append_comm,
      List.singleton_append, List.nodup_cons]
    exact ⟨hkey, h.keys⟩
  · rcases List.mem_append.mp hentry with hmem | hlast
    · have hne : entry.1 ≠ key := by
        rintro rfl
        exact hkey (List.mem_map.mpr ⟨entry, hmem, rfl⟩)
      rw [Function.update_of_ne hne]
      exact h.quantity entry hmem
    · rw [List.mem_singleton.mp hlast, Function.update_self]
      exact ⟨hquantity, hstock⟩
  · rw [List.length_append, List.length_singleton]
    omega
  · simpa using htotal

theorem SoundEntries.le_total (h : SoundEntries stockSeen entries)
    {entry : String × Int} (hmem : entry ∈ entries) :
    entry.2 ≤ (entries.map Prod.snd).sum := by
  refine List.single_le_sum (fun value hvalue => ?_) _
    (List.mem_map.mpr ⟨entry, hmem, rfl⟩)
  obtain ⟨other, hother, rfl⟩ := List.mem_map.mp hvalue
  have := (h.quantity other hother).1
  omega

theorem SoundEntries.total_nonneg (h : SoundEntries stockSeen entries) :
    0 ≤ (entries.map Prod.snd).sum := by
  refine List.sum_nonneg fun value hvalue => ?_
  obtain ⟨other, hother, rfl⟩ := List.mem_map.mp hvalue
  have := (h.quantity other hother).1
  omega

end Sound

theorem toUnsigned_toNat {quantity : Int} (hlow : 0 ≤ quantity)
    (hhigh : quantity ≤ maxQuantity.toNat) :
    ((toUnsigned quantity).toNat : Int) = quantity := by
  have hmax : maxQuantity.toNat = 100 := rfl
  rw [toUnsigned, UInt32.ofInt, UInt32.toNat_ofNat']
  omega

/-! ## The memory and the rows -/

theorem map_entry_update (rows : List CartRow) (listingKey : String)
    (quantity : Int) :
    (rows.map fun row => if row.listingKey = listingKey
        then { row with quantity := quantity } else row).map CartRow.entry =
      assign listingKey quantity (rows.map CartRow.entry) := by
  rw [assign, List.map_map, List.map_map]
  refine List.map_congr_left fun row _ => ?_
  by_cases h : row.listingKey = listingKey
  · simp [CartRow.entry, h]
  · simp [CartRow.entry, h]

theorem map_entry_modify {contents : List CartItem} {key : String}
    {quantity : Int} (hlow : 0 ≤ quantity)
    (hhigh : quantity ≤ maxQuantity.toNat)
    (hkeys : ((contents.map CartItem.entry).map Prod.fst).Nodup) :
    (contents.modify (contents.findIdx (·.key = key)) fun item =>
        { item with quantity := toUnsigned quantity }).map CartItem.entry =
      assign key quantity (contents.map CartItem.entry) := by
  induction contents with
  | nil => rfl
  | cons item items ih =>
      rw [List.map_cons, List.map_cons, List.nodup_cons] at hkeys
      rw [List.findIdx_cons, List.map_cons, assign_cons]
      by_cases h : item.key = key
      · have hrest : key ∉ (items.map CartItem.entry).map Prod.fst :=
          h ▸ hkeys.1
        simp [h, CartItem.entry, toUnsigned_toNat hlow hhigh,
          assign_of_notMem hrest]
      · have hentry : item.entry.1 ≠ key := h
        simp only [h, decide_false, cond_false, List.modify_succ_cons,
          List.map_cons, ih hkeys.2, if_neg hentry]

namespace Cart

variable {cart : Cart}

def entries (cart : Cart) : List (String × Int) := cart.rows.map CartRow.entry

theorem entries_snd (cart : Cart) :
    cart.entries.map Prod.snd = cart.rows.map CartRow.quantity := by
  rw [entries, List.map_map]
  rfl

theorem Sound.fits (h : cart.Sound) {row : CartRow} (hrow : row ∈ cart.rows) :
    toInt row.quantity = row.quantity := by
  have hmem : row.entry ∈ cart.rows.map CartRow.entry :=
    List.mem_map.mpr ⟨row, hrow, rfl⟩
  have hlow := (h.rows.quantity _ hmem).1
  have hhigh := h.rows.le_total hmem
  have htotal := h.rows.total
  have hmax : maxQuantity.toNat = 100 := rfl
  have hentry : row.entry.2 = row.quantity := rfl
  exact toInt_of_fits ⟨by omega, by omega⟩

theorem Sound.cartQty (h : cart.Sound) :
    cart.cartQty = (cart.entries.map Prod.snd).sum := by
  have hlow : 0 ≤ (cart.entries.map Prod.snd).sum := h.rows.total_nonneg
  have hhigh : (cart.entries.map Prod.snd).sum ≤ maxQuantity.toNat :=
    h.rows.total
  have hmax : maxQuantity.toNat = 100 := rfl
  rw [Cart.cartQty, ← entries_snd]
  exact toInt_of_fits ⟨by omega, by omega⟩

theorem Sound.itemQty_mem (h : cart.Sound) {listingKey : String}
    (hkey : listingKey ∈ cart.entries.map Prod.fst) :
    (listingKey, cart.itemQty listingKey) ∈ cart.entries := by
  rw [Cart.itemQty]
  cases hfind : cart.rows.find? (·.listingKey = listingKey) with
  | none =>
      obtain ⟨entry, hentry, rfl⟩ := List.mem_map.mp hkey
      obtain ⟨row, hrow, rfl⟩ := List.mem_map.mp hentry
      have hno := List.find?_eq_none.mp hfind row hrow
      simp [CartRow.entry] at hno
  | some row =>
      have hrow := List.mem_of_find?_eq_some hfind
      have hsome := List.find?_some hfind
      have hlisting : row.listingKey = listingKey := by simpa using hsome
      change (listingKey, toInt row.quantity) ∈ cart.entries
      rw [h.fits hrow, ← hlisting]
      exact List.mem_map.mpr ⟨row, hrow, rfl⟩

theorem itemQty_of_notMem {listingKey : String}
    (hkey : listingKey ∉ cart.entries.map Prod.fst) :
    cart.itemQty listingKey = 0 := by
  have hfind : cart.rows.find? (·.listingKey = listingKey) = none := by
    rw [List.find?_eq_none]
    intro row hrow hfound
    have hlisting : row.listingKey = listingKey := by simpa using hfound
    refine hkey (List.mem_map.mpr ⟨row.entry, ?_, hlisting⟩)
    exact List.mem_map.mpr ⟨row, hrow, rfl⟩
  rw [Cart.itemQty, hfind]

theorem toNat_sum {quantities : List UInt32}
    (h : (quantities.map UInt32.toNat).sum < 2 ^ 32) :
    quantities.sum.toNat = (quantities.map UInt32.toNat).sum := by
  induction quantities with
  | nil => rfl
  | cons quantity quantities ih =>
      rw [List.map_cons, List.sum_cons] at h ⊢
      rw [List.sum_cons, UInt32.toNat_add, ih (by omega)]
      omega

theorem Sound.perm (h : cart.Sound) (hloaded : cart.loaded = true) :
    (cart.contents.map CartItem.entry).Perm cart.entries := by
  have hcontents := h.contents
  rwa [if_pos hloaded] at hcontents

theorem Sound.getQuantity (h : cart.Sound) (hloaded : cart.loaded = true) :
    (cart.getQuantity.toNat : Int) = (cart.entries.map Prod.snd).sum := by
  have hsum : (((cart.contents.map CartItem.quantity).map UInt32.toNat).sum :
      Int) = (cart.entries.map Prod.snd).sum := by
    rw [← ((h.perm hloaded).map Prod.snd).sum_eq, List.map_map, List.map_map,
      Nat.cast_list_sum, List.map_map]
    rfl
  have htotal : (cart.entries.map Prod.snd).sum ≤ maxQuantity.toNat :=
    h.rows.total
  have hmax : maxQuantity.toNat = 100 := rfl
  rw [Cart.getQuantity, toNat_sum (by omega)]
  exact hsum

theorem Sound.keys_perm (h : cart.Sound) (hloaded : cart.loaded = true) :
    (cart.contents.map CartItem.key).Perm (cart.entries.map Prod.fst) := by
  have hperm := (h.perm hloaded).map Prod.fst
  rwa [List.map_map] at hperm

theorem Sound.inCart_iff (h : cart.Sound) (hloaded : cart.loaded = true)
    {listingKey : String} : cart.inCart listingKey = true ↔
      listingKey ∈ cart.entries.map Prod.fst := by
  rw [← (h.keys_perm hloaded).mem_iff, Cart.inCart, List.any_eq_true,
    List.mem_map]
  simp

theorem getListingIndex_lt {listingKey : String}
    (h : cart.inCart listingKey = true) :
    cart.getListingIndex listingKey < cart.contents.length := by
  rw [Cart.inCart, List.any_eq_true] at h
  exact List.findIdx_lt_length_of_exists h

theorem setQuantity_of_inCart {listingKey : String}
    (h : cart.inCart listingKey = true) (quantity stock : Int) :
    cart.setQuantity listingKey quantity stock =
      (((cart.updateRow listingKey quantity).see listingKey stock).setContents
        (cart.getListingIndex listingKey) quantity, .returns .ok) :=
  if_pos (getListingIndex_lt h)

theorem Sound.assigned (h : cart.Sound) (hloaded : cart.loaded = true)
    {listingKey : String} {quantity stock : Int} {contents : List CartItem}
    (hkey : listingKey ∈ cart.entries.map Prod.fst)
    (hquantity : 1 ≤ quantity) (hstock : quantity ≤ stock)
    (htotal : cart.cartQty - cart.itemQty listingKey + quantity ≤
      maxQuantity.toNat)
    (hcontents : contents.map CartItem.entry =
      assign listingKey quantity (cart.contents.map CartItem.entry)) :
    { (cart.updateRow listingKey quantity).see listingKey stock with
      contents := contents }.Sound := by
  have hold := h.itemQty_mem hkey
  rw [h.cartQty] at htotal
  have hentries : (cart.updateRow listingKey quantity).entries =
      assign listingKey quantity cart.entries :=
    map_entry_update cart.rows listingKey quantity
  refine ⟨?_, ?_, h.defined, h.id, fun huuid => ?_⟩
  · change SoundEntries _ (cart.updateRow listingKey quantity).entries
    rw [hentries]
    exact h.rows.assign hold hquantity hstock htotal
  · change if cart.loaded = true then (contents.map CartItem.entry).Perm
      (cart.updateRow listingKey quantity).entries else _ = []
    rw [if_pos hloaded, hentries, hcontents]
    exact (h.perm hloaded).map _
  · change List.map _ cart.rows = []
    rw [h.uuid huuid]
    rfl

theorem Sound.contents_keys (h : cart.Sound) (hloaded : cart.loaded = true) :
    ((cart.contents.map CartItem.entry).map Prod.fst).Nodup :=
  ((h.perm hloaded).map Prod.fst).nodup_iff.mpr h.rows.keys

theorem Sound.setQuantity (h : cart.Sound) (hloaded : cart.loaded = true)
    {listingKey : String} {quantity stock : Int}
    (hin : cart.inCart listingKey = true) (hquantity : 1 ≤ quantity)
    (hstock : quantity ≤ stock)
    (htotal : cart.cartQty - cart.itemQty listingKey + quantity ≤
      maxQuantity.toNat) :
    (settle (cart.setQuantity listingKey quantity stock)).Sound := by
  have hkey := (h.inCart_iff hloaded).mp hin
  have hitem : cart.itemQty listingKey ≤ cart.cartQty := by
    rw [h.cartQty]
    exact h.rows.le_total (h.itemQty_mem hkey)
  rw [setQuantity_of_inCart hin]
  exact h.assigned hloaded hkey hquantity hstock htotal
    (map_entry_modify (by omega) (by omega) (h.contents_keys hloaded))

/-! ## Adding -/

section Add

variable {listingKey : String} {quantity stock : Int}

theorem Sound.left (h : cart.Sound) (hloaded : cart.loaded = true)
    (hfull : cart.isFull = false) :
    cart.entries.length < maxItems ∧ cart.cartQty < maxQuantity.toNat := by
  have hsum := h.getQuantity hloaded
  have hlength := (h.perm hloaded).length_eq
  rw [List.length_map] at hlength
  rw [isFull, decide_eq_false_iff_not, not_or, Nat.not_le, UInt32.not_le,
    UInt32.lt_iff_toNat_lt] at hfull
  rw [h.cartQty]
  exact ⟨hlength ▸ hfull.1, by omega⟩

theorem Sound.cut (h : cart.Sound) (hquantity : 1 ≤ quantity)
    (hfits : FitsInt (cart.cartQty + quantity)) :
    (if maxQuantity < toUnsigned (cart.cartQty + quantity) then
        toInt (maxQuantity - toUnsigned cart.cartQty).toNat
      else quantity) = min quantity (maxQuantity.toNat - cart.cartQty) := by
  have hmax : maxQuantity.toNat = 100 := rfl
  have hlow : 0 ≤ cart.cartQty := h.cartQty ▸ h.rows.total_nonneg
  have htotal : cart.cartQty ≤ maxQuantity.toNat := h.cartQty ▸ h.rows.total
  obtain ⟨-, hhigh⟩ := hfits
  have hsum : ((toUnsigned (cart.cartQty + quantity)).toNat : Int) =
      cart.cartQty + quantity := by
    rw [toUnsigned, UInt32.ofInt, UInt32.toNat_ofNat']
    omega
  have hqty := toUnsigned_toNat hlow htotal
  by_cases hover : maxQuantity < toUnsigned (cart.cartQty + quantity)
  · have hle : toUnsigned cart.cartQty ≤ maxQuantity := by
      rw [UInt32.le_iff_toNat_le]
      omega
    have hleft := UInt32.toNat_sub_of_le _ _ hle
    rw [UInt32.lt_iff_toNat_lt] at hover
    rw [if_pos (UInt32.lt_iff_toNat_lt.mpr hover),
      toInt_of_fits ⟨by omega, by omega⟩]
    omega
  · rw [if_neg hover]
    rw [UInt32.lt_iff_toNat_lt] at hover
    omega

theorem Sound.addShort (h : cart.Sound) (hloaded : cart.loaded = true)
    (hroom : cart.Room listingKey quantity stock)
    (hshort : stock < cart.itemQty listingKey + quantity) (sellerId : String) :
    (settle (cart.addInStock listingKey sellerId quantity stock)).Sound := by
  rw [addInStock]
  simp only [hroom.sum, not_true_eq_false, if_false, if_pos hshort]
  rcases hroom.short hshort with heq | ⟨hin, hlow, htotal⟩
  · have hzero : stock - cart.itemQty listingKey = 0 := by omega
    rw [hzero, if_neg (by decide), if_pos rfl]
    exact h
  · have hitem := h.itemQty_mem ((h.inCart_iff hloaded).mp hin)
    have hone := (h.rows.quantity _ hitem).1
    have hle := h.rows.le_total hitem
    have htotalRows := h.rows.total
    have hmax : maxQuantity.toNat = 100 := rfl
    have hfits : FitsInt (stock - cart.itemQty listingKey) := by
      have hsum := hroom.sum.2
      exact ⟨by omega, by omega⟩
    simp only [hfits, not_true_eq_false, if_false]
    by_cases hzero : stock - cart.itemQty listingKey = 0
    · rw [if_pos hzero]
      exact h
    · rw [if_neg hzero, add_sub_cancel]
      exact h.setQuantity hloaded hin hlow le_rfl htotal

theorem Sound.insert (h : cart.Sound) (hloaded : cart.loaded = true)
    (hout : cart.inCart listingKey = false) (hquantity : 1 ≤ quantity)
    (hstock : quantity ≤ stock) (hitems : cart.entries.length < maxItems)
    (htotal : cart.cartQty + quantity ≤ maxQuantity.toNat)
    (huuid : cart.uuid ≠ none) (sellerId : String) :
    (cart.insert listingKey sellerId quantity stock).Sound := by
  have hkey : listingKey ∉ cart.entries.map Prod.fst := by
    rw [← h.inCart_iff hloaded, hout]
    exact Bool.false_ne_true
  have hlow : 0 ≤ cart.cartQty := h.cartQty ▸ h.rows.total_nonneg
  have hany : cart.rows.any (·.listingKey = listingKey) = false := by
    rw [List.any_eq_false]
    intro row hrow hfound
    have hlisting : row.listingKey = listingKey := by simpa using hfound
    refine hkey (List.mem_map.mpr ⟨row.entry, ?_, hlisting⟩)
    exact List.mem_map.mpr ⟨row, hrow, rfl⟩
  have hentries : (cart.insert listingKey sellerId quantity stock).entries =
      cart.entries ++ [(listingKey, quantity)] := by
    simp [entries, Cart.insert, hany, CartRow.entry]
  have hcontents : (cart.insert listingKey sellerId quantity
      stock).contents.map CartItem.entry =
        cart.contents.map CartItem.entry ++ [(listingKey, quantity)] := by
    have hnat : ((toUnsigned quantity).toNat : Int) = quantity :=
      toUnsigned_toNat (by omega) (by omega)
    simp [Cart.insert, CartItem.entry, hnat]
  refine ⟨?_, ?_, h.defined, h.id, fun hnone => absurd hnone huuid⟩
  · change SoundEntries _ (cart.insert listingKey sellerId quantity stock).entries
    rw [hentries]
    exact h.rows.append hkey hquantity hstock hitems (h.cartQty ▸ htotal)
  · change if cart.loaded = true then (List.map _ _).Perm
      (cart.insert listingKey sellerId quantity stock).entries else _ = []
    rw [if_pos hloaded, hentries, hcontents]
    exact (h.perm hloaded).append_right _

theorem Sound.addEnough (h : cart.Sound) (hloaded : cart.loaded = true)
    (hfull : cart.isFull = false) (hquantity : 1 ≤ quantity)
    (hroom : cart.Room listingKey quantity stock)
    (henough : cart.itemQty listingKey + quantity ≤ stock)
    (huuid : cart.uuid ≠ none) (sellerId : String) :
    (settle (cart.addInStock listingKey sellerId quantity stock)).Sound := by
  obtain ⟨hitems, hleft⟩ := h.left hloaded hfull
  have hfits := hroom.enough henough
  have hcut := h.cut hquantity hfits
  rw [addInStock]
  simp only [hroom.sum, hfits, not_true_eq_false, if_false,
    if_neg (Int.not_lt.mpr henough), hcut]
  have hadded : 0 < min quantity (maxQuantity.toNat - cart.cartQty) := by
    omega
  cases hin : cart.inCart listingKey with
  | true =>
      rw [if_pos ⟨rfl, hadded⟩]
      have hitem := h.itemQty_mem ((h.inCart_iff hloaded).mp hin)
      have hone := (h.rows.quantity _ hitem).1
      exact h.setQuantity hloaded hin (by omega) (by omega) (by omega)
  | false =>
      rw [if_neg (fun hboth => Bool.false_ne_true hboth.1)]
      have hkey : listingKey ∉ cart.entries.map Prod.fst := by
        rw [← h.inCart_iff hloaded, hin]
        exact Bool.false_ne_true
      rw [itemQty_of_notMem hkey] at henough
      exact h.insert hloaded hin (by omega) (by omega) hitems (by omega) huuid
        sellerId

end Add

theorem Sound.withCart (h : cart.Sound) (generated : String) :
    (cart.withCart generated).Sound := by
  refine ⟨h.rows, h.contents, h.defined, ?_, fun hnone => nomatch hnone⟩
  rcases h.id with hempty | hid
  · exact .inl hempty
  · refine .inr ?_
    change some (cart.uuid.getD generated) = some cart.id
    rw [hid]
    rfl

theorem Sound.add (h : cart.Sound) {env : Externals}
    {userId listingKey generated : String} {quantity : Int} {lookup : Lookup}
    (hsuits :
      cart.Suits env userId (.add listingKey quantity lookup generated)) :
    (settle (cart.add env userId listingKey quantity lookup generated)).Sound := by
  obtain ⟨hloaded, hroom⟩ := hsuits
  have hcart := h.withCart generated
  unfold Cart.add
  by_cases hquantity : quantity < 1
  · rw [if_pos hquantity]
    exact h
  rw [if_neg hquantity]
  cases hopen : openListing env listingKey lookup with
  | error fault => exact h
  | ok found =>
      obtain ⟨listing, sellerId⟩ := found
      dsimp only
      by_cases hown : sellerId = some userId
      · rw [if_pos hown]
        exact h
      rw [if_neg hown]
      cases hfull : (cart.withCart generated).isFull with
      | true =>
          rw [if_pos rfl]
          exact hcart
      | false =>
          rw [if_neg Bool.false_ne_true]
          cases hstock : stockAvailable listing with
          | error fault => exact hcart
          | ok stock =>
              dsimp only
              by_cases hzero : stock = 0
              · rw [if_pos hzero]
                exact hcart
              rw [if_neg hzero]
              obtain ⟨hsum, hshort, henough⟩ := hroom (by omega) hfull listing
                sellerId stock hopen hown hstock hzero
              have hroom' : (cart.withCart generated).Room listingKey quantity
                  stock := ⟨hsum, hshort, henough⟩
              rcases lt_or_ge stock (cart.itemQty listingKey + quantity)
                with hlt | hge
              · exact hcart.addShort hloaded hroom' hlt _
              · exact hcart.addEnough hloaded hfull (by omega) hroom' hge
                  (fun hnone => nomatch hnone) _

/-! ## Loading -/

theorem Sound.loadItems {env : Externals} (hloaded : cart.loaded = true)
    {lookups : String → Lookup} {done items : List CartItem}
    (h : { cart with contents := done ++ items }.Sound)
    (hstock : InStock env lookups (items.map CartItem.key)) :
    (settle (loadItems env lookups cart done items)).Sound := by
  induction items generalizing cart done with
  | nil =>
      rw [List.append_nil] at h
      exact h
  | cons item items ih =>
      rw [List.map_cons, InStock] at hstock
      rw [Cart.loadItems]
      cases hlookup : lookupStock env item.key (lookups item.key) with
      | error fault => exact h
      | ok stock =>
          rw [hlookup] at hstock
          obtain ⟨hone, hrest⟩ := hstock
          have hmem : item.entry ∈ cart.entries :=
            (h.perm hloaded).mem_iff.mp (List.mem_map.mpr ⟨item, by simp, rfl⟩)
          have hkey : item.key ∈ cart.entries.map Prod.fst :=
            List.mem_map.mpr ⟨item.entry, hmem, rfl⟩
          have hitem : cart.itemQty item.key = item.quantity.toNat :=
            congrArg Prod.snd (List.inj_on_of_nodup_map h.rows.keys
              (h.itemQty_mem hkey) hmem rfl)
          have hlow : 1 ≤ (item.quantity.toNat : Int) :=
            (h.rows.quantity item.entry hmem).1
          have hqty : cart.cartQty = (cart.entries.map Prod.snd).sum :=
            h.cartQty
          have hhigh : (item.quantity.toNat : Int) ≤ cart.cartQty :=
            hqty ▸ h.rows.le_total hmem
          have htotal : cart.cartQty ≤ maxQuantity.toNat :=
            hqty ▸ h.rows.total
          have hmax : maxQuantity.toNat = 100 := rfl
          have hint : toInt item.quantity.toNat = item.quantity.toNat :=
            toInt_of_fits ⟨by omega, by omega⟩
          have hnonzero : ¬ stock = 0 := by omega
          simp only [if_neg hnonzero, hint]
          generalize hquantity : (if stock ≤ (item.quantity.toNat : Int)
            then stock else item.quantity.toNat) = quantity
          have hcut : 1 ≤ quantity ∧ quantity ≤ stock ∧
              quantity ≤ item.quantity.toNat := by
            rw [← hquantity]
            split <;> omega
          have hnext : ((cart.updateRow item.key quantity).see item.key
              stock).loaded = true := hloaded
          refine ih hnext ?_ hrest
          have hset := toUnsigned_toNat (Int.le_of_lt hcut.1)
            (hcut.2.2.trans (hhigh.trans htotal))
          refine h.assigned hloaded hkey hcut.1 hcut.2.1 ?_ ?_
          · change cart.cartQty - cart.itemQty item.key + quantity ≤ _
            omega
          · have hkeys := h.contents_keys hloaded
            simp only [List.map_append, List.map_cons, CartItem.entry, hset,
              List.append_assoc, List.singleton_append]
              at hkeys ⊢
            exact (assign_append_cons (by simpa using hkeys) quantity).symm

theorem Sound.load (h : cart.Sound) {env : Externals} {userId : String}
    {selected : List CartRow}
    {lookups : String → Lookup} (hselected : selected.Perm cart.rows)
    (hempty : cart.contents = [])
    (hstock : InStock env lookups (selected.map CartRow.listingKey)) :
    (settle (cart.load env userId selected lookups)).Sound := by
  rw [Cart.load, hempty, List.nil_append]
  refine Sound.loadItems rfl ?_ ?_
  · refine ⟨h.rows, ?_, h.defined, ?_, h.uuid⟩
    · rw [if_pos rfl, List.nil_append]
      have hentries : (selected.map fun row => CartItem.mk row.listingKey
          (toUnsigned row.quantity) row.sellerId).map CartItem.entry =
            selected.map CartRow.entry := by
        rw [List.map_map]
        refine List.map_congr_left fun row hrow => ?_
        have hmem : row.entry ∈ cart.entries :=
          List.mem_map.mpr ⟨row, hselected.mem_iff.mp hrow, rfl⟩
        have hone := (h.rows.quantity _ hmem).1
        have hle : row.quantity ≤ maxQuantity.toNat :=
          (h.rows.le_total hmem).trans h.rows.total
        exact Prod.ext rfl (toUnsigned_toNat (Int.le_of_lt hone) hle)
      exact hentries ▸ hselected.map _
    · change cart.uuid.getD "" = "" ∨ cart.uuid = some (cart.uuid.getD "")
      cases cart.uuid with
      | none => exact .inl rfl
      | some uuid => exact .inr rfl
  · rw [List.map_map]
    exact hstock

theorem Sound.empty (h : cart.Sound) : cart.empty.Sound := by
  rw [Cart.empty]
  by_cases hid : cart.id = ""
  · rw [if_pos hid]
    exact h
  · have huuid := h.id.resolve_left hid
    rw [if_neg hid, if_pos huuid]
    refine ⟨⟨by simp, by simp, by simp, Int.natCast_nonneg _⟩, ?_, h.defined,
      h.id, fun _ => rfl⟩
    split
    · exact List.Perm.refl _
    · rfl

theorem Sound.step {env : Externals} {userId : String} (cart : Cart)
    (call : CartCall) (next : Cart) (h : cart.Sound)
    (hsuits : cart.Suits env userId call)
    (hstep : cart.step env userId call = some next) : next.Sound := by
  cases call with
  | load selected lookups =>
      simp only [Cart.step, h.defined, true_and] at hstep
      split at hstep
      · rename_i hselected
        cases hstep
        exact h.load hselected hsuits.1 hsuits.2
      · cases hstep
  | add listingKey quantity lookup generated =>
      simp only [Cart.step] at hstep
      split at hstep
      · cases hstep
        exact h.add hsuits
      · cases hstep
  | empty =>
      simp only [Cart.step, h.defined, if_pos] at hstep
      cases hstep
      exact h.empty

/-- Every run of calls that suit the cart keeps it sound. -/
theorem sound_of_suits {env : Externals} {userId : String} {calls : List CartCall}
    {final : Cart} (h : cart.Sound)
    (hsuits : AllMeet (Cart.step env userId) (Suits env userId) cart calls)
    (hrun : runFrom (Cart.step env userId) cart calls = some final) :
    final.Sound :=
  runFrom_invariant Sound Sound.step hsuits hrun h

def registered : Cart :=
  ⟨"cart", "", [], some "cart", [], true, fun _ => 0, false⟩

theorem registered_sound : registered.Sound :=
  ⟨⟨by decide, by simp [registered], by decide, by decide⟩, List.Perm.refl _,
    rfl, .inr rfl, fun _ => rfl⟩

def listingOf (quantity : Nat) : Json :=
  .object [("metadata", .string "listing"), ("seller_id", .string "seller"),
    ("quantity", .unsigned quantity)]

def stocks : Externals :=
  .ofDocuments [("three", listingOf 3), ("six", listingOf 6)]

/-- A new cart object over a row that is in the database. -/
def stored : Cart :=
  ⟨"", "", [], some "cart", [⟨"listing", 4, "seller"⟩], false, fun _ => 9, false⟩

theorem stored_sound : stored.Sound :=
  ⟨⟨by decide, by simp [stored, CartRow.entry], by decide, by decide⟩, rfl, rfl,
    .inl rfl, fun h => nomatch h⟩

theorem sound_of_suits_one :
    ∃ final, runFrom (Cart.step stocks "user") stored
        [.load stored.rows fun _ => .found "three",
          .add "listing" 2 (.found "six") "uuid"] = some final ∧
      final.rows = [⟨"listing", 5, "seller"⟩] ∧ final.Sound := by
  have hsuits : AllMeet (Cart.step stocks "user") (Suits stocks "user") stored
      [.load stored.rows fun _ => .found "three",
        .add "listing" 2 (.found "six") "uuid"] := by
    refine ⟨⟨rfl, by decide, trivial⟩, ?_⟩
    rintro _ ⟨⟩
    refine ⟨⟨rfl, ?_⟩, fun _ _ => trivial⟩
    rintro - - _ _ _ ⟨⟩ - ⟨⟩ -
    exact ⟨by decide, by decide, by decide⟩
  have hrun : ∃ final, runFrom (Cart.step stocks "user") stored
      [.load stored.rows fun _ => .found "three",
        .add "listing" 2 (.found "six") "uuid"] = some final ∧
      final.rows = [⟨"listing", 5, "seller"⟩] := ⟨_, rfl, rfl⟩
  obtain ⟨final, hfinal, hrows⟩ := hrun
  exact ⟨final, hfinal, hrows, sound_of_suits stored_sound hsuits hfinal⟩

/-- The first item of a cart, of which more is asked for than is in stock. -/
theorem index_outside_contents :
    registered.Sound ∧
      ∃ final, runFrom (Cart.step stocks "user") registered
          [.add "listing" 5 (.found "three") "uuid"] = some final ∧
        final.undefined = true ∧ ¬ final.Sound := by
  refine ⟨registered_sound, _, rfl, rfl, fun h => ?_⟩
  have hdefined := h.defined
  cases hdefined

end Cart

end Neroshop.Market
