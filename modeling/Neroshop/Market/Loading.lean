import Neroshop.Market.Cart

/-!
# Loading a stored cart

`load` appends the rows to whatever the contents are, and erases an item from
them while a loop walks over them.
-/

namespace Neroshop.Market

open Neroshop.Foundation Neroshop.Node Neroshop.Rpc

namespace Cart

/-! ## What is asked of a load -/

def cutRow (stock : String → Int) (row : CartRow) : CartRow :=
  { row with quantity := min row.quantity (stock row.listingKey) }

/-- The rows that are in stock, with no more of any than there is. -/
def stockedRows (stock : String → Int) (rows : List CartRow) : List CartRow :=
  (rows.filter fun row => 0 < stock row.listingKey).map (cutRow stock)

def rowItem (row : CartRow) : CartItem :=
  ⟨row.listingKey, toUnsigned row.quantity, row.sellerId⟩

section Load

variable (env : Externals) (userId : String) (lookups : String → Lookup)
  (stock : String → Int) (cart : Cart)

/-- The query finds the rows in the order in which they are stored. -/
def loadStored : Cart × Ending Unit := cart.load env userId cart.rows lookups

structure LoadsStocked : Prop where
  returns : (cart.loadStored env userId lookups).2 = .returns ()
  rows : (cart.loadStored env userId lookups).1.rows =
    stockedRows stock cart.rows
  contents : (cart.loadStored env userId lookups).1.contents =
    (stockedRows stock cart.rows).map rowItem

/-- A second load, of the same stocks, changes nothing in memory. -/
def LoadsAgain : Prop :=
  let first := (cart.loadStored env userId lookups).1
  (first.loadStored env userId lookups).1.contents = first.contents

end Load

/-- The quantity that an item is left with. -/
def cutQuantity (quantity : UInt32) (stock : Int) : Int :=
  if stock ≤ toInt quantity.toNat then stock else toInt quantity.toNat

def cutItem (item : CartItem) (stock : Int) : CartItem :=
  { item with quantity := toUnsigned (cutQuantity item.quantity stock) }

theorem cutQuantity_eq {quantity : Int} (hfits : FitsInt quantity)
    (stock : Int) : cutQuantity (toUnsigned quantity) stock = min quantity stock := by
  have hint : toInt (toUnsigned quantity).toNat = quantity := by
    obtain ⟨hlow, hhigh⟩ := hfits
    rw [toInt, toUnsigned, UInt32.ofInt, UInt32.toNat_ofNat', Int.bmod_def]
    split <;> omega
  rw [cutQuantity, hint]
  split <;> omega

/-! ## The loop -/

section Loop

variable {env : Externals} {lookups : String → Lookup} {stock : String → Int}
  {cart : Cart}

theorem loadItems_cons (item : CartItem) {available : Int}
    (hstock : lookupStock env item.key (lookups item.key) = .ok available)
    (hpos : available ≠ 0) (done items : List CartItem) :
    loadItems env lookups cart done (item :: items) =
      loadItems env lookups
        ((cart.updateRow item.key (cutQuantity item.quantity available)).see
          item.key available)
        (done ++ [cutItem item available]) items := by
  rw [loadItems, hstock]
  exact if_neg hpos

/-- The loop comes to its end if nothing that it visits is sold out. -/
theorem loadItems_returns_iff
    (hstock : ∀ key, lookupStock env key (lookups key) = .ok (stock key))
    (done items : List CartItem) :
    (loadItems env lookups cart done items).2 = .returns () ↔
      ∀ item ∈ items, stock item.key ≠ 0 := by
  induction items generalizing cart done with
  | nil => exact iff_of_true rfl fun item hitem => absurd hitem List.not_mem_nil
  | cons item items ih =>
      rw [List.forall_mem_cons]
      by_cases hzero : stock item.key = 0
      · refine iff_of_false ?_ fun h => h.1 hzero
        rw [loadItems, hstock]
        dsimp only
        rw [if_pos hzero]
        intro h
        cases h
      · rw [loadItems_cons item (hstock item.key) hzero, ih, and_iff_right hzero]

theorem length_loadItems
    (hstock : ∀ key, lookupStock env key (lookups key) = .ok (stock key))
    {done items : List CartItem} (hpos : ∀ item ∈ items, stock item.key ≠ 0) :
    (loadItems env lookups cart done items).1.contents.length =
      done.length + items.length := by
  induction items generalizing cart done with
  | nil => rfl
  | cons item items ih =>
      rw [List.forall_mem_cons] at hpos
      rw [loadItems_cons item (hstock item.key) hpos.1, ih hpos.2,
        List.length_append, List.length_cons, List.length_cons,
        List.length_nil]
      omega

theorem loadItems_row {row : CartRow}
    (hstock : lookupStock env row.listingKey (lookups row.listingKey) =
      .ok (stock row.listingKey))
    (hpos : 0 < stock row.listingKey) (hfits : FitsInt row.quantity)
    (done items : List CartItem) :
    loadItems env lookups cart done (rowItem row :: items) =
      loadItems env lookups
        ((cart.updateRow row.listingKey (cutRow stock row).quantity).see
          row.listingKey (stock row.listingKey))
        (done ++ [rowItem (cutRow stock row)]) items := by
  have hcut : cutQuantity (rowItem row).quantity (stock row.listingKey) =
      (cutRow stock row).quantity :=
    cutQuantity_eq hfits _
  have hitem : cutItem (rowItem row) (stock row.listingKey) =
      rowItem (cutRow stock row) := by
    rw [cutItem, hcut]
    rfl
  rw [loadItems_cons (rowItem row) hstock hpos.ne', hitem, hcut]
  rfl

/-- Only the row of the key changes. -/
theorem updateRow_rows {before after : List CartRow} {row : CartRow}
    (hrows : cart.rows = before ++ row :: after)
    (hkeys : ((before ++ row :: after).map CartRow.listingKey).Nodup)
    (quantity : Int) :
    (cart.updateRow row.listingKey quantity).rows =
      before ++ { row with quantity := quantity } :: after := by
  rw [List.map_append, List.map_cons, List.nodup_append] at hkeys
  obtain ⟨-, hafter, hapart⟩ := hkeys
  have hothers (rows : List CartRow)
      (hne : ∀ other ∈ rows, other.listingKey ≠ row.listingKey) :
      (rows.map fun other => if other.listingKey = row.listingKey
        then { other with quantity := quantity } else other) = rows :=
    (List.map_congr_left fun other hother => if_neg (hne other hother)).trans
      (List.map_id rows)
  change cart.rows.map _ = _
  rw [hrows, List.map_append, List.map_cons, hothers before, hothers after,
    if_pos rfl]
  · intro other hother heq
    exact (List.nodup_cons.mp hafter).1
      (List.mem_map.mpr ⟨other, hother, heq⟩)
  · intro other hother
    exact hapart _ (List.mem_map.mpr ⟨other, hother, rfl⟩) _
      List.mem_cons_self

/-- The rows behind the loop have been cut, those in front of it not yet. -/
theorem loadItems_rows (cart : Cart) (before : List CartRow)
    (done : List CartItem) {rows : List CartRow}
    (hstock : ∀ key, lookupStock env key (lookups key) = .ok (stock key))
    (hrows : cart.rows = before ++ rows)
    (hkeys : ((before ++ rows).map CartRow.listingKey).Nodup)
    (hfits : ∀ row ∈ rows, FitsInt row.quantity)
    (hpos : ∀ row ∈ rows, 0 < stock row.listingKey) :
    let final := (loadItems env lookups cart done (rows.map rowItem)).1
    final.rows = before ++ stockedRows stock rows ∧
      final.contents = done ++ (stockedRows stock rows).map rowItem := by
  induction rows generalizing cart before done with
  | nil => exact ⟨hrows, (List.append_nil done).symm⟩
  | cons row rows ih =>
      rw [List.forall_mem_cons] at hfits hpos
      have hcons : stockedRows stock (row :: rows) =
          cutRow stock row :: stockedRows stock rows := by
        rw [stockedRows, List.filter_cons_of_pos (by simpa using hpos.1)]
        rfl
      have hstep : ((cart.updateRow row.listingKey
          (cutRow stock row).quantity).see row.listingKey
            (stock row.listingKey)).rows =
              before ++ [cutRow stock row] ++ rows := by
        rw [List.append_assoc]
        exact updateRow_rows hrows hkeys _
      have hsame : ((before ++ [cutRow stock row] ++ rows).map
          CartRow.listingKey).Nodup := by
        simpa [cutRow] using hkeys
      rw [List.map_cons, loadItems_row (hstock _) hpos.1 hfits.1, hcons,
        List.map_cons]
      obtain ⟨hfinal, hcontents⟩ := ih _ _ _ hstep hsame hfits.2 hpos.2
      exact ⟨hfinal.trans (List.append_assoc ..),
        hcontents.trans (List.append_assoc ..)⟩

/-- Before the loop. -/
def opened (cart : Cart) (userId : String) : Cart :=
  { cart with id := cart.uuid.getD "", ownerId := userId, loaded := true }

theorem loadStored_eq (cart : Cart) (userId : String) :
    cart.loadStored env userId lookups =
      loadItems env lookups (cart.opened userId) []
        (cart.contents ++ cart.rows.map rowItem) :=
  rfl

theorem length_stockedRows_le (stock : String → Int) (rows : List CartRow) :
    (stockedRows stock rows).length ≤ rows.length := by
  rw [stockedRows, List.length_map]
  exact List.length_filter_le ..

theorem length_stockedRows_iff (rows : List CartRow) :
    (stockedRows stock rows).length = rows.length ↔
      ∀ row ∈ rows, 0 < stock row.listingKey := by
  rw [stockedRows, List.length_map, List.length_filter_eq_length_iff]
  simp only [decide_eq_true_eq]

/-- The first load does as it should of an empty memory, if everything that is
stored is in stock. -/
theorem loadsStocked_iff (userId : String)
    (hstock : ∀ key, lookupStock env key (lookups key) = .ok (stock key))
    (hfits : ∀ row ∈ cart.rows, FitsInt row.quantity)
    (hkeys : (cart.rows.map CartRow.listingKey).Nodup) :
    LoadsStocked env userId lookups stock cart ↔
      cart.contents = [] ∧ ∀ row ∈ cart.rows, 0 < stock row.listingKey := by
  constructor
  · rintro ⟨hreturns, -, hcontents⟩
    rw [loadStored_eq] at hreturns hcontents
    have hvisited := (loadItems_returns_iff hstock _ _).mp hreturns
    have hlength := congrArg List.length hcontents
    rw [length_loadItems hstock hvisited, List.length_append, List.length_map,
      List.length_map, List.length_nil] at hlength
    have hle := length_stockedRows_le stock cart.rows
    exact ⟨List.length_eq_zero_iff.mp (by omega),
      (length_stockedRows_iff cart.rows).mp (by omega)⟩
  · rintro ⟨hempty, hpos⟩
    have hload : let final := (loadItems env lookups (cart.opened userId) []
          (cart.rows.map rowItem)).1
        final.rows = stockedRows stock cart.rows ∧
          final.contents = (stockedRows stock cart.rows).map rowItem :=
      loadItems_rows (cart.opened userId) [] [] hstock rfl hkeys hfits hpos
    refine ⟨?_, ?_, ?_⟩
    · rw [loadStored_eq, loadItems_returns_iff hstock, hempty, List.nil_append,
        List.forall_mem_map]
      exact fun row hrow => (hpos row hrow).ne'
    · rw [loadStored_eq, hempty]
      exact hload.1
    · rw [loadStored_eq, hempty]
      exact hload.2

end Loop

/-- A cart with anything in it is never loaded twice to the same effect: what
is in stock is there twice afterwards, and the rest ends the loop. -/
theorem loads_and_reloads_iff (env : Externals) (userId : String)
    (lookups : String → Lookup) (stock : String → Int) (cart : Cart)
    (hstock : ∀ key, lookupStock env key (lookups key) = .ok (stock key))
    (hfits : ∀ row ∈ cart.rows, FitsInt row.quantity)
    (hkeys : (cart.rows.map CartRow.listingKey).Nodup) :
    (LoadsStocked env userId lookups stock cart ∧
        LoadsAgain env userId lookups cart) ↔
      cart.contents = [] ∧ cart.rows = [] := by
  rw [loadsStocked_iff userId hstock hfits hkeys]
  constructor
  · rintro ⟨⟨hempty, hpos⟩, hagain⟩
    refine ⟨hempty, ?_⟩
    obtain ⟨-, hrows, hcontents⟩ :=
      (loadsStocked_iff userId hstock hfits hkeys).mpr ⟨hempty, hpos⟩
    have hall : ∀ item ∈ (stockedRows stock cart.rows).map rowItem,
        stock item.key ≠ 0 := by
      rw [List.forall_mem_map, stockedRows, List.forall_mem_map]
      intro row hrow
      exact (hpos row (List.mem_of_mem_filter hrow)).ne'
    have hlength := congrArg List.length hagain
    rw [loadStored_eq, length_loadItems hstock, List.length_append, hrows,
      hcontents, List.length_map, List.length_nil,
      (length_stockedRows_iff cart.rows).mpr hpos] at hlength
    · exact List.length_eq_zero_iff.mp (by omega)
    · rw [hrows, hcontents, List.forall_mem_append]
      exact ⟨hall, hall⟩
  · rintro ⟨hempty, hnone⟩
    refine ⟨⟨hempty, by simp [hnone]⟩, ?_⟩
    simp [LoadsAgain, loadStored, Cart.load, Cart.loadItems, hempty, hnone]

/-- Of four, three are in stock; after the second load they are there twice. -/
theorem stored_not_reloaded :
    ¬ (LoadsStocked stocks "user" (fun _ => .found "three") (fun _ => 3)
        stored ∧
      LoadsAgain stocks "user" (fun _ => .found "three") stored) := by
  rw [loads_and_reloads_iff stocks "user" (fun _ => .found "three") (fun _ => 3)
    stored (fun _ => rfl) (by decide) (by decide)]
  rintro ⟨-, hrows⟩
  cases hrows

def soldOut : Externals := .ofDocuments [("none", listingOf 0)]

/-- One row: it is sold out, or in stock and loaded twice. -/
theorem one_row_loaded :
    (stored.loadStored soldOut "user" fun _ => .found "none").2 = .undefined ∧
      ¬ LoadsStocked soldOut "user" (fun _ => .found "none") (fun _ => 0)
        stored ∧
      ¬ LoadsAgain stocks "user" (fun _ => .found "three") stored := by
  refine ⟨rfl, ?_, ?_⟩
  · rintro ⟨hreturns, -, -⟩
    cases hreturns
  · intro hagain
    have hlength := congrArg List.length hagain
    change 2 = 1 at hlength
    cases hlength

end Cart

end Neroshop.Market
