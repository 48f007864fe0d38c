import Neroshop.Node.Indexing
import Neroshop.Node.Interleaving
import Neroshop.Node.Rejection

/-!
# What a value adds to the index

`add` stages the terms of a value by its metadata and `sync` inserts those that
the table does not have for the key.  The metadata is read without a check, so
that a document that has none is not passed over.
-/

namespace Neroshop.Node

open Neroshop.Foundation Neroshop.Routing

/-! ## What is to be added -/

/-- A text that a document of this metadata is to be found by. -/
inductive DefinesTerm (json : Json) : (metadata searchTerm : String) → Prop
  | user {name searchTerm : String}
      (hname : name ∈ ["monero_address", "display_name"])
      (h : json.string? name = some searchTerm) :
      DefinesTerm json "user" searchTerm
  | product {product : Json} {name searchTerm : String}
      (hproduct : json.find? "product" = some product)
      (hname : name ∈ ["id", "name", "category", "code"])
      (h : product.string? name = some searchTerm) :
      DefinesTerm json "listing" searchTerm
  | productList {product : Json} {name searchTerm : String}
      {elements : List Json} (hproduct : json.find? "product" = some product)
      (hname : name ∈ ["subcategories", "tags"])
      (helements : product.find? name = some (.array elements))
      (h : Json.string searchTerm ∈ elements) :
      DefinesTerm json "listing" searchTerm
  | listing {name searchTerm : String}
      (hname : name ∈ ["id", "seller_id", "location"])
      (h : json.string? name = some searchTerm) :
      DefinesTerm json "listing" searchTerm
  | order {searchTerm : String} (h : json.string? "id" = some searchTerm) :
      DefinesTerm json "order" searchTerm
  | orderItem {items : List Json} {item : Json} {searchTerm : String}
      (hitems : json.find? "items" = some (.array items)) (hitem : item ∈ items)
      (h : item.string? "seller_id" = some searchTerm) :
      DefinesTerm json "order" searchTerm
  | productRating {searchTerm : String}
      (h : json.string? "product_id" = some searchTerm) :
      DefinesTerm json "product_rating" searchTerm
  | sellerRating {searchTerm : String}
      (h : json.string? "seller_id" = some searchTerm) :
      DefinesTerm json "seller_rating" searchTerm
  | message {searchTerm : String}
      (h : json.string? "recipient_id" = some searchTerm) :
      DefinesTerm json "message" searchTerm

section Added

variable (rows : List Mapping) (key : String) (json : Json) (metadata : String)

def IsMapped (searchTerm : String) : Prop :=
  ∃ row ∈ rows, row.searchTerm = searchTerm ∧ row.key = key

/-- The rows and, behind them, the new terms of the document, each once. -/
structure AddsTerms (after : List Mapping) : Prop where
  appends : ∃ added, after = rows ++ added ∧
    (added.map Mapping.searchTerm).Nodup ∧
    (∀ row ∈ added, row.key = key ∧ row.content = metadata) ∧
    ∀ searchTerm, searchTerm ∈ added.map Mapping.searchTerm ↔
      DefinesTerm json metadata searchTerm ∧ ¬ IsMapped rows key searchTerm

/-- What an addition that runs alone makes of the table. -/
structure MapsValue (env : Externals) (moment : Moment) (value : String) :
    Prop where
  adds : ∀ json metadata, env.parse value = .ok json →
    json.string? "metadata" = some metadata →
    ∃ after, KeyMapper.add env moment [] rows key value = .ok ([], after) ∧
      AddsTerms rows key json metadata after ∧
      KeyMapper.add env moment [] after key value = .ok ([], after)
  passes : (∀ json metadata, env.parse value = .ok json →
      json.string? "metadata" ≠ some metadata) →
    KeyMapper.add env moment [] rows key value = .ok ([], rows)

/-- The statements are executed, or there is nothing for them to do. -/
inductive WritesTerms (moment : Moment) : Prop
  | executed (hselect : moment.executes .selectMapping = true)
      (hinsert : moment.executes .insertMapping = true)
  | mapped (h : ∀ searchTerm, DefinesTerm json metadata searchTerm →
      IsMapped rows key searchTerm)
      (hinsert : moment.executes .insertMapping = false)
  | none (h : ∀ searchTerm, ¬ DefinesTerm json metadata searchTerm)

end Added

/-! ## The terms -/

section Terms

variable {json : Json} {metadata searchTerm : String}

theorem mem_memberTerm {name : String} :
    searchTerm ∈ memberTerm json name ↔ json.string? name = some searchTerm := by
  rw [memberTerm, Option.mem_toList]

theorem mem_elementTerms {name : String} :
    searchTerm ∈ elementTerms json name ↔
      ∃ elements, json.find? name = some (.array elements) ∧
        Json.string searchTerm ∈ elements := by
  unfold elementTerms
  split
  · next elements helements =>
      rw [helements, List.mem_filterMap]
      constructor
      · rintro ⟨element, hmem, hterm⟩
        cases element with
        | string term =>
            rw [Option.some.injEq] at hterm
            exact ⟨elements, rfl, hterm ▸ hmem⟩
        | _ => cases hterm
      · rintro ⟨_, ⟨rfl⟩, hmem⟩
        exact ⟨_, hmem, rfl⟩
  · next hnone =>
      refine iff_of_false List.not_mem_nil ?_
      rintro ⟨elements, helements, -⟩
      exact hnone elements helements

theorem mem_recipientTerms :
    searchTerm ∈ recipientTerms json ↔
      ∃ items, json.find? "items" = some (.array items) ∧
        ∃ item ∈ items, item.string? "seller_id" = some searchTerm := by
  unfold recipientTerms
  split
  · next items hitems =>
      simp only [List.mem_flatMap, mem_memberTerm, hitems, Option.some.injEq,
        Json.array.injEq, exists_eq_left']
  · next hnone =>
      refine iff_of_false List.not_mem_nil ?_
      rintro ⟨items, hitems, -⟩
      exact hnone items hitems

theorem mem_termsIn {terms : List String} {map other : TermMap} :
    (other, searchTerm) ∈ terms.map (map, ·) ↔
      other = map ∧ searchTerm ∈ terms := by
  rw [List.mem_map]
  constructor
  · rintro ⟨term, hterm, heq⟩
    obtain ⟨rfl, rfl⟩ := Prod.mk.inj heq
    exact ⟨rfl, hterm⟩
  · rintro ⟨rfl, hterm⟩
    exact ⟨searchTerm, hterm, rfl⟩

theorem exists_mem_append {first second : List (TermMap × String)} :
    (∃ map, (map, searchTerm) ∈ first ++ second) ↔
      (∃ map, (map, searchTerm) ∈ first) ∨
        ∃ map, (map, searchTerm) ∈ second := by
  simp only [List.mem_append, exists_or]

theorem exists_mem_termsIn {terms : List String} {map : TermMap} :
    (∃ other, (other, searchTerm) ∈ terms.map (map, ·)) ↔
      searchTerm ∈ terms := by
  simp only [mem_termsIn, exists_and_right, exists_eq, true_and]

theorem mem_productTerms {product : Json} :
    (∃ map, (map, searchTerm) ∈ productTerms product) ↔
      (∃ name ∈ ["id", "name", "category", "code"],
        product.string? name = some searchTerm) ∨
      ∃ name ∈ ["subcategories", "tags"], ∃ elements,
        product.find? name = some (.array elements) ∧
          Json.string searchTerm ∈ elements := by
  simp only [productTerms, exists_mem_append, exists_mem_termsIn,
    mem_memberTerm, mem_elementTerms, List.mem_cons, List.not_mem_nil,
    or_false, exists_eq_or_imp, exists_eq_left]
  simp only [or_assoc, or_left_comm, or_comm]

/-- The staged terms are the ones by which the document is to be found. -/
theorem mem_searchTerms :
    (∃ map, (map, searchTerm) ∈ searchTerms json metadata) ↔
      DefinesTerm json metadata searchTerm := by
  constructor
  · intro h
    unfold searchTerms at h
    split at h
    · rw [exists_mem_append, exists_mem_termsIn, exists_mem_termsIn,
        mem_memberTerm, mem_memberTerm] at h
      rcases h with h | h <;> exact .user (by simp) h
    · simp only [exists_mem_append, exists_mem_termsIn, mem_memberTerm] at h
      rcases h with ((h | h) | h) | h
      · rw [mem_productTerms] at h
        cases hproduct : json.find? "product" with
        | none =>
            rw [hproduct] at h
            rcases h with ⟨name, -, h⟩ | ⟨name, -, elements, h, -⟩ <;> cases h
        | some product =>
            rw [hproduct, Option.getD_some] at h
            rcases h with ⟨name, hname, h⟩ | ⟨name, hname, elements, h, hmem⟩
            · exact .product hproduct hname h
            · exact .productList hproduct hname h hmem
      all_goals exact .listing (by simp) h
    · rw [exists_mem_append, exists_mem_termsIn, exists_mem_termsIn,
        mem_memberTerm, mem_recipientTerms] at h
      rcases h with h | ⟨items, hitems, item, hitem, h⟩
      · exact .order h
      · exact .orderItem hitems hitem h
    · rw [exists_mem_termsIn, mem_memberTerm] at h
      exact .productRating h
    · rw [exists_mem_termsIn, mem_memberTerm] at h
      exact .sellerRating h
    · rw [exists_mem_termsIn, mem_memberTerm] at h
      exact .message h
    · obtain ⟨map, hmem⟩ := h
      cases hmem
  · intro h
    cases h with
    | user hname h =>
        simp only [searchTerms, exists_mem_append, exists_mem_termsIn,
          mem_memberTerm]
        simp only [List.mem_cons, List.not_mem_nil, or_false] at hname
        rcases hname with rfl | rfl
        · exact .inl h
        · exact .inr h
    | product hproduct hname h =>
        simp only [searchTerms, exists_mem_append, hproduct, Option.getD_some,
          mem_productTerms]
        exact .inl (.inl (.inl (.inl ⟨_, hname, h⟩)))
    | productList hproduct hname helements h =>
        simp only [searchTerms, exists_mem_append, hproduct, Option.getD_some,
          mem_productTerms]
        exact .inl (.inl (.inl (.inr ⟨_, hname, _, helements, h⟩)))
    | listing hname h =>
        simp only [searchTerms, exists_mem_append, exists_mem_termsIn,
          mem_memberTerm]
        simp only [List.mem_cons, List.not_mem_nil, or_false] at hname
        rcases hname with rfl | rfl | rfl
        · exact .inl (.inl (.inr h))
        · exact .inl (.inr h)
        · exact .inr h
    | order h =>
        simp only [searchTerms, exists_mem_append, exists_mem_termsIn,
          mem_memberTerm]
        exact .inl h
    | orderItem hitems hitem h =>
        simp only [searchTerms, exists_mem_append, exists_mem_termsIn,
          mem_recipientTerms]
        exact .inr ⟨_, hitems, _, hitem, h⟩
    | productRating h => exact ⟨_, mem_termsIn.mpr ⟨rfl, mem_memberTerm.mpr h⟩⟩
    | sellerRating h => exact ⟨_, mem_termsIn.mpr ⟨rfl, mem_memberTerm.mpr h⟩⟩
    | message h => exact ⟨_, mem_termsIn.mpr ⟨rfl, mem_memberTerm.mpr h⟩⟩

end Terms

/-! ## The insertions -/

section Insertions

variable {moment : Moment} {rows : List Mapping} {key : String} {json : Json}
  {metadata : String}

theorem addRow_eq_enter : addRow = enter Mapping.pair := by
  funext rows added
  simp only [addRow, enter, Mapping.pair, Prod.mk.injEq]

theorem pair_mem_iff {searchTerm : String} :
    (searchTerm, key) ∈ rows.map Mapping.pair ↔ IsMapped rows key searchTerm := by
  simp only [List.mem_map, Mapping.pair, Prod.mk.injEq, IsMapped]

/-- The rows of a document, in the order in which `sync` comes to them. -/
def documentRows (key : String) (json : Json) (metadata : String) :
    List Mapping :=
  (syncOrder (termsOf key json metadata)).map StagedTerm.row

theorem mem_documentRows {row : Mapping} :
    row ∈ documentRows key json metadata ↔
      row.key = key ∧ row.content = metadata ∧
        DefinesTerm json metadata row.searchTerm := by
  rw [documentRows, mem_termRows, mem_searchTerms]

/-- `sync` on the terms of one document, by what the statements do. -/
theorem sync_termsOf (hkey : (chars key).length = 64) :
    KeyMapper.sync moment (termsOf key json metadata) rows =
      if moment.executes .insertMapping then
        if moment.executes .selectMapping
        then (documentRows key json metadata).foldl addRow rows
        else rows ++ documentRows key json metadata
      else rows := by
  have hstep : ∀ staged ∈ syncOrder (termsOf key json metadata),
      (chars staged.key).length = 64 := by
    intro staged hstaged
    rw [mem_syncOrder] at hstaged
    obtain ⟨term, -, rfl⟩ := List.mem_map.mp hstaged
    exact hkey
  change (syncOrder (termsOf key json metadata)).foldl _ rows = _
  rw [documentRows]
  generalize syncOrder (termsOf key json metadata) = mapper at hstep
  induction mapper generalizing rows with
  | nil => split_ifs <;> simp
  | cons staged mapper ih =>
      obtain ⟨hlength, hrest⟩ := List.forall_mem_cons.mp hstep
      rw [List.foldl_cons, ih hrest, insertMapping,
        if_neg (not_not_intro hlength)]
      cases hinsert : moment.executes .insertMapping <;>
        cases hselect : moment.executes .selectMapping <;>
        simp [addRow, StagedTerm.row]

theorem addsTerms_foldl :
    AddsTerms rows key json metadata
      ((documentRows key json metadata).foldl addRow rows) := by
  rw [addRow_eq_enter]
  obtain ⟨fresh, hfold, hnodup, hfresh, hpairs⟩ :=
    foldl_enter_eq_append Mapping.pair (documentRows key json metadata) rows
  have hrows : ∀ row ∈ fresh, row.key = key ∧ row.content = metadata ∧
      DefinesTerm json metadata row.searchTerm :=
    fun row hrow => mem_documentRows.mp (hfresh row hrow).1
  refine ⟨fresh, hfold, ?_, fun row hrow => ⟨(hrows row hrow).1,
    (hrows row hrow).2.1⟩, fun searchTerm => ?_⟩
  · have hmap : fresh.map Mapping.pair =
        (fresh.map Mapping.searchTerm).map fun term => (term, key) := by
      rw [List.map_map]
      refine List.map_congr_left fun row hrow => ?_
      exact Prod.ext rfl (hrows row hrow).1
    rw [hmap] at hnodup
    exact hnodup.of_map
  · constructor
    · intro hmem
      obtain ⟨row, hrow, rfl⟩ := List.mem_map.mp hmem
      obtain ⟨hkey, -, hterm⟩ := hrows row hrow
      refine ⟨hterm, fun hmapped => (hfresh row hrow).2 ?_⟩
      rw [Mapping.pair, hkey]
      exact pair_mem_iff.mpr hmapped
    · rintro ⟨hterm, hnew⟩
      have hpair := hpairs ⟨searchTerm, key, metadata⟩
        (mem_documentRows.mpr ⟨rfl, rfl, hterm⟩)
      rw [List.map_append, List.mem_append] at hpair
      obtain ⟨row, hrow, hsame⟩ := List.mem_map.mp
        (hpair.resolve_left fun hold => hnew (pair_mem_iff.mp hold))
      exact List.mem_map.mpr ⟨row, hrow, (Prod.mk.inj hsame).1⟩

theorem addsTerms_self
    (h : ∀ searchTerm, DefinesTerm json metadata searchTerm →
      IsMapped rows key searchTerm) : AddsTerms rows key json metadata rows := by
  refine ⟨[], (List.append_nil rows).symm, by simp, by simp, fun searchTerm => ?_⟩
  exact iff_of_false List.not_mem_nil fun hnew => hnew.2 (h _ hnew.1)

/-- Every term is there for the key once they have been added. -/
theorem AddsTerms.isMapped {after : List Mapping} {searchTerm : String}
    (h : AddsTerms rows key json metadata after)
    (hterm : DefinesTerm json metadata searchTerm) :
    IsMapped after key searchTerm := by
  obtain ⟨added, rfl, -, hadded, hnew⟩ := h.appends
  by_cases hmapped : IsMapped rows key searchTerm
  · obtain ⟨row, hrow, hsame⟩ := hmapped
    exact ⟨row, List.mem_append_left _ hrow, hsame⟩
  · obtain ⟨row, hrow, hsame⟩ :=
      List.mem_map.mp ((hnew searchTerm).mpr ⟨hterm, hmapped⟩)
    exact ⟨row, List.mem_append_right _ hrow, hsame, (hadded row hrow).1⟩

theorem foldl_addRow_of_mapped
    (h : ∀ searchTerm, DefinesTerm json metadata searchTerm →
      IsMapped rows key searchTerm) :
    (documentRows key json metadata).foldl addRow rows = rows := by
  rw [addRow_eq_enter]
  refine foldl_enter_of_mem fun row hrow => ?_
  obtain ⟨hkey, -, hterm⟩ := mem_documentRows.mp hrow
  rw [Mapping.pair, hkey]
  exact pair_mem_iff.mpr (h _ hterm)

theorem documentRows_eq_nil :
    documentRows key json metadata = [] ↔
      ∀ searchTerm, ¬ DefinesTerm json metadata searchTerm := by
  rw [List.eq_nil_iff_forall_not_mem]
  constructor
  · exact fun h searchTerm hterm => h ⟨searchTerm, key, metadata⟩
      (mem_documentRows.mpr ⟨rfl, rfl, hterm⟩)
  · exact fun h row hrow => h _ (mem_documentRows.mp hrow).2.2

end Insertions

section Additions

variable {env : Externals} {moment : Moment} {rows : List Mapping}
  {key value : String} {json : Json} {metadata : String}

theorem add_unstaged (hkey : (chars key).length = 64)
    (hparse : env.parse value = .ok json)
    (hmetadata : json.string? "metadata" = some metadata) :
    KeyMapper.add env moment [] rows key value =
      .ok ([], if moment.executes .insertMapping then
          if moment.executes .selectMapping
          then (documentRows key json metadata).foldl addRow rows
          else rows ++ documentRows key json metadata
        else rows) := by
  rw [add_of_metadata hparse hmetadata, List.nil_append, sync_termsOf hkey]

/-- Of whatever else is parsed, reading the metadata throws. -/
theorem add_throws (moment : Moment) (rows : List Mapping) (key : String)
    (hparse : env.parse value = .ok json)
    (h : ∀ metadata, json.string? "metadata" ≠ some metadata) :
    ∃ fault, KeyMapper.add env moment [] rows key value = .error fault := by
  have hnone : json.string? "metadata" = none :=
    Option.eq_none_iff_forall_ne_some.mpr h
  simp only [KeyMapper.add, hparse]
  cases json with
  | object members =>
      rw [Json.index_of_isObject rfl]
      refine ⟨.typeError, ?_⟩
      change (Json.getString _ >>= _) = _
      rw [Json.getString_getD_find?, hnone]
      rfl
  | _ => exact ⟨_, rfl⟩

theorem mapsValue_iff_writes (hkey : (chars key).length = 64)
    (hparse : env.parse value = .ok json)
    (hmetadata : json.string? "metadata" = some metadata) :
    MapsValue rows key env moment value ↔
      WritesTerms rows key json metadata moment := by
  have hpasses : ¬ ∀ other text, env.parse value = .ok other →
      other.string? "metadata" ≠ some text :=
    fun h => h json metadata hparse hmetadata
  constructor
  · intro h
    obtain ⟨after, hadd, hadds, hagain⟩ := h.adds json metadata hparse hmetadata
    rw [add_unstaged hkey hparse hmetadata, Except.ok.injEq, Prod.mk.injEq]
      at hadd hagain
    cases hinsert : moment.executes .insertMapping with
    | false =>
        rw [hinsert, if_neg Bool.false_ne_true] at hadd
        obtain ⟨-, rfl⟩ := hadd
        exact .mapped (fun searchTerm => hadds.isMapped) hinsert
    | true =>
    cases hselect : moment.executes .selectMapping with
    | true => exact .executed hselect hinsert
    | false =>
        rw [hinsert, hselect, if_pos rfl, if_neg Bool.false_ne_true] at hagain
        exact .none (documentRows_eq_nil.mp (List.append_right_eq_self.mp hagain.2))
  · intro h
    refine ⟨?_, fun hnone => absurd hnone hpasses⟩
    intro other text hother htext
    obtain rfl : json = other := Except.ok.inj (hparse.symm.trans hother)
    obtain rfl : metadata = text := Option.some.inj (hmetadata.symm.trans htext)
    simp only [add_unstaged hkey hparse hmetadata, Except.ok.injEq, Prod.mk.injEq,
      true_and]
    rcases h with ⟨hselect, hinsert⟩ | ⟨hmapped, hinsert⟩ | hnone
    · simp only [hselect, hinsert, if_true]
      exact ⟨_, rfl, addsTerms_foldl, foldl_addRow_of_mapped fun searchTerm =>
        addsTerms_foldl.isMapped⟩
    · simp only [hinsert, Bool.false_eq_true, if_false]
      exact ⟨rows, rfl, addsTerms_self hmapped, trivial⟩
    · rw [documentRows_eq_nil.mpr hnone]
      simp only [List.foldl_nil, List.append_nil, ite_self]
      exact ⟨rows, rfl, addsTerms_self fun searchTerm hterm =>
        absurd hterm (hnone searchTerm), trivial⟩

/--
The index gets what it is to get exactly where the value is no JSON text, or a
document with metadata whose statements are executed or not needed.
-/
theorem add_mapsValue_iff (env : Externals) (moment : Moment)
    (rows : List Mapping) (value : String) (hkey : (chars key).length = 64) :
    MapsValue rows key env moment value ↔
      env.parse value = .error .parseError ∨
      ∃ json metadata, env.parse value = .ok json ∧
        json.string? "metadata" = some metadata ∧
        WritesTerms rows key json metadata moment := by
  cases hparse : env.parse value with
  | error error =>
      cases error with
      | parseError =>
          refine iff_of_true ⟨fun json _ hjson => ?_, fun _ => ?_⟩ (.inl rfl)
          · rw [hparse] at hjson
            cases hjson
          · rw [KeyMapper.add, hparse]
      | outOfRange =>
          refine iff_of_false (fun h => ?_) (by simp)
          have hadd := h.passes (by simp [hparse])
          rw [KeyMapper.add, hparse] at hadd
          cases hadd
  | ok json =>
  cases hmetadata : json.string? "metadata" with
  | none =>
      have hnone : ∀ metadata, json.string? "metadata" ≠ some metadata := by
        simp [hmetadata]
      refine iff_of_false (fun h => ?_) ?_
      · obtain ⟨fault, hfault⟩ := add_throws moment rows key hparse hnone
        have hadd := h.passes fun other metadata hother => by
          rw [hparse, Except.ok.injEq] at hother
          exact hother ▸ hnone metadata
        rw [hfault] at hadd
        cases hadd
      · rintro (h | ⟨other, metadata, hother, hfound, -⟩)
        · cases h
        · rw [← Except.ok.inj hother] at hfound
          exact hnone metadata hfound
  | some metadata =>
      rw [mapsValue_iff_writes hkey hparse hmetadata]
      constructor
      · exact fun h => .inr ⟨json, metadata, rfl, hmetadata, h⟩
      · rintro (h | ⟨other, text, hother, hfound, h⟩)
        · cases h
        · obtain rfl := Except.ok.inj hother
          obtain rfl := Option.some.inj (hmetadata.symm.trans hfound)
          exact h

end Additions

/-! ## A list where a document is expected -/

def listText : String := "[]"

theorem add_list_throws :
    KeyMapper.add (.ofDocuments [(listText, .array [])]) (indexing 0) [] []
        sampleKey listText = .error .typeError := by
  decide

/-- A message that is to be found by its recipient. -/
def recipientDocument : Json :=
  .object [("metadata", .string "message"), ("recipient_id", .string "56")]

theorem add_mapsValue_message :
    MapsValue [] sampleKey (.ofDocuments [(messageText, recipientDocument)])
      (indexing 0) messageText :=
  (add_mapsValue_iff (.ofDocuments [(messageText, recipientDocument)])
    (indexing 0) [] messageText (by decide)).mpr
    (.inr ⟨recipientDocument, "message", by simp [Externals.ofDocuments, parseListed],
      rfl, .executed rfl rfl⟩)

end Neroshop.Node
