import Neroshop.Gui.Readers
import Neroshop.Market.Product
import Neroshop.Node.Indexing

/-!
# Looking listings up

The terms of a listing stand in one column and have one content type, whatever
they are: the name, a tag or the location can be the text that is looked up for
a seller or for a category, and the readers do not look at the listing again.
-/

namespace Neroshop.Gui

open Neroshop.Foundation Neroshop.Market Neroshop.Node Neroshop.Rpc

/-- The listings that a node holds, each under a key of its own. -/
structure Catalogue (env : Externals) extends Indexed env "listing" where
  distinct : (documents.map StoredDocument.key).Nodup

section Lookups

variable {env : Externals}

/-- A client of the node that holds the listings. -/
def Catalogue.desktop (catalogue : Catalogue env) (base : Desktop)
    (mappings : List Mapping) : Desktop :=
  { base with
    prepares := true
    mappings := mappings
    lookup := fun key =>
      match catalogue.documents.find? fun listing => listing.key = key with
      | some listing => .found listing.value
      | none => base.lookup key }

/-! ## What a lookup is for -/

def isSoldBy (userId : String) (json : Json) : Bool :=
  json.string? "seller_id" = some userId

def categoriesOf (json : Json) : List String :=
  let product := (json.find? "product").getD .null
  memberTerm product "category" ++ elementTerms product "subcategories"

/-- The category, or one of the subcategories, has the name of the id. -/
def isInCategory (categoryId : Int) (json : Json) : Bool :=
  (categoriesOf json).any fun name =>
    (categoryId, name) ∈ predefinedCategories ++ predefinedSubcategories

/-- The row that a reader makes of a listing. -/
def rowOf (base : Desktop) (view : ListingView) (listing : StoredDocument) :
    Row :=
  match readListing base view listing.key listing.json with
  | .ok row => .listing row
  | .error _ => .blank

/-- The reader returns the listings that are wanted, each once. -/
def Catalogue.ReturnsExactly (catalogue : Catalogue env) (clock : Int)
    (base : Desktop) (view : ListingView)
    (reader : Desktop → Session (List Row)) (wanted : Json → Bool) : Prop :=
  ∃ mapper mappings rows calls,
    indexDocuments env clock catalogue.others catalogue.documents =
        .ok (mapper, mappings) ∧
      (reader (catalogue.desktop base mappings)).run [] = .ok rows calls ∧
      rows.Perm ((catalogue.documents.filter fun listing =>
        wanted listing.json).map (rowOf base view))

def inventoryView : ListingView := ⟨false, true, false, false⟩

def categoryView : ListingView := ⟨true, false, false, false⟩

/-! ## When it is met -/

/-- Only listings that are wanted have the text for a term of another kind, and
they have the members that the reader fetches. -/
structure Catalogue.Precise (catalogue : Catalogue env) (text : String)
    (kind : TermMap) (wanted : Json → Bool) : Prop where
  otherKinds : ∀ listing ∈ catalogue.documents, ∀ other,
    (other, text) ∈ searchTerms listing.json "listing" → other ≠ kind →
      wanted listing.json = true
  readable : ∀ listing ∈ catalogue.documents, wanted listing.json = true →
    ListingReadable listing.json

/-- The id is one of a category.  The name of any other is empty, which has to be
a term of the listings in its subcategory and of no others. -/
def Catalogue.Names (catalogue : Catalogue env) (categoryId : Int) : Prop :=
  isValidCategoryId categoryId = true ∨ ∀ listing ∈ catalogue.documents,
    (isInCategory categoryId listing.json = true ↔
      ∃ kind, (kind, "") ∈ searchTerms listing.json "listing")

/-! ## The index -/

/-- The selected keys are those of the listings that have the text as a term. -/
theorem mem_selectKeys {mappings : List Mapping} {content text key : String} :
    key ∈ selectKeys mappings content (some text) ↔
      ⟨text, key, content⟩ ∈ mappings := by
  simp only [selectKeys, List.mem_eraseDups, List.mem_map, List.mem_filter,
    Option.all_some, decide_eq_true_eq]
  constructor
  · rintro ⟨⟨term, key, content⟩, ⟨hrow, rfl, hterm⟩, rfl⟩
    cases hterm
    exact hrow
  · intro hrow
    exact ⟨_, ⟨hrow, rfl, rfl⟩, rfl⟩

theorem Catalogue.selectKeys_perm (catalogue : Catalogue env) (text : String) :
    (selectKeys catalogue.mappings "listing" (some text)).Perm
      ((catalogue.documents.filter fun listing =>
        listing.hasTerm "listing" text).map StoredDocument.key) := by
  have hnodup : ((catalogue.documents.filter fun listing =>
      listing.hasTerm "listing" text).map StoredDocument.key).Nodup :=
    catalogue.distinct.sublist (List.filter_sublist.map _)
  refine (List.perm_ext_iff_of_nodup (nodup_selectKeys _ _ _) hnodup).mpr ?_
  intro key
  rw [mem_selectKeys, catalogue.mem_mappings, List.mem_map]
  constructor
  · rintro (hother | ⟨-, listing, hlisting, hkey, hterm⟩)
    · exact absurd rfl (catalogue.apart _ hother).1
    · exact ⟨listing, List.mem_filter.mpr ⟨hlisting, hterm⟩, hkey⟩
  · rintro ⟨listing, hlisting, rfl⟩
    obtain ⟨hlisting, hterm⟩ := List.mem_filter.mp hlisting
    exact .inr ⟨rfl, listing, hlisting, rfl, hterm⟩

/-! ## The readers -/

theorem readListing_key {base : Desktop} {view : ListingView} {key : String}
    {json : Json} {row : ListingRow}
    (hread : readListing base view key json = .ok row) : row.key = key := by
  simp only [readListing, bind_eq_ok] at hread
  obtain ⟨_, -, _, -, _, -, _, -, _, -, _, -, _, -, _, -, _, -, _, -, _, -, _,
    -, _, -, hrow⟩ := hread
  exact congrArg ListingRow.key (Except.ok.inj hrow).symm

section Reading

variable {base : Desktop} {view : ListingView}

variable (base view) in
theorem rowOf_of_readable {listing : StoredDocument}
    (hobject : listing.json.isObject = true)
    (hreadable : ListingReadable listing.json) :
    ∃ row, readListing base view listing.key listing.json = .ok row ∧
      rowOf base view listing = .listing row ∧ row.key = listing.key := by
  obtain ⟨row, hrow⟩ : Yields (readListing base view listing.key listing.json) :=
    (yields_readListing hobject).mpr hreadable
  exact ⟨row, hrow, by rw [rowOf, hrow], readListing_key hrow⟩

/-- A row that is made of a readable listing is made of no other. -/
theorem Catalogue.rowOf_inj (catalogue : Catalogue env)
    {listing other : StoredDocument} (hlisting : listing ∈ catalogue.documents)
    (hother : other ∈ catalogue.documents)
    (hreadable : ListingReadable listing.json)
    (hsame : rowOf base view other = rowOf base view listing) :
    other = listing := by
  obtain ⟨row, -, hrow, hkey⟩ := rowOf_of_readable base view
    (catalogue.accepted listing hlisting).isObject hreadable
  apply List.inj_on_of_nodup_map catalogue.distinct hother hlisting
  rw [hrow, rowOf] at hsame
  cases hread : readListing base view other.key other.json with
  | error fault =>
      rw [hread] at hsame
      cases hsame
  | ok found =>
      rw [hread] at hsame
      rw [← hkey, ← readListing_key hread, Row.listing.inj hsame]

theorem Catalogue.lookup_desktop (catalogue : Catalogue env)
    {listing : StoredDocument} (hlisting : listing ∈ catalogue.documents)
    (mappings : List Mapping) :
    (catalogue.desktop base mappings).lookup listing.key =
      .found listing.value := by
  have hfind : (catalogue.documents.find? fun other =>
      other.key = listing.key) = some listing := by
    cases hfound : catalogue.documents.find? fun other =>
        other.key = listing.key with
    | none =>
        exact absurd rfl (of_decide_eq_false
          (Bool.eq_false_of_not_eq_true
            (List.find?_eq_none.mp hfound listing hlisting)))
    | some other =>
        have hkey : other.key = listing.key :=
          of_decide_eq_true (List.find?_some hfound :)
        rw [List.inj_on_of_nodup_map catalogue.distinct
          (List.mem_of_find?_eq_some hfound) hlisting hkey]
  rw [Catalogue.desktop]
  dsimp only
  rw [hfind]

theorem Catalogue.allRead_iff (catalogue : Catalogue env)
    {mappings : List Mapping} {keys : List String} {text : String}
    (hkeys : keys.Perm ((catalogue.documents.filter fun listing =>
      listing.hasTerm "listing" text).map StoredDocument.key)) :
    AllRead (catalogue.desktop base mappings).lookup
        (fun key => readDocument env "listing"
          (readShownListing (catalogue.desktop base mappings) view key)) keys ↔
      ∀ listing ∈ catalogue.documents, listing.hasTerm "listing" text = true →
        ListingReadable listing.json := by
  have hyields (listing : StoredDocument)
      (hlisting : listing ∈ catalogue.documents) :
      Yields (readDocument env "listing" (readShownListing
          (catalogue.desktop base mappings) view listing.key) listing.value) ↔
        ListingReadable listing.json := by
    have haccepted := catalogue.accepted listing hlisting
    rw [readDocument_of_parse haccepted.parsed haccepted.kind,
      if_neg (not_not_intro rfl), yields_readShownListing haccepted.isObject]
  constructor
  · intro hread listing hlisting hterm
    have hmem : listing.key ∈ keys := hkeys.mem_iff.mpr
      (List.mem_map_of_mem (List.mem_filter.mpr ⟨hlisting, hterm⟩))
    have hnull : listing.key ≠ "NULL" := by
      intro hkey
      exact absurd (hkey ▸ (catalogue.accepted listing hlisting).keyLength)
        (by decide)
    exact (hyields listing hlisting).mp (hread listing.key hmem hnull
      listing.value (catalogue.lookup_desktop hlisting mappings))
  · intro hreadable key hkey _ value hvalue
    obtain ⟨listing, hlisting, rfl⟩ := List.mem_map.mp (hkeys.mem_iff.mp hkey)
    obtain ⟨hlisting, hterm⟩ := List.mem_filter.mp hlisting
    rw [catalogue.lookup_desktop hlisting] at hvalue
    cases hvalue
    exact (hyields listing hlisting).mpr (hreadable listing hlisting hterm)

variable (hhides : view.hideNsfw = false ∧ view.hideIllicit = false)

include hhides

/-- With the filters off, a document is shown wherever it can be read. -/
theorem readDocument_listing {listing : StoredDocument}
    (haccepted : Accepted env listing.key listing.value listing.json "listing") :
    readDocument env "listing" (readShownListing base view listing.key)
        listing.value =
      (readListing base view listing.key listing.json).map
        fun row => some (.listing row) := by
  rw [readDocument_of_parse haccepted.parsed haccepted.kind,
    if_neg (not_not_intro rfl), readShownListing]
  cases readListing base view listing.key listing.json with
  | error fault => rfl
  | ok row =>
      change Except.ok (if isHidden view row = true then _ else _) = _
      rw [isHidden, hhides.1, hhides.2]
      rfl

theorem Catalogue.rowAt_listing (catalogue : Catalogue env)
    {listing : StoredDocument} (hlisting : listing ∈ catalogue.documents)
    (hreadable : ListingReadable listing.json) (mappings : List Mapping) :
    rowAt (catalogue.desktop base mappings).lookup .blank
        (fun key => readDocument env "listing"
          (readShownListing (catalogue.desktop base mappings) view key))
        listing.key =
      some (rowOf base view listing) := by
  have haccepted := catalogue.accepted listing hlisting
  have hnull : listing.key ≠ "NULL" := by
    intro hkey
    exact absurd (hkey ▸ haccepted.keyLength) (by decide)
  obtain ⟨row, hread, hrow, -⟩ := rowOf_of_readable base view
    haccepted.isObject hreadable
  have hdocument : readDocument env "listing" (readShownListing
      (catalogue.desktop base mappings) view listing.key) listing.value =
        .ok (some (.listing row)) := by
    rw [readDocument_listing hhides haccepted]
    exact congrArg (Except.map fun row => some (Row.listing row)) hread
  rw [rowAt, if_neg hnull, catalogue.lookup_desktop hlisting, hrow]
  dsimp only
  rw [hdocument]
  rfl

/-- What a reader returns: a row for each listing that has the text. -/
theorem Catalogue.returns_iff (catalogue : Catalogue env) (clock : Int)
    {text : String} {expected : List Row} :
    (∃ mapper mappings rows calls,
        indexDocuments env clock catalogue.others catalogue.documents =
            .ok (mapper, mappings) ∧
          (readListings env (catalogue.desktop base mappings) view
            (some text)).run [] = .ok rows calls ∧ rows.Perm expected) ↔
      (∀ listing ∈ catalogue.documents,
          listing.hasTerm "listing" text = true →
            ListingReadable listing.json) ∧
        ((catalogue.documents.filter fun listing =>
          listing.hasTerm "listing" text).map (rowOf base view)).Perm
            expected := by
  have hindex := catalogue.indexDocuments_eq clock
  have hkeys := catalogue.selectKeys_perm text
  have hrun (hreadable : ∀ listing ∈ catalogue.documents,
      listing.hasTerm "listing" text = true → ListingReadable listing.json) :
      ∃ rows calls, (readListings env
          (catalogue.desktop base catalogue.mappings) view
          (some text)).run [] = .ok rows calls ∧
        rows.Perm ((catalogue.documents.filter fun listing =>
          listing.hasTerm "listing" text).map (rowOf base view)) := by
    refine ⟨_, _, run_readKeys _
      ((catalogue.allRead_iff hkeys).mpr hreadable), ?_⟩
    refine (hkeys.filterMap _).trans ?_
    rw [List.filterMap_map]
    refine List.Perm.of_eq ?_
    rw [← List.filterMap_eq_map]
    refine List.filterMap_congr fun listing hlisting => ?_
    obtain ⟨hlisting, hterm⟩ := List.mem_filter.mp hlisting
    exact catalogue.rowAt_listing hhides hlisting
      (hreadable listing hlisting hterm) catalogue.mappings
  constructor
  · rintro ⟨mapper, others, rows, calls, hother, hresult, hperm⟩
    obtain ⟨-, rfl⟩ := Prod.mk.inj (Except.ok.inj (hindex.symm.trans hother))
    have hreadable := (catalogue.allRead_iff hkeys).mp
      ((returns_readKeys _).mp ⟨rows, calls, hresult⟩)
    obtain ⟨found, after, hfound, hrows⟩ := hrun hreadable
    cases hfound.symm.trans hresult
    exact ⟨hreadable, hrows.symm.trans hperm⟩
  · rintro ⟨hreadable, hperm⟩
    obtain ⟨rows, calls, hresult, hrows⟩ := hrun hreadable
    exact ⟨[], catalogue.mappings, rows, calls, hindex, hresult,
      hrows.trans hperm⟩

variable (base view) in
/-- The listings with the text among their terms are those that are wanted. -/
theorem Catalogue.returnsExactly_iff (catalogue : Catalogue env) (clock : Int)
    {text : String} {wanted : Json → Bool} :
    catalogue.ReturnsExactly clock base view
        (fun desktop => readListings env desktop view (some text)) wanted ↔
      ∀ listing ∈ catalogue.documents,
        (listing.hasTerm "listing" text = true →
          ListingReadable listing.json ∧ wanted listing.json = true) ∧
        (wanted listing.json = true → listing.hasTerm "listing" text = true) := by
  rw [Catalogue.ReturnsExactly, catalogue.returns_iff hhides]
  constructor
  · rintro ⟨hreadable, hperm⟩ listing hlisting
    constructor
    · intro hterm
      have hread := hreadable listing hlisting hterm
      obtain ⟨other, hother, hsame⟩ := List.mem_map.mp (hperm.mem_iff.mp
        (List.mem_map_of_mem (List.mem_filter.mpr ⟨hlisting, hterm⟩)))
      obtain ⟨hother, hwanted⟩ := List.mem_filter.mp hother
      cases catalogue.rowOf_inj hlisting hother hread hsame
      exact ⟨hread, hwanted⟩
    · intro hwanted
      obtain ⟨other, hother, hsame⟩ := List.mem_map.mp (hperm.mem_iff.mpr
        (List.mem_map_of_mem (List.mem_filter.mpr ⟨hlisting, hwanted⟩)))
      obtain ⟨hother, hterm⟩ := List.mem_filter.mp hother
      cases catalogue.rowOf_inj hother hlisting
        (hreadable other hother hterm) hsame.symm
      exact hterm
  · intro h
    refine ⟨fun listing hlisting hterm => ((h listing hlisting).1 hterm).1, ?_⟩
    refine List.Perm.of_eq (congrArg _ (List.filter_congr ?_))
    intro listing hlisting
    obtain ⟨hfound, hwanted⟩ := h listing hlisting
    exact Bool.eq_iff_iff.mpr ⟨fun hterm => (hfound hterm).2, hwanted⟩

end Reading

/-! ## Sellers and categories -/

theorem mem_sellerIds {json : Json} {userId : String} :
    (.sellerIds, userId) ∈ searchTerms json "listing" ↔
      isSoldBy userId json = true := by
  simp [searchTerms, productTerms, memberTerm, isSoldBy]

theorem mem_productCategories {json : Json} {name : String} :
    (.productCategories, name) ∈ searchTerms json "listing" ↔
      name ∈ categoriesOf json := by
  simp [searchTerms, productTerms, categoriesOf]

theorem nameById_of_valid {categoryId : Int} {name : String}
    (hvalid : isValidCategoryId categoryId = true) :
    (categoryId, name) ∈ predefinedCategories ++ predefinedSubcategories ↔
      name = getCategoryNameById categoryId := by
  obtain ⟨⟨id, first⟩, hentry, hid⟩ := List.any_eq_true.mp hvalid
  cases of_decide_eq_true hid
  have hnames : ∀ entry ∈ predefinedCategories,
      entry.2 = getCategoryNameById entry.1 := by decide
  have hids : ∀ entry ∈ predefinedCategories, ∀ other ∈ predefinedSubcategories,
      other.1 ≠ entry.1 := by decide
  constructor
  · intro hmem
    rcases List.mem_append.mp hmem with h | h
    · exact hnames _ h
    · exact absurd rfl (hids (id, first) hentry (id, name) h)
  · rintro rfl
    rw [← hnames _ hentry]
    exact List.mem_append_left _ hentry

theorem mem_category {json : Json} {categoryId : Int}
    (hvalid : isValidCategoryId categoryId = true) :
    (.productCategories, getCategoryNameById categoryId) ∈
        searchTerms json "listing" ↔
      isInCategory categoryId json = true := by
  simp only [mem_productCategories, isInCategory, List.any_eq_true,
    decide_eq_true_eq, nameById_of_valid hvalid, exists_eq_right]

theorem name_of_invalid {categoryId : Int}
    (hinvalid : isValidCategoryId categoryId ≠ true) :
    getCategoryNameById categoryId = "" := by
  have hnone : predefinedCategories.find? (·.1 = categoryId) = none :=
    List.find?_eq_none.mpr fun entry hentry hid =>
      hinvalid (List.any_eq_true.mpr ⟨entry, hentry, hid⟩)
  rw [getCategoryNameById, nameById, hnone]
  rfl

/-- Where one kind of term says what is wanted, the other kinds decide. -/
theorem Catalogue.precise_iff (catalogue : Catalogue env) {text : String}
    {kind : TermMap} {wanted : Json → Bool}
    (hkind : ∀ json, (kind, text) ∈ searchTerms json "listing" ↔
      wanted json = true) :
    (∀ listing ∈ catalogue.documents,
        (listing.hasTerm "listing" text = true →
          ListingReadable listing.json ∧ wanted listing.json = true) ∧
        (wanted listing.json = true → listing.hasTerm "listing" text = true)) ↔
      catalogue.Precise text kind wanted := by
  constructor
  · intro h
    refine ⟨fun listing hlisting other hterm _ => ?_,
      fun listing hlisting hwanted => ?_⟩
    · exact ((h listing hlisting).1
        (StoredDocument.hasTerm_iff.mpr ⟨other, hterm⟩)).2
    · exact ((h listing hlisting).1 ((h listing hlisting).2 hwanted)).1
  · intro h listing hlisting
    have hwanted : listing.hasTerm "listing" text = true →
        wanted listing.json = true := by
      intro hterm
      obtain ⟨other, hother⟩ := StoredDocument.hasTerm_iff.mp hterm
      by_cases hsame : other = kind
      · exact (hkind _).mp (hsame ▸ hother)
      · exact h.otherKinds listing hlisting other hother hsame
    refine ⟨fun hterm => ⟨h.readable listing hlisting (hwanted hterm),
      hwanted hterm⟩, fun hlisted => ?_⟩
    exact StoredDocument.hasTerm_iff.mpr ⟨kind, (hkind _).mpr hlisted⟩

theorem Catalogue.precise_of_invalid (catalogue : Catalogue env)
    {wanted : Json → Bool} {kind : TermMap} :
    (∀ listing ∈ catalogue.documents,
        (listing.hasTerm "listing" "" = true →
          ListingReadable listing.json ∧ wanted listing.json = true) ∧
        (wanted listing.json = true → listing.hasTerm "listing" "" = true)) ↔
      catalogue.Precise "" kind wanted ∧
        ∀ listing ∈ catalogue.documents, (wanted listing.json = true ↔
          ∃ other, (other, "") ∈ searchTerms listing.json "listing") := by
  simp only [← StoredDocument.hasTerm_iff]
  constructor
  · intro h
    refine ⟨⟨fun listing hlisting other hterm _ => ?_,
      fun listing hlisting hwanted => ?_⟩, fun listing hlisting => ?_⟩
    · exact ((h listing hlisting).1
        (StoredDocument.hasTerm_iff.mpr ⟨other, hterm⟩)).2
    · exact ((h listing hlisting).1 ((h listing hlisting).2 hwanted)).1
    · exact ⟨(h listing hlisting).2,
        fun hterm => ((h listing hlisting).1 hterm).2⟩
  · rintro ⟨hprecise, hnames⟩ listing hlisting
    have hwanted := hnames listing hlisting
    exact ⟨fun hterm => ⟨hprecise.readable listing hlisting
      (hwanted.mpr hterm), hwanted.mpr hterm⟩, hwanted.mp⟩

end Lookups

/-! ## A listing with a seller among its tags -/

/-- The product is named after a category and tagged with another user. -/
def taggedText : String :=
  "\x7b\"condition\":\"New\",\"currency\":\"USD\"," ++
    "\"date\":\"2024-01-01T00:00:00Z\"," ++
    "\"id\":\"0b7bd5ab-9d2e-4f3c-8a61-52f0d1c3e4a7\"," ++
    "\"metadata\":\"listing\",\"price\":450.0," ++
    "\"product\":\x7b\"category\":\"Electronics\",\"description\":\"\"," ++
    "\"name\":\"Books\",\"tags\":[\"" ++ raterId ++
    "\"]\x7d,\"quantity\":1,\"seller_id\":\"" ++ sellerId ++
    "\",\"signature\":\"" ++ firstSignature ++ "\"\x7d"

def taggedDocument : Json :=
  .object [("condition", .string "New"), ("currency", .string "USD"),
    ("date", .string "2024-01-01T00:00:00Z"),
    ("id", .string "0b7bd5ab-9d2e-4f3c-8a61-52f0d1c3e4a7"),
    ("metadata", .string "listing"), ("price", .float 450),
    ("product", .object [("category", .string "Electronics"),
      ("description", .string ""), ("name", .string "Books"),
      ("tags", .array [.string raterId])]),
    ("quantity", .unsigned 1), ("seller_id", .string sellerId),
    ("signature", .string firstSignature)]

def taggedExternals : Externals :=
  .ofSignatures [(taggedText, taggedDocument)]
    [("0b7bd5ab-9d2e-4f3c-8a61-52f0d1c3e4a7", sellerId, firstSignature)]

def taggedListing : StoredDocument where
  key := "5a1c9e7d3b2f4860a8c6e4d2b0f1937556473829100a1b2c3d4e5f60718293a4"
  value := taggedText
  json := taggedDocument

theorem accepted_taggedListing :
    Accepted taggedExternals taggedListing.key taggedListing.value
      taggedListing.json "listing" where
  keyLength := by decide
  nonempty := by decide
  parsed := by simp [taggedListing, taggedExternals, Externals.ofSignatures, parseListed]
  isObject := rfl
  kind := by decide
  known := by decide
  fields := by decide +kernel
  verified := by decide +kernel

def taggedCatalogue : Catalogue taggedExternals where
  documents := [taggedListing]
  others := []
  accepted := List.forall_mem_singleton.mpr accepted_taggedListing
  distinct := List.nodup_singleton _
  apart := fun _ hrow => absurd hrow List.not_mem_nil

end Neroshop.Gui
