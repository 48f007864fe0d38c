import Neroshop.Market.ListingDocument

/-!
# The subcategories of a product

They are set by their names, which are looked up among the categories first,
and written by the names of their ids, which are looked up among the
subcategories alone.  All but one are named after a category.
-/

namespace Neroshop.Market

open Neroshop.Foundation Neroshop.Gui Neroshop.Node

/-- The names that a document gives for the subcategories. -/
def writtenSubcategories (document : Json) : Option Json :=
  (document.find? "product").bind fun product => product.find? "subcategories"

/-- What was set by its names has these names, also in a second document. -/
structure KeepsSubcategories (product : Product) : Prop where
  names : (product.setSubcategories
      (inOrder product.getSubcategoriesAsString)).getSubcategoriesAsString =
    product.getSubcategoriesAsString
  written : ∀ (serializer : Serializer) (listing restored : Listing)
    (other : Product) (data : String × String),
    listing.product = some product →
    serializer.ReadsBack listing product →
    serializer.serialize listing = .ok data →
    serializer.deserialize data = .ok (some restored) →
    restored.product = some other →
    ∀ expiration later,
      writtenSubcategories (listingDocument restored other later) =
        writtenSubcategories (listingDocument listing product expiration)

/-! ## The names -/

section Names

variable {product : Product}

theorem mem_getSubcategoriesAsString {name : String} :
    name ∈ product.getSubcategoriesAsString ↔
      name ≠ "" ∧ ∃ id ∈ product.subcategoryIds,
        getSubcategoryNameById id = name := by
  rw [Product.getSubcategoriesAsString, Finset.mem_erase, Finset.mem_image]

theorem getSubcategoryNameById_drawn :
    ∀ id ∈ predefinedSubcategories.map Prod.fst,
      getSubcategoryNameById id ≠ "" := by
  decide

/-- No other subcategory has the name of the last one. -/
theorem eq_505_of_name :
    ∀ id ∈ predefinedSubcategories.map Prod.fst,
      getSubcategoryNameById id = getSubcategoryNameById 505 → id = 505 := by
  decide

theorem setSubcategories_ids :
    (product.setSubcategories
      (inOrder product.getSubcategoriesAsString)).subcategoryIds =
        restoredSubcategoryIds product := rfl

/-- Of the names that are set, the last subcategory's is the one that is kept. -/
theorem eq_505_of_kept
    (hdrawn : ∀ id ∈ product.subcategoryIds,
      id ∈ predefinedSubcategories.map Prod.fst)
    (h : (product.setSubcategories
        (inOrder product.getSubcategoriesAsString)).getSubcategoriesAsString =
      product.getSubcategoriesAsString) :
    ∀ id ∈ product.subcategoryIds, id = 505 := by
  intro id hid
  have hname := getSubcategoryNameById_drawn id (hdrawn id hid)
  have hkept : getSubcategoryNameById id ∈
      product.getSubcategoriesAsString :=
    mem_getSubcategoriesAsString.mpr ⟨hname, id, hid, rfl⟩
  rw [← h, mem_getSubcategoriesAsString, setSubcategories_ids] at hkept
  obtain ⟨-, other, hother, hsame⟩ := hkept
  have hlast := eq_of_mem_restoredSubcategoryIds hother (hsame ▸ hname)
  exact eq_505_of_name id (hdrawn id hid) (hlast ▸ hsame.symm)

theorem names_kept_of_505 (h : ∀ id ∈ product.subcategoryIds, id = 505) :
    (product.setSubcategories
        (inOrder product.getSubcategoriesAsString)).getSubcategoriesAsString =
      product.getSubcategoriesAsString := by
  by_cases hnone : product.getSubcategoriesAsString = ∅
  · rw [Product.getSubcategoriesAsString, setSubcategories_ids,
      restoredSubcategoryIds, hnone, inOrder, Finset.sort_empty]
    rfl
  · have hids : product.subcategoryIds = {505} := by
      refine Finset.eq_singleton_iff_nonempty_unique_mem.mpr ⟨?_, h⟩
      obtain ⟨name, hname⟩ := Finset.nonempty_iff_ne_empty.mpr hnone
      obtain ⟨-, id, hid, -⟩ := mem_getSubcategoriesAsString.mp hname
      exact ⟨id, hid⟩
    rw [Product.getSubcategoriesAsString, setSubcategories_ids,
      (restoredSubcategoryIds_eq hnone).mpr hids]
    rfl

end Names

/-! ## What a listing is read with -/

section Reading

variable {serializer : Serializer} {product restored : Product} {json : Json}

theorem addVariant_subcategoryIds {variant : ProductVariant}
    (h : product.addVariant variant = .ok restored) :
    restored.subcategoryIds = product.subcategoryIds := by
  by_cases hoptions : maxOptionsPerVariant < variant.options.entries.length
  · rw [Product.addVariant, if_pos hoptions] at h
    cases h
  by_cases hsame : product.variants.any fun other =>
      other.options.Same variant.options
  · rw [Product.addVariant, if_neg hoptions, if_pos hsame] at h
    rw [← Except.ok.inj h]
  · rw [Product.addVariant, if_neg hoptions, if_neg hsame] at h
    obtain ⟨-, -, hrestored⟩ := bind_eq_ok.mp h
    rw [← Except.ok.inj hrestored]

theorem foldlM_addVariant_subcategoryIds {variants : List Json}
    (h : variants.foldlM serializer.addVariant product = .ok restored) :
    restored.subcategoryIds = product.subcategoryIds := by
  induction variants generalizing product with
  | nil => rw [← Except.ok.inj h]
  | cons variant variants ih =>
      rw [List.foldlM_cons] at h
      obtain ⟨middle, hadd, hrest⟩ := bind_eq_ok.mp h
      obtain ⟨read, -, hadd⟩ := bind_eq_ok.mp hadd
      rw [ih hrest, addVariant_subcategoryIds hadd]

theorem readVariants_subcategoryIds
    (h : serializer.readVariants product json = .ok restored) :
    restored.subcategoryIds = product.subcategoryIds := by
  unfold Serializer.readVariants at h
  split at h
  · exact foldlM_addVariant_subcategoryIds h
  · rw [← Except.ok.inj h]

theorem setCategory_subcategoryIds {category : String}
    (h : product.setCategory category = .ok restored) :
    restored.subcategoryIds = product.subcategoryIds := by
  unfold Product.setCategory at h
  dsimp only at h
  split at h
  · cases h
  · change (if _ then _ else _) = _ at h
    split at h
    · cases h
    · rw [← Except.ok.inj h]

/-- The subcategories of a product that is read are set by their names. -/
theorem readProduct_subcategoryIds {id : String}
    (h : serializer.readProduct id json = .ok restored) :
    ∃ names, fetchOptional json "subcategories" getStrings = .ok names ∧
      restored.subcategoryIds =
        ((names.getD []).filterMap Product.subcategoryId).toFinset := by
  unfold Serializer.readProduct at h
  obtain ⟨name, -, h⟩ := bind_eq_ok.mp h
  obtain ⟨description, -, h⟩ := bind_eq_ok.mp h
  obtain ⟨-, -, h⟩ := bind_eq_ok.mp h
  obtain ⟨first, hvariants, h⟩ := bind_eq_ok.mp h
  obtain ⟨code, -, h⟩ := bind_eq_ok.mp h
  obtain ⟨category, -, h⟩ := bind_eq_ok.mp h
  obtain ⟨second, hcategory, h⟩ := bind_eq_ok.mp h
  obtain ⟨names, hnames, h⟩ := bind_eq_ok.mp h
  refine ⟨names, hnames, ?_⟩
  obtain ⟨tags, -, h⟩ := bind_eq_ok.mp h
  have hids : second.subcategoryIds = ∅ :=
    (setCategory_subcategoryIds hcategory).trans
      (readVariants_subcategoryIds hvariants)
  rw [← Except.ok.inj h]
  cases names with
  | none => exact hids
  | some names => rfl

theorem deserialize_product {data : String × String} {listing : Listing}
    (hparse : serializer.env.parse data.2 = .ok json)
    (h : serializer.deserialize data = .ok (some listing)) :
    ∃ id document, json.index "product" = .ok document ∧
      ∃ read, serializer.readProduct id document = .ok read ∧
        listing.product = some read := by
  unfold Serializer.deserialize at h
  obtain ⟨value, hvalue, h⟩ := bind_eq_ok.mp h
  rw [Externals.parseOrThrow, hparse] at hvalue
  obtain rfl := Except.ok.inj hvalue
  obtain ⟨metadata, -, h⟩ := bind_eq_ok.mp h
  obtain ⟨-, -, h⟩ := bind_eq_ok.mp h
  obtain ⟨kind, -, h⟩ := bind_eq_ok.mp h
  by_cases hkind : kind ≠ "listing"
  · rw [if_pos hkind] at h
    cases h
  rw [if_neg hkind] at h
  obtain ⟨id, -, h⟩ := bind_eq_ok.mp h
  obtain ⟨sellerId, -, h⟩ := bind_eq_ok.mp h
  obtain ⟨quantity, -, h⟩ := bind_eq_ok.mp h
  obtain ⟨price, -, h⟩ := bind_eq_ok.mp h
  obtain ⟨currency, -, h⟩ := bind_eq_ok.mp h
  obtain ⟨condition, -, h⟩ := bind_eq_ok.mp h
  obtain ⟨date, -, h⟩ := bind_eq_ok.mp h
  obtain ⟨asserted, -, h⟩ := bind_eq_ok.mp h
  obtain ⟨-, -, h⟩ := bind_eq_ok.mp h
  obtain ⟨document, hdocument, h⟩ := bind_eq_ok.mp h
  obtain ⟨read, hread, h⟩ := bind_eq_ok.mp h
  refine ⟨id, document, hdocument, read, hread, ?_⟩
  rw [← Option.some.inj (Except.ok.inj h)]

/-- Whatever else is read, the subcategories are those of the written names. -/
theorem deserialize_subcategoryIds {data : String × String}
    {listing again : Listing} {expiration : Option String}
    (hparse : serializer.env.parse data.2 =
      .ok (listingDocument listing product expiration))
    (h : serializer.deserialize data = .ok (some again))
    (hproduct : again.product = some restored) :
    restored.subcategoryIds = restoredSubcategoryIds product := by
  obtain ⟨id, document, hdocument, read, hread, hagain⟩ :=
    deserialize_product hparse h
  obtain rfl : read = restored := Option.some.inj (hagain.symm.trans hproduct)
  have hwritten : (listingDocument listing product expiration).index "product" =
      .ok (.ofFields (productFields product)) :=
    Json.index_ofFields (nodup_listingFields listing product expiration) rfl
  obtain rfl := Except.ok.inj (hwritten.symm.trans hdocument)
  obtain ⟨names, hnames, hids⟩ := readProduct_subcategoryIds hread
  have hsubcategories : fetchOptional (.ofFields (productFields product))
      "subcategories" getStrings =
        .ok (onlyIf (product.getSubcategoriesAsString ≠ ∅)
          (inOrder product.getSubcategoriesAsString)) :=
    fetchOptional_ofFields (nodup_productFields product) rfl
      fun _ _ => getStrings_stringArray _
  obtain rfl := Except.ok.inj (hsubcategories.symm.trans hnames)
  rw [hids, restoredSubcategoryIds]
  by_cases hnone : product.getSubcategoriesAsString = ∅
  · rw [hnone, inOrder, Finset.sort_empty, onlyIf,
      if_neg (not_not_intro rfl), Option.getD_none]
  · rw [onlyIf, if_pos hnone, Option.getD_some]

end Reading

theorem writtenSubcategories_document (listing : Listing) (product : Product)
    (expiration : Option String) :
    writtenSubcategories (listingDocument listing product expiration) =
      (onlyIf (product.getSubcategoriesAsString ≠ ∅)
        (inOrder product.getSubcategoriesAsString)).map stringArray := by
  have hproduct : (listingDocument listing product expiration).find? "product" =
      some (.ofFields (productFields product)) := by
    rw [listingDocument, Json.find?_ofFields (nodup_listingFields ..)]
    rfl
  rw [writtenSubcategories, hproduct, Option.bind_some,
    Json.find?_ofFields (nodup_productFields product)]
  rfl

/--
The names survive, also from one document to the next, where there is no
subcategory or only the last one.
-/
theorem keepsSubcategories_iff {product : Product}
    (hdrawn : ∀ id ∈ product.subcategoryIds,
      id ∈ predefinedSubcategories.map Prod.fst) :
    KeepsSubcategories product ↔ ∀ id ∈ product.subcategoryIds, id = 505 := by
  constructor
  · exact fun h => eq_505_of_kept hdrawn h.names
  · intro h
    have hnames := names_kept_of_505 h
    refine ⟨hnames, ?_⟩
    intro serializer listing restored other data hproduct hparse hdata hrestored
      hother expiration later
    unfold Serializer.serialize at hdata
    rw [hproduct] at hdata
    obtain ⟨written, hwritten, hpair⟩ := bind_eq_ok.mp hdata
    have hread : serializer.env.parse data.2 =
        .ok (listingDocument listing product written) := by
      rw [← Except.ok.inj hpair]
      exact hparse written hwritten
    have hids : other.subcategoryIds = restoredSubcategoryIds product :=
      deserialize_subcategoryIds hread hrestored hother
    have hsame : other.getSubcategoriesAsString =
        product.getSubcategoriesAsString := by
      rw [← hnames, Product.getSubcategoriesAsString, hids]
      rfl
    rw [writtenSubcategories_document, writtenSubcategories_document, hsame]

/-! ## Digital books -/

def digitalBook (subcategoryIds : Finset Int) : Product :=
  { book with subcategoryIds := subcategoryIds }

/-- A subcategory that is named after a category. -/
theorem digitalBook_loses_subcategory :
    (∀ id ∈ (digitalBook {40}).subcategoryIds,
      id ∈ predefinedSubcategories.map Prod.fst) ∧
    (digitalBook {40}).getSubcategoriesAsString = {"Books"} ∧
    ((digitalBook {40}).setSubcategories ["Books"]).getSubcategoriesAsString =
      ∅ := by
  decide

theorem keepsSubcategories_last : KeepsSubcategories (digitalBook {505}) :=
  (keepsSubcategories_iff (by decide)).mpr (by decide)

end Neroshop.Market
