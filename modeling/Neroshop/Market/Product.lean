import Mathlib.Data.Finset.Sort
import Mathlib.Data.String.Basic
import Neroshop.Foundation.Keyed
import Neroshop.Json

/-!
# Products

A product has variants, each with a value for some options.  A variant is added
when no other has the same values, and then the limits are checked over all of
them.  A category and the subcategories are set by their names.
-/

namespace Neroshop.Market

open Neroshop.Foundation

/-! ## Categories -/

/-- The ids and the names. -/
def predefinedCategories : List (Int × String) :=
  [(0, "Miscellaneous"), (1, "Food & Beverages"), (2, "Electronics"),
    (3, "Home, Furniture & Appliances"), (4, "Garden & Agriculture"),
    (5, "Digital Goods"), (6, "Services"), (7, "Books"),
    (8, "Movies & TV Shows"), (9, "Music & Vinyl"), (10, "Apparel"),
    (11, "Pets"), (12, "Toys & Games"), (13, "Baby"),
    (14, "Arts, Crafts, Sewing & Party Supplies"),
    (15, "Stationery & Office Supplies"), (16, "Tools & Home Improvement"),
    (17, "Motor Vehicles, Automotive Parts & Accessories"),
    (18, "Beauty & Personal Care"), (19, "Drugs & Medications"),
    (20, "Sports & Outdoors"), (21, "Real Estate, Property & Housing"),
    (22, "Luggage & Travel"), (23, "Business, Industrial & Scientific"),
    (24, "Weapons & Firearms"), (25, "Illicit Goods & Services")]

/-- All but the last are named after a category. -/
def predefinedSubcategories : List (Int × String) :=
  [(26, "Digital Goods"), (27, "Digital Goods"), (28, "Digital Goods"),
    (29, "Illicit Goods & Services"), (30, "Illicit Goods & Services"),
    (31, "Illicit Goods & Services"), (32, "Illicit Goods & Services"),
    (33, "Illicit Goods & Services"), (34, "Illicit Goods & Services"),
    (35, "Illicit Goods & Services"), (36, "Illicit Goods & Services"),
    (37, "Miscellaneous"), (38, "Digital Goods"), (39, "Services"),
    (40, "Books"), (41, "Movies & TV Shows"), (42, "Drugs & Medications"),
    (43, "Business, Industrial & Scientific"), (44, "Weapons & Firearms"),
    (45, "Books"), (46, "Movies & TV Shows"), (47, "Music & Vinyl"),
    (505, "Digital Art & Memes")]

def nameById (table : List (Int × String)) (id : Int) : String :=
  ((table.find? (·.1 = id)).map Prod.snd).getD ""

def idByName (table : List (Int × String)) (name : String) : Int :=
  ((table.find? (·.2 = name)).map Prod.fst).getD (-1)

def getCategoryNameById : Int → String := nameById predefinedCategories

def getCategoryIdByName : String → Int := idByName predefinedCategories

def getSubcategoryNameById : Int → String := nameById predefinedSubcategories

def getSubcategoryIdByName : String → Int := idByName predefinedSubcategories

def isValidCategoryId (id : Int) : Bool := predefinedCategories.any (·.1 = id)

/-! ## Variants -/

/-- The part of an image that is put into a document. -/
structure Image where
  name : String
  size : Nat
  id : Nat
  pieces : List String
  pieceSize : Nat

/-- A map from the names of options to their values. -/
structure VariantOptions where
  entries : List (String × String)
  keys : (entries.map Prod.fst).Nodup

namespace VariantOptions

def empty : VariantOptions := ⟨[], List.nodup_nil⟩

/-- `options[key] = value`. -/
def insert (options : VariantOptions) (key value : String) : VariantOptions :=
  if h : key ∈ options.entries.map Prod.fst then
    ⟨assign key value options.entries, by
      rw [keys_assign]
      exact options.keys⟩
  else
    ⟨options.entries ++ [(key, value)], by
      rw [List.map_append, List.map_cons, List.map_nil,
        List.nodup_append_comm, List.singleton_append]
      exact List.nodup_cons.mpr ⟨h, options.keys⟩⟩

/-- `==`, for which the order of the entries does not matter. -/
def Same (options other : VariantOptions) : Prop :=
  options.entries.Perm other.entries

instance (options other : VariantOptions) : Decidable (options.Same other) :=
  inferInstanceAs (Decidable (options.entries.Perm other.entries))

end VariantOptions

/-- The optional fields are empty or have no value. -/
structure ProductVariant where
  options : VariantOptions
  condition : String
  weight : Option ℚ
  price : Option ℚ
  quantity : Option Int32
  productCode : String
  imageIndex : Option Int32

def optionPairs (variants : List ProductVariant) : List (String × String) :=
  variants.flatMap fun variant => variant.options.entries

def optionNames (variants : List ProductVariant) : Finset String :=
  ((optionPairs variants).map Prod.fst).toFinset

def optionValues (variants : List ProductVariant) (name : String) :
    Finset String :=
  (((optionPairs variants).filter (·.1 = name)).map Prod.snd).toFinset

/-- The order in which a set of strings is walked over. -/
def inOrder (texts : Finset String) : List String := texts.sort (· ≤ ·)

theorem mem_inOrder {texts : Finset String} {text : String} :
    text ∈ inOrder texts ↔ text ∈ texts := Finset.mem_sort _

/-- `get_options`: the distinct values of every option, by its name. -/
def getOptions (variants : List ProductVariant) :
    List (String × Finset String) :=
  (inOrder (optionNames variants)).map fun name =>
    (name, optionValues variants name)

def maxOptionsPerVariant : Nat := 2

def maxOptionValues : Nat := 10

def maxTotalVariants : Nat := maxOptionValues ^ maxOptionsPerVariant

/-- The loop of `validate_variants`. -/
def countCombinations : Nat → List (String × Finset String) →
    Except Fault Unit
  | _, [] => .ok ()
  | total, (_, values) :: options =>
      if maxOptionValues < values.card then .error .runtimeError
      else if (2 ^ 64 - 1) / values.card < total then .error .runtimeError
      else if maxTotalVariants < total * values.card then .error .runtimeError
      else countCombinations (total * values.card) options

def validateVariants (variants : List ProductVariant) : Except Fault Unit :=
  let options := getOptions variants
  if options = [] then .ok ()
  else if maxOptionsPerVariant < options.length then .error .runtimeError
  else countCombinations 1 options

/-! ## Products -/

structure Product where
  id : String
  name : String
  description : String
  weight : ℚ
  variants : List ProductVariant
  code : String
  categoryId : Int
  subcategoryIds : Finset Int
  tags : Finset String
  images : List Image

namespace Product

def init : Product := ⟨"", "", "", 0, [], "", 0, ∅, ∅, []⟩

def addVariant (product : Product) (variant : ProductVariant) :
    Except Fault Product := do
  if maxOptionsPerVariant < variant.options.entries.length then
    throw .runtimeError
  if product.variants.any fun other => other.options.Same variant.options then
    return product
  let product := { product with variants := product.variants ++ [variant] }
  validateVariants product.variants
  return product

def setCategory (product : Product) (category : String) :
    Except Fault Product := do
  let categoryId := getCategoryIdByName category
  if categoryId = -1 then throw .runtimeError
  if ¬ isValidCategoryId categoryId then throw .runtimeError
  return { product with categoryId := categoryId }

/-- The id that `set_subcategories` takes for a name: that of a category where
there is one. -/
def subcategoryId (subcategory : String) : Option Int :=
  if getCategoryIdByName subcategory ≠ -1 then
    some (getCategoryIdByName subcategory)
  else if getSubcategoryIdByName subcategory = -1 then none
  else some (getSubcategoryIdByName subcategory)

def setSubcategories (product : Product) (subcategories : List String) :
    Product :=
  { product with
    subcategoryIds := (subcategories.filterMap subcategoryId).toFinset }

def getCategoryAsString (product : Product) : String :=
  getCategoryNameById product.categoryId

def getSubcategoriesAsString (product : Product) : Finset String :=
  (product.subcategoryIds.image getSubcategoryNameById).erase ""

/-- What `set_variants` asks of the variants. -/
structure WithinLimits (product : Product) : Prop where
  options : ∀ variant ∈ product.variants,
    variant.options.entries.length ≤ maxOptionsPerVariant
  variants : validateVariants product.variants = .ok ()

end Product

/-! ## A new option -/

theorem insert_of_notMem {options : VariantOptions} {key : String}
    (h : key ∉ options.entries.map Prod.fst) (value : String) :
    (options.insert key value).entries = options.entries ++ [(key, value)] := by
  rw [VariantOptions.insert, dif_neg h]

/-! ## The limits -/

theorem countCombinations_ok {options : List (String × Finset String)}
    {total : Nat} (h : countCombinations total options = .ok ()) :
    ∀ option ∈ options, option.2.card ≤ maxOptionValues := by
  induction options generalizing total with
  | nil => exact nofun
  | cons option options ih =>
      obtain ⟨name, values⟩ := option
      unfold countCombinations at h
      by_cases hvalues : maxOptionValues < values.card
      · rw [if_pos hvalues] at h
        cases h
      rw [if_neg hvalues] at h
      by_cases hmax : (2 ^ 64 - 1) / values.card < total
      · rw [if_pos hmax] at h
        cases h
      rw [if_neg hmax] at h
      by_cases htotal : maxTotalVariants < total * values.card
      · rw [if_pos htotal] at h
        cases h
      rw [if_neg htotal] at h
      intro option hoption
      rcases List.mem_cons.mp hoption with rfl | hrest
      · exact Nat.not_lt.mp hvalues
      · exact ih h option hrest

/-- One option of few values does not end the loop. -/
theorem countCombinations_cons {options : List (String × Finset String)}
    {name : String} {values : Finset String} {total : Nat}
    (hvalues : values.card ≤ maxOptionValues) (hpos : 0 < values.card)
    (htotal : total * values.card ≤ maxTotalVariants) :
    countCombinations total ((name, values) :: options) =
      countCombinations (total * values.card) options := by
  have hmax : total ≤ (2 ^ 64 - 1) / values.card := by
    rw [Nat.le_div_iff_mul_le hpos]
    refine htotal.trans ?_
    decide
  rw [countCombinations, if_neg (Nat.not_lt.mpr hvalues),
    if_neg (Nat.not_lt.mpr hmax), if_neg (Nat.not_lt.mpr htotal)]

theorem countCombinations_of_card {options : List (String × Finset String)}
    (hlength : options.length ≤ maxOptionsPerVariant)
    (hpos : ∀ option ∈ options, 0 < option.2.card)
    (hvalues : ∀ option ∈ options, option.2.card ≤ maxOptionValues) :
    countCombinations 1 options = .ok () := by
  match options, hlength with
  | [], _ => rfl
  | [(_, first)], _ =>
      have hfirst := hvalues _ List.mem_cons_self
      rw [countCombinations_cons hfirst (hpos _ List.mem_cons_self)]
      · rfl
      · rw [Nat.one_mul]
        exact hfirst.trans (by decide)
  | [(_, first), (_, second)], _ =>
      have hfirst := hvalues _ List.mem_cons_self
      have hsecond := hvalues _ (List.mem_cons_of_mem _ List.mem_cons_self)
      have hproduct : first.card * second.card ≤ maxTotalVariants :=
        Nat.mul_le_mul hfirst hsecond
      rw [countCombinations_cons hfirst (hpos _ List.mem_cons_self),
        countCombinations_cons hsecond
          (hpos _ (List.mem_cons_of_mem _ List.mem_cons_self))]
      · rfl
      · rwa [Nat.one_mul]
      · rw [Nat.one_mul]
        exact hfirst.trans (by decide)

theorem mem_optionNames {variants : List ProductVariant} {name : String} :
    name ∈ optionNames variants ↔
      ∃ value, (name, value) ∈ optionPairs variants := by
  simp [optionNames]

theorem mem_optionValues {variants : List ProductVariant}
    {name value : String} :
    value ∈ optionValues variants name ↔
      (name, value) ∈ optionPairs variants := by
  simp [optionValues]

theorem length_getOptions (variants : List ProductVariant) :
    (getOptions variants).length = (optionNames variants).card := by
  rw [getOptions, List.length_map, inOrder, Finset.length_sort]

theorem mem_getOptions {variants : List ProductVariant}
    {option : String × Finset String} :
    option ∈ getOptions variants ↔ option.1 ∈ optionNames variants ∧
      option.2 = optionValues variants option.1 := by
  obtain ⟨name, values⟩ := option
  simp only [getOptions, List.mem_map, mem_inOrder, Prod.mk.injEq]
  constructor
  · rintro ⟨other, hother, rfl, rfl⟩
    exact ⟨hother, rfl⟩
  · rintro ⟨hname, rfl⟩
    exact ⟨name, hname, rfl, rfl⟩

theorem validateVariants_eq_ok {variants : List ProductVariant} :
    validateVariants variants = .ok () ↔
      (optionNames variants).card ≤ maxOptionsPerVariant ∧
        ∀ name ∈ optionNames variants,
          (optionValues variants name).card ≤ maxOptionValues := by
  unfold validateVariants
  by_cases hnone : getOptions variants = []
  · rw [if_pos hnone]
    have hnames : optionNames variants = ∅ := by
      rw [← Finset.card_eq_zero, ← length_getOptions, hnone, List.length_nil]
    simp [hnames]
  rw [if_neg hnone]
  by_cases hlength : maxOptionsPerVariant < (getOptions variants).length
  · rw [if_pos hlength]
    rw [length_getOptions] at hlength
    exact iff_of_false nofun fun h => Nat.not_lt.mpr h.1 hlength
  rw [if_neg hlength]
  constructor
  · intro h
    rw [length_getOptions] at hlength
    refine ⟨Nat.not_lt.mp hlength, fun name hname => ?_⟩
    have hmem : (name, optionValues variants name) ∈ getOptions variants :=
      mem_getOptions.mpr ⟨hname, rfl⟩
    exact countCombinations_ok h _ hmem
  · rintro ⟨-, hvalues⟩
    refine countCombinations_of_card (Nat.not_lt.mp hlength) ?_ ?_
    · intro option hoption
      obtain ⟨hname, hoption⟩ := mem_getOptions.mp hoption
      obtain ⟨value, hvalue⟩ := mem_optionNames.mp hname
      rw [hoption]
      exact Finset.card_pos.mpr ⟨value, mem_optionValues.mpr hvalue⟩
    · intro option hoption
      obtain ⟨hname, hoption⟩ := mem_getOptions.mp hoption
      rw [hoption]
      exact hvalues _ hname

/-- Fewer variants are within the limits as well. -/
theorem validateVariants_mono {variants more : List ProductVariant}
    (hpairs : optionPairs variants ⊆ optionPairs more)
    (h : validateVariants more = .ok ()) :
    validateVariants variants = .ok () := by
  rw [validateVariants_eq_ok] at h ⊢
  have hnames : optionNames variants ⊆ optionNames more := by
    intro name hname
    obtain ⟨value, hvalue⟩ := mem_optionNames.mp hname
    exact mem_optionNames.mpr ⟨value, hpairs hvalue⟩
  refine ⟨(Finset.card_le_card hnames).trans h.1, fun name hname => ?_⟩
  refine (Finset.card_le_card fun value hvalue => ?_).trans
    (h.2 name (hnames hname))
  exact mem_optionValues.mpr (hpairs (mem_optionValues.mp hvalue))

end Neroshop.Market
