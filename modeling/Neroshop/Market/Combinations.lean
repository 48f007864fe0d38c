import Mathlib.Algebra.BigOperators.Group.Finset.Basic
import Neroshop.Foundation.Choices
import Neroshop.Market.Product

/-!
# The combinations of the values of a product's options

`cartesian_product` goes through the options in the order of their names and
copies the variant that it has built so far for every value of the next one.
-/

namespace Neroshop.Market

open Neroshop.Foundation

/-- `ProductVariant{}`. -/
def ProductVariant.unset : ProductVariant :=
  ⟨.empty, "", none, none, none, "", none⟩

/-- The recursion over the keys that are left, each with its values. -/
def buildCombinations :
    List (String × Finset String) → ProductVariant → List ProductVariant
  | [], current => [current]
  | (key, values) :: options, current =>
      (inOrder values).flatMap fun value =>
        buildCombinations options
          { current with options := current.options.insert key value }

def Product.cartesianProduct (product : Product) : List ProductVariant :=
  let variantOptions := getOptions product.variants
  if variantOptions = [] then [] else buildCombinations variantOptions .unset

/-- Every option has one value, and that is one which some variant has. -/
structure Combines (variants : List ProductVariant) (options : VariantOptions) :
    Prop where
  names : ∀ name, name ∈ options.entries.map Prod.fst ↔
    name ∈ optionNames variants
  values : ∀ entry ∈ options.entries,
    entry.2 ∈ optionValues variants entry.1

/-- No combination is missing, none is there twice, and nothing else is. -/
structure ListsCombinations (product : Product)
    (combinations : List ProductVariant) : Prop where
  length : combinations.length =
    if optionNames product.variants = ∅ then 0
    else ∏ name ∈ optionNames product.variants,
      (optionValues product.variants name).card
  distinct : combinations.Pairwise fun variant other =>
    ¬ variant.options.Same other.options
  only : ∀ variant ∈ combinations,
    Combines product.variants variant.options ∧
      variant = { ProductVariant.unset with options := variant.options }
  all : optionNames product.variants ≠ ∅ → ∀ options,
    Combines product.variants options →
      ∃ variant ∈ combinations, variant.options.Same options
  stored : optionNames product.variants ≠ ∅ →
    ∀ variant ∈ product.variants,
      (∀ name ∈ optionNames product.variants,
        name ∈ variant.options.entries.map Prod.fst) →
      ∃ combination ∈ combinations,
        combination.options.Same variant.options

theorem length_inOrder (texts : Finset String) :
    (inOrder texts).length = texts.card := by
  rw [inOrder, Finset.length_sort]

theorem nodup_inOrder (texts : Finset String) : (inOrder texts).Nodup :=
  Finset.sort_nodup _ _

/-! ## What is built -/

section Built

variable {options : List (String × Finset String)} {current : ProductVariant}

/-- The values of each option in the order in which they are gone through. -/
def factors (options : List (String × Finset String)) :
    List (String × List String) :=
  options.map fun option => (option.1, inOrder option.2)

theorem keys_factors (options : List (String × Finset String)) :
    (factors options).map Prod.fst = options.map Prod.fst := by
  rw [factors, List.map_map]
  rfl

/-- The built variants have the choices behind what was there before. -/
theorem entries_buildCombinations
    (hnodup : (options.map Prod.fst).Nodup)
    (hnew : ∀ name ∈ options.map Prod.fst,
      name ∉ current.options.entries.map Prod.fst) :
    (buildCombinations options current).map
        (fun variant => variant.options.entries) =
      (choices (factors options)).map (current.options.entries ++ ·) := by
  induction options generalizing current with
  | nil =>
      rw [buildCombinations, factors, List.map_nil, choices, List.map_singleton,
        List.map_singleton, List.append_nil]
  | cons option options ih =>
      obtain ⟨key, values⟩ := option
      obtain ⟨hkey, hnodup⟩ := List.nodup_cons.mp hnodup
      obtain ⟨hcurrent, hnew⟩ := List.forall_mem_cons.mp hnew
      rw [buildCombinations, factors, List.map_cons, choices, List.map_flatMap,
        List.map_flatMap]
      refine List.flatMap_congr fun value _ => ?_
      have hentries := insert_of_notMem hcurrent value
      rw [ih hnodup, hentries, List.map_map]
      · refine List.map_congr_left fun choice _ => ?_
        rw [List.append_assoc]
        rfl
      · intro name hname hmem
        rw [hentries, List.map_append, List.mem_append] at hmem
        rcases hmem with hold | hlast
        · exact hnew name hname hold
        · rw [List.map_singleton, List.mem_singleton] at hlast
          exact hkey (hlast ▸ hname)

/-- Nothing but the options is set. -/
theorem eq_of_mem_buildCombinations {variant : ProductVariant}
    (h : variant ∈ buildCombinations options current) :
    variant = { current with options := variant.options } := by
  induction options generalizing current with
  | nil => rw [List.mem_singleton.mp h]
  | cons option options ih =>
      obtain ⟨value, -, hvariant⟩ := List.mem_flatMap.mp h
      have hbuilt := ih hvariant
      exact hbuilt

end Built

section Combinations

variable {product : Product}

theorem nodup_names (variants : List ProductVariant) :
    ((getOptions variants).map Prod.fst).Nodup := by
  rw [getOptions, List.map_map]
  change ((inOrder (optionNames variants)).map id).Nodup
  rw [List.map_id]
  exact nodup_inOrder _

theorem mem_names {variants : List ProductVariant} {name : String} :
    name ∈ (getOptions variants).map Prod.fst ↔ name ∈ optionNames variants := by
  rw [getOptions, List.map_map]
  change name ∈ (inOrder (optionNames variants)).map id ↔ _
  rw [List.map_id, mem_inOrder]

theorem getOptions_eq_nil {variants : List ProductVariant} :
    getOptions variants = [] ↔ optionNames variants = ∅ := by
  rw [← List.length_eq_zero_iff, length_getOptions, Finset.card_eq_zero]

/-- The choices of the values of all options. -/
def productChoices (product : Product) : List (List (String × String)) :=
  choices (factors (getOptions product.variants))

theorem nodup_factors (variants : List ProductVariant) :
    ∀ factor ∈ factors (getOptions variants), factor.2.Nodup := by
  intro factor hfactor
  obtain ⟨option, -, rfl⟩ := List.mem_map.mp hfactor
  exact nodup_inOrder _

theorem entries_cartesianProduct (h : optionNames product.variants ≠ ∅) :
    product.cartesianProduct.map (fun variant => variant.options.entries) =
      productChoices product := by
  rw [Product.cartesianProduct, if_neg (mt getOptions_eq_nil.mp h),
    entries_buildCombinations (nodup_names product.variants)]
  · exact List.map_id _
  · exact fun name _ => List.not_mem_nil

theorem keys_productChoices {choice : List (String × String)}
    (h : choice ∈ productChoices product) :
    choice.map Prod.fst = (getOptions product.variants).map Prod.fst := by
  rw [keys_of_mem_choices h, keys_factors]

theorem combines_of_choice {options : VariantOptions}
    (h : options.entries ∈ productChoices product) :
    Combines product.variants options where
  names name := by rw [keys_productChoices h, mem_names]
  values entry hentry := by
    obtain ⟨factor, hfactor, hkey, hvalue⟩ := values_of_mem_choices h entry hentry
    obtain ⟨option, hoption, rfl⟩ := List.mem_map.mp hfactor
    rw [mem_inOrder, (mem_getOptions.mp hoption).2] at hvalue
    exact hkey ▸ hvalue

theorem exists_choice_of_combines {options : VariantOptions}
    (h : Combines product.variants options) :
    ∃ choice ∈ productChoices product, choice.Perm options.entries := by
  refine exists_choice_perm ?_ options.keys (fun name => ?_) ?_
  · rw [keys_factors]
    exact nodup_names product.variants
  · rw [keys_factors, mem_names, h.names]
  · intro factor hfactor value hentry
    obtain ⟨option, hoption, rfl⟩ := List.mem_map.mp hfactor
    rw [mem_inOrder, (mem_getOptions.mp hoption).2]
    exact h.values _ hentry

/-- The options of a stored variant that has all of them are a combination. -/
theorem combines_of_stored {variant : ProductVariant}
    (hvariant : variant ∈ product.variants)
    (hall : ∀ name ∈ optionNames product.variants,
      name ∈ variant.options.entries.map Prod.fst) :
    Combines product.variants variant.options := by
  have hpairs : ∀ entry ∈ variant.options.entries,
      entry ∈ optionPairs product.variants := fun entry hentry =>
    List.mem_flatMap.mpr ⟨variant, hvariant, hentry⟩
  refine ⟨fun name => ⟨fun hname => ?_, hall name⟩, fun entry hentry =>
    mem_optionValues.mpr (hpairs entry hentry)⟩
  obtain ⟨entry, hentry, rfl⟩ := List.mem_map.mp hname
  exact mem_optionNames.mpr ⟨entry.2, hpairs entry hentry⟩

theorem length_productChoices (product : Product) :
    (productChoices product).length =
      ∏ name ∈ optionNames product.variants,
        (optionValues product.variants name).card := by
  have hsizes : (factors (getOptions product.variants)).map
      (fun factor => factor.2.length) =
        (inOrder (optionNames product.variants)).map fun name =>
          (optionValues product.variants name).card := by
    rw [factors, getOptions, List.map_map, List.map_map]
    refine List.map_congr_left fun name _ => ?_
    exact length_inOrder (optionValues product.variants name)
  rw [productChoices, length_choices, hsizes,
    ← List.prod_toFinset _ (nodup_inOrder _), inOrder, Finset.sort_toFinset]

/-- A combination is there once, whatever the order of its entries. -/
theorem distinct_cartesianProduct (h : optionNames product.variants ≠ ∅) :
    product.cartesianProduct.Pairwise fun variant other =>
      ¬ variant.options.Same other.options := by
  have hnodup : (productChoices product).Nodup :=
    nodup_choices (nodup_factors product.variants)
  rw [← entries_cartesianProduct h, List.Nodup, List.pairwise_map] at hnodup
  refine hnodup.imp_of_mem fun {variant other} hvariant hother hne hsame => ?_
  have hchoice : ∀ built ∈ product.cartesianProduct,
      built.options.entries ∈ productChoices product := by
    intro built hbuilt
    rw [← entries_cartesianProduct h]
    exact List.mem_map_of_mem hbuilt
  refine hne (eq_of_perm_of_keys ?_ variant.options.keys hsame)
  rw [keys_productChoices (hchoice variant hvariant),
    keys_productChoices (hchoice other hother)]

theorem exists_combination (h : optionNames product.variants ≠ ∅)
    {options : VariantOptions} (hoptions : Combines product.variants options) :
    ∃ variant ∈ product.cartesianProduct, variant.options.Same options := by
  obtain ⟨choice, hchoice, hperm⟩ := exists_choice_of_combines hoptions
  rw [← entries_cartesianProduct h] at hchoice
  obtain ⟨variant, hvariant, rfl⟩ := List.mem_map.mp hchoice
  exact ⟨variant, hvariant, hperm⟩

/--
Where a product has options, every combination of their values is there once,
and nothing else; where it has none, nothing is.
-/
theorem cartesianProduct_lists (product : Product) :
    ListsCombinations product product.cartesianProduct := by
  by_cases h : optionNames product.variants = ∅
  · have hnone : product.cartesianProduct = [] := by
      rw [Product.cartesianProduct, if_pos (getOptions_eq_nil.mpr h)]
    rw [hnone]
    exact ⟨(if_pos h).symm, .nil, fun _ hmem => absurd hmem List.not_mem_nil,
      absurd h, absurd h⟩
  · refine ⟨?_, distinct_cartesianProduct h, fun variant hvariant => ⟨?_, ?_⟩,
      fun _ _ => exists_combination h, fun _ variant hvariant hall => ?_⟩
    · rw [if_neg h, ← length_productChoices, ← entries_cartesianProduct h,
        List.length_map]
    · refine combines_of_choice ?_
      rw [← entries_cartesianProduct h]
      exact List.mem_map_of_mem hvariant
    · rw [Product.cartesianProduct, if_neg (mt getOptions_eq_nil.mp h)]
        at hvariant
      exact eq_of_mem_buildCombinations hvariant
    · exact exists_combination h (combines_of_stored hvariant hall)

/-! ## A variant without options -/

def plainProduct : Product := { Product.init with variants := [.unset] }

/-- It sets all of the options, as there are none, and it is no combination. -/
theorem plain_variant_missing :
    ProductVariant.unset ∈ plainProduct.variants ∧
    (∀ name ∈ optionNames plainProduct.variants,
      name ∈ ProductVariant.unset.options.entries.map Prod.fst) ∧
    ¬ ∃ combination ∈ plainProduct.cartesianProduct,
      combination.options.Same ProductVariant.unset.options := by
  refine ⟨List.mem_singleton_self _, by decide, ?_⟩
  rintro ⟨combination, hcombination, -⟩
  have hnone : plainProduct.cartesianProduct = [] := by
    rw [Product.cartesianProduct, if_pos (getOptions_eq_nil.mpr (by decide))]
  rw [hnone] at hcombination
  cases hcombination

end Combinations

end Neroshop.Market
