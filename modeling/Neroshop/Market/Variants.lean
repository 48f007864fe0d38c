import Mathlib.Algebra.Order.BigOperators.Group.List
import Neroshop.Foundation.Effects
import Neroshop.Foundation.Transition
import Neroshop.Market.Product

/-!
# The variants of a product

`add_variant` and `set_variants` check the options of what they are given, then
write it, and then check the limits over all variants.  What was written stays
when that last check throws, and `set_variants` does not look for variants with
the same options.
-/

namespace Neroshop.Market

open Neroshop.Foundation

def tooManyOptions (variant : ProductVariant) : Bool :=
  maxOptionsPerVariant < variant.options.entries.length

def variantExists (variants : List ProductVariant) (variant : ProductVariant) :
    Bool :=
  variants.any fun other => other.options.Same variant.options

/-! ## The two functions -/

inductive VariantCall where
  | addVariant (variant : ProductVariant)
  | setVariants (variants : List ProductVariant)

def Product.writeVariants (product : Product) (variants : List ProductVariant) :
    Product :=
  { product with variants := variants }

/-- Unlike `Product.addVariant` it has the product that an exception leaves. -/
def addVariantCall (variant : ProductVariant) : EStateM Fault Product Unit := do
  if tooManyOptions variant then throw .runtimeError
  let product ← get
  if ¬ variantExists product.variants variant then
    set (product.writeVariants (product.variants ++ [variant]))
    MonadExcept.ofExcept (validateVariants (product.variants ++ [variant]))

def setVariantsCall (variants : List ProductVariant) :
    EStateM Fault Product Unit := do
  if variants.any tooManyOptions then throw .runtimeError
  modify fun product => product.writeVariants variants
  MonadExcept.ofExcept (validateVariants variants)

def VariantCall.run : VariantCall → EStateM Fault Product Unit
  | .addVariant variant => addVariantCall variant
  | .setVariants variants => setVariantsCall variants

/-- Every call is made, and leaves a product whether it throws or not. -/
def stepVariants (product : Product) (call : VariantCall) : Option Product :=
  some (stateAfter call.run product)

/-! ## What is asked of the variants -/

structure SoundVariants (product : Product) : Prop where
  distinct : product.variants.Pairwise fun variant other =>
    ¬ variant.options.Same other.options
  options : (optionNames product.variants).card ≤ 2
  values : ∀ name ∈ optionNames product.variants,
    (optionValues product.variants name).card ≤ 10
  combinations :
    ((getOptions product.variants).map fun option => option.2.card).prod ≤ 100

/-- The variants are sound behind the call, and as they were if it throws. -/
structure LawfulCall (product : Product) (call : VariantCall) : Prop where
  sound : SoundVariants (stateAfter call.run product)
  unchanged : ¬ Returns call.run product →
    (stateAfter call.run product).variants = product.variants

/-- What is written is within the limits, and without two that are the same. -/
def SuitsVariants (product : Product) : VariantCall → Prop
  | .addVariant variant =>
      tooManyOptions variant ∨ variantExists product.variants variant ∨
        validateVariants (product.variants ++ [variant]) = .ok ()
  | .setVariants variants =>
      variants.any tooManyOptions ∨
        (variants.Pairwise fun variant other =>
            ¬ variant.options.Same other.options) ∧
          validateVariants variants = .ok ()

/-! ## The calls -/

theorem run_addVariantCall (product : Product) (variant : ProductVariant) :
    (addVariantCall variant).run product =
      if tooManyOptions variant then .error .runtimeError product
      else if variantExists product.variants variant then .ok () product
      else (MonadExcept.ofExcept (validateVariants
          (product.variants ++ [variant])) : EStateM Fault Product Unit).run
        (product.writeVariants (product.variants ++ [variant])) := by
  rw [addVariantCall]
  split
  · rfl
  · change (if ¬ (variantExists product.variants variant = true) then _
      else _ : EStateM Fault Product Unit).run product = _
    by_cases hexists : variantExists product.variants variant = true
    · rw [if_neg (not_not_intro hexists), if_pos hexists]
      rfl
    · rw [if_pos hexists, if_neg hexists]
      rfl

theorem run_setVariantsCall (product : Product)
    (variants : List ProductVariant) :
    (setVariantsCall variants).run product =
      if variants.any tooManyOptions then .error .runtimeError product
      else (MonadExcept.ofExcept (validateVariants variants) :
        EStateM Fault Product Unit).run (product.writeVariants variants) := by
  rw [setVariantsCall]
  split
  · rfl
  · rfl

/-- What has been written stays, whatever the last check says. -/
theorem stateAfter_ofExcept (result : Except Fault Unit) (product : Product) :
    stateAfter (MonadExcept.ofExcept result : EStateM Fault Product Unit)
      product = product := by
  cases result <;> rfl

theorem stateAfter_addVariantCall (product : Product)
    (variant : ProductVariant) :
    stateAfter (addVariantCall variant) product =
      if tooManyOptions variant ∨ variantExists product.variants variant then
        product
      else product.writeVariants (product.variants ++ [variant]) := by
  rw [stateAfter, run_addVariantCall]
  by_cases hmany : tooManyOptions variant = true
  · rw [if_pos hmany, if_pos (.inl hmany)]
  by_cases hexists : variantExists product.variants variant = true
  · rw [if_neg hmany, if_pos hexists, if_pos (.inr hexists)]
  rw [if_neg hmany, if_neg hexists, if_neg (not_or.mpr ⟨hmany, hexists⟩)]
  exact stateAfter_ofExcept _ _

theorem stateAfter_setVariantsCall (product : Product)
    (variants : List ProductVariant) :
    stateAfter (setVariantsCall variants) product =
      if variants.any tooManyOptions then product
      else product.writeVariants variants := by
  rw [stateAfter, run_setVariantsCall]
  by_cases hmany : variants.any tooManyOptions = true
  · rw [if_pos hmany, if_pos hmany]
  · rw [if_neg hmany, if_neg hmany]
    exact stateAfter_ofExcept _ _

theorem exists_eq_ok_unit {result : Except Fault Unit} :
    (∃ value, result = .ok value) ↔ result = .ok () :=
  ⟨fun ⟨_, h⟩ => h, fun h => ⟨(), h⟩⟩

theorem returns_addVariantCall {product : Product} {variant : ProductVariant} :
    Returns (addVariantCall variant) product ↔
      tooManyOptions variant = false ∧
        (variantExists product.variants variant ∨
          validateVariants (product.variants ++ [variant]) = .ok ()) := by
  rw [Returns, run_addVariantCall]
  cases hmany : tooManyOptions variant with
  | true => simp
  | false =>
      cases hexists : variantExists product.variants variant with
      | true => simp
      | false => simp [exists_eq_ok_unit]

theorem returns_setVariantsCall {product : Product}
    {variants : List ProductVariant} :
    Returns (setVariantsCall variants) product ↔
      variants.any tooManyOptions = false ∧
        validateVariants variants = .ok () := by
  rw [Returns, run_setVariantsCall]
  cases hmany : variants.any tooManyOptions with
  | true => simp
  | false => simp [exists_eq_ok_unit]

/-- A call that returns leaves what `Product.addVariant` returns. -/
theorem addVariantCall_eq_ok {product after : Product}
    {variant : ProductVariant} :
    (addVariantCall variant).run product = .ok () after ↔
      product.addVariant variant = .ok after := by
  have hoptions : (maxOptionsPerVariant < variant.options.entries.length) =
      (tooManyOptions variant = true) := by simp [tooManyOptions]
  rw [run_addVariantCall, Product.addVariant]
  simp only [hoptions]
  split
  · exact iff_of_false nofun nofun
  · change _ ↔ (if variantExists product.variants variant = true then _
      else _ : Except Fault Product) = _
    split
    · simp [pure, Except.pure]
    · rw [bind_eq_ok, run_ofExcept_eq_ok]
      simp [pure, Except.pure, Product.writeVariants, exists_eq_ok_unit]

/-! ## The limits -/

theorem soundVariants_iff {product : Product} :
    SoundVariants product ↔
      (product.variants.Pairwise fun variant other =>
          ¬ variant.options.Same other.options) ∧
        validateVariants product.variants = .ok () := by
  rw [validateVariants_eq_ok]
  constructor
  · intro h
    exact ⟨h.distinct, h.options, h.values⟩
  · rintro ⟨hdistinct, hoptions, hvalues⟩
    refine ⟨hdistinct, hoptions, hvalues, ?_⟩
    have hlength : (getOptions product.variants).length ≤ 2 := by
      rw [length_getOptions]
      exact hoptions
    have hcards : ∀ card ∈ (getOptions product.variants).map
        (fun option => option.2.card), card ≤ 10 := by
      intro card hcard
      obtain ⟨option, hoption, rfl⟩ := List.mem_map.mp hcard
      obtain ⟨hname, hvalues'⟩ := mem_getOptions.mp hoption
      rw [hvalues']
      exact hvalues _ hname
    calc ((getOptions product.variants).map fun option =>
          option.2.card).prod
        ≤ 10 ^ ((getOptions product.variants).map
            fun option => option.2.card).length :=
          List.prod_le_pow_card _ 10 hcards
      _ ≤ 10 ^ 2 := by
          rw [List.length_map]
          exact Nat.pow_le_pow_right (by decide) hlength

theorem soundVariants_init : SoundVariants Product.init := by
  rw [soundVariants_iff]
  refine ⟨List.Pairwise.nil, ?_⟩
  rw [validateVariants_eq_ok]
  exact ⟨Nat.zero_le _, nofun⟩

/-- The added variant is none of those before it. -/
theorem pairwise_append_new {variants : List ProductVariant}
    {variant : ProductVariant}
    (hvariants : variants.Pairwise fun variant other =>
      ¬ variant.options.Same other.options)
    (hnew : variantExists variants variant = false) :
    (variants ++ [variant]).Pairwise fun variant other =>
      ¬ variant.options.Same other.options := by
  rw [List.pairwise_append]
  refine ⟨hvariants, List.pairwise_singleton _ _, ?_⟩
  intro other hother last hlast
  obtain rfl := List.mem_singleton.mp hlast
  simpa using List.any_eq_false.mp hnew other hother

/-! ## Runs -/

theorem lawfulCall_iff_suits {product : Product} (hsound : SoundVariants product)
    (call : VariantCall) :
    LawfulCall product call ↔ SuitsVariants product call := by
  cases call with
  | addVariant variant =>
      have hstate := stateAfter_addVariantCall product variant
      by_cases hkept : tooManyOptions variant ∨
          variantExists product.variants variant
      · rw [if_pos hkept] at hstate
        refine iff_of_true ⟨?_, fun _ => ?_⟩ ?_
        · rwa [VariantCall.run, hstate]
        · rw [VariantCall.run, hstate]
        · exact hkept.imp_right .inl
      · rw [if_neg hkept] at hstate
        rw [not_or, Bool.not_eq_true, Bool.not_eq_true] at hkept
        constructor
        · intro h
          have hafter := h.sound
          rw [VariantCall.run, hstate, soundVariants_iff] at hafter
          exact .inr (.inr hafter.2)
        · intro h
          have hvalid : validateVariants (product.variants ++ [variant]) =
              .ok () := by
            simpa [SuitsVariants, hkept.1, hkept.2] using h
          refine ⟨?_, fun hthrows => ?_⟩
          · rw [VariantCall.run, hstate, soundVariants_iff]
            exact ⟨pairwise_append_new hsound.distinct hkept.2, hvalid⟩
          · exact absurd (returns_addVariantCall.mpr ⟨hkept.1, .inr hvalid⟩)
              hthrows
  | setVariants variants =>
      have hstate := stateAfter_setVariantsCall product variants
      cases hmany : variants.any tooManyOptions with
      | true =>
          rw [if_pos hmany] at hstate
          refine iff_of_true ⟨?_, fun _ => ?_⟩ (.inl hmany)
          · rwa [VariantCall.run, hstate]
          · rw [VariantCall.run, hstate]
      | false =>
          rw [if_neg (Bool.not_eq_true _ ▸ hmany)] at hstate
          constructor
          · intro h
            have hafter := h.sound
            rw [VariantCall.run, hstate, soundVariants_iff] at hafter
            exact .inr hafter
          · intro h
            have hwritten := h.resolve_left (Bool.not_eq_true _ ▸ hmany)
            refine ⟨?_, fun hthrows => ?_⟩
            · rw [VariantCall.run, hstate, soundVariants_iff]
              exact hwritten
            · exact absurd (returns_setVariantsCall.mpr ⟨hmany, hwritten.2⟩)
                hthrows

/-- In every state of a run: the law holds of the next call. -/
theorem variants_lawful_iff (calls : List VariantCall) :
    AllMeet stepVariants LawfulCall Product.init calls ↔
      AllMeet stepVariants SuitsVariants Product.init calls := by
  refine allMeet_congr (fun product call hsound =>
    lawfulCall_iff_suits hsound call) ?_ soundVariants_init
  intro product call next _ hlawful hnext
  exact Option.some.inj hnext ▸ hlawful.sound

def optionVariant (name value : String) : ProductVariant where
  options := ⟨[(name, value)], List.nodup_singleton _⟩
  condition := ""
  weight := none
  price := none
  quantity := none
  productCode := ""
  imageIndex := none

theorem stateAfter_addVariantCall_new {product : Product}
    {variant : ProductVariant} (hmany : tooManyOptions variant = false)
    (hnew : variantExists product.variants variant = false) :
    stateAfter (addVariantCall variant) product =
      product.writeVariants (product.variants ++ [variant]) := by
  rw [stateAfter_addVariantCall, hmany, hnew]
  exact if_neg (by simp)

def colorVariant : ProductVariant := optionVariant "color" "red"

def sizeVariant : ProductVariant := optionVariant "size" "L"

def materialVariant : ProductVariant := optionVariant "material" "wood"

/-- The third of the calls throws, and has written its variant by then. -/
theorem third_option_stays :
    ¬ AllMeet stepVariants LawfulCall Product.init
      [.addVariant colorVariant, .addVariant sizeVariant,
        .addVariant materialVariant] := by
  rintro ⟨-, h⟩
  obtain ⟨-, h⟩ := h _ rfl
  obtain ⟨hthird, -⟩ := h _ rfl
  have hcolor : stateAfter (addVariantCall colorVariant) Product.init =
      Product.init.writeVariants [colorVariant] :=
    stateAfter_addVariantCall_new (by decide) (by decide)
  have hsize : stateAfter (addVariantCall sizeVariant)
        (Product.init.writeVariants [colorVariant]) =
      Product.init.writeVariants [colorVariant, sizeVariant] :=
    stateAfter_addVariantCall_new (by decide) (by decide)
  have hmaterial : stateAfter (addVariantCall materialVariant)
        (Product.init.writeVariants [colorVariant, sizeVariant]) =
      Product.init.writeVariants [colorVariant, sizeVariant, materialVariant] :=
    stateAfter_addVariantCall_new (by decide) (by decide)
  have hoptions := hthird.sound.options
  simp only [VariantCall.run] at hoptions
  rw [hcolor, hsize, hmaterial] at hoptions
  exact absurd hoptions (by decide)

end Neroshop.Market
