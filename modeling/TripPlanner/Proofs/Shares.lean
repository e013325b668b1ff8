import TripPlanner.Proofs.Placement

/-!
# Shares

What comes of normalizing the shares of a triangle. Shares that add up to one, within the tolerance,
are kept as they are; of others the positive ones are scaled to a sum of one, and where there are
none the shares are equal (`Triangle.normalized_of_not_isNormalized`). Sums, proportions and a second
normalization are in order either way (`Triangle.Balances`). A negative share is kept by the first
way only, and that decides whether the weight of cycling can fall with the safety factor
(`Triangle.balances_and_weighs`).
-/

namespace TripPlanner

variable {R : Type} [Field R] [LinearOrder R] [IsStrictOrderedRing R] [FloorRing R]

namespace Triangle

/-- The sum of the shares. -/
def total (t : Triangle R) : R := t.time + t.safety + t.slope

/-- The shares times a factor. -/
def scaled (t : Triangle R) (c : R) : Triangle R := ⟨c * t.time, c * t.safety, c * t.slope⟩

/-- The shares with zero for what is negative. -/
def clamped (t : Triangle R) : Triangle R := ⟨max t.time 0, max t.safety 0, max t.slope 0⟩

/-- No share is negative. -/
structure IsNonneg (t : Triangle R) : Prop where
  time : 0 ≤ t.time
  safety : 0 ≤ t.safety
  slope : 0 ≤ t.slope

/-- Some share is positive. -/
def HasPositive (t : Triangle R) : Prop := 0 < t.time ∨ 0 < t.safety ∨ 0 < t.slope

/-- The shares that are not negative have all been scaled by one factor. -/
def KeepsProportions (t n : Triangle R) : Prop :=
  ∃ c, 0 < c ∧ (0 ≤ t.time → n.time = c * t.time) ∧ (0 ≤ t.safety → n.safety = c * t.safety) ∧
    (0 ≤ t.slope → n.slope = c * t.slope)

variable {t : Triangle R}

theorem total_scaled (t : Triangle R) (c : R) : (t.scaled c).total = c * t.total := by
  simp only [total, scaled]
  ring

theorem IsNonneg.scaled (h : t.IsNonneg) {c : R} (hc : 0 ≤ c) : (t.scaled c).IsNonneg :=
  ⟨mul_nonneg hc h.time, mul_nonneg hc h.safety, mul_nonneg hc h.slope⟩

theorem isNonneg_clamped (t : Triangle R) : t.clamped.IsNonneg :=
  ⟨le_max_right _ _, le_max_right _ _, le_max_right _ _⟩

theorem total_clamped_pos (h : t.HasPositive) : 0 < t.clamped.total := by
  obtain ⟨htime, hsafety, hslope⟩ := t.isNonneg_clamped
  rcases h with h | h | h
  · exact add_pos_of_pos_of_nonneg (add_pos_of_pos_of_nonneg (lt_max_of_lt_left h) hsafety) hslope
  · exact add_pos_of_pos_of_nonneg (add_pos_of_nonneg_of_pos htime (lt_max_of_lt_left h)) hslope
  · exact add_pos_of_nonneg_of_pos (add_nonneg htime hsafety) (lt_max_of_lt_left h)

theorem isNonneg_equal : (equal : Triangle R).IsNonneg := by
  have hthird : (0 : R) ≤ Quantity.ratio 1 3 := Quantity.ratio_nonneg (by decide) (by decide)
  exact ⟨hthird, hthird, hthird⟩

theorem total_equal : (equal : Triangle R).total = 1 := by
  simp only [total, equal, Quantity.ratio, Quantity.ofInt_eq_cast]
  norm_num

/-! ## Normalizing -/

theorem isNormalized_iff : t.isNormalized = true ↔ |t.total - 1| ≤ tolerance := by
  have hone : (Quantity.one : R) = 1 := Int.cast_one
  simp only [isNormalized, Bool.and_eq_true, decide_eq_true_eq, hone, zero_sub, abs_le, total]

theorem isNormalized_of_total (h : t.total = 1) : t.isNormalized = true := by
  rw [isNormalized_iff, h, sub_self, abs_zero]
  exact Quantity.ratio_nonneg (by decide) (by decide)

theorem normalized_of_isNormalized (h : t.isNormalized = true) : t.normalized = t := if_pos h

theorem normalized_of_not_isNormalized (h : t.isNormalized = false) : t.normalized =
    if 0 < t.clamped.total then t.clamped.scaled t.clamped.total⁻¹ else equal := by
  unfold normalized
  rw [h, if_neg Bool.false_ne_true]
  simp only [scaled, inv_mul_eq_div]
  rfl

theorem isNormalized_normalized (t : Triangle R) : t.normalized.isNormalized = true := by
  cases h : t.isNormalized with
  | true => rwa [normalized_of_isNormalized h]
  | false =>
    apply isNormalized_of_total
    rw [normalized_of_not_isNormalized h]
    split
    · rename_i hpos
      rw [total_scaled, inv_mul_cancel₀ hpos.ne']
    · exact total_equal

theorem isNonneg_normalized (h : t.isNormalized = false) : t.normalized.IsNonneg := by
  rw [normalized_of_not_isNormalized h]
  split
  · rename_i hpos
    exact t.isNonneg_clamped.scaled (inv_pos.2 hpos).le
  · exact isNonneg_equal

theorem isNonneg_normalized_iff :
    t.normalized.IsNonneg ↔ (t.isNormalized = true → t.IsNonneg) := by
  cases h : t.isNormalized with
  | true => rw [normalized_of_isNormalized h, imp_iff_right rfl]
  | false => exact iff_of_true (isNonneg_normalized h) nofun

theorem keepsProportions_normalized (hpos : t.HasPositive) : t.KeepsProportions t.normalized := by
  cases h : t.isNormalized with
  | true =>
    rw [normalized_of_isNormalized h]
    refine ⟨1, one_pos, ?_⟩
    simp only [one_mul, implies_true, and_self]
  | false =>
    have hpos := total_clamped_pos hpos
    have hclamped : ∀ x : R, 0 ≤ x → t.clamped.total⁻¹ * max x 0 = t.clamped.total⁻¹ * x := by
      intro x hx
      rw [max_eq_left hx]
    rw [normalized_of_not_isNormalized h, if_pos hpos]
    refine ⟨t.clamped.total⁻¹, inv_pos.2 hpos, ?_⟩
    exact ⟨hclamped t.time, hclamped t.safety, hclamped t.slope⟩

/-- What shares come to when they are normalized. -/
structure Balances (t n : Triangle R) : Prop where
  total : |n.total - 1| ≤ tolerance
  proportions : t.HasPositive → t.KeepsProportions n
  again : n.normalized = n
  nonneg : n.IsNonneg ↔ (t.isNormalized = true → t.IsNonneg)

theorem balances_normalized (t : Triangle R) : t.Balances t.normalized where
  total := isNormalized_iff.1 t.isNormalized_normalized
  proportions := keepsProportions_normalized
  again := normalized_of_isNormalized t.isNormalized_normalized
  nonneg := isNonneg_normalized_iff

end Triangle

/-! ## Weighing -/

/-- A weight by the safety factor that is not negative, and no lower where the factor is higher. -/
structure GrowsFromZero (weight : R → R) : Prop where
  nonneg : ∀ {safety}, 0 ≤ safety → 0 ≤ weight safety
  mono : ∀ {low high}, 0 ≤ low → low ≤ high → weight low ≤ weight high

theorem growsFromZero_iff {t : Triangle R} : GrowsFromZero (cyclingWeight .triangle t) ↔
    0 ≤ t.time + t.slope ∧ 0 ≤ t.safety := by
  constructor
  · intro H
    have hzero : 0 ≤ t.time + 0 * t.safety + t.slope := H.nonneg le_rfl
    have hone : t.time + 0 * t.safety + t.slope ≤ t.time + 1 * t.safety + t.slope :=
      H.mono le_rfl zero_le_one
    constructor <;> linarith
  · rintro ⟨hfixed, hsafety⟩
    refine ⟨fun {safety} h => ?_, fun {low high} _ h => ?_⟩
    · have hshare : 0 ≤ safety * t.safety := mul_nonneg h hsafety
      change 0 ≤ t.time + safety * t.safety + t.slope
      linarith
    · have hshare : low * t.safety ≤ high * t.safety := mul_le_mul_of_nonneg_right h hsafety
      change t.time + low * t.safety + t.slope ≤ t.time + high * t.safety + t.slope
      linarith

/-- A request that weighs by a triangle is placed with its shares normalized. -/
theorem Context.triangle_of {request : Request R} {g : Graph R} {ctx : Context R}
    (h : Context.of request g = .ok ctx) (htriangle : request.optimize = .triangle) :
    ctx.request.optimize = .triangle ∧ ctx.request.triangle = request.triangle.normalized := by
  obtain ⟨-, _, _, -, -, _, _, -, -, rfl⟩ := of_eq_ok_iff.1 h
  simp only [placed, prepare, if_pos htriangle]
  exact ⟨htriangle, trivial⟩

namespace Triangle

variable {t : Triangle R}

theorem growsFromZero_normalized_iff : GrowsFromZero (cyclingWeight .triangle t.normalized) ↔
    (t.isNormalized = true → 0 ≤ t.time + t.slope ∧ 0 ≤ t.safety) := by
  rw [growsFromZero_iff]
  cases h : t.isNormalized with
  | true => rw [normalized_of_isNormalized h, imp_iff_right rfl]
  | false =>
    obtain ⟨htime, hsafety, hslope⟩ := isNonneg_normalized h
    exact iff_of_true ⟨add_nonneg htime hslope, hsafety⟩ nofun

/-- Normalized shares add up to one, in the proportions of those that were not negative, and stay as
they are when they are normalized again. They are not negative, and the weight of cycling by them
does not fall as the safety factor grows, unless negative ones were among shares that added up to
one before. -/
theorem balances_and_weighs : (∀ t : Triangle R, t.Balances t.normalized) ∧
    ∀ {request : Request R} {g : Graph R} {ctx : Context R}, Context.of request g = .ok ctx →
      request.optimize = .triangle →
        (GrowsFromZero (cyclingWeight ctx.request.optimize ctx.request.triangle) ↔
          (request.triangle.isNormalized = true →
            0 ≤ request.triangle.time + request.triangle.slope ∧ 0 ≤ request.triangle.safety)) := by
  refine ⟨balances_normalized, fun {request g ctx} hctx htriangle => ?_⟩
  obtain ⟨hoptimize, hshares⟩ := Context.triangle_of hctx htriangle
  rw [hoptimize, hshares]
  exact growsFromZero_normalized_iff

end Triangle

/-! ## Shares of a ride along three corners -/

namespace Scales

/-- A ride that is weighed by the given shares. -/
def request (shares : Triangle ℚ) : Request ℚ :=
  { Corners.onFoot 0 2 with
    modes := .ofList [.bicycle]
    optimize := .triangle
    triangle := shares }

theorem exists_of_request (shares : Triangle ℚ) :
    ∃ ctx, Context.of (request shares) Corners.graph = .ok ctx := by
  have hspeeds : ¬ (Request.default : Request ℚ).walkSpeed ≤ 0 ∧
      ¬ (Request.default : Request ℚ).bikeSpeed ≤ 0 := by decide +kernel
  have hvalid : (request shares).validate = .ok () :=
    Request.validate_eq_ok_iff.2 ⟨rfl, rfl, rfl, hspeeds.1, hspeeds.2, Nat.succ_ne_zero 2⟩
  exact ⟨_, Context.of_eq_ok_iff.2 ⟨hvalid, ⟨0, 0⟩, ⟨2, 0⟩, rfl, rfl, 0, 2, by decide +kernel,
    by decide +kernel, rfl⟩⟩

/-- Twice as much for time as for safety, and less than nothing for slope. -/
def uphill : Triangle ℚ := ⟨2, 1, -1⟩

/-- The share below zero counts as none. -/
theorem balances_uphill : uphill.Balances uphill.normalized ∧ uphill.normalized = ⟨2 / 3, 1 / 3, 0⟩ ∧
    ∃ ctx, Context.of (request uphill) Corners.graph = .ok ctx ∧
      (request uphill).optimize = .triangle ∧
      GrowsFromZero (cyclingWeight ctx.request.optimize ctx.request.triangle) := by
  obtain ⟨hbalances, hweighs⟩ := Triangle.balances_and_weighs (R := ℚ)
  obtain ⟨ctx, hctx⟩ := exists_of_request uphill
  have hsum : uphill.isNormalized = false := by decide +kernel
  refine ⟨hbalances uphill, by decide +kernel, ctx, hctx, rfl, (hweighs hctx rfl).2 fun h => ?_⟩
  exact nomatch hsum.symm.trans h

/-- Where time makes up for what safety falls short of, the sum is one, and the more dangerous a
street is the less it weighs. -/
theorem not_balances_downhill :
    ¬ (Triangle.normalized ⟨2, -1, 0⟩ : Triangle ℚ).IsNonneg ∧
      ∃ ctx, Context.of (request ⟨2, -1, 0⟩) Corners.graph = .ok ctx ∧
        cyclingWeight ctx.request.optimize ctx.request.triangle 3 < 0 := by
  obtain ⟨ctx, hctx⟩ := exists_of_request ⟨2, -1, 0⟩
  obtain ⟨hoptimize, hshares⟩ := Context.triangle_of hctx rfl
  refine ⟨fun h => absurd h.safety (by decide +kernel), ctx, hctx, ?_⟩
  rw [hoptimize, hshares]
  decide +kernel

end Scales

end TripPlanner
