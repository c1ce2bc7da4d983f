import Mathlib
import SignalSchema.Decimal.Layout

/-!
# Great doubles and their text

A double with an absolute value of at least `2 ^ k` has bits that are at least those of `2 ^ k`
(`AtLeast`). Rounding a quotient and multiplying keep such bounds (`atLeast_ofRatio`,
`AtLeast.mul`), since a power of two is a double itself. A double of at least `2 ^ 54` has more
than 16 digits before the point, so that its shortest decimal has a great exponent: two neighbours
on the grid of 17 digits always lie near enough to it (`exists_onGrid`), and dropping zeros does
not change the place of the first digit. In a JSON text such a double shows an exponent
(`exponent_mem_write`).
-/

namespace SignalSchema

namespace Double

variable {x y : Double} {k num den : Nat} {negative : Bool}

/-- The absolute value of the double is at least `2 ^ k`, as its bits tell. -/
def AtLeast (k : Nat) (x : Double) : Prop :=
  (k + 1023) * exponentUnit ≤ x.unsignedBits

/-! ### Sign and bits -/

/-- A double has the sign and the other bits that it was made of. -/
theorem parts_ofParts {unsigned : Nat} (h : unsigned < signBit) :
    (ofParts negative unsigned).unsignedBits = unsigned ∧
      (ofParts negative unsigned).isNegative = negative := by
  simp only [signBit] at h
  rw [unsignedBits, isNegative, ofParts]
  cases negative
  · simp only [signBit, Bool.false_eq_true, if_false, UInt64.toNat_ofNat']
    exact ⟨by omega, decide_eq_false (by omega)⟩
  · simp only [signBit, if_true, UInt64.toNat_ofNat']
    exact ⟨by omega, decide_eq_true (by omega)⟩

/-- The bits of a double without its sign leave the sign bit free. -/
theorem unsignedBits_lt (x : Double) : x.unsignedBits < signBit :=
  Nat.mod_lt _ (by decide)

/-- A sign can be given to the bits of infinity, and to smaller ones. -/
theorem lt_signBit_of_le {unsigned : Nat} (h : unsigned ≤ infinityBits) : unsigned < signBit :=
  Nat.lt_of_le_of_lt h (by decide)

/-- The opposite of a double that is not negative is negative. -/
theorem isNegative_negate (h : x.isNegative = false) : x.negate.isNegative = true := by
  rw [negate, h]
  exact (parts_ofParts x.unsignedBits_lt).2

/-- A rounded quotient has the sign that it was given. -/
theorem isNegative_ofRatio (negative : Bool) (num den : Nat) :
    (ofRatio negative num den).isNegative = negative := by
  rw [ofRatio]
  split
  · exact (parts_ofParts (by decide)).2
  · exact (parts_ofParts (lt_signBit_of_le (Nat.min_le_right _ _))).2

/-- A rounded decimal has the sign that it was given. -/
theorem isNegative_ofDecimal (negative : Bool) (digits : Nat) (exponent : Int) :
    (ofDecimal negative digits exponent).isNegative = negative := by
  rw [ofDecimal]
  split_ifs
  · exact (parts_ofParts (by decide)).2
  · exact (parts_ofParts (by decide)).2
  · exact isNegative_ofRatio _ _ _
  · exact isNegative_ofRatio _ _ _

/-- A product is negative when one factor is and the other is not. -/
theorem isNegative_mul (x y : Double) :
    (x.mul y).isNegative = (x.isNegative != y.isNegative) :=
  isNegative_ofRatio _ _ _

/-! ### Bounds -/

/-- The fraction of a double has 52 bits. -/
theorem exponentUnit_eq : exponentUnit = 2 ^ 52 :=
  rfl

/-- The logarithm of a quotient, when that of the numerator is the greater one. -/
theorem floorLog2_eq {d : Nat} (h : num.log2 = d + den.log2) :
    floorLog2 num den = if 2 ^ d * den ≤ num then (d : Int) else (d : Int) - 1 := by
  have hd : (num.log2 : Int) - den.log2 = d := by omega
  simp only [floorLog2, hd, Int.natCast_nonneg, if_true, Int.toNat_natCast, Nat.pow_eq,
    Nat.mul_comm den]

/-- The logarithm of a quotient of at least `2 ^ k` is the exponent of a power of two that is at
most the quotient and at least `2 ^ k`. -/
theorem exists_floorLog2_eq (hden : 0 < den) (h : 2 ^ k * den ≤ num) :
    ∃ l : Nat, floorLog2 num den = l ∧ k ≤ l ∧ 2 ^ l * den ≤ num := by
  have hnum : num ≠ 0 := Nat.ne_of_gt (Nat.lt_of_lt_of_le (by positivity) h)
  have hlog : k + den.log2 ≤ num.log2 := by
    rw [Nat.le_log2 hnum, Nat.pow_add]
    exact Nat.le_trans (Nat.mul_le_mul_left _ (Nat.log2_self_le (Nat.ne_of_gt hden))) h
  obtain ⟨d, hd⟩ := Nat.exists_eq_add_of_le' (Nat.le_of_add_left_le hlog)
  rw [floorLog2_eq hd]
  by_cases hle : 2 ^ d * den ≤ num
  · exact ⟨d, if_pos hle, by omega, hle⟩
  · -- the difference of the logarithms cannot be `k` itself
    have hne : k ≠ d := fun heq => hle (heq ▸ h)
    obtain ⟨l, rfl⟩ : ∃ l, d = l + 1 := Nat.exists_eq_add_one_of_ne_zero (by omega)
    refine ⟨l, by rw [if_neg hle]; omega, by omega, ?_⟩
    calc 2 ^ l * den ≤ 2 ^ l * 2 ^ (den.log2 + 1) :=
          Nat.mul_le_mul_left _ (Nat.le_of_lt Nat.lt_log2_self)
      _ = 2 ^ num.log2 := by rw [← Nat.pow_add, hd, Nat.add_right_comm, Nat.add_assoc]
      _ ≤ num := Nat.log2_self_le hnum

/-- Rounding to a natural number goes to one of the two neighbours, and not to the farther one. -/
theorem divRoundEven_bounds (num : Nat) (hden : 0 < den) :
    num / den ≤ divRoundEven num den ∧
      2 * (den * divRoundEven num den) ≤ 2 * num + den ∧
      2 * num ≤ 2 * (den * divRoundEven num den) + den := by
  have hdiv := Nat.div_add_mod num den
  have hmod := Nat.mod_lt num hden
  rw [divRoundEven]
  generalize num / den = d at hdiv ⊢
  generalize num % den = r at hdiv hmod ⊢
  have hsucc : den * (d + 1) = den * d + den := Nat.mul_succ den d
  split
  next hup =>
    have hup : den ≤ 2 * r := by
      rw [Bool.or_eq_true, Bool.and_eq_true, decide_eq_true_eq, beq_iff_eq] at hup
      omega
    omega
  next hdown =>
    have hdown : 2 * r ≤ den := by
      rw [Bool.or_eq_true, decide_eq_true_eq, not_or] at hdown
      omega
    omega

/-- The double nearest to a quotient of at least `2 ^ k` is at least `2 ^ k`. -/
theorem atLeast_ofRatio (hden : 0 < den) (hk : k ≤ 1023) (h : 2 ^ k * den ≤ num) :
    (ofRatio negative num den).AtLeast k := by
  have hnum : 0 < num := Nat.lt_of_lt_of_le (by positivity) h
  obtain ⟨l, hl, hkl, hpow⟩ := exists_floorLog2_eq hden h
  have hq : max ((l : Int) - 52) (-1074) = (l : Int) - 52 := by omega
  rw [AtLeast, ofRatio, if_neg (Nat.ne_of_gt hnum), hl, hq,
    (parts_ofParts (lt_signBit_of_le (Nat.min_le_right _ _))).1, le_min_iff]
  -- the significand has 53 bits
  have hsignificand : exponentUnit ≤
      if 0 ≤ (l : Int) - 52 then divRoundEven num (den * Nat.pow 2 ((l : Int) - 52).toNat)
      else divRoundEven (num * Nat.pow 2 (-((l : Int) - 52)).toNat) den := by
    split
    next hle =>
      have hscaled : 0 < den * Nat.pow 2 ((l : Int) - 52).toNat := by
        rw [Nat.pow_eq]
        positivity
      refine Nat.le_trans ?_ (divRoundEven_bounds num hscaled).1
      have hsum : 52 + ((l : Int) - 52).toNat = l := by omega
      rw [Nat.le_div_iff_mul_le hscaled, exponentUnit_eq, Nat.pow_eq, Nat.mul_comm den, ← Nat.mul_assoc,
        ← Nat.pow_add, hsum]
      exact hpow
    next hlt =>
      refine Nat.le_trans ?_ (divRoundEven_bounds _ hden).1
      have hsum : l + (-((l : Int) - 52)).toNat = 52 := by omega
      rw [Nat.le_div_iff_mul_le hden, exponentUnit_eq, Nat.pow_eq, ← hsum, Nat.pow_add, Nat.mul_right_comm]
      exact Nat.mul_le_mul_right _ hpow
  have hexponent : ((l : Int) - 52 + 1074).toNat = l + 1022 := by omega
  rw [hexponent]
  constructor
  · calc (k + 1023) * exponentUnit ≤ (l + 1022 + 1) * exponentUnit :=
          Nat.mul_le_mul_right _ (by omega)
      _ = (l + 1022) * exponentUnit + exponentUnit := Nat.succ_mul _ _
      _ ≤ _ := Nat.add_le_add_left hsignificand _
  · simp only [exponentUnit, infinityBits]
    omega

/-- The significand of a double of at least `2 ^ k`: it has 53 bits, and its place is `k - 52` at
least. -/
theorem AtLeast.significand (h : x.AtLeast k) :
    exponentUnit ≤ x.significand.1 ∧ x.significand.1 < 2 * exponentUnit ∧
      (k : Int) - 52 ≤ x.significand.2 := by
  have hexponent : k + 1023 ≤ x.unsignedBits / exponentUnit :=
    (Nat.le_div_iff_mul_le (by decide)).2 h
  have hfraction : x.unsignedBits % exponentUnit < exponentUnit := Nat.mod_lt _ (by decide)
  rw [Double.significand, if_neg (by omega)]
  dsimp only
  omega

/-- A double of at least `2 ^ k` as a quotient. -/
theorem AtLeast.toRatio (h : x.AtLeast k) :
    0 < x.toRatio.2 ∧ 2 ^ k * x.toRatio.2 ≤ x.toRatio.1 := by
  obtain ⟨hm, -, hq⟩ := h.significand
  rw [Double.toRatio]
  generalize x.significand = mq at hm hq ⊢
  obtain ⟨m, q⟩ := mq
  dsimp only at hm hq ⊢
  rw [exponentUnit_eq] at hm
  split
  next hnonneg =>
    refine ⟨Nat.one_pos, ?_⟩
    have hle : k ≤ 52 + q.toNat := by omega
    calc 2 ^ k * 1 ≤ 2 ^ (52 + q.toNat) := by
          rw [Nat.mul_one]
          exact Nat.pow_le_pow_right (by decide) hle
      _ = 2 ^ 52 * 2 ^ q.toNat := Nat.pow_add _ _ _
      _ ≤ m * Nat.pow 2 q.toNat := Nat.mul_le_mul_right _ hm
  next hneg =>
    refine ⟨Nat.pow_pos (by decide), ?_⟩
    have hle : k + (-q).toNat ≤ 52 := by omega
    calc 2 ^ k * Nat.pow 2 (-q).toNat = 2 ^ (k + (-q).toNat) := (Nat.pow_add _ _ _).symm
      _ ≤ 2 ^ 52 := Nat.pow_le_pow_right (by decide) hle
      _ ≤ m := hm

/-- A product with a double of at least one keeps a bound. -/
theorem AtLeast.mul (hx : x.AtLeast k) (hy : y.AtLeast 0) (hk : k ≤ 1023) :
    (x.mul y).AtLeast k := by
  obtain ⟨hxden, hxle⟩ := hx.toRatio
  obtain ⟨hyden, hyle⟩ := hy.toRatio
  rw [Nat.pow_zero, Nat.one_mul] at hyle
  refine atLeast_ofRatio (Nat.mul_pos hxden hyden) hk ?_
  rw [← Nat.mul_assoc]
  exact Nat.mul_le_mul hxle hyle

/-- Powers of ten are at least one. -/
theorem atLeast_ofDecimal {e : Int} (hnonneg : 0 ≤ e) (hle : e ≤ 308) :
    (ofDecimal false 1 e).AtLeast 0 := by
  have hlog : Nat.log2 1 = 0 := by decide
  rw [ofDecimal, hlog, if_neg, if_neg, if_pos hnonneg]
  · refine atLeast_ofRatio Nat.one_pos (Nat.zero_le _) ?_
    rw [Nat.pow_zero, Nat.one_mul, Nat.one_mul]
    exact Nat.pow_pos (by decide)
  · omega
  · rw [Bool.or_eq_true, decide_eq_true_eq, decide_eq_true_eq]
    omega

end Double

namespace Decimal

variable {x : Double} {i : RoundingInterval} {n gap d e : Nat}

/-! ### Shortest decimals of great doubles -/

/-- The interval is about the integer `n` and reaches further than `gap / 4` to both sides, which is
more than half of a unit in the 17th digit of `n`. -/
structure RoundingInterval.About (i : RoundingInterval) (n gap : Nat) : Prop where
  den : i.den = 4
  value : i.value = 4 * n
  low : i.low + gap = i.value
  high : i.value + gap ≤ i.high
  great : 10 ^ 16 ≤ n
  wide : 2 * n < 10 ^ 16 * gap

/-- A double of at least `2 ^ 54` is an integer, and its significand has more bits than 17 digits
need. -/
theorem exists_about (h : x.AtLeast 54) : ∃ n gap, (roundingInterval x).About n gap := by
  obtain ⟨hleast, hmost, hq⟩ := h.significand
  rw [roundingInterval]
  generalize x.significand = mq at hleast hmost hq ⊢
  obtain ⟨m, q⟩ := mq
  dsimp only at hleast hmost hq ⊢
  have hnonneg : 0 ≤ q := by omega
  have hpow : 2 ^ 2 ≤ 2 ^ q.toNat := Nat.pow_le_pow_right (by decide) (by omega)
  simp only [if_pos hnonneg, Nat.pow_eq]
  generalize 2 ^ q.toNat = unit at hpow ⊢
  -- below a power of two the gap is half as wide, but then the significand is the least one
  obtain ⟨below, hbelow, hwide, hle⟩ : ∃ below,
      (if decide (m = Double.exponentUnit) && decide (-1074 < q) then 1 else 2) = below ∧
        2 * m < 10 ^ 16 * below ∧ below ≤ 2 := by
    rw [Double.exponentUnit_eq] at hmost
    split
    next hedge =>
      rw [Bool.and_eq_true, decide_eq_true_eq, Double.exponentUnit_eq] at hedge
      exact ⟨1, rfl, by omega, by decide⟩
    next => exact ⟨2, rfl, by omega, by decide⟩
  rw [Double.exponentUnit_eq] at hleast
  rw [hbelow]
  refine ⟨m * unit, below * unit, rfl, Nat.mul_assoc _ _ _, ?_, ?_, ?_, ?_⟩
  · dsimp only
    rw [← Nat.add_mul, Nat.sub_add_cancel (by omega)]
  · dsimp only
    rw [← Nat.add_mul]
    exact Nat.mul_le_mul_right _ (Nat.add_le_add_left hle _)
  · exact Nat.le_trans (by norm_num) (Nat.mul_le_mul hleast hpow)
  · rw [← Nat.mul_assoc, ← Nat.mul_assoc]
    exact Nat.mul_lt_mul_of_pos_right hwide (by omega)

namespace RoundingInterval.About

variable (h : i.About n gap)
include h

/-- A multiple of `10 ^ e` that is not farther away than half a unit lies in the interval. -/
theorem holds (he : 10 ^ 16 * 10 ^ e ≤ n) (hbelow : 2 * n ≤ 2 * (10 ^ e * d) + 10 ^ e)
    (habove : 2 * (10 ^ e * d) ≤ 2 * n + 10 ^ e) : i.holds d e = true := by
  obtain ⟨hden, hvalue, hlow, hhigh, -, hwide⟩ := h
  have hnear : 2 * 10 ^ e < gap := by omega
  rw [RoundingInterval.holds, if_pos (Int.natCast_nonneg e), Int.toNat_natCast, Nat.pow_eq, hden,
    Nat.mul_comm d]
  dsimp only
  split
  all_goals
    rw [Bool.and_eq_true, decide_eq_true_eq, decide_eq_true_eq]
    omega

/-- The point that is taken from a grid is not below the value. -/
theorem le_of_onGrid (hd : i.onGrid e = some d) : n / 10 ^ e ≤ d := by
  have hpos : 0 < 4 * 10 ^ e := by positivity
  have hquot : 4 * n / (4 * 10 ^ e) = n / 10 ^ e := Nat.mul_div_mul_left _ _ (by decide)
  have hnearest := (Double.divRoundEven_bounds (4 * n) hpos).1
  rw [hquot] at hnearest
  simp only [RoundingInterval.onGrid, Int.natCast_nonneg, if_true, Int.toNat_natCast, Nat.pow_eq,
    h.den, h.value, hquot] at hd
  split at hd
  · exact Option.some.inj hd ▸ hnearest
  · split at hd
    · exact Nat.le_of_eq (Option.some.inj hd)
    · split at hd
      · exact Nat.le_trans (Nat.le_succ _) (Nat.le_of_eq (Option.some.inj hd))
      · cases hd

/-- On a grid with 17 digits, one of the two neighbours lies in the interval. -/
theorem exists_onGrid (he : 10 ^ 16 * 10 ^ e ≤ n) : ∃ d, i.onGrid e = some d := by
  have hpos : 0 < 4 * 10 ^ e := by positivity
  obtain ⟨-, habove, hbelow⟩ := Double.divRoundEven_bounds (4 * n) hpos
  rw [RoundingInterval.onGrid, if_pos (Int.natCast_nonneg e), Int.toNat_natCast, Nat.pow_eq, h.den,
    h.value]
  dsimp only
  rw [if_pos (h.holds he (by rw [Nat.mul_assoc] at hbelow; omega)
    (by rw [Nat.mul_assoc] at habove; omega))]
  exact ⟨_, rfl⟩

end RoundingInterval.About

/-- The place of the first digit: the number is less than ten to this power. -/
def Scientific.place (s : Scientific) : Int :=
  s.exponent + (Nat.toDigits 10 s.digits).length

/-- Dropping zeros does not move the first digit. -/
theorem place_dropZeros (fuel : Nat) (s : Scientific) : (dropZeros fuel s).place = s.place := by
  induction fuel generalizing s with
  | zero => rfl
  | succ fuel ih =>
    rw [dropZeros]
    split
    next h =>
      rw [Bool.and_eq_true, decide_eq_true_eq, decide_eq_true_eq] at h
      have hdigits := Nat.toDigits_of_base_le (b := 10) (n := s.digits) (by decide) (by omega)
      rw [ih, Scientific.place, Scientific.place, hdigits, List.length_append, List.length_singleton]
      push_cast
      omega
    next => rfl

/-- The first digit of the shortest decimal of a double of at least `2 ^ 54` stands before 16 others
at least. -/
theorem lt_place_shortest (h : x.AtLeast 54) : 16 < (shortest x).place := by
  obtain ⟨n, gap, habout⟩ := exists_about h
  have hlength : ∀ {k m : Nat}, 10 ^ k ≤ m → k < (Nat.toDigits 10 m).length := by
    intro k m hm
    cases k with
    | zero => exact Nat.length_toDigits_pos
    | succ k =>
      rw [← Nat.not_le, Nat.length_toDigits_le_iff (by decide) (Nat.succ_pos k)]
      exact Nat.not_lt.2 hm
  have hgreat := hlength habout.great
  obtain ⟨top, htop⟩ : ∃ top, (Nat.toDigits 10 n).length = top + 1 :=
    Nat.exists_eq_add_one_of_ne_zero (by omega)
  have hpow : 10 ^ top ≤ n := by
    rw [← Nat.not_lt, ← Nat.length_toDigits_le_iff (by decide) (by omega)]
    omega
  have hfloor : floorLog10 (roundingInterval x).value (roundingInterval x).den = top := by
    have hn := habout.great
    rw [habout.value, habout.den, floorLog10, if_pos (by omega),
      Nat.mul_div_cancel_left n (by decide), htop]
    omega
  -- the grid with `j + 1` digits, which is one of the multiples of a power of ten
  have hgrid : ∀ j < 17, ∃ e : Nat, (top : Int) - (j : Nat) = e ∧ 10 ^ j * 10 ^ e ≤ n := by
    intro j hj
    refine ⟨top - j, by omega, ?_⟩
    rw [← Nat.pow_add, Nat.add_sub_cancel' (by omega)]
    exact hpow
  rw [shortest]
  dsimp only
  rw [hfloor]
  split
  next s rest hcandidates =>
    obtain ⟨j, hj, hs⟩ := List.mem_filterMap.1 (hcandidates ▸ List.mem_cons_self)
    obtain ⟨e, he, hle⟩ := hgrid j (List.mem_range.1 hj)
    rw [he] at hs
    obtain ⟨d, hd, rfl⟩ := Option.map_eq_some_iff.1 hs
    have hdigits : 10 ^ j ≤ d :=
      Nat.le_trans ((Nat.le_div_iff_mul_le (by positivity)).2 hle) (habout.le_of_onGrid hd)
    have hmore := hlength hdigits
    rw [place_dropZeros, Scientific.place]
    dsimp only
    omega
  next hcandidates =>
    rw [List.filterMap_eq_nil_iff] at hcandidates
    have hnone := hcandidates 16 (by decide)
    obtain ⟨e, he, hle⟩ := hgrid 16 (by decide)
    obtain ⟨d, hd⟩ := habout.exists_onGrid hle
    rw [he, hd] at hnone
    cases hnone

/-! ### Texts -/

/-- A minus sign is written. -/
theorem minus_mem_write (layout : Layout) (h : x.isNegative = true) :
    '-' ∈ (layout.write x).toList := by
  rw [Layout.write, h, String.toList_ofList]
  exact List.mem_append_left _ List.mem_cons_self

/-- A double of at least `2 ^ 54` is written with an exponent in a JSON text. -/
theorem exponent_mem_write (h : x.AtLeast 54) : 'e' ∈ (Layout.json.write x).toList := by
  have hzero : x.isZero = false := by
    rw [Double.AtLeast] at h
    rw [Double.isZero, beq_eq_false_iff_ne]
    simp only [Double.exponentUnit] at h
    omega
  have hsame : (Double.ofParts false x.unsignedBits).AtLeast 54 := by
    rw [Double.AtLeast, (Double.parts_ofParts x.unsignedBits_lt).1]
    exact h
  have hplace := lt_place_shortest hsame
  rw [Scientific.place] at hplace
  rw [Layout.write, String.toList_ofList, hzero, if_neg Bool.false_ne_true]
  refine List.mem_append_right _ ?_
  have hpositional : Layout.json.positional = some (-5, 15) := rfl
  simp only [hpositional]
  split
  next hexponent =>
    rw [Bool.and_eq_true, decide_eq_true_eq, decide_eq_true_eq] at hexponent
    omega
  next =>
    unfold exponentText
    exact List.mem_append_right _ List.mem_cons_self

end Decimal

end SignalSchema
