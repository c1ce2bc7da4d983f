import SignalSchema.Json.Printer
import SignalSchema.Json.Reader
import SignalSchema.Proofs.Decimal.Magnitude

/-!
# Integers in JSON texts

The decimal digits of an integer are read as this integer if it has at most 64 bits. Any other
integer becomes a double, whose significand is made of as many digits as fit in 64 bits and is
scaled by a power of ten for the others (`payload_of_parse?_toString`). Such a double keeps the sign
of the integer and is at least `2 ^ 54`, whatever is lost in rounding.
-/

namespace SignalSchema

variable {n : Int} {payload : Json}

/-! ### Digits -/

/-- The decimal digits of an integer, behind a minus sign if it is negative. -/
theorem toList_toString_int (n : Int) :
    (toString n).toList = (if n < 0 then ['-'] else []) ++ Nat.toDigits 10 n.natAbs := by
  cases n with
  | ofNat k =>
    have hnonneg : ¬ Int.ofNat k < 0 := Int.not_lt.2 (Int.natCast_nonneg k)
    rw [if_neg hnonneg]
    exact Nat.toList_repr
  | negSucc k =>
    rw [if_pos (Int.negSucc_lt_zero k), Int.toString_eq_repr, Int.repr, String.toList_append,
      Nat.toList_repr]
    rfl

/-- The decimal digits of a number are digits. -/
theorem isDigit_of_mem_toDigits_ten (k : Nat) : ∀ c ∈ Nat.toDigits 10 k, c.isDigit = true :=
  fun _ hc => Nat.isDigit_of_mem_toDigits (by decide) (by decide) hc

/-- The value of the decimal digits of a number. -/
theorem Decimal.digitsValue_toDigits (k : Nat) :
    Decimal.digitsValue (Nat.toDigits 10 k) = k :=
  Nat.ofDigitChars_ten_toDigits

/-- The digits of a number do not start with a zero, unless there is nothing else. -/
theorem head?_toDigits (k : Nat) :
    (Nat.toDigits 10 k).head? ≠ some '0' ∨ (Nat.toDigits 10 k).length = 1 := by
  by_cases hk : k < 10
  · rw [Nat.toDigits_of_lt_base hk]
    exact .inr rfl
  · left
    induction k using Nat.strong_induction_on with
    | _ k ih =>
      have hdigits := Nat.toDigits_of_base_le (b := 10) (n := k) (by decide) (by omega)
      rw [hdigits, List.head?_append_of_ne_nil _ Nat.toDigits_ne_nil]
      by_cases hless : k / 10 < 10
      · have hdigit : ∀ m < 10, 0 < m → Nat.digitChar m ≠ '0' := by decide
        rw [Nat.toDigits_of_lt_base hless]
        exact fun heq => hdigit _ hless (by omega) (Option.some.inj heq)
      · exact ih _ (by omega) hless

/-! ### Reading -/

namespace RawJson

/-- A number without fraction and exponent is read up to the end. -/
theorem readNumber_toDigits (negative : Bool) (k : Nat) :
    readNumber negative (Nat.toDigits 10 k) =
      some (⟨negative, Nat.toDigits 10 k, none, none⟩, []) := by
  have hall := isDigit_of_mem_toDigits_ten k
  have hspan : (Nat.toDigits 10 k).span Char.isDigit = (Nat.toDigits 10 k, []) := by
    rw [List.span_eq_takeWhile_dropWhile, List.takeWhile_eq_self_iff.2 hall,
      List.dropWhile_eq_nil_iff.2 hall]
  have hdigits : readDigits (Nat.toDigits 10 k) = some (Nat.toDigits 10 k, []) := by
    rw [readDigits, hspan]
    exact if_neg (by simp [Nat.toDigits_ne_nil])
  have hhead : ¬ ((decide ((Nat.toDigits 10 k).head? = some '0') &&
      decide ((Nat.toDigits 10 k).length ≠ 1)) = true) := by
    rw [Bool.and_eq_true, decide_eq_true_eq, decide_eq_true_eq]
    rintro ⟨hzero, hmore⟩
    exact (head?_toDigits k).elim (fun h => h hzero) fun h => hmore h
  rw [readNumber, hdigits]
  exact if_neg hhead

/-- A value that starts with a digit is a number. -/
theorem readValue_of_isDigit {d : Char} (hd : d.isDigit = true) (fuel : Nat) (rest : List Char) :
    readValue (fuel + 1) (d :: rest) =
      (readNumber false (d :: rest)).map fun (n, r) => (.number n, r) := by
  have hskip : skipSpace (d :: rest) = d :: rest := by
    rw [skipSpace, List.dropWhile_cons_of_neg]
    rintro hspace
    simp only [Bool.or_eq_true, beq_iff_eq] at hspace
    rcases hspace with ((rfl | rfl) | rfl) | rfl <;> exact absurd hd (by decide)
  rw [readValue, hskip]
  split
  all_goals first
    | exact absurd ((List.cons.inj ‹_›).1 ▸ hd) (by decide)
    | rfl

/-- The text of an integer is read as its sign and its digits. -/
theorem parse?_toString_int (n : Int) :
    parse? (toString n) = some (.number ⟨decide (n < 0), Nat.toDigits 10 n.natAbs, none, none⟩) := by
  have hread : ∀ fuel, readValue (fuel + 1) (toString n).toList =
      some (.number ⟨decide (n < 0), Nat.toDigits 10 n.natAbs, none, none⟩, []) := by
    intro fuel
    rw [toList_toString_int]
    by_cases hneg : n < 0
    · rw [if_pos hneg, decide_eq_true hneg]
      exact congrArg (Option.map fun (n, r) => (RawJson.number n, r))
        (readNumber_toDigits true n.natAbs)
    · obtain ⟨d, digits, hdigits⟩ := List.exists_cons_of_ne_nil
        (Nat.toDigits_ne_nil (n := n.natAbs) (b := 10))
      have hd : d.isDigit = true := isDigit_of_mem_toDigits_ten n.natAbs d
        (hdigits ▸ List.mem_cons_self)
      have hnumber := readNumber_toDigits false n.natAbs
      rw [if_neg hneg, decide_eq_false hneg, List.nil_append]
      rw [hdigits] at hnumber ⊢
      rw [readValue_of_isDigit hd, hnumber]
      rfl
  rw [parse?]
  dsimp only
  rw [hread]
  rfl

end RawJson

/-- The text of an integer is read as the value of its sign and digits. -/
theorem Json.parse?_toString_int (n : Int) :
    Json.parse? (toString n) =
      (NumberText.value? ⟨decide (n < 0), Nat.toDigits 10 n.natAbs, none, none⟩).map .number := by
  rw [Json.parse?, RawJson.parse?_toString_int]
  rfl

/-! ### Values -/

namespace NumberText

/-- Digits are taken up to the end, or until the significand has nearly 64 bits. -/
theorem accumulate_cases {digits : List Char} (hdigits : ∀ c ∈ digits, c.isDigit = true)
    (significand : Nat) :
    (accumulate significand digits).1 = Nat.ofDigitChars 10 digits significand ∨
      2 ^ 64 ≤ 10 * (accumulate significand digits).1 + 9 := by
  induction digits generalizing significand with
  | nil => exact .inl rfl
  | cons c rest ih =>
    obtain ⟨hc, hrest⟩ := List.forall_mem_cons.1 hdigits
    rw [accumulate]
    split
    next hfull =>
      have hvalue : c.toNat - '0'.toNat ≤ 9 := by
        have hnine : c.toNat ≤ 57 := (Char.isDigit_iff_toNat.1 hc).2
        exact Nat.sub_le_sub_right hnine 48
      right
      omega
    next =>
      rw [Nat.ofDigitChars_cons]
      exact ih hrest _

/-- Scaling up keeps the sign of a double and its bounds. -/
theorem scale_spec {x y : Double} {e : Int} (hx : x.isNegative = false) (he : 0 ≤ e)
    (h : scale x e = some y) :
    y.isNegative = false ∧ ∀ k ≤ 1023, x.AtLeast k → y.AtLeast k := by
  rw [scale] at h
  split at h
  · obtain rfl := Option.some.inj h
    exact ⟨hx, fun _ _ => id⟩
  · split at h
    next => cases h
    next hle =>
      dsimp only at h
      split at h
      next =>
        obtain rfl := Option.some.inj h
        rw [Double.isNegative_mul, hx, Double.isNegative_ofDecimal]
        exact ⟨rfl, fun k hk hleast =>
          hleast.mul (Double.atLeast_ofDecimal he (Int.not_lt.1 hle)) hk⟩
      next => cases h

/-- The double of an integer without its sign is not negative, and at least `2 ^ 54` if the integer
has more than 64 bits. -/
theorem exists_scaled {k : Nat} {negative : Bool} {x : Double}
    (h : double? ⟨negative, Nat.toDigits 10 k, none, none⟩ = some x) :
    ∃ y : Double, x = (if negative then y.negate else y) ∧ y.isNegative = false ∧
      (2 ^ 64 ≤ k → y.AtLeast 54) := by
  have hcases := accumulate_cases (isDigit_of_mem_toDigits_ten k) 0
  rw [Nat.ofDigitChars_ten_toDigits] at hcases
  rw [double?] at h
  generalize accumulate 0 (Nat.toDigits 10 k) = taken at h hcases
  obtain ⟨significand, dropped⟩ := taken
  obtain ⟨y, hy, hx⟩ := Option.bind_eq_some_iff.1 h
  obtain ⟨hsign, hbound⟩ := scale_spec (Double.isNegative_ofRatio _ _ _) (by simp) hy
  refine ⟨y, (Option.some.inj hx).symm, hsign, fun hk => hbound 54 (by decide) ?_⟩
  refine Double.atLeast_ofRatio Nat.one_pos (by decide) ?_
  dsimp only at hcases
  omega

end NumberText

/-- The payload that the text of an integer is read as: the integer itself, or a double of the same
sign that is great if the integer is not negative. -/
theorem payload_of_parse?_toString (h : Json.parse? (toString n) = some payload) :
    payload = .number (.int n) ∨ ∃ x : Double, payload = .number (.double x) ∧
      (n < 0 ∧ x.isNegative = true ∨ 2 ^ 64 ≤ n ∧ x.AtLeast 54) := by
  rw [Json.parse?_toString_int] at h
  obtain ⟨number, hnumber, rfl⟩ := Option.map_eq_some_iff.1 h
  rw [NumberText.value?, Decimal.digitsValue_toDigits] at hnumber
  simp only [Option.isNone_none, Bool.and_self, if_true] at hnumber
  split at hnumber
  next hnatural =>
    rw [Bool.and_eq_true, Bool.not_eq_true', decide_eq_false_iff_not, decide_eq_true_eq] at hnatural
    obtain rfl := Option.some.inj hnumber
    have habs : (n.natAbs : Int) = n := by omega
    exact .inl (by rw [habs])
  next hunnatural =>
    split at hnumber
    next hnegative =>
      rw [Bool.and_eq_true, Bool.and_eq_true, decide_eq_true_eq] at hnegative
      obtain rfl := Option.some.inj hnumber
      have habs : -(n.natAbs : Int) = n := by omega
      exact .inl (by rw [habs])
    next =>
      obtain ⟨x, hx, rfl⟩ := Option.map_eq_some_iff.1 hnumber
      obtain ⟨y, rfl, hsign, hbound⟩ := NumberText.exists_scaled hx
      refine .inr ⟨_, rfl, ?_⟩
      by_cases hneg : n < 0
      · rw [if_pos (decide_eq_true hneg)]
        exact .inl ⟨hneg, Double.isNegative_negate hsign⟩
      · rw [if_neg (by simpa using hneg)]
        have hgreat : 2 ^ 64 ≤ n.natAbs := by
          simp only [Bool.and_eq_true, Bool.not_eq_true', decide_eq_false_iff_not,
            decide_eq_true_eq, not_and] at hunnatural
          exact Nat.not_lt.1 (hunnatural hneg)
        exact .inr ⟨by omega, hbound hgreat⟩

end SignalSchema
