import SignalSchema.Deploy.Version
import SignalSchema.Proofs.Text

/-!
# Spellings of versions

A version is written with one or two parts, each of which is the decimal digits of a number of 32
bits, perhaps behind a plus sign. `Version.Denotes` says which payloads stand for which version,
and reading a payload yields exactly that version (`Version.ofJson_eq_ok_iff`): a number that is
too great for a part is refused and never wrapped around.
-/

namespace SignalSchema.Deploy.Version

variable {cs : List Char} {n : UInt32} {v : Version} {entry : String} {payload : Json}

/-- The characters are decimal digits with the value of the number, perhaps behind a plus sign. -/
def IsPart (cs : List Char) (n : UInt32) : Prop :=
  ∃ digits, (cs = digits ∨ cs = '+' :: digits) ∧ digits ≠ [] ∧
    (∀ c ∈ digits, c.isDigit = true) ∧ Decimal.digitsValue digits = n.toNat

/-- The characters spell the version: its major part alone if the minor one is zero, or both parts
with a point between them. -/
def Spells (cs : List Char) (v : Version) : Prop :=
  IsPart cs v.major ∧ v.minor = 0 ∨
    ∃ major minor, cs = major ++ '.' :: minor ∧ IsPart major v.major ∧ IsPart minor v.minor

/-- The payload stands for the version: a natural number for a major part, and any other number,
or text, for what it spells. Around a spelling there may be blank characters. -/
inductive Denotes : Json → Version → Prop
  | natural {n : Nat} (bound : n < 2 ^ 32) : Denotes (.number (.int n)) ⟨UInt32.ofNat n, 0⟩
  | number {n : Number} {v : Version} (not_natural : ∀ k : Nat, n ≠ .int k)
      (spells : Spells (Text.trim n.text.toList) v) : Denotes (.number n) v
  | string {s : String} {v : Version} (spells : Spells (Text.trim s.toList) v) :
      Denotes (.string s) v

/-! ### Parts -/

/-- Digits are a part when there are some and their number has at most 32 bits. -/
theorem digits_eq_some_iff {digits : List Char} :
    (if digits.isEmpty || !digits.all Char.isDigit then none
      else
        let n := Decimal.digitsValue digits
        if n < 0x100000000 then some (UInt32.ofNat n) else none) = some n ↔
      digits ≠ [] ∧ (∀ c ∈ digits, c.isDigit = true) ∧ Decimal.digitsValue digits = n.toNat := by
  split
  next h =>
    simp only [Bool.or_eq_true, List.isEmpty_iff, Bool.not_eq_true', List.all_eq_false] at h
    refine iff_of_false (by simp) ?_
    rintro ⟨hne, hdigits, -⟩
    rcases h with rfl | ⟨c, hc, hnot⟩
    · exact hne rfl
    · exact hnot (hdigits c hc)
  next h =>
    simp only [Bool.or_eq_true, List.isEmpty_iff, Bool.not_eq_true', List.all_eq_false,
      not_or, not_exists, not_and, Decidable.not_not] at h
    dsimp only
    split
    next hbound =>
      rw [Option.some.injEq]
      constructor
      · rintro rfl
        exact ⟨h.1, h.2, (UInt32.toNat_ofNat_of_lt hbound).symm⟩
      · rintro ⟨-, -, hvalue⟩
        rw [hvalue, UInt32.ofNat_toNat]
    next hbound =>
      refine iff_of_false (by simp) ?_
      rintro ⟨-, -, hvalue⟩
      exact hbound (hvalue ▸ n.toNat_lt)

/-- A part is read exactly where there is one. -/
theorem part?_eq_some_iff : part? cs = some n ↔ IsPart cs n := by
  have hplus : '+'.isDigit = false := rfl
  unfold part?
  split
  next rest =>
    rw [digits_eq_some_iff]
    constructor
    · exact fun h => ⟨rest, .inr rfl, h⟩
    · rintro ⟨digits, rfl | heq, hne, hdigits, hvalue⟩
      · have hdigit := hdigits '+' List.mem_cons_self
        rw [hplus] at hdigit
        cases hdigit
      · obtain rfl := (List.cons.inj heq).2
        exact ⟨hne, hdigits, hvalue⟩
  next hnot =>
    rw [digits_eq_some_iff]
    constructor
    · exact fun h => ⟨cs, .inl rfl, h⟩
    · rintro ⟨digits, rfl | rfl, h⟩
      · exact h
      · exact absurd rfl (hnot digits)

/-- There is no point in a part. -/
theorem IsPart.point_notMem (h : IsPart cs n) : '.' ∉ cs := by
  obtain ⟨digits, hcs, -, hdigits, -⟩ := h
  have hpoint : '.' ∉ digits := fun hmem => absurd (hdigits '.' hmem) (by decide)
  rcases hcs with rfl | rfl
  · exact hpoint
  · rw [List.mem_cons, not_or]
    exact ⟨by decide, hpoint⟩

/-! ### Versions -/

/-- The characters before the first point and those behind it. -/
theorem takeWhile_dropWhile_point {before : List Char} (h : '.' ∉ before) (after : List Char) :
    (before ++ '.' :: after).takeWhile (· ≠ '.') = before ∧
      (before ++ '.' :: after).dropWhile (· ≠ '.') = '.' :: after := by
  have hall : ∀ c ∈ before, decide (c ≠ '.') = true := by
    intro c hc
    exact decide_eq_true fun heq => h (heq ▸ hc)
  exact Text.takeWhile_dropWhile_run hall (by decide) after

/-- Characters that spell a version are read as this version. -/
theorem ofChars?_eq_some_iff : ofChars? cs = some v ↔ Spells cs v := by
  have hsplit : cs.takeWhile (· ≠ '.') ++ cs.dropWhile (· ≠ '.') = cs :=
    List.takeWhile_append_dropWhile
  unfold ofChars?
  rw [Option.bind_eq_bind, Option.bind_eq_some_iff]
  simp only [part?_eq_some_iff]
  constructor
  · rintro ⟨major, hmajor, h⟩
    split at h
    next hrest =>
      rw [hrest, List.append_nil] at hsplit
      rw [hsplit] at hmajor
      obtain rfl := Option.some.inj h
      exact .inl ⟨hmajor, rfl⟩
    next c rest hrest =>
      obtain ⟨minor, hminor, h⟩ := Option.bind_eq_some_iff.1 h
      obtain rfl := Option.some.inj h
      have hpoint : c = '.' := by
        have hhead := List.head?_dropWhile_not (fun c => decide (c ≠ '.')) cs
        rw [hrest] at hhead
        simpa using hhead
      subst hpoint
      rw [hrest] at hsplit
      exact .inr ⟨_, rest, hsplit.symm, hmajor, part?_eq_some_iff.1 hminor⟩
  · rintro (⟨hmajor, hminor⟩ | ⟨major, minor, rfl, hmajor, hminor⟩)
    · have hall : ∀ c ∈ cs, decide (c ≠ '.') = true := fun c hc =>
        decide_eq_true fun heq => hmajor.point_notMem (heq ▸ hc)
      have hrest : cs.dropWhile (· ≠ '.') = [] := List.dropWhile_eq_nil_iff.2 hall
      rw [hrest, List.append_nil] at hsplit
      refine ⟨v.major, hsplit.symm ▸ hmajor, ?_⟩
      rw [hrest, ← hminor]
    · obtain ⟨hbefore, hafter⟩ := takeWhile_dropWhile_point hmajor.point_notMem minor
      refine ⟨v.major, hbefore.symm ▸ hmajor, ?_⟩
      rw [hafter]
      exact Option.bind_eq_some_iff.2 ⟨v.minor, part?_eq_some_iff.2 hminor, rfl⟩

/-- A text is read as the version that it spells between blank characters. -/
theorem ofText_eq_ok_iff {text : String} :
    ofText entry text = .ok v ↔ Spells (Text.trim text.toList) v := by
  rw [← ofChars?_eq_some_iff, ofText]
  cases ofChars? (Text.trim text.toList) <;> simp

/-- A payload is read as the version that it stands for. -/
theorem ofJson_eq_ok_iff : ofJson entry payload = .ok v ↔ Denotes payload v := by
  have hnatural : ∀ k : Nat, ofJson entry (.number (.int k)) =
      if (k : Int) < 0x100000000 then .ok ⟨UInt32.ofNat k, 0⟩
      else .error (.malformed entry (.versionRange (.int k))) := by
    intro k
    rw [ofJson, if_neg (by omega), Int.toNat_natCast]
  have hother : ∀ n : Number, (∀ k : Nat, n ≠ .int k) →
      ofJson entry (.number n) = ofText entry n.text := by
    rintro (k | x) hn
    · have hneg : k < 0 := by
        by_contra hk
        exact hn k.toNat (by rw [Int.toNat_of_nonneg (by omega)])
      rw [ofJson, if_pos hneg]
    · rfl
  constructor
  · intro h
    match payload, h with
    | .number n, h =>
      by_cases hn : ∃ k : Nat, n = .int k
      · obtain ⟨k, rfl⟩ := hn
        rw [hnatural] at h
        split at h
        · obtain rfl := Except.ok.inj h
          exact .natural (by omega)
        · cases h
      · rw [not_exists] at hn
        rw [hother n hn, ofText_eq_ok_iff] at h
        exact .number hn h
    | .string s, h => exact .string (ofText_eq_ok_iff.1 h)
  · rintro (hbound | ⟨hn, hspells⟩ | hspells)
    · rw [hnatural, if_pos (by omega)]
    · rw [hother _ hn, ofText_eq_ok_iff]
      exact hspells
    · exact ofText_eq_ok_iff.2 hspells

end SignalSchema.Deploy.Version
