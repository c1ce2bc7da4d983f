import SignalSchema.Proofs.Deploy.Version
import SignalSchema.Proofs.Json.Integers

/-!
# Texts and numbers of versions

A text is read as a version exactly if it spells the version between blank characters
(`ofText_eq_ok_iff_written`). No character of a spelling is blank, so that there is only one way to
take the blanks off. The text of a version spells it, and the digits of an integer spell nothing but
this integer. A number and its digits therefore make the same version, or none: numbers of more than
64 bits are doubles, and their texts show an exponent or a sign, which no spelling has
(`ofJson_texts_and_integers`).
-/

namespace SignalSchema

namespace Text

variable {cs before core after : List Char}

/-- Around what trimming leaves there are only blank characters. -/
theorem exists_eq_append_trim (cs : List Char) : ∃ before after,
    cs = before ++ trim cs ++ after ∧ (∀ c ∈ before, isBlank c = true) ∧
      ∀ c ∈ after, isBlank c = true := by
  have hstart := List.takeWhile_append_dropWhile (p := isBlank) (l := cs)
  have hend := List.takeWhile_append_dropWhile (p := isBlank) (l := (cs.dropWhile isBlank).reverse)
  refine ⟨cs.takeWhile isBlank, ((cs.dropWhile isBlank).reverse.takeWhile isBlank).reverse, ?_,
    fun c hc => ?_, fun c hc => ?_⟩
  · have hback := congrArg List.reverse hend
    rw [List.reverse_append, List.reverse_reverse] at hback
    rw [trim, trimEnd, trimStart, List.append_assoc, hback, hstart]
  · exact (List.mem_takeWhile_imp hc)
  · exact List.mem_takeWhile_imp (List.mem_reverse.1 hc)

/-- Trimming takes off blank characters up to others. -/
theorem trim_append (hbefore : ∀ c ∈ before, isBlank c = true)
    (hafter : ∀ c ∈ after, isBlank c = true) (hcore : ∀ c ∈ core, isBlank c = false)
    (hne : core ≠ []) : trim (before ++ core ++ after) = core := by
  have hdrop : ∀ {blanks rest : List Char}, (∀ c ∈ blanks, isBlank c = true) →
      (∀ c ∈ rest.head?, isBlank c = false) → (blanks ++ rest).dropWhile isBlank = rest := by
    intro blanks rest hblanks hrest
    rw [List.dropWhile_append_of_pos hblanks]
    cases rest with
    | nil => rfl
    | cons c rest => exact List.dropWhile_cons_of_neg (by simp [hrest c rfl])
  rw [trim, trimEnd, trimStart, List.append_assoc, hdrop hbefore, List.reverse_append, hdrop,
    List.reverse_reverse]
  · exact fun c hc => hafter c (List.mem_reverse.1 hc)
  · exact fun c hc => hcore c (List.mem_reverse.1 (List.mem_of_mem_head? hc))
  · rw [List.head?_append_of_ne_nil _ hne]
    exact fun c hc => hcore c (List.mem_of_mem_head? hc)

end Text

namespace Deploy.Version

variable {cs : List Char} {n : Int} {v : Version} {entry text : String} {payload : Json}

/-- The text spells the version, perhaps with blank characters around the spelling. -/
def Written (text : String) (v : Version) : Prop :=
  ∃ before spelling after, text.toList = before ++ spelling ++ after ∧
    (∀ c ∈ before, Text.isBlank c = true) ∧ (∀ c ∈ after, Text.isBlank c = true) ∧
      Spells spelling v

/-- The payload is the integer as a number, by itself or as its digits are read. -/
def IsInteger (payload : Json) (n : Int) : Prop :=
  payload = .number (.int n) ∨ Json.parse? (toString n) = some payload

/-! ### Spellings -/

/-- A part has characters, which are digits or plus signs. -/
theorem IsPart.chars {n : UInt32} (h : IsPart cs n) :
    cs ≠ [] ∧ ∀ c ∈ cs, c.isDigit = true ∨ c = '+' := by
  obtain ⟨digits, rfl | rfl, hne, hdigits, -⟩ := h
  · exact ⟨hne, fun c hc => .inl (hdigits c hc)⟩
  · refine ⟨List.cons_ne_nil _ _, fun c hc => ?_⟩
    exact (List.mem_cons.1 hc).elim .inr fun hc => .inl (hdigits c hc)

/-- A spelling has characters, which are digits, plus signs or points. -/
theorem Spells.chars (h : Spells cs v) :
    cs ≠ [] ∧ ∀ c ∈ cs, c.isDigit = true ∨ c = '+' ∨ c = '.' := by
  rcases h with ⟨hmajor, -⟩ | ⟨major, minor, rfl, hmajor, hminor⟩
  · exact ⟨hmajor.chars.1, fun c hc => (hmajor.chars.2 c hc).imp_right .inl⟩
  · refine ⟨by simp, fun c hc => ?_⟩
    rcases List.mem_append.1 hc with hc | hc
    · exact (hmajor.chars.2 c hc).imp_right .inl
    · rcases List.mem_cons.1 hc with rfl | hc
      · exact .inr (.inr rfl)
      · exact (hminor.chars.2 c hc).imp_right .inl

/-- Digits, plus signs and points are not blank. -/
theorem isBlank_eq_false {c : Char} (h : c.isDigit = true ∨ c = '+' ∨ c = '.') :
    Text.isBlank c = false := by
  rcases h with h | rfl | rfl
  · have hrange := Char.isDigit_iff_toNat.1 h
    have hzero : '0'.toNat = 48 := rfl
    have hnine : '9'.toNat = 57 := rfl
    simp only [Text.isBlank, Bool.or_eq_false_iff, Bool.and_eq_false_iff, decide_eq_false_iff_not,
      beq_eq_false_iff_ne]
    omega
  · decide
  · decide

/-- Every character of a text for a version is blank or one of a spelling. -/
theorem Written.chars (h : Written text v) :
    ∀ c ∈ text.toList, Text.isBlank c = true ∨ c.isDigit = true ∨ c = '+' ∨ c = '.' := by
  obtain ⟨before, spelling, after, htext, hbefore, hafter, hspells⟩ := h
  rw [htext]
  intro c hc
  rcases List.mem_append.1 hc with hc | hc
  · rcases List.mem_append.1 hc with hc | hc
    · exact .inl (hbefore c hc)
    · exact .inr (hspells.chars.2 c hc)
  · exact .inl (hafter c hc)

/-- A text is for the version that is spelled between its blank ends. -/
theorem written_iff : Written text v ↔ Spells (Text.trim text.toList) v := by
  constructor
  · rintro ⟨before, spelling, after, htext, hbefore, hafter, h⟩
    have hcore : ∀ c ∈ spelling, Text.isBlank c = false := fun c hc =>
      isBlank_eq_false (h.chars.2 c hc)
    rw [htext, Text.trim_append hbefore hafter hcore h.chars.1]
    exact h
  · intro h
    obtain ⟨before, after, htext, hbefore, hafter⟩ := Text.exists_eq_append_trim text.toList
    exact ⟨before, _, after, htext, hbefore, hafter, h⟩

/-- A text is read as the version that is written in it. -/
theorem ofText_eq_ok_iff_written : ofText entry text = .ok v ↔ Written text v :=
  ofText_eq_ok_iff.trans written_iff.symm

/-! ### Digits -/

/-- The decimal digits of a number are a part with this value and no other. -/
theorem isPart_toDigits_iff {k : Nat} {n : UInt32} :
    IsPart (Nat.toDigits 10 k) n ↔ n.toNat = k := by
  have hdigits := isDigit_of_mem_toDigits_ten k
  constructor
  · rintro ⟨digits, rfl | hplus, -, -, hvalue⟩
    · rw [← hvalue, Decimal.digitsValue_toDigits]
    · have hmem : '+' ∈ Nat.toDigits 10 k := hplus ▸ List.mem_cons_self
      exact absurd (hdigits _ hmem) (by decide)
  · rintro rfl
    exact ⟨_, .inl rfl, Nat.toDigits_ne_nil, hdigits, Decimal.digitsValue_toDigits _⟩

/-- The text of a version is a spelling of it. -/
theorem written_display (v : Version) : Written v.display v := by
  have hchars : v.display.toList =
      Nat.toDigits 10 v.major.toNat ++ '.' :: Nat.toDigits 10 v.minor.toNat := by
    rw [display, String.toList_append, String.toList_append, List.append_assoc]
    exact congrArg₂ _ Nat.toList_repr (congrArg ('.' :: ·) Nat.toList_repr)
  refine ⟨[], v.display.toList, [], by simp, by simp, by simp, .inr ⟨_, _, hchars, ?_, ?_⟩⟩
  · exact isPart_toDigits_iff.2 rfl
  · exact isPart_toDigits_iff.2 rfl

/-- The text of an integer is for the version that has the integer as its major part and nothing
else. -/
theorem written_toString_int_iff :
    Written (toString n) v ↔ (v.major.toNat : Int) = n ∧ v.minor = 0 := by
  by_cases hneg : n < 0
  · refine iff_of_false (fun h => ?_) (by omega)
    have hminus : '-' ∈ (toString n).toList := by
      rw [toList_toString_int, if_pos hneg]
      exact List.mem_cons_self
    exact absurd (h.chars _ hminus) (by decide)
  · have hdigits := isDigit_of_mem_toDigits_ten n.natAbs
    have htrim : Text.trim (toString n).toList = Nat.toDigits 10 n.natAbs := by
      rw [toList_toString_int, if_neg hneg, List.nil_append]
      have hblank : ∀ c ∈ Nat.toDigits 10 n.natAbs, Text.isBlank c = false := fun c hc =>
        isBlank_eq_false (.inl (hdigits c hc))
      have hnone : ∀ c ∈ ([] : List Char), Text.isBlank c = true := nofun
      simpa using Text.trim_append hnone hnone hblank Nat.toDigits_ne_nil
    have hmajor : IsPart (Nat.toDigits 10 n.natAbs) v.major ↔ (v.major.toNat : Int) = n := by
      rw [isPart_toDigits_iff]
      omega
    rw [written_iff, htrim, Spells, hmajor, or_iff_left]
    rintro ⟨major, minor, hpoint, -, -⟩
    have hmem : '.' ∈ Nat.toDigits 10 n.natAbs := hpoint ▸ by simp
    exact absurd (hdigits _ hmem) (by decide)

/-! ### Numbers -/

/-- An integer is read as the version that has it as its major part and nothing else. -/
theorem ofJson_int_eq_ok_iff :
    ofJson entry (.number (.int n)) = .ok v ↔ (v.major.toNat : Int) = n ∧ v.minor = 0 := by
  rw [ofJson]
  split
  next => exact ofText_eq_ok_iff_written.trans written_toString_int_iff
  next hnonneg =>
    split
    next hless =>
      have hmajor : (UInt32.ofNat n.toNat).toNat = n.toNat :=
        UInt32.toNat_ofNat_of_lt' (by simp only [UInt32.size]; omega)
      rw [Except.ok.injEq]
      constructor
      · rintro rfl
        exact ⟨by dsimp only; omega, rfl⟩
      · rintro ⟨hn, hminor⟩
        obtain ⟨major, minor⟩ := v
        dsimp only at hn hminor
        subst hn hminor
        rw [Int.toNat_natCast, UInt32.ofNat_toNat]
    next hgreat =>
      have hbound := v.major.toNat_lt
      exact iff_of_false (by simp) (by omega)

/-- A double with a sign, or of at least `2 ^ 54`, is no version. -/
theorem ofJson_double_ne_ok {x : Double} (h : x.isNegative = true ∨ x.AtLeast 54) :
    ofJson entry (.number (.double x)) ≠ .ok v := by
  intro hok
  have hchars := (ofText_eq_ok_iff_written.1 hok).chars
  rcases h with h | h
  · exact absurd (hchars _ (Decimal.minus_mem_write _ h)) (by decide)
  · exact absurd (hchars _ (Decimal.exponent_mem_write h)) (by decide)

/-- Whatever number an integer is, it is read as the version that has the integer as its major part
and nothing else. -/
theorem ofJson_eq_ok_iff_of_isInteger (h : IsInteger payload n) :
    ofJson entry payload = .ok v ↔ (v.major.toNat : Int) = n ∧ v.minor = 0 := by
  have hcases : payload = .number (.int n) ∨ ∃ x : Double, payload = .number (.double x) ∧
      (n < 0 ∧ x.isNegative = true ∨ 2 ^ 64 ≤ n ∧ x.AtLeast 54) :=
    h.elim .inl payload_of_parse?_toString
  obtain rfl | ⟨x, rfl, hx⟩ := hcases
  · exact ofJson_int_eq_ok_iff
  · have hbound := v.major.toNat_lt
    rcases hx with ⟨hn, hx⟩ | ⟨hn, hx⟩
    · exact iff_of_false (ofJson_double_ne_ok (.inl hx)) (by omega)
    · exact iff_of_false (ofJson_double_ne_ok (.inr hx)) (by omega)

/-! ### Main result -/

/-- A text is read as the version that is written in it, and no other text is accepted. The text of
every version is read as this version. An integer and its decimal digits are read alike: as the
version that has the integer as its major part, if there is one, with nothing behind the point. -/
theorem ofJson_texts_and_integers (entry : String) :
    (∀ text v, ofJson entry (.string text) = .ok v ↔ Written text v) ∧
      (∀ v : Version, ofJson entry (.string v.display) = .ok v) ∧
      ∀ (n : Int) (payload : Json), IsInteger payload n → ∀ v,
        (ofJson entry payload = .ok v ↔ (v.major.toNat : Int) = n ∧ v.minor = 0) ∧
        (ofJson entry (.string (toString n)) = .ok v ↔
          (v.major.toNat : Int) = n ∧ v.minor = 0) := by
  refine ⟨fun text v => ofText_eq_ok_iff_written, fun v => ?_, fun n payload h v => ⟨?_, ?_⟩⟩
  · exact ofText_eq_ok_iff_written.2 (written_display v)
  · exact ofJson_eq_ok_iff_of_isInteger h
  · exact ofText_eq_ok_iff_written.trans written_toString_int_iff

/-- The greatest major part, as the digits of an integer are read, and the integer `2 ^ 64`, which
is read as a double. -/
theorem ofJson_greatest_major_and_double :
    Json.parse? (toString (4294967295 : Int)) = some (.number (.int 4294967295)) ∧
      ofJson "Door" (.number (.int 4294967295)) = .ok ⟨4294967295, 0⟩ ∧
      Json.parse? (toString (18446744073709551616 : Int)) =
        some (.number (.double ⟨0x43F0000000000000⟩)) ∧
      ∀ v, ofJson "Door" (.number (.double ⟨0x43F0000000000000⟩)) ≠ .ok v := by
  have hint : Json.parse? (toString (4294967295 : Int)) = some (.number (.int 4294967295)) := by
    cbv
  have hdouble : Json.parse? (toString (18446744073709551616 : Int)) =
      some (.number (.double ⟨0x43F0000000000000⟩)) := by
    have hvalue : NumberText.value? ⟨false, Nat.toDigits 10 18446744073709551616, none, none⟩ =
        some (.double ⟨0x43F0000000000000⟩) := by decide +kernel
    rw [Json.parse?_toString_int]
    exact congrArg (Option.map Json.number) hvalue
  have hreadings := (ofJson_texts_and_integers "Door").2.2
  refine ⟨hint, (hreadings _ _ (.inr hint) _).1.2 ⟨rfl, rfl⟩, hdouble, fun v hv => ?_⟩
  have hn := ((hreadings _ _ (.inr hdouble) v).1.1 hv).1
  have hbound := v.major.toNat_lt
  omega

end Deploy.Version

end SignalSchema
