import SignalSchema.Proofs.Text
import SignalSchema.Schema.Names

/-!
# Spellings of a field

The name of a field starts with small letters and a capital right behind them, or it is made of
small letters only, or it is of neither shape, and the shape decides how the field is spelled. The
shapes are told by how the name splits, and not by where a run of small letters ends. A spelling
differs from the name in case only (`toLower_of_mem_nameCandidates`), and a name with a capital in
front is spelled as it is (`nameCandidates_capitalize`). The first spelling is such a name, or the
only spelling of the field; either way it has no other spelling.
-/

namespace SignalSchema

variable {field candidate : String}

/-- The name starts with small letters, one at least, and right behind them stands a capital. -/
def IsLowerCamel (name : String) : Prop :=
  ∃ small capital rest, name.toList = small ++ capital :: rest ∧ small ≠ [] ∧
    (∀ c ∈ small, c.isLower = true) ∧ capital.isUpper = true

/-- The name is made of small letters, one at least. -/
def IsLowerOnly (name : String) : Prop :=
  name ≠ "" ∧ ∀ c ∈ name.toList, c.isLower = true

/-! ### Letters -/

/-- The small letters are those of ASCII. -/
theorem isLowerLetter_eq_isLower : isLowerLetter = Char.isLower := rfl

/-- The capitals are those of ASCII. -/
theorem isUpperLetter_eq_isUpper : isUpperLetter = Char.isUpper := by
  funext c
  exact (Bool.decide_and _ _).symm

/-- Names in title case are capitalised. -/
theorem ofList_titleCase (name : String) :
    String.ofList (titleCase name.toList) = name.capitalize := by
  rw [← String.toList_inj, String.toList_ofList, Text.toList_capitalize]
  cases name.toList <;> rfl

/-- A name of either shape starts with a small letter. -/
theorem exists_isLower_of_shape {name : String} (h : IsLowerCamel name ∨ IsLowerOnly name) :
    ∃ c rest, name.toList = c :: rest ∧ c.isLower = true := by
  rcases h with ⟨small, capital, rest, hname, hne, hsmall, -⟩ | ⟨hne, hsmall⟩
  · obtain ⟨c, small, rfl⟩ := List.exists_cons_of_ne_nil hne
    exact ⟨c, small ++ capital :: rest, hname, hsmall c List.mem_cons_self⟩
  · obtain ⟨c, rest, hname⟩ := List.exists_cons_of_ne_nil (mt String.toList_eq_nil_iff.1 hne)
    exact ⟨c, rest, hname, hsmall c (hname ▸ List.mem_cons_self)⟩

/-! ### The three shapes -/

/-- With a capital right behind the small letters, a field is capitalised. -/
theorem nameCandidates_of_isLowerCamel (h : IsLowerCamel field) :
    nameCandidates field = [field.capitalize] := by
  obtain ⟨small, capital, rest, hfield, hne, hsmall, hcapital⟩ := h
  have hstop : ¬capital.isLower = true := Char.not_isLower_of_isUpper hcapital
  obtain ⟨htake, hdrop⟩ := Text.takeWhile_dropWhile_run hsmall hstop rest
  rw [← hfield] at htake hdrop
  simp only [nameCandidates, isLowerLetter_eq_isLower, isUpperLetter_eq_isUpper, htake, hdrop]
  rw [if_neg (by rwa [List.isEmpty_iff]), if_pos hcapital, ofList_titleCase]

/-- Made of small letters only, a field may be capitalised, an acronym, or stand for itself. -/
theorem nameCandidates_of_isLowerOnly (h : IsLowerOnly field) :
    nameCandidates field = [field.capitalize, field.toUpper, field] := by
  obtain ⟨hne, hsmall⟩ := h
  have htake : field.toList.takeWhile Char.isLower = field.toList :=
    List.takeWhile_eq_self_iff.2 hsmall
  have hdrop : field.toList.dropWhile Char.isLower = [] := List.dropWhile_eq_nil_iff.2 hsmall
  have hupper : String.ofList (field.toList.map Char.toUpper) = field.toUpper := by
    rw [String.toUpper, ← String.toList_inj, String.toList_ofList, String.toList_map]
  simp only [nameCandidates, isLowerLetter_eq_isLower, htake, hdrop]
  rw [if_neg (by rwa [List.isEmpty_iff, String.toList_eq_nil_iff]), ofList_titleCase, hupper]

/-- Of any other shape, a field stands for itself. -/
theorem nameCandidates_of_not (hcamel : ¬IsLowerCamel field) (honly : ¬IsLowerOnly field) :
    nameCandidates field = [field] := by
  have hsplit : field.toList.takeWhile Char.isLower ++ field.toList.dropWhile Char.isLower =
      field.toList := List.takeWhile_append_dropWhile
  simp only [nameCandidates, isLowerLetter_eq_isLower, isUpperLetter_eq_isUpper]
  split
  · rfl
  next hrun =>
    rw [List.isEmpty_iff] at hrun
    -- A run of small letters reaches the end of the name, or it stops in front of `c`.
    split
    next hdrop =>
      have hsmall := List.dropWhile_eq_nil_iff.1 hdrop
      refine absurd ⟨fun hempty => hrun ?_, hsmall⟩ honly
      rw [hempty]
      rfl
    next c rest hdrop =>
      rw [hdrop] at hsplit
      refine if_neg fun hcapital => hcamel ?_
      exact ⟨_, c, rest, hsplit.symm, hrun, fun _ => List.mem_takeWhile_imp, hcapital⟩

/-- A field has the spellings of its shape. -/
theorem nameCandidates_cases (field : String) :
    nameCandidates field = [field.capitalize] ∨
      nameCandidates field = [field.capitalize, field.toUpper, field] ∨
      nameCandidates field = [field] := by
  by_cases hcamel : IsLowerCamel field
  · exact .inl (nameCandidates_of_isLowerCamel hcamel)
  by_cases honly : IsLowerOnly field
  · exact .inr (.inl (nameCandidates_of_isLowerOnly honly))
  · exact .inr (.inr (nameCandidates_of_not hcamel honly))

/-! ### All spellings, and the first one -/

/-- A spelling is capitalised, in upper case, or the field itself. -/
theorem eq_of_mem_nameCandidates (h : candidate ∈ nameCandidates field) :
    candidate = field.capitalize ∨ candidate = field.toUpper ∨ candidate = field := by
  rcases nameCandidates_cases field with hshape | hshape | hshape
  · exact .inl (List.mem_singleton.1 (hshape ▸ h))
  · simpa only [hshape, List.mem_cons, List.not_mem_nil, or_false] using h
  · exact .inr (.inr (List.mem_singleton.1 (hshape ▸ h)))

/-- The spellings of a field differ from its name in case only. -/
theorem toLower_of_mem_nameCandidates (h : candidate ∈ nameCandidates field) :
    candidate.toLower = field.toLower := by
  rcases eq_of_mem_nameCandidates h with rfl | rfl | rfl
  · exact Text.toLower_capitalize field
  · exact Text.toLower_toUpper field
  · rfl

/-- A name with a capital in front is spelled as it is, and so is one with no letter in front. -/
theorem nameCandidates_capitalize (name : String) :
    nameCandidates name.capitalize = [name.capitalize] := by
  -- In front of either shape stands a small letter, and capitalising leaves none there.
  have hshape : ¬(IsLowerCamel name.capitalize ∨ IsLowerOnly name.capitalize) := by
    intro h
    obtain ⟨c, rest, hname, hc⟩ := exists_isLower_of_shape h
    rw [Text.toList_capitalize] at hname
    cases hchars : name.toList with
    | nil => simp [hchars] at hname
    | cons d tail =>
      rw [hchars, List.modifyHead_cons] at hname
      rw [← (List.cons.inj hname).1, Char.isLower_toUpper_eq_false] at hc
      cases hc
  rw [not_or] at hshape
  exact nameCandidates_of_not hshape.1 hshape.2

/-- A field has a first spelling, which is spelled in no other way. -/
theorem exists_nameCandidates_eq_cons (field : String) : ∃ first rest,
    nameCandidates field = first :: rest ∧ nameCandidates first = [first] := by
  rcases nameCandidates_cases field with h | h | h
  · exact ⟨_, _, h, nameCandidates_capitalize field⟩
  · exact ⟨_, _, h, nameCandidates_capitalize field⟩
  · exact ⟨_, _, h, h⟩

/-- How a field is spelled. With a capital right behind the small letters that its name starts
with, it is capitalised; of small letters only, it is capitalised, written in upper case, or left
as it is, in this order; any other field is left as it is. So there always is a spelling, every
spelling is the name up to case, and the first one is its own only spelling. -/
theorem nameCandidates_eq_and_first_stable (field : String) :
    (IsLowerCamel field → nameCandidates field = [field.capitalize]) ∧
    (IsLowerOnly field → nameCandidates field = [field.capitalize, field.toUpper, field]) ∧
    (¬IsLowerCamel field → ¬IsLowerOnly field → nameCandidates field = [field]) ∧
    (∀ candidate ∈ nameCandidates field, candidate.toLower = field.toLower) ∧
    ∃ first rest, nameCandidates field = first :: rest ∧ nameCandidates first = [first] :=
  ⟨nameCandidates_of_isLowerCamel, nameCandidates_of_isLowerOnly, nameCandidates_of_not,
    fun _ => toLower_of_mem_nameCandidates, exists_nameCandidates_eq_cons field⟩

/-- A field with a capital behind small letters, one of small letters only, and one of neither
shape. -/
theorem nameCandidates_isABSOn_abs_ABSOn :
    (IsLowerCamel "isABSOn" ∧ nameCandidates "isABSOn" = ["IsABSOn"]) ∧
    (IsLowerOnly "abs" ∧ nameCandidates "abs" = ["Abs", "ABS", "abs"]) ∧
    ¬IsLowerCamel "ABSOn" ∧ ¬IsLowerOnly "ABSOn" ∧ nameCandidates "ABSOn" = ["ABSOn"] := by
  have hcamel : IsLowerCamel "isABSOn" :=
    ⟨['i', 's'], 'A', ['B', 'S', 'O', 'n'], rfl, by decide, List.all_eq_true.1 (by decide),
      by decide⟩
  have honly : IsLowerOnly "abs" := ⟨by decide, List.all_eq_true.1 (by decide)⟩
  have hupper : "abs".toUpper = "ABS" := by decide +kernel
  have hneither : ¬(IsLowerCamel "ABSOn" ∨ IsLowerOnly "ABSOn") := by
    intro h
    obtain ⟨c, rest, hname, hc⟩ := exists_isLower_of_shape h
    obtain rfl : 'A' = c := (List.cons.inj hname).1
    exact absurd hc (by decide)
  obtain ⟨hnotcamel, hnotonly⟩ := not_or.1 hneither
  refine ⟨⟨hcamel, (nameCandidates_eq_and_first_stable "isABSOn").1 hcamel⟩, ⟨honly, ?_⟩,
    hnotcamel, hnotonly, (nameCandidates_eq_and_first_stable "ABSOn").2.2.1 hnotcamel hnotonly⟩
  rw [(nameCandidates_eq_and_first_stable "abs").2.1 honly, hupper]
  rfl

end SignalSchema
