import Mathlib
import SignalSchema.Text.LowerCase

/-!
# Texts

Splitting a text at a character splits the list of its characters (`splitOn_eq`), and joining the
parts again with another character replaces the one by the other (`intercalate_splitOn_eq_map`).
The lower case of characters of ASCII is taken letter by letter (`lower_of_ascii`), and neither a
capital in front nor the upper case changes it (`toLower_capitalize`, `toLower_toUpper`).
-/

namespace SignalSchema.Text

/-! ### Splitting -/

/-- Splitting at a character goes on behind the characters that were split already and those of the
part that is being read. -/
theorem splitOnAux_singleton (sep : Char) (before current after : List Char) (done : List String) :
    String.splitOnAux (String.ofList (before ++ current ++ after)) (String.ofList [sep])
        ⟨String.utf8Len before⟩ ⟨String.utf8Len before + String.utf8Len current⟩ 0 done =
      done.reverse ++
        (List.splitOnPPrepend (· == sep) after current.reverse).map String.ofList := by
  induction after generalizing before current done with
  | nil =>
    have hextract := String.extract_of_valid before current []
    have hend : String.Pos.Raw.atEnd (String.ofList (before ++ current ++ []))
        ⟨String.utf8Len before + String.utf8Len current⟩ = true := by
      simp [-String.ofList_append]
    rw [String.splitOnAux, if_pos hend, hextract]
    simp
  | cons c after ih =>
    have hextract := String.extract_of_valid before current (c :: after)
    have hget := String.get_of_valid (before ++ current) (c :: after)
    have hnext := String.next_of_valid (before ++ current) c after
    rw [String.utf8Len_append] at hget hnext
    have hend : ¬ String.Pos.Raw.atEnd (String.ofList (before ++ current ++ c :: after))
        ⟨String.utf8Len before + String.utf8Len current⟩ = true := by
      simp [-String.ofList_append, Nat.ne_of_gt c.utf8Size_pos]
    have hsep : String.Pos.Raw.get (String.ofList [sep]) 0 = sep := String.get_of_valid [] [sep]
    rw [String.splitOnAux, if_neg hend, hget, hsep, List.headD_cons,
      List.splitOnPPrepend_cons_eq_if]
    by_cases hc : c = sep
    · subst hc
      have hrest := ih (before ++ current ++ [c]) [] (String.ofList current :: done)
      have hstep : String.Pos.Raw.next (String.ofList [c]) 0 = ⟨c.utf8Size⟩ := by
        simpa using String.next_of_valid [] c []
      have hlast : String.Pos.Raw.atEnd (String.ofList [c]) ⟨c.utf8Size⟩ = true := by
        simp [String.Pos.Raw.atEnd]
      have hback : (⟨String.utf8Len before + String.utf8Len current + c.utf8Size⟩ :
          String.Pos.Raw).unoffsetBy ⟨c.utf8Size⟩ =
            ⟨String.utf8Len before + String.utf8Len current⟩ := by
        simp [String.Pos.Raw.unoffsetBy]
      rw [if_pos (beq_self_eq_true _), if_pos (beq_self_eq_true _), hnext, hstep]
      dsimp only
      rw [if_pos hlast, hback, hextract]
      simpa [-String.ofList_append, Nat.add_assoc] using hrest
    · have hrest := ih before (current ++ [c]) done
      have hback : (⟨String.utf8Len before + String.utf8Len current⟩ :
          String.Pos.Raw).unoffsetBy 0 = ⟨String.utf8Len before + String.utf8Len current⟩ := rfl
      rw [if_neg (by simpa using hc), if_neg (by simpa using hc), hback, hnext]
      simpa [-String.ofList_append, Nat.add_assoc] using hrest

/-- The parts of a text between the separators are those of its characters. -/
theorem splitOn_eq (text : String) (sep : Char) :
    text.splitOn (String.ofList [sep]) = (text.toList.splitOn sep).map String.ofList := by
  have h := splitOnAux_singleton sep [] [] text.toList []
  have hne : ¬(String.ofList [sep] == "") = true := by simp
  rw [String.splitOn, if_neg hne]
  simpa [List.splitOn, -String.ofList_cons] using h

variable {α : Type} [BEq α] [LawfulBEq α] {xs part : List α} {x : α}

/-- There is no separator in the parts of a list that is split at it. -/
theorem notMem_of_mem_splitOn (h : part ∈ xs.splitOn x) : x ∉ part := by
  induction xs generalizing part with
  | nil =>
    rw [List.splitOn_nil, List.mem_singleton] at h
    rw [h]
    exact List.not_mem_nil
  | cons c rest ih =>
    rw [List.splitOn_cons_eq_if_modifyHead] at h
    split at h
    · rcases List.mem_cons.1 h with rfl | h
      · exact List.not_mem_nil
      · exact ih h
    next hc =>
      obtain ⟨first, parts, hparts⟩ := List.exists_cons_of_ne_nil (List.splitOn_ne_nil x rest)
      rw [hparts] at h ih
      rcases List.mem_cons.1 h with rfl | h
      · rw [List.mem_cons, not_or]
        exact ⟨fun heq => hc (beq_iff_eq.2 heq.symm), ih List.mem_cons_self⟩
      · exact ih (List.mem_cons_of_mem _ h)

/-- Joining the parts between the separators with another separator replaces the one by the
other. -/
theorem intercalate_splitOn_eq_map [DecidableEq α] (x y : α) (xs : List α) :
    [y].intercalate (xs.splitOn x) = xs.map fun c => if c = x then y else c := by
  induction xs with
  | nil => simp
  | cons c rest ih =>
    obtain ⟨first, parts, hparts⟩ := List.exists_cons_of_ne_nil (List.splitOn_ne_nil x rest)
    rw [hparts] at ih
    rw [List.splitOn_cons_eq_if_modifyHead, hparts, List.map_cons, ← ih]
    by_cases hc : c = x
    · rw [if_pos (beq_iff_eq.2 hc), if_pos hc, List.intercalate_cons_cons]
      rfl
    · rw [if_neg (by simpa using hc), if_neg hc, List.modifyHead_cons,
        List.intercalate_cons_cons_left]

/-- A run of characters ends in front of the first one that does not belong to it. -/
theorem takeWhile_dropWhile_run {p : Char → Bool} {run : List Char} {c : Char}
    (hrun : ∀ d ∈ run, p d = true) (hc : ¬p c = true) (rest : List Char) :
    (run ++ c :: rest).takeWhile p = run ∧ (run ++ c :: rest).dropWhile p = c :: rest := by
  constructor
  · rw [List.takeWhile_append_of_pos hrun, List.takeWhile_cons_of_neg hc, List.append_nil]
  · rw [List.dropWhile_append_of_pos hrun, List.dropWhile_cons_of_neg hc]

/-! ### Letters and digits -/

/-- The letters and digits are characters of ASCII. -/
theorem toNat_lt_of_isAlphanum {c : Char} (h : c.isAlphanum = true) : c.toNat < 128 := by
  simp only [Char.isAlphanum, Char.isAlpha, Char.isUpper, Char.isLower, Char.isDigit,
    Bool.or_eq_true, Bool.and_eq_true, decide_eq_true_eq, UInt32.le_iff_toNat_le, ge_iff_le] at h
  change ((65 ≤ c.toNat ∧ c.toNat ≤ 90) ∨ 97 ≤ c.toNat ∧ c.toNat ≤ 122) ∨
    48 ≤ c.toNat ∧ c.toNat ≤ 57 at h
  omega

/-- The lower case of letters and digits, and of nothing else, is a letter or digit. -/
theorem isAlphanum_toLower (c : Char) : c.toLower.isAlphanum = c.isAlphanum := by
  cases hupper : c.isUpper with
  | true => simp [Char.isAlphanum, Char.isAlpha, hupper]
  | false => rw [Char.toLower_eq_of_not_isUpper (by simp [hupper])]

/-! ### Capitals -/

/-- Capitalising a text takes the capital of its first character. -/
theorem toList_capitalize (s : String) :
    s.capitalize.toList = s.toList.modifyHead Char.toUpper := by
  have hget := String.get_of_valid [] s.toList
  have hset := String.set_of_valid [] s.toList (s.toList.headD default).toUpper
  rw [List.nil_append, String.ofList_toList] at hget hset
  change String.Pos.Raw.get s 0 = _ at hget
  change String.Pos.Raw.set s 0 _ = _ at hset
  change (String.Pos.Raw.set s 0 (String.Pos.Raw.get s 0).toUpper).toList = _
  rw [hget, hset, String.toList_ofList, List.nil_append]
  cases s.toList <;> rfl

/-- A text and the text with a capital in front differ in case only. -/
theorem toLower_capitalize (s : String) : s.capitalize.toLower = s.toLower := by
  rw [← String.toList_inj, String.toLower, String.toLower, String.toList_map, String.toList_map,
    toList_capitalize]
  cases s.toList with
  | nil => rfl
  | cons c rest =>
    rw [List.modifyHead_cons, List.map_cons, List.map_cons, Char.toLower_toUpper_eq_toLower]

/-- A text and its upper case differ in case only. -/
theorem toLower_toUpper (s : String) : s.toUpper.toLower = s.toLower := by
  rw [String.toLower, String.toLower, String.toUpper, String.map_map]
  exact congrArg (String.map · s) (funext Char.toLower_toUpper_eq_toLower)

/-! ### Lower case -/

/-- Characters of ASCII are lower-cased one by one, whatever stands before them. -/
theorem lowerFrom_of_ascii {cs : List Char} (h : ∀ c ∈ cs, c.toNat < 128) (before : List Char) :
    lowerFrom before cs = cs.map Char.toLower := by
  induction cs generalizing before with
  | nil => rfl
  | cons c cs ih =>
    obtain ⟨hc, hcs⟩ := List.forall_mem_cons.1 h
    have hsigma : (c == 'Σ') = false := by
      rw [beq_eq_false_iff_ne]
      rintro rfl
      exact absurd hc (by decide)
    have hchar : lowerChar c = [c.toLower] := if_pos hc
    rw [lowerFrom, hsigma, hchar, ih hcs]
    rfl

/-- The lower case of a text in ASCII is that of its characters. -/
theorem lower_of_ascii {s : String} (h : ∀ c ∈ s.toList, c.toNat < 128) :
    lower s = s.map Char.toLower := by
  rw [lower, lowerFrom_of_ascii h, ← String.toList_map, String.ofList_toList]

end SignalSchema.Text
