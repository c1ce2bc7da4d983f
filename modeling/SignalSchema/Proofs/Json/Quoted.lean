import Mathlib.Tactic.SplitIfs
import SignalSchema.Json.Printer
import SignalSchema.Json.Reader

/-!
# Quoted strings

Between its quotes a string is written character by character, some of them as escapes. Reading
such a text yields the characters again and stops behind the closing quote, whatever follows
(`readString_escape`). So a quoted string is told apart from every other one even where more text
comes after it (`quote_append_inj`).
-/

namespace SignalSchema.Json

open RawJson

variable {c : Char} {s t : String} {rest rest' : List Char}

/-- The number of a hexadecimal digit. -/
theorem hexValue?_hexDigit (n : Nat) : hexValue? (hexDigit n) = some (n % 16) := by
  have hdigits : ∀ m < 16, hexValue? (Nat.digitChar m) = some m := by decide
  exact hdigits (n % 16) (Nat.mod_lt n (by decide))

/-- The escape of a control character by its number. -/
theorem readEscape_control (h : c.toNat < 0x20) (rest : List Char) :
    readEscape ('u' :: '0' :: '0' :: hexDigit (c.toNat / 16) :: hexDigit c.toNat :: rest) =
      some (c.toNat, rest) := by
  have hzero : hexValue? '0' = some 0 := by decide
  have hnumber : ((0 * 16 + 0) * 16 + c.toNat / 16 % 16) * 16 + c.toNat % 16 = c.toNat := by omega
  rw [readEscape, hzero, hexValue?_hexDigit, hexValue?_hexDigit]
  exact congrArg (fun n => some (n, rest)) hnumber

/-- Reading on in a string takes one character as it is written. -/
theorem readString_escapeChar (fuel : Nat) (units : List Nat) (c : Char) (rest : List Char) :
    readString (fuel + 1) units (escapeChar c ++ rest) =
      readString fuel (c.toNat :: units) rest := by
  unfold escapeChar
  split_ifs with hquote hbackslash hfeed hreturn htab hbackspace hpage hcontrol
  · rw [hquote]; rfl
  · rw [hbackslash]; rfl
  · rw [hfeed]; rfl
  · rw [hreturn]; rfl
  · rw [htab]; rfl
  · rw [hbackspace]; rfl
  · rw [hpage]; rfl
  · have hescape := readEscape_control hcontrol rest
    simp only [List.cons_append, List.nil_append]
    rw [readString, hescape]
    rfl
  · rw [List.singleton_append, readString, if_neg hcontrol]
    · exact hquote
    · exact hbackslash

/-- A string is read up to its closing quote. -/
theorem readString_escape {cs : List Char} {fuel : Nat} (h : cs.length < fuel) (units : List Nat)
    (rest : List Char) :
    readString fuel units (escape cs ++ '"' :: rest) =
      some (units.reverse ++ cs.map Char.toNat, rest) := by
  induction cs generalizing fuel units with
  | nil =>
    obtain ⟨fuel, rfl⟩ := Nat.exists_eq_succ_of_ne_zero (Nat.ne_of_gt h)
    rw [List.map_nil, List.append_nil]
    rfl
  | cons c cs ih =>
    obtain ⟨fuel, rfl⟩ := Nat.exists_eq_succ_of_ne_zero (Nat.ne_of_gt (Nat.zero_lt_of_lt h))
    have hrest := ih (Nat.lt_of_succ_lt_succ h) (c.toNat :: units)
    rw [escape, List.flatMap_cons, List.append_assoc, readString_escapeChar, ← escape, hrest,
      List.reverse_cons, List.append_assoc, List.map_cons]
    rfl

/-- Texts that begin with quoted strings are equal only if the strings and the rests are. -/
theorem quote_append_inj (h : (quote s).toList ++ rest = (quote t).toList ++ rest') :
    s = t ∧ rest = rest' := by
  have hquoted : ∀ (u : String) (tail : List Char),
      (quote u).toList ++ tail = '"' :: (escape u.toList ++ '"' :: tail) := by
    intro u tail
    rw [quote, String.toList_ofList, List.cons_append, List.append_assoc, List.singleton_append]
  rw [hquoted, hquoted, List.cons.injEq] at h
  -- the same reader reads both, with enough fuel for either
  have hread : ∀ (u : String) (tail : List Char), u.toList.length ≤ s.toList.length + t.toList.length →
      readString (s.toList.length + t.toList.length + 1) [] (escape u.toList ++ '"' :: tail) =
        some (u.toList.map Char.toNat, tail) :=
    fun u tail hle => readString_escape (Nat.lt_succ_of_le hle) [] tail
  have hleft := hread s rest (Nat.le_add_right _ _)
  have hright := hread t rest' (Nat.le_add_left _ _)
  rw [h.2, hright] at hleft
  obtain ⟨hunits, hrest⟩ := Prod.mk.inj (Option.some.inj hleft)
  have hchars : t.toList = s.toList :=
    (List.map_inj_right fun _ _ => Char.toNat_inj.1).1 hunits
  exact ⟨(String.toList_inj.1 hchars).symm, hrest.symm⟩

end SignalSchema.Json
