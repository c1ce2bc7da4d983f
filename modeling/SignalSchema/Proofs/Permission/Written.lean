import SignalSchema.Proofs.Json.Quoted
import SignalSchema.Signal.Directives

/-!
# Permissions as they are written

A list of permissions is written in two places: with the fields of a schema, and as an argument of
a directive that a signal gets. Both write the same text, and the text tells the list, whatever
characters the permissions hold (`display_eq_and_injective`): behind every quoted permission comes
a comma or the closing bracket, so that the lists can be compared from the front.
-/

namespace SignalSchema.Permissions

open Json (quote quote_append_inj)

variable {s : String} {ps qs : List String} {rest rest' : List Char}

/-- The items of an array of strings are written as quoted strings. -/
theorem itemTexts_map_string (ps : List String) :
    WrittenDirective.itemTexts (ps.map Json.string) = ps.map quote := by
  induction ps with
  | nil => rfl
  | cons p ps ih =>
    rw [List.map_cons, WrittenDirective.itemTexts, ih]
    rfl

/-- Joined texts are the first one, and each of the others behind a separator. -/
theorem toList_intercalate_cons (sep s : String) (ss : List String) :
    (sep.intercalate (s :: ss)).toList =
      s.toList ++ ss.flatMap fun t => sep.toList ++ t.toList := by
  induction ss generalizing s with
  | nil => simp
  | cons t ss ih =>
    rw [String.intercalate_cons_cons, String.toList_append, String.toList_append, ih,
      List.flatMap_cons, List.append_assoc, List.append_assoc]

/-- Quoted strings, each behind a comma, can be compared up to the bracket that closes them. -/
theorem flatMap_quote_append_inj
    (h : (ps.flatMap fun p => ", ".toList ++ (quote p).toList) ++ ']' :: rest =
      (qs.flatMap fun p => ", ".toList ++ (quote p).toList) ++ ']' :: rest') : ps = qs := by
  induction ps generalizing qs with
  | nil =>
    cases qs with
    | nil => rfl
    | cons q qs => exact absurd (List.cons.inj h).1 (by decide)
  | cons p ps ih =>
    cases qs with
    | nil => exact absurd (List.cons.inj h).1 (by decide)
    | cons q qs =>
      rw [List.flatMap_cons, List.flatMap_cons, List.append_assoc, List.append_assoc,
        List.append_assoc, List.append_assoc, List.append_cancel_left_eq] at h
      obtain ⟨rfl, hrest⟩ := quote_append_inj h
      rw [ih hrest]

/-- Quoted strings between brackets can be compared. -/
theorem intercalate_quote_append_inj
    (h : (", ".intercalate (ps.map quote)).toList ++ ']' :: rest =
      (", ".intercalate (qs.map quote)).toList ++ ']' :: rest') : ps = qs := by
  have hquote : ∀ (p : String) (ps : List String) (tail : List Char),
      (", ".intercalate ((p :: ps).map quote)).toList ++ tail =
        (quote p).toList ++ ((ps.flatMap fun p => ", ".toList ++ (quote p).toList) ++ tail) := by
    intro p ps tail
    rw [List.map_cons, toList_intercalate_cons, List.flatMap_map, List.append_assoc]
  have hbegin : ∀ (p : String) (tail tail' : List Char),
      ']' :: tail ≠ (quote p).toList ++ tail' := by
    intro p tail tail' heq
    rw [quote, String.toList_ofList] at heq
    exact absurd (List.cons.inj heq).1 (by decide)
  cases ps with
  | nil =>
    cases qs with
    | nil => rfl
    | cons q qs =>
      rw [hquote q qs] at h
      exact absurd h (hbegin q _ _)
  | cons p ps =>
    cases qs with
    | nil =>
      rw [hquote p ps] at h
      exact absurd h.symm (hbegin p _ _)
    | cons q qs =>
      rw [hquote p ps, hquote q qs] at h
      obtain ⟨rfl, hrest⟩ := quote_append_inj h
      rw [flatMap_quote_append_inj hrest]

/-- Between its fixed ends, the text of a list of permissions holds the quoted strings. -/
theorem toList_display (ps : List String) :
    (display ps).toList = "@hasPermissions(permissions: [".toList ++
      ((", ".intercalate (ps.map quote)).toList ++ [']', ')']) := by
  have hclose : "])".toList = [']', ')'] := by decide
  unfold display
  rw [String.toList_append, String.toList_append, List.append_assoc, hclose]

/-- The directive of a signal that demands permissions is written like the permissions of a field.
Different lists of permissions are written differently. -/
theorem display_eq_and_injective :
    (∀ ps : List String, display ps = WrittenDirective.display
        ⟨directiveName, [("permissions", .array (ps.map Json.string))]⟩) ∧
      Function.Injective display := by
  constructor
  · intro ps
    have hopen : "@" ++ directiveName ++ "(" ++ ("permissions" ++ ": " ++ "[") =
        "@hasPermissions(permissions: [" := by decide
    have hclose : "]" ++ ")" = "])" := by decide
    simp only [WrittenDirective.display, List.map_cons, List.map_nil,
      String.intercalate_singleton, WrittenDirective.valueText, itemTexts_map_string]
    unfold display
    rw [← hopen, ← hclose]
    simp only [String.append_assoc]
  · intro ps qs h
    have hchars := congrArg String.toList h
    rw [toList_display, toList_display, List.append_cancel_left_eq] at hchars
    exact intercalate_quote_append_inj hchars

/-- Quotes, commas and brackets inside of permissions do not blur where they end. -/
example : display ["a\", \"b"] ≠ display ["a", "b"] ∧ display [] ≠ display [""] := by decide

end SignalSchema.Permissions
