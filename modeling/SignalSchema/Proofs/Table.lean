import Mathlib.Data.List.Induction
import Mathlib.Data.List.Nodup
import SignalSchema.Proofs.Distinct
import SignalSchema.Table

/-!
# Tables of pairs

Pairs in which a name occurs several times make a table that lists the name once: in the place of
its first pair (`keys_ofList`) and with the value of its last one (`get?_ofList`).
-/

namespace SignalSchema

variable {α β : Type} {R : String × α → String × β → Prop}

namespace Table

/-- One more pair is entered after all others. -/
theorem ofList_concat (es : List (String × α)) (e : String × α) :
    ofList (es ++ [e]) = (ofList es).insert e.1 e.2 := by
  rw [ofList, List.foldl_append]
  rfl

/-- The names of a table are the distinct names of the pairs, in the order in which they occur
first. -/
theorem keys_ofList (es : List (String × α)) :
    (ofList es).keys = (es.map Prod.fst).eraseDups := by
  induction es using List.reverseRecOn with
  | nil => rfl
  | append_singleton es e ih =>
    rw [ofList_concat, keys_insert, ih, List.map_append, List.map_singleton, eraseDups_concat]
    simp only [List.mem_eraseDups]

/-- A name finds the value of its last pair. -/
theorem get?_ofList (es : List (String × α)) (name : String) :
    (ofList es).get? name = es.reverse.lookup name := by
  induction es using List.reverseRecOn with
  | nil => rfl
  | append_singleton es e ih =>
    rw [ofList_concat, get?_insert, ih, List.reverse_append, List.reverse_singleton,
      List.singleton_append, List.lookup_cons]
    by_cases hname : name = e.1
    · rw [if_pos hname, hname, beq_self_eq_true]
    · rw [if_neg hname, beq_false_of_ne hname]

/-- What a name finds among pairs is related to what it finds among related pairs of the same
names. -/
theorem exists_lookup_of_forall₂ {es : List (String × α)} {fs : List (String × β)}
    (h : List.Forall₂ R es fs) (hname : ∀ e f, R e f → e.1 = f.1) {name : String} {v : β}
    (hv : fs.lookup name = some v) : ∃ u, es.lookup name = some u ∧ R (name, u) (name, v) := by
  induction h with
  | nil => cases hv
  | @cons e f es fs hef _ ih =>
    obtain ⟨a, u⟩ := e
    obtain ⟨b, w⟩ := f
    obtain rfl : a = b := hname _ _ hef
    rw [List.lookup_cons] at hv ⊢
    by_cases ha : name = a
    · subst ha
      rw [beq_self_eq_true] at hv ⊢
      obtain rfl := Option.some.inj hv
      exact ⟨u, rfl, hef⟩
    · rw [beq_false_of_ne ha] at hv ⊢
      exact ih hv

end Table

end SignalSchema
