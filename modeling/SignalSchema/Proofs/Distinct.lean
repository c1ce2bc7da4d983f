import Mathlib.Data.List.Induction
import Mathlib.Data.List.Perm.Basic

/-!
# Distinct items of a list

Taking the repetitions out of a list leaves its items in the order in which they occur first
(`pairwise_idxOf_eraseDups`). Of two lists in a row, the items of the first one come before those
that the second one adds (`eraseDups_append_eq`). So whether two such rows have the same distinct
items can be decided part by part (`eraseDups_append_eq_iff`), and for a part that was moved ahead
only the beginning counts (`eraseDups_append_append_eq_iff`).
-/

namespace SignalSchema

variable {α : Type} [DecidableEq α] {as bs cs ds : List α}

/-- The distinct items of a list with one more item at its end. -/
theorem eraseDups_concat (xs : List α) (x : α) :
    (xs ++ [x]).eraseDups = if x ∈ xs then xs.eraseDups else xs.eraseDups ++ [x] := by
  rw [List.eraseDups_append]
  by_cases hx : x ∈ xs
  · simp [List.removeAll, hx]
  · simp [List.removeAll, List.eraseDups_cons, hx]

/-- The distinct items of a list stand in the order in which they occur first. -/
theorem pairwise_idxOf_eraseDups (xs : List α) :
    xs.eraseDups.Pairwise fun a b => xs.idxOf a < xs.idxOf b := by
  induction xs using List.reverseRecOn with
  | nil => exact .nil
  | append_singleton xs x ih =>
    -- the items that were there before keep their first places
    have hidx : ∀ a ∈ xs.eraseDups, (xs ++ [x]).idxOf a = xs.idxOf a :=
      fun a ha => List.idxOf_append_of_mem (List.mem_eraseDups.1 ha)
    have hplaces : xs.eraseDups.Pairwise fun a b =>
        (xs ++ [x]).idxOf a < (xs ++ [x]).idxOf b :=
      ih.imp_of_mem fun ha hb hlt => by rwa [hidx _ ha, hidx _ hb]
    rw [eraseDups_concat]
    split
    next => exact hplaces
    next hfresh =>
      refine List.pairwise_append.2 ⟨hplaces, List.pairwise_singleton _ _, fun a ha b hb => ?_⟩
      obtain rfl := List.mem_singleton.1 hb
      rw [hidx a ha, List.idxOf_append_of_notMem hfresh]
      exact Nat.lt_of_lt_of_le (List.idxOf_lt_length_of_mem (List.mem_eraseDups.1 ha))
        (Nat.le_add_right _ _)

/-- The distinct items of a list are distinct. -/
theorem nodup_eraseDups (xs : List α) : xs.eraseDups.Nodup := by
  refine (pairwise_idxOf_eraseDups xs).imp ?_
  rintro a b hlt rfl
  exact Nat.lt_irrefl _ hlt

/-- Items can be left out before or after the repetitions are. -/
theorem eraseDups_filter (p : α → Bool) (xs : List α) :
    (xs.filter p).eraseDups = xs.eraseDups.filter p := by
  induction xs using List.reverseRecOn with
  | nil => rfl
  | append_singleton xs x ih =>
    rw [List.filter_append, eraseDups_concat]
    by_cases hp : p x = true
    · have hx : x ∈ xs.filter p ↔ x ∈ xs := by simp [hp]
      rw [List.filter_cons_of_pos hp, List.filter_nil, eraseDups_concat, ih]
      simp only [hx]
      split
      · rfl
      · rw [List.filter_append, List.filter_cons_of_pos hp, List.filter_nil]
    · rw [List.filter_cons_of_neg hp, List.filter_nil, List.append_nil, ih]
      split
      · rfl
      · rw [List.filter_append, List.filter_cons_of_neg hp, List.filter_nil, List.append_nil]

/-! ### Lists in a row -/

/-- The distinct items of two lists in a row are those of the first one, and behind them those that
the second one adds. -/
theorem eraseDups_append_eq (as bs : List α) :
    (as ++ bs).eraseDups = as.eraseDups ++ bs.eraseDups.filter (· ∉ as) := by
  rw [List.eraseDups_append, ← eraseDups_filter, List.removeAll]
  simp

/-- Lists in a row behind lists with the same items: their distinct items are compared one part
after the other. -/
theorem eraseDups_append_eq_iff (h : ∀ x, x ∈ as ↔ x ∈ bs) :
    (as ++ cs).eraseDups = (bs ++ ds).eraseDups ↔
      as.eraseDups = bs.eraseDups ∧ (bs ++ cs).eraseDups = (bs ++ ds).eraseDups := by
  have hlength : as.eraseDups.length = bs.eraseDups.length :=
    List.Perm.length_eq ((List.perm_ext_iff_of_nodup (nodup_eraseDups as) (nodup_eraseDups bs)).2
      fun x => by rw [List.mem_eraseDups, List.mem_eraseDups, h])
  have hnew : cs.eraseDups.filter (· ∉ as) = cs.eraseDups.filter (· ∉ bs) := by
    simp only [h]
  rw [eraseDups_append_eq as, eraseDups_append_eq bs, eraseDups_append_eq bs, hnew,
    List.append_cancel_left_eq]
  exact ⟨fun heq => List.append_inj heq hlength, fun ⟨hfirst, hrest⟩ => by rw [hfirst, hrest]⟩

/-- Items that occurred before add nothing. -/
theorem eraseDups_append_of_subset (h : bs ⊆ as) (cs : List α) :
    (as ++ (bs ++ cs)).eraseDups = (as ++ cs).eraseDups := by
  have hnone : bs.eraseDups.filter (· ∉ as) = [] := by
    rw [List.filter_eq_nil_iff]
    intro x hx
    simpa using h (List.mem_eraseDups.1 hx)
  have hmem : ∀ x, x ∈ as ++ bs ↔ x ∈ as := by
    intro x
    rw [List.mem_append]
    exact ⟨fun hx => hx.elim id (h ·), .inl⟩
  rw [← List.append_assoc, eraseDups_append_eq, eraseDups_append_eq as bs, hnone, List.append_nil,
    eraseDups_append_eq as cs]
  simp only [hmem]

/-- If the distinct items go on in one list like in another, the other one can be put before it. -/
theorem eraseDups_append_append_of_isPrefix (h : (as ++ bs).eraseDups <+: (as ++ cs).eraseDups) :
    (as ++ bs ++ cs).eraseDups = (as ++ cs).eraseDups := by
  obtain ⟨tail, htail⟩ := h
  have hnodup := nodup_eraseDups (as ++ cs)
  rw [← htail, List.nodup_append] at hnodup
  have hnone : ∀ xs : List α, xs ⊆ as ++ bs → xs.filter (· ∉ as ++ bs) = [] := by
    intro xs hxs
    rw [List.filter_eq_nil_iff]
    exact fun x hx => by simpa only [decide_eq_true_eq, not_not] using hxs hx
  -- what is left of `as ++ cs` behind the common beginning is what `cs` adds to it
  have htail' : tail = (as ++ cs).eraseDups.filter (· ∉ as ++ bs) := by
    have hkeep : tail.filter (· ∉ as ++ bs) = tail := by
      rw [List.filter_eq_self]
      intro x hx
      exact decide_eq_true fun hmem => hnodup.2.2 x (List.mem_eraseDups.2 hmem) x hx rfl
    rw [← htail, List.filter_append, hkeep,
      hnone _ fun x hx => List.mem_eraseDups.1 hx, List.nil_append]
  have hadds : (as ++ cs).eraseDups.filter (· ∉ as ++ bs) =
      cs.eraseDups.filter (· ∉ as ++ bs) := by
    rw [← eraseDups_filter, ← eraseDups_filter, List.filter_append,
      hnone as (List.subset_append_left _ _), List.nil_append]
  rw [eraseDups_append_eq, ← hadds, ← htail', htail]

/-- A list whose items are put ahead of those of another: the distinct items stay those of the
other if it begins with the items that were put ahead, and goes on in the same way. -/
theorem eraseDups_append_append_eq_iff :
    (as ++ bs ++ cs).eraseDups = (as ++ ds).eraseDups ↔
      (as ++ bs).eraseDups <+: (as ++ ds).eraseDups ∧
        (as ++ bs ++ cs).eraseDups = (as ++ bs ++ ds).eraseDups := by
  constructor
  · intro heq
    have hbegins : (as ++ bs).eraseDups <+: (as ++ ds).eraseDups := by
      rw [← heq, eraseDups_append_eq (as ++ bs)]
      exact List.prefix_append _ _
    exact ⟨hbegins, heq.trans (eraseDups_append_append_of_isPrefix hbegins).symm⟩
  · rintro ⟨hbegins, heq⟩
    exact heq.trans (eraseDups_append_append_of_isPrefix hbegins)

end SignalSchema
