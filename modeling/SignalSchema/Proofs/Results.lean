import Mathlib.Data.List.Forall2

/-!
# Results of computations

A computation that may fail is run after another one, or on every element of a list, and the whole
fails with the first failure. When nothing fails in a list, the results stand in the order of the
elements they belong to; `mapM_eq_ok_iff` says so, and the lemmas after it read single results off.
When something fails, `failure?_bind` and `failure?_mapM` tell what. Where the computations work on
a state, the state that one leaves is the one that the next begins with, also when that one fails
(`run_bind_eq_ok_iff`, `run_bind_eq_error_iff`).
-/

namespace SignalSchema.Results

variable {ε σ α β γ : Type}

/-- A sequence of two computations yields a value exactly when both do. -/
theorem bind_eq_ok_iff {x : Except ε α} {f : α → Except ε β} {b : β} :
    x >>= f = .ok b ↔ ∃ a, x = .ok a ∧ f a = .ok b := by
  cases x with
  | error e => simp [bind, Except.bind]
  | ok a => simp [bind, Except.bind]

/-- Two computations that begin with the same one do the same if they go on in the same way from
whatever it yields. -/
theorem bind_congr_of_ok {x : Except ε α} {f g : α → Except ε β}
    (h : ∀ a, x = .ok a → f a = g a) : x >>= f = x >>= g := by
  cases x with
  | error e => rfl
  | ok a => exact h a rfl

/-- The image of a result is a value exactly when the result is one. -/
theorem map_eq_ok_iff {x : Except ε α} {f : α → β} {b : β} :
    x.map f = .ok b ↔ ∃ a, x = .ok a ∧ f a = b := by
  cases x with
  | error e => simp [Except.map]
  | ok a => simp [Except.map]

/-- A value stays when it is forgotten why a computation may fail. -/
theorem toOption_eq_some_iff {x : Except ε α} {a : α} : x.toOption = some a ↔ x = .ok a := by
  cases x with
  | error e => simp [Except.toOption]
  | ok b => simp [Except.toOption]

/-- A computation succeeds on a whole list exactly when it succeeds on every element. -/
theorem mapM_eq_ok_iff {f : α → Except ε β} {xs : List α} {ys : List β} :
    xs.mapM f = .ok ys ↔ List.Forall₂ (fun x y => f x = .ok y) xs ys := by
  induction xs generalizing ys with
  | nil =>
    rw [List.mapM_nil, List.forall₂_nil_left_iff]
    exact ⟨fun h => (Except.ok.inj h).symm, fun h => h ▸ rfl⟩
  | cons x xs ih =>
    rw [List.mapM_cons, bind_eq_ok_iff, List.forall₂_cons_left_iff]
    constructor
    · rintro ⟨y, hy, h⟩
      obtain ⟨rest, hrest, h⟩ := bind_eq_ok_iff.1 h
      exact ⟨y, rest, hy, ih.1 hrest, (Except.ok.inj h).symm⟩
    · rintro ⟨y, rest, hy, hrest, rfl⟩
      exact ⟨y, hy, bind_eq_ok_iff.2 ⟨rest, ih.2 hrest, rfl⟩⟩

/-- What an element and its result have in common can be read off either list. -/
theorem map_eq_map {r : α → β → Prop} {f : α → γ} {g : β → γ} {xs : List α} {ys : List β}
    (h : List.Forall₂ r xs ys) (hr : ∀ x y, r x y → f x = g y) : xs.map f = ys.map g := by
  induction h with
  | nil => rfl
  | cons hxy _ ih => rw [List.map_cons, List.map_cons, hr _ _ hxy, ih]

/-- What can be read off either list, where something can be read at all, is the same. -/
theorem filterMap_eq_filterMap {r : α → β → Prop} {f : α → Option γ} {g : β → Option γ}
    {xs : List α} {ys : List β} (h : List.Forall₂ r xs ys) (hr : ∀ x y, r x y → f x = g y) :
    xs.filterMap f = ys.filterMap g := by
  rw [← Function.id_comp f, ← List.filterMap_map, map_eq_map h hr, List.filterMap_map,
    Function.id_comp]

/-- Computations on two lists do the same if they do the same on elements that belong together. -/
theorem mapM_congr {r : α → β → Prop} {f : α → Except ε γ} {g : β → Except ε γ} {xs : List α}
    {ys : List β} (h : List.Forall₂ r xs ys) (hr : ∀ x y, r x y → f x = g y) :
    xs.mapM f = ys.mapM g := by
  induction h with
  | nil => rfl
  | cons hxy _ ih => rw [List.mapM_cons, List.mapM_cons, hr _ _ hxy, ih]

/-- Computations that do the same on every element of a list do the same on the list. -/
theorem mapM_congr_of_mem {f g : α → Except ε β} {xs : List α} (h : ∀ x ∈ xs, f x = g x) :
    xs.mapM f = xs.mapM g :=
  mapM_congr (List.forall₂_same.2 h) fun _ _ hxy => hxy

/-- Two lists belong together when they have the same length and belong together place by place. -/
theorem forall₂_iff_getElem? {r : α → β → Prop} {xs : List α} {ys : List β} :
    List.Forall₂ r xs ys ↔ xs.length = ys.length ∧
      ∀ (i : Nat) (x : α) (y : β), xs[i]? = some x → ys[i]? = some y → r x y := by
  rw [List.forall₂_iff_get]
  refine and_congr_right fun hlength => ⟨fun h i x y hx hy => ?_, fun h i hx hy => ?_⟩
  · obtain ⟨hi, rfl⟩ := List.getElem?_eq_some_iff.1 hx
    obtain ⟨hi', rfl⟩ := List.getElem?_eq_some_iff.1 hy
    exact h i hi hi'
  · exact h i _ _ (List.getElem?_eq_getElem hx) (List.getElem?_eq_getElem hy)

/-- The element at a place has a result there. -/
theorem exists_getElem?_right {r : α → β → Prop} {xs : List α} {ys : List β}
    (h : List.Forall₂ r xs ys) {i : Nat} {x : α} (hx : xs[i]? = some x) :
    ∃ y, ys[i]? = some y ∧ r x y := by
  obtain ⟨hlength, hr⟩ := forall₂_iff_getElem?.1 h
  have hi : i < ys.length := hlength ▸ (List.getElem?_eq_some_iff.1 hx).1
  exact ⟨ys[i], List.getElem?_eq_getElem hi, hr i x _ hx (List.getElem?_eq_getElem hi)⟩

/-- Every result belongs to an element. -/
theorem exists_of_mem_right {r : α → β → Prop} {xs : List α} {ys : List β}
    (h : List.Forall₂ r xs ys) {y : β} (hy : y ∈ ys) : ∃ x ∈ xs, r x y := by
  induction h with
  | nil => simp at hy
  | cons hxy _ ih =>
    rcases List.mem_cons.1 hy with rfl | hy
    · exact ⟨_, List.mem_cons_self, hxy⟩
    · obtain ⟨x, hx, hr⟩ := ih hy
      exact ⟨x, List.mem_cons_of_mem _ hx, hr⟩

/-- Every element has a result. -/
theorem exists_of_mem_left {r : α → β → Prop} {xs : List α} {ys : List β}
    (h : List.Forall₂ r xs ys) {x : α} (hx : x ∈ xs) : ∃ y ∈ ys, r x y := by
  obtain ⟨y, hy, hr⟩ := exists_of_mem_right h.flip hx
  exact ⟨y, hy, hr⟩

/-! ### The first failure -/

/-- Why a computation fails, if it does. -/
def failure? : Except ε α → Option ε
  | .ok _ => none
  | .error e => some e

/-- A computation has a failure exactly when it fails with it. -/
theorem failure?_eq_some_iff {x : Except ε α} {e : ε} : failure? x = some e ↔ x = .error e := by
  cases x with
  | ok a => simp [failure?]
  | error e' => simp [failure?]

/-- A computation without a failure yields a value. -/
theorem failure?_eq_none_iff {x : Except ε α} : failure? x = none ↔ ∃ a, x = .ok a := by
  cases x with
  | ok a => simp [failure?]
  | error e => simp [failure?]

/-- The image of a result fails like the result. -/
theorem failure?_map (x : Except ε α) (f : α → β) : failure? (x.map f) = failure? x := by
  cases x <;> rfl

/-- A sequence of two computations fails like the first one, or else like the second one. -/
theorem failure?_bind {x : Except ε α} {f : α → Except ε β} {r s : Option ε}
    (hx : failure? x = r) (hf : ∀ a, x = .ok a → failure? (f a) = s) :
    failure? (x >>= f) = r.or s := by
  subst hx
  cases x with
  | ok a => exact hf a rfl
  | error e => rfl

/-- A value that is made of the result of a computation fails like the computation. -/
theorem failure?_bind_ok {x : Except ε α} {f : α → β} :
    failure? (x >>= fun a => .ok (f a)) = failure? x := by
  cases x <;> rfl

/-- A computation on a list fails like the first element on which it fails. -/
theorem failure?_mapM (f : α → Except ε β) (xs : List α) :
    failure? (xs.mapM f) = xs.findSome? fun x => failure? (f x) := by
  induction xs with
  | nil => rfl
  | cons x xs ih =>
    rw [List.mapM_cons, List.findSome?_cons, ← ih]
    cases f x with
    | error e => rfl
    | ok y =>
      cases xs.mapM f with
      | error e => rfl
      | ok ys => rfl

/-- What is found first in the parts of a list is found in the first part that has it. -/
theorem findSome?_flatMap (xs : List α) (f : α → List β) (p : β → Option γ) :
    (xs.flatMap f).findSome? p = xs.findSome? fun x => (f x).findSome? p := by
  rw [← List.head?_filterMap, List.filterMap_flatMap, List.head?_flatMap]
  simp only [List.head?_filterMap]

/-- What is found first in the images of a list is found in the first element that has it. -/
theorem findSome?_filterMap (xs : List α) (f : α → Option β) (p : β → Option γ) :
    (xs.filterMap f).findSome? p = xs.findSome? fun x => (f x).bind p := by
  rw [← List.head?_filterMap, List.filterMap_filterMap, List.head?_filterMap]

/-- What is found first can be looked for in either of two lists whose elements agree on it. -/
theorem findSome?_congr {r : α → β → Prop} {f : α → Option γ} {g : β → Option γ} {xs : List α}
    {ys : List β} (h : List.Forall₂ r xs ys) (hr : ∀ x y, r x y → f x = g y) :
    xs.findSome? f = ys.findSome? g := by
  rw [← Function.id_comp f, ← List.findSome?_map, map_eq_map h hr, List.findSome?_map,
    Function.id_comp]

/-! ### Computations on a state -/

section State

variable {x : ExceptT ε (StateM σ) α} {f : α → ExceptT ε (StateM σ) β} {s s' : σ} {b : β}
  {e : ε} {b' : α}

/-- A value is yielded as it is and leaves the state alone. -/
theorem run_pure_eq_ok_iff {a : α} :
    ((pure a : ExceptT ε (StateM σ) α).run s).run = (.ok b', s') ↔ a = b' ∧ s = s' := by
  change (Except.ok a, s) = (Except.ok b', s') ↔ _
  simp

/-- A computation begins with the state that it asks for. -/
theorem run_get_bind {f : σ → ExceptT ε (StateM σ) α} :
    ((get >>= f).run s).run = ((f s).run s).run := rfl

/-- A computation that knows no state leaves it alone. -/
theorem run_liftM_bind {r : Except ε α} :
    (((liftM r : ExceptT ε (StateM σ) α) >>= f).run s).run =
      match r with
      | .ok a => ((f a).run s).run
      | .error e => (.error e, s) := by
  cases r with
  | ok a => rfl
  | error e => rfl

/-- Two computations that begin with the same one do the same if they go on in the same way. -/
theorem run_liftM_bind_congr {r : Except ε α} {g : α → Except ε γ}
    {k : γ → ExceptT ε (StateM σ) β}
    (h : ∀ a, ((f a).run s).run = (((liftM (g a) : ExceptT ε (StateM σ) γ) >>= k).run s).run) :
    (((liftM r : ExceptT ε (StateM σ) α) >>= f).run s).run =
      (((liftM (r >>= g) : ExceptT ε (StateM σ) γ) >>= k).run s).run := by
  cases r with
  | ok a => exact h a
  | error e => rfl

/-- What a sequence of two computations does is decided by the result of the first. -/
theorem run_bind : ((x >>= f).run s).run =
    match (x.run s).run with
    | (.ok a, middle) => ((f a).run middle).run
    | (.error e, middle) => (.error e, middle) := by
  have hrun : ((x >>= f).run s).run =
      ExceptT.bindCont f (x.run s).run.1 (x.run s).run.2 := rfl
  rw [hrun]
  obtain ⟨result, middle⟩ := (x.run s).run
  cases result with
  | ok a => rfl
  | error e => rfl

/-- A sequence of two computations succeeds exactly when both do, one after the other. -/
theorem run_bind_eq_ok_iff : ((x >>= f).run s).run = (.ok b, s') ↔
    ∃ a middle, (x.run s).run = (.ok a, middle) ∧ ((f a).run middle).run = (.ok b, s') := by
  rw [run_bind]
  obtain ⟨result, middle⟩ := (x.run s).run
  cases result with
  | ok a =>
    constructor
    · intro h
      exact ⟨a, middle, rfl, h⟩
    · rintro ⟨a', middle', heq, h⟩
      cases heq
      exact h
  | error e => simp

/-- A sequence of two computations fails where the first one fails, or where the second one does
after the first one. -/
theorem run_bind_eq_error_iff : ((x >>= f).run s).run = (.error e, s') ↔
    (x.run s).run = (.error e, s') ∨
      ∃ a middle, (x.run s).run = (.ok a, middle) ∧ ((f a).run middle).run = (.error e, s') := by
  rw [run_bind]
  obtain ⟨result, middle⟩ := (x.run s).run
  cases result with
  | ok a =>
    constructor
    · intro h
      exact .inr ⟨a, middle, rfl, h⟩
    · rintro (heq | ⟨a', middle', heq, h⟩)
      · cases heq
      · cases heq
        exact h
  | error e => simp

end State

end SignalSchema.Results
