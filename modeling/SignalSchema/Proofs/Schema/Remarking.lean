import Mathlib
import SignalSchema.Proofs.Schema.Built

/-!
# Marking a built schema

In a schema whose marks are closed, marking further objects is a matter of reachability alone: a
walk that ends at marked objects misses nothing, because what these lead to is marked already. So
the result depends only on which objects are marked, and not on the order, on repetitions, or on
positions that hold no object (`foldl_markListItem_of_build`). The order within one walk does not
matter, either. `Round` is one round of the walk that takes any pending position; every sequence of
rounds ends (`wellFounded_round`), and ends with the same schema (`eq_markPending_of_rounds`).
-/

namespace SignalSchema

/-- A type with its mark as a list item taken away; other marks stay. -/
def NamedType.withoutListItem (t : NamedType) : NamedType :=
  t.mapObject fun o => { o with isListItem := false }

namespace Schema

open Deploy (DirectiveMap)

variable {schema s s' : Schema} {id a b : TypeId} {pending pending' marks marks' : List TypeId}

/-! ### What marks leave alone -/

/-- A type without its mark does not depend on it. -/
theorem blindToMark_withoutListItem : BlindToMark NamedType.withoutListItem := by
  intro t
  cases t <;> rfl

/-- A type is itself without the mark, with the mark that it has. -/
theorem mapObject_withoutListItem (t : NamedType) :
    t.withoutListItem.mapObject (fun o => { o with isListItem := t.isListItem }) = t := by
  cases t <;> rfl

/-- Schemas that differ in nothing but marks hold the same types, up to the mark of a position. -/
theorem get?_eq_of_withoutListItem
    (h : s'.types.map NamedType.withoutListItem = s.types.map NamedType.withoutListItem)
    (b : TypeId) : s'.get? b =
      (s.get? b).map (·.mapObject fun o => { o with isListItem := s'.isListItem b }) := by
  have hb := map_get?_eq_of_map_types h b
  rw [isListItem_eq_any]
  cases hs' : s'.get? b with
  | none =>
    rw [hs'] at hb
    have hs : s.get? b = none := by simpa using hb.symm
    rw [hs, Option.map_none]
  | some t' =>
    rw [hs', Option.map_some, eq_comm, Option.map_eq_some_iff] at hb
    obtain ⟨t, ht, heq⟩ := hb
    rw [ht, Option.map_some, Option.any_some]
    have hmark : t.mapObject (fun o => { o with isListItem := t'.isListItem }) =
        t.withoutListItem.mapObject (fun o => { o with isListItem := t'.isListItem }) := by
      cases t <;> rfl
    rw [hmark, heq, mapObject_withoutListItem]

/-- A schema is determined by its types without their marks, by how they are found, and by the
marks. -/
theorem eq_of_isListItem_eq
    (h : s'.types.map NamedType.withoutListItem = s.types.map NamedType.withoutListItem)
    (hindex : s'.index = s.index) (hmarks : s'.isListItem = s.isListItem) : s' = s := by
  have hget : s'.get? = s.get? := by
    funext b
    rw [get?_eq_of_withoutListItem h b, hmarks, ← get?_eq_of_withoutListItem rfl b]
  have htypes : s'.types = s.types := List.ext_getElem? fun b => congrFun hget b
  obtain ⟨types', ids', sections'⟩ := s'
  obtain ⟨types, ids, sections⟩ := s
  obtain ⟨rfl, rfl⟩ := Prod.mk.inj hindex
  obtain rfl : types' = types := htypes
  rfl

/-! ### Walks that pay what they owe -/

/-- Where nothing but what is pending is owed, the walk marks exactly what the pending objects lead
to. -/
theorem isListItem_markPending_iff (h : Owes schema pending) :
    (schema.markPending pending).isListItem b = true ↔ schema.isListItem b = true ∨
      ∃ a ∈ pending, schema.isObject a = true ∧ Reaches schema.graph a b := by
  constructor
  · exact isListItem_markPending_cases
  · rintro (hb | ⟨a, ha, hao, hab⟩)
    · exact isListItem_markPending_of_isListItem hb
    · have hclosed : Owes (schema.markPending pending) [] :=
        owes_markPending (by rwa [List.append_nil])
      refine isListItem_of_reaches hclosed (isListItem_markPending_of_mem ha hao) ?_
      rwa [graph_markPending]

/-- Where nothing but what is pending is owed, the walk depends only on which objects are pending.
-/
theorem markPending_congr (h : Owes schema pending) (h' : Owes schema pending')
    (hmem : ∀ a, schema.isObject a = true → (a ∈ pending ↔ a ∈ pending')) :
    schema.markPending pending = schema.markPending pending' := by
  refine eq_of_isListItem_eq ?_ ?_ ?_
  · rw [map_types_markPending blindToMark_withoutListItem,
      map_types_markPending blindToMark_withoutListItem]
  · rw [index_markPending, index_markPending]
  · funext b
    rw [Bool.eq_iff_iff, isListItem_markPending_iff h, isListItem_markPending_iff h']
    refine or_congr_right (exists_congr fun a => ?_)
    constructor
    · rintro ⟨ha, hao, hab⟩
      exact ⟨(hmem a hao).1 ha, hao, hab⟩
    · rintro ⟨ha, hao, hab⟩
      exact ⟨(hmem a hao).2 ha, hao, hab⟩

/-! ### Rounds in any order -/

/-- One round of a walk takes some pending position. A position without an unmarked object is done
with; an unmarked object is marked, and what it leads to is pending from then on. -/
inductive Round : Schema × List TypeId → Schema × List TypeId → Prop
  | pass {schema : Schema} {pending rest : List TypeId} {id : TypeId}
      (taken : pending.Perm (id :: rest)) (marked : ¬ schema.isUnmarked id = true) :
      Round (schema, pending) (schema, rest)
  | mark {schema : Schema} {pending rest : List TypeId} {id : TypeId}
      (taken : pending.Perm (id :: rest)) (unmarked : schema.isUnmarked id = true) :
      Round (schema, pending) (schema.setListItem id, schema.successors id ++ rest)

/-- No walk goes on for ever: a round leaves fewer unmarked objects, or as many and less pending. -/
theorem wellFounded_round : WellFounded fun later now => Round now later := by
  refine Subrelation.wf ?_ (InvImage.wf
    (fun now : Schema × List TypeId => (now.1.unmarkedCount, now.2.length))
    (WellFounded.prod_lex (wellFounded_lt (α := Nat)) (wellFounded_lt (α := Nat))))
  intro later now h
  cases h with
  | pass taken marked =>
    refine Prod.Lex.right _ ?_
    rw [taken.length_eq, List.length_cons]
    exact Nat.lt_succ_self _
  | mark taken unmarked => exact Prod.Lex.left _ _ (unmarkedCount_setListItem_lt unmarked)

/-- Where something is pending there is a round. -/
theorem exists_round_cons (schema : Schema) (id : TypeId) (rest : List TypeId) :
    ∃ later, Round (schema, id :: rest) later := by
  by_cases hid : schema.isUnmarked id = true
  · exact ⟨_, .mark (.refl _) hid⟩
  · exact ⟨_, .pass (.refl _) hid⟩

/-- A round leaves no debt behind but what is pending, and the walk achieves the same before and
after it. -/
theorem Round.markPending_eq {now later : Schema × List TypeId} (h : Round now later)
    (howes : Owes now.1 now.2) :
    Owes later.1 later.2 ∧ later.1.markPending later.2 = now.1.markPending now.2 := by
  cases h with
  | pass taken marked =>
    have htaken := howes.mono taken.subset
    have hsame := markPending_congr howes htaken fun _ _ => taken.mem_iff
    rw [markPending, dif_neg marked] at hsame
    exact ⟨htaken.pass marked, hsame.symm⟩
  | mark taken unmarked =>
    have htaken := howes.mono taken.subset
    have hsame := markPending_congr howes htaken fun _ _ => taken.mem_iff
    rw [markPending, dif_pos unmarked] at hsame
    exact ⟨htaken.setListItem, hsame.symm⟩

/-- Rounds that cannot go on end where nothing is pending, with what the walk achieves. -/
theorem eq_markPending_of_rounds {last : Schema × List TypeId} (howes : Owes schema pending)
    (h : Relation.ReflTransGen Round (schema, pending) last)
    (hlast : ∀ later, ¬ Round last later) : last = (schema.markPending pending, []) := by
  have hsame : Owes last.1 last.2 ∧
      last.1.markPending last.2 = schema.markPending pending := by
    clear hlast
    induction h with
    | refl => exact ⟨howes, rfl⟩
    | tail _ hround ih =>
      obtain ⟨howes', heq⟩ := hround.markPending_eq ih.1
      exact ⟨howes', heq.trans ih.2⟩
  obtain ⟨final, left⟩ := last
  cases left with
  | nil =>
    have heq := hsame.2
    rw [markPending_nil] at heq
    exact Prod.ext heq rfl
  | cons id rest =>
    obtain ⟨later, hlater⟩ := exists_round_cons final id rest
    exact absurd hlater (hlast later)

/-! ### Main result -/

/-- An object that is marked, or a position without an object, is passed over. -/
theorem markListItem_of_not_isUnmarked (h : ¬ schema.isUnmarked id = true) :
    schema.markListItem id = schema := by
  rw [markListItem, markPending, dif_neg h, markPending_nil]

/-- What marking some positions one after the other makes of a schema. -/
structure MarkedFrom (schema : Schema) (marks : List TypeId) (marked : Schema) : Prop where
  /-- An object is a list item when it was one before or can be reached from an object at one of the
  positions. -/
  listItem : ∀ b, marked.isListItem b = true ↔ schema.isListItem b = true ∨
    ∃ a ∈ marks, schema.isObject a = true ∧ Reaches schema.graph a b
  /-- Types are found as before. -/
  index : marked.index = schema.index
  /-- A type differs at most in its mark. -/
  types : ∀ b, marked.get? b =
    (schema.get? b).map (·.mapObject fun o => { o with isListItem := marked.isListItem b })

/-- In a built schema, marking some positions one after the other marks what can be reached from the
objects there, and changes nothing else. Any other sequence of positions with the same objects has
the same result, so that order, repetitions and positions without objects do not count; and to mark
a marked object, or a position without an object, does nothing. However a further walk takes its
pending positions, it ends, and it ends with the schema that marking yields. -/
theorem foldl_markListItem_of_build {document : SchemaDocument} {directives : DirectiveMap}
    (h : build document directives = .ok schema) (marks : List TypeId) :
    MarkedFrom schema marks (marks.foldl markListItem schema) ∧
    (∀ marks' : List TypeId, (∀ a, schema.isObject a = true → (a ∈ marks ↔ a ∈ marks')) →
      marks'.foldl markListItem schema = marks.foldl markListItem schema) ∧
    (∀ a, (marks.foldl markListItem schema).isListItem a = true ∨ schema.isObject a = false →
      (marks.foldl markListItem schema).markListItem a = marks.foldl markListItem schema) ∧
    (WellFounded fun later now => Round now later) ∧
    ∀ id last, Relation.ReflTransGen Round (marks.foldl markListItem schema, [id]) last →
      (∀ later, ¬ Round last later) →
        last = ((marks.foldl markListItem schema).markListItem id, []) := by
  obtain ⟨base, supplies, hbuilt⟩ := exists_builtFrom h
  -- nothing is owed in a built schema, and so nothing either after some walks
  have hclosed : ∀ debt, Owes schema debt := fun debt =>
    hbuilt.marked.closed.mono (List.nil_subset debt)
  have hwalked : Owes (schema.markPending marks) [] := owes_markPending (hclosed _)
  simp only [foldl_markListItem]
  refine ⟨⟨fun b => isListItem_markPending_iff (hclosed marks), index_markPending schema marks,
    get?_eq_of_withoutListItem (map_types_markPending blindToMark_withoutListItem schema marks)⟩,
    ?_, ?_, wellFounded_round, ?_⟩
  · intro marks' hmem
    exact (markPending_congr (hclosed marks) (hclosed marks') hmem).symm
  · intro a ha
    apply markListItem_of_not_isUnmarked
    rw [isUnmarked_iff, isObject_eq_isSome_graph, graph_markPending, ← isObject_eq_isSome_graph]
    rintro ⟨hobject, hunmarked⟩
    rcases ha with ha | ha
    · rw [ha] at hunmarked
      cases hunmarked
    · rw [ha] at hobject
      cases hobject
  · intro id last hrounds hlast
    exact eq_markPending_of_rounds (hwalked.mono (List.nil_subset _)) hrounds hlast

/-- A query root `Q` that leads to two objects `A` and `B`, which lead to each other. -/
def ringDocument : SchemaDocument where
  types := Table.ofList
    [("Q", ⟨"Q", none, [], .object [⟨"a", none, .named "A", [], []⟩]⟩),
      ("A", ⟨"A", none, [], .object [⟨"b", none, .named "B", [], []⟩]⟩),
      ("B", ⟨"B", none, [], .object [⟨"a", none, .nonNull (.named "A"), [], []⟩]⟩)]
  query := some "Q"
  mutation := none
  subscription := none

/-- To mark `B` marks the ring and leaves out the root; to mark `A` before it changes nothing. -/
theorem foldl_markListItem_ringDocument : ∃ schema, build ringDocument Table.empty = .ok schema ∧
    [0, 1, 2].map schema.isListItem = [false, false, false] ∧
    [0, 1, 2].map ([1].foldl markListItem schema).isListItem = [true, true, false] ∧
    MarkedFrom schema [1] ([1].foldl markListItem schema) ∧
    ([1].foldl markListItem schema).markListItem 0 = [1].foldl markListItem schema := by
  have hbefore : (build ringDocument Table.empty).toOption.map
      (fun s => [0, 1, 2].map s.isListItem) = some [false, false, false] := by cbv
  have hafter : (build ringDocument Table.empty).toOption.map
      (fun s => [0, 1, 2].map ([1].foldl markListItem s).isListItem) =
        some [true, true, false] := by cbv
  obtain ⟨schema, hschema, hbefore⟩ := Option.map_eq_some_iff.1 hbefore
  rw [hschema, Option.map_some] at hafter
  have hmarks := Option.some.inj hafter
  have hbuild := Results.toOption_eq_some_iff.1 hschema
  obtain ⟨hmarked, -, hagain, -⟩ := foldl_markListItem_of_build hbuild [1]
  exact ⟨schema, hbuild, hbefore, hmarks, hmarked, hagain 0 (.inl (List.cons.inj hmarks).1)⟩

end Schema

end SignalSchema
