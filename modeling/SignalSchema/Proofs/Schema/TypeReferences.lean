import Mathlib
import SignalSchema.Proofs.Schema.Completed
import SignalSchema.Schema.Printer
import SignalSchema.Sdl.Syntax

/-!
# Type references

A reference to a type has three forms: the one of the syntax, where a name or a list may be
required, the expression of a document, where the mark of what is required is a wrapper of its own,
and the reference of a schema, which leads to a position. Lowering is a bijection between the
references of the syntax and the expressions without a doubled mark (`bijOn_lower`). Resolving keeps
all wrappers, so that the reference is written as the expression was (`CompletedFrom.renders`). The
main statement puts both together for the fields, the input fields and the arguments of built
schemas.
-/

namespace SignalSchema

namespace TypeExpr

/-- An expression occurs in another one, behind any number of wrappers. -/
inductive Occurs (e : TypeExpr) : TypeExpr → Prop
  | self : Occurs e e
  | nonNull {inner : TypeExpr} (h : Occurs e inner) : Occurs e (.nonNull inner)
  | list {inner : TypeExpr} (h : Occurs e inner) : Occurs e (.list inner)

variable {e inner : TypeExpr} {n : String}

/-- Nothing but the name itself occurs in a name. -/
theorem occurs_named_iff : Occurs e (.named n) ↔ e = .named n := by
  constructor
  · intro h
    cases h
    rfl
  · rintro rfl
    exact .self

/-- What occurs in a marked expression is the whole of it or occurs below the mark. -/
theorem occurs_nonNull_iff : Occurs e (.nonNull inner) ↔ e = .nonNull inner ∨ Occurs e inner := by
  constructor
  · intro h
    cases h with
    | self => exact .inl rfl
    | nonNull h => exact .inr h
  · rintro (rfl | h)
    · exact .self
    · exact .nonNull h

/-- What occurs in a list is the whole of it or occurs in its items. -/
theorem occurs_list_iff : Occurs e (.list inner) ↔ e = .list inner ∨ Occurs e inner := by
  constructor
  · intro h
    cases h with
    | self => exact .inl rfl
    | list h => exact .inr h
  · rintro (rfl | h)
    · exact .self
    · exact .list h

/-- The only name that occurs in an expression is the innermost one. -/
theorem named_occurs_iff : Occurs (.named n) e ↔ e.name = n := by
  induction e with
  | named m => rw [occurs_named_iff, named.injEq, name, eq_comm]
  | nonNull inner ih => rw [occurs_nonNull_iff, or_iff_right (by simp), ih, name]
  | list inner ih => rw [occurs_list_iff, or_iff_right (by simp), ih, name]

/-- An expression is a list at some depth exactly when a list wrapper occurs in it. -/
theorem isList_eq_true_iff : e.isList = true ↔ ∃ item, Occurs (.list item) e := by
  induction e with
  | named m => simp [isList, occurs_named_iff]
  | nonNull inner ih => simp [isList, occurs_nonNull_iff, ih]
  | list inner ih => exact ⟨fun _ => ⟨inner, .self⟩, fun _ => rfl⟩

/-- An expression in which no mark stands directly inside another one. -/
def MarksOnce (e : TypeExpr) : Prop :=
  ∀ inner, ¬ Occurs (.nonNull (.nonNull inner)) e

/-- A name has no marks. -/
theorem marksOnce_named (n : String) : MarksOnce (.named n) := by
  intro inner h
  cases occurs_named_iff.1 h

/-- A list has the marks of its items. -/
theorem marksOnce_list_iff : MarksOnce (.list inner) ↔ MarksOnce inner := by
  simp [MarksOnce, occurs_list_iff]

/-- What is marked has no mark at its outside, and is itself marked at most once. -/
theorem marksOnce_nonNull_iff :
    MarksOnce (.nonNull inner) ↔ (∀ e, inner ≠ .nonNull e) ∧ MarksOnce inner := by
  constructor
  · intro h
    refine ⟨?_, fun e he => h e (.nonNull he)⟩
    rintro e rfl
    exact h e .self
  · rintro ⟨hne, h⟩ e he
    rcases occurs_nonNull_iff.1 he with heq | he
    · exact hne e (nonNull.inj heq).symm
    · exact h e he

end TypeExpr

/-! ### Lowering -/

namespace Sdl.TypeReference

open TypeExpr (MarksOnce)

variable {r : TypeReference} {e : TypeExpr}

/-- Lowering keeps the innermost name. -/
theorem name_lower (r : TypeReference) : r.lower.name = r.name := by
  induction r with
  | named n required => cases required <;> rfl
  | list item required ih => cases required <;> exact ih

/-- A lowered reference has no doubled mark. -/
theorem marksOnce_lower (r : TypeReference) : MarksOnce r.lower := by
  induction r with
  | named n required =>
    cases required with
    | false => exact TypeExpr.marksOnce_named n
    | true => exact TypeExpr.marksOnce_nonNull_iff.2 ⟨by simp, TypeExpr.marksOnce_named n⟩
  | list item required ih =>
    have hlist := TypeExpr.marksOnce_list_iff.2 ih
    cases required with
    | false => exact hlist
    | true => exact TypeExpr.marksOnce_nonNull_iff.2 ⟨by simp, hlist⟩

/-- Different references are lowered to different expressions. -/
theorem lower_injective : Function.Injective lower := by
  intro r
  induction r with
  | named n required =>
    rintro (⟨m, required'⟩ | ⟨item, required'⟩) h <;> cases required <;> cases required' <;>
      simp_all [lower]
  | list item required ih =>
    rintro (⟨m, required'⟩ | ⟨item', required'⟩) h <;> cases required <;> cases required' <;>
      simp [lower] at h <;> rw [ih h]

/-- What is lowered to a list is a list that is not required. -/
theorem exists_of_lower_eq_list (h : r.lower = .list e) :
    ∃ item, r = .list item false ∧ item.lower = e := by
  rcases r with ⟨n, required⟩ | ⟨item, required⟩ <;> cases required <;> simp [lower] at h
  exact ⟨item, rfl, h⟩

/-- Every expression without a doubled mark is a lowered reference. -/
theorem exists_lower_eq (h : MarksOnce e) : ∃ r : TypeReference, r.lower = e := by
  induction e with
  | named n => exact ⟨.named n false, rfl⟩
  | list inner ih =>
    obtain ⟨item, rfl⟩ := ih (TypeExpr.marksOnce_list_iff.1 h)
    exact ⟨.list item false, rfl⟩
  | nonNull inner ih =>
    obtain ⟨hne, hinner⟩ := TypeExpr.marksOnce_nonNull_iff.1 h
    cases inner with
    | named n => exact ⟨.named n true, rfl⟩
    | nonNull e => exact absurd rfl (hne e)
    | list e =>
      obtain ⟨r, hr⟩ := ih hinner
      obtain ⟨item, -, rfl⟩ := exists_of_lower_eq_list hr
      exact ⟨.list item true, rfl⟩

/-- The references of the syntax are the expressions without a doubled mark. -/
theorem bijOn_lower : Set.BijOn lower Set.univ {e | MarksOnce e} := by
  refine ⟨fun r _ => marksOnce_lower r, lower_injective.injOn, ?_⟩
  intro e he
  obtain ⟨r, hr⟩ := exists_lower_eq he
  exact ⟨r, Set.mem_univ r, hr⟩

end Sdl.TypeReference

/-! ### Resolving -/

namespace Schema

open Deploy (DirectiveMap)

variable {document : SchemaDocument} {directives : DirectiveMap} {base schema : Schema}

/-- A reference of a schema is what an expression stands for. -/
structure Renders (schema : Schema) (expr : TypeExpr) (ref : TypeRef) (target : TypeId)
    (isList : Bool) : Prop where
  /-- It is written as the expression. -/
  text : schema.renderType ref = expr.text
  /-- Behind its wrappers is the target. -/
  unwrapped : ref.target = target
  /-- The name that is registered for the target is the innermost one. -/
  innermost : ∀ name, TypeExpr.Occurs (.named name) expr ↔ schema.lookup? name = some target
  /-- Whether it counts as a list is decided by the wrappers at every depth. -/
  isList : isList = true ↔ ∃ item, TypeExpr.Occurs (.list item) expr

/-- An input field, or an argument, has the name and the type of its definition. -/
structure RendersInput (schema : Schema) (definition : InputValueDef) (field : InputField) :
    Prop where
  name : field.name = definition.name
  type : Renders schema definition.type field.type field.target field.isList

/-- A field of an object has the name and the type of its definition, and so have its arguments,
which are entered in the order of their names. -/
structure RendersField (schema : Schema) (definition : FieldDef) (field : Field) : Prop where
  name : field.name = definition.name
  type : Renders schema definition.type field.type field.target field.isList
  arguments : ∃ arguments, List.Forall₂ (RendersInput schema)
      (definition.arguments.mergeSort fun a b => a.name ≤ b.name) arguments ∧
    field.arguments = Table.ofList (arguments.map fun a => (a.name, a))

namespace CompletedFrom

variable (h : CompletedFrom document directives base schema) (hkeyed : document.KeyedByName)

include h hkeyed

/-- A resolved reference is written as its expression. -/
theorem renderType_eq {parent : String} {expr : TypeExpr} {ref : TypeRef}
    (hresolve : resolveType base parent expr = .ok ref) : schema.renderType ref = expr.text := by
  induction expr generalizing ref with
  | named n =>
    rw [resolveType] at hresolve
    split at hresolve
    next id hid =>
      obtain rfl := Except.ok.inj hresolve
      rw [← h.lookup?_eq, h.lookup?_eq_some_iff hkeyed, nameAt?] at hid
      rw [renderType, hid, Option.getD_some, TypeExpr.text]
    next => cases hresolve
  | nonNull inner ih =>
    obtain ⟨r, hr, rfl⟩ := Results.map_eq_ok_iff.1 hresolve
    rw [renderType, ih hr, TypeExpr.text]
  | list inner ih =>
    obtain ⟨r, hr, rfl⟩ := Results.map_eq_ok_iff.1 hresolve
    rw [renderType, ih hr, TypeExpr.text]

/-- A resolved reference is what its expression stands for. -/
theorem renders {parent : String} {expr : TypeExpr} {ref : TypeRef}
    (hresolve : resolveType base parent expr = .ok ref) :
    Renders schema expr ref ref.target expr.isList where
  text := h.renderType_eq hkeyed hresolve
  unwrapped := rfl
  innermost name := by
    have htarget : schema.nameAt? ref.target = some expr.name := by
      rw [← h.lookup?_eq_some_iff hkeyed, h.lookup?_eq]
      exact lookup?_of_resolveType hresolve
    rw [TypeExpr.named_occurs_iff, h.lookup?_eq_some_iff hkeyed, htarget, Option.some.injEq]
  isList := TypeExpr.isList_eq_true_iff

/-- A resolved input field has the type of its definition. -/
theorem rendersInput {parent : String} {d : InputValueDef} {f : InputField}
    (hd : ResolvedInput base parent d f) : RendersInput schema d f where
  name := hd.name
  type := by
    rw [hd.target, hd.isList]
    exact h.renders hkeyed hd.type

/-- A resolved field has the type of its definition. -/
theorem rendersField {parent : String} {d : FieldDef} {f : Field}
    (hd : ResolvedField base parent d f) : RendersField schema d f where
  name := hd.name
  type := by
    rw [hd.target, hd.isList]
    exact h.renders hkeyed hd.type
  arguments := by
    obtain ⟨arguments, hresolved, htable⟩ := hd.arguments
    exact ⟨arguments, hresolved.imp fun _ _ => h.rendersInput hkeyed, htable⟩

end CompletedFrom

/-- Lowering is a bijection between the references of the syntax and the expressions without a
doubled mark, and keeps the name. Where definitions stand under their own names, the fields, the
arguments and the input fields of a built schema refer to what the expressions of their definitions
stand for: they are written in the same way, lead to the position of the innermost name, and are
lists exactly where a list wrapper occurs. -/
theorem bijOn_lower_and_renders_of_build (hkeyed : document.KeyedByName)
    (h : build document directives = .ok schema) :
    Set.BijOn Sdl.TypeReference.lower Set.univ
        {e | ∀ inner, ¬ TypeExpr.Occurs (.nonNull (.nonNull inner)) e} ∧
      (∀ r : Sdl.TypeReference, r.lower.name = r.name) ∧
      List.Forall₂ (fun declared o => o.name = declared.1 ∧
        Enters Field.name (RendersField schema) declared.2 o.fields)
        document.objects schema.objects ∧
      List.Forall₂ (fun declared i => i.name = declared.1 ∧
        Enters InputField.name (RendersInput schema) declared.2 i.fields)
        document.inputs schema.inputs := by
  obtain ⟨base, hcompleted⟩ := exists_completedFrom hkeyed h
  refine ⟨Sdl.TypeReference.bijOn_lower, Sdl.TypeReference.name_lower, ?_, ?_⟩
  · exact hcompleted.forall₂_objects.imp fun declared o hmade => ⟨hmade.name,
      hmade.fields.imp fun _ _ hd => hcompleted.rendersField hkeyed (objectField_eq_ok hd)⟩
  · exact hcompleted.forall₂_inputs.imp fun declared i hmade => ⟨hmade.name,
      hmade.fields.imp fun _ _ hd => hcompleted.rendersInput hkeyed (inputField_eq_ok hd)⟩

/-- An object with a list of required lists of itself, which takes a list of input types that
contain themselves. -/
def gridDocument : SchemaDocument where
  types := Table.ofList
    [("Q", ⟨"Q", none, [], .object [⟨"grid", none, .nonNull (.list (.nonNull (.list (.named "Q")))),
        [⟨"by", none, .list (.nonNull (.named "I")), []⟩], []⟩]⟩),
      ("I", ⟨"I", none, [], .input [⟨"next", none, .named "I", []⟩]⟩)]
  query := some "Q"
  mutation := none
  subscription := none

/-- The references of the document are written in its schema as in the document. -/
theorem renders_gridDocument : gridDocument.KeyedByName ∧
    ∃ schema, build gridDocument Table.empty = .ok schema ∧
      (schema.objects.flatMap fun o => o.fields.values.map fun f => schema.renderType f.type) =
        ["[[Q]!]!"] ∧
      List.Forall₂ (fun declared o => o.name = declared.1 ∧
        Enters Field.name (RendersField schema) declared.2 o.fields)
        gridDocument.objects schema.objects := by
  have hkeyed : gridDocument.KeyedByName := by
    unfold SchemaDocument.KeyedByName
    decide
  have hview : (build gridDocument Table.empty).toOption.map (fun s =>
      s.objects.flatMap fun o => o.fields.values.map fun f => s.renderType f.type) =
        some ["[[Q]!]!"] := by cbv
  obtain ⟨schema, hbuild, hview⟩ := Option.map_eq_some_iff.1 hview
  have hbuild := Results.toOption_eq_some_iff.1 hbuild
  exact ⟨hkeyed, schema, hbuild, hview, (bijOn_lower_and_renders_of_build hkeyed hbuild).2.2.1⟩

end Schema

end SignalSchema
