import SignalSchema.Proofs.Schema.Includes
import SignalSchema.Proofs.Schema.Lookups
import SignalSchema.Proofs.Schema.Spellings

/-!
# Names of parent attributes

A reference to an attribute of the parent may leave the attribute unnamed. Where such a reference
is the deploy of a field of an object, building the schema names it by the first spelling of the
field. Building looks no further than the deploy itself: below it everything stays as it was found
in the layer, so that every reference in the deploy has a name exactly when no reference below the
directive that was found lacks one (`attributes_of_build`).
-/

namespace SignalSchema

open Deploy (Directive DirectiveMap FlatMap)

namespace Deploy.Directive

/-- Whether the directive is a reference to an attribute of the parent that names none. -/
def lacksAttribute : Directive → Bool
  | parentAttribute _ none => true
  | _ => false

/-- Without a name there are only references to an attribute of the parent. -/
theorem lacksAttribute_eq_true_iff {d : Directive} :
    d.lacksAttribute = true ↔ ∃ entry, d = .parentAttribute entry none := by
  constructor
  · intro h
    unfold lacksAttribute at h
    split at h
    · exact ⟨_, rfl⟩
    · cases h
  · rintro ⟨entry, rfl⟩
    rfl

end Deploy.Directive

namespace Schema

variable {document : SchemaDocument} {directives : DirectiveMap} {schema : Schema}
  {d : Directive} {field : String} {t : ObjectType} {f : Field}

/-- The deploys of the fields of objects. -/
def deploys (schema : Schema) : List Directive :=
  schema.objects.flatMap fun t => t.fields.values.filterMap (·.deploy)

/-- A deploy of the schema is the deploy of a field. -/
theorem mem_deploys_iff : d ∈ schema.deploys ↔
    ∃ t ∈ schema.objects, ∃ f ∈ t.fields.values, f.deploy = some d := by
  simp only [deploys, List.mem_flatMap, List.mem_filterMap]

/-! ### Naming an attribute -/

/-- A reference without a name gets the first spelling of the field. -/
theorem nameAttribute_of_lacksAttribute (field : String) (h : d.lacksAttribute = true) :
    ∃ first rest, nameCandidates field = first :: rest ∧
      nameAttribute field d = .parentAttribute d.name (some first) := by
  obtain ⟨entry, rfl⟩ := Directive.lacksAttribute_eq_true_iff.1 h
  obtain ⟨first, rest, hcandidates, -⟩ := exists_nameCandidates_eq_cons field
  refine ⟨first, rest, hcandidates, ?_⟩
  rw [nameAttribute, hcandidates]
  rfl

/-- Any other directive is left as it is. -/
theorem nameAttribute_of_not_lacksAttribute (field : String) (h : d.lacksAttribute = false) :
    nameAttribute field d = d := by
  refine nameAttribute_of_ne fun entry hd => ?_
  rw [hd] at h
  cases h

/-- A directive that went through the naming does not lack a name. -/
theorem lacksAttribute_nameAttribute (field : String) (d : Directive) :
    (nameAttribute field d).lacksAttribute = false := by
  cases h : d.lacksAttribute with
  | true =>
    obtain ⟨first, rest, -, hnamed⟩ := nameAttribute_of_lacksAttribute field h
    rw [hnamed]
    rfl
  | false => rw [nameAttribute_of_not_lacksAttribute field h, h]

/-- Naming an attribute changes nothing below the directive. -/
theorem atDepth_succ_nameAttribute (field : String) (d : Directive) (depth : Nat) :
    (nameAttribute field d).atDepth (depth + 1) = d.atDepth (depth + 1) := by
  rw [Directive.atDepth, Directive.atDepth, entries?_nameAttribute]

/-! ### Built schemas -/

/-- Which references to attributes of the parent have names in a built schema. The deploy of a
field is what is found for the field below the name of its object. If that is a reference without
a name, it gets the first spelling of the field; otherwise nothing is changed. The deploy itself
therefore never lacks a name. Below it, everything is as it was found, and all references in the
deploy have names exactly when all those below what was found do. -/
theorem attributes_of_build (h : build document directives = .ok schema)
    (ht : t ∈ schema.objects) (hf : f ∈ t.fields.values) (hd : f.deploy = some d) :
    ∃ found, Finds directives t.name f.name (some found) ∧
      (found.lacksAttribute = true → ∃ first rest, nameCandidates f.name = first :: rest ∧
        d = .parentAttribute found.name (some first)) ∧
      (found.lacksAttribute = false → d = found) ∧
      d.lacksAttribute = false ∧
      (∀ depth, d.atDepth (depth + 1) = found.atDepth (depth + 1)) ∧
      ((∀ depth, ∀ b ∈ d.atDepth depth, b.lacksAttribute = false) ↔
        ∀ depth, ∀ b ∈ found.atDepth (depth + 1), b.lacksAttribute = false) := by
  obtain ⟨found, hfound, rfl⟩ := exists_found_of_deploy h ht hf hd
  have hown := lacksAttribute_nameAttribute f.name found
  have hbelow := atDepth_succ_nameAttribute f.name found
  refine ⟨found, hfound ▸ finds_findDirective? directives t.name f.name,
    nameAttribute_of_lacksAttribute f.name,
    nameAttribute_of_not_lacksAttribute f.name, hown, hbelow, ?_⟩
  constructor
  · intro hall depth
    rw [← hbelow]
    exact hall (depth + 1)
  · intro hall depth b hb
    cases depth with
    | zero => rwa [List.mem_singleton.1 hb]
    | succ depth => exact hall depth b (hbelow depth ▸ hb)

/-! ### Unnamed references in a layer -/

/-- A payload that refers to an attribute of the parent and names none. -/
def unnamedOption : Json :=
  .object [(Deploy.Key.parentAttribute, .null)]

/-- The reference of a field gets the spelling of the field. -/
theorem attributes_of_build_unnamed : ∃ directives schema t f d,
    DirectiveMap.ofFlatMap (FlatMap.ofTree (choiceLayer unnamedOption)) = .ok directives ∧
      build choiceDocument directives = .ok schema ∧ t ∈ schema.objects ∧
      f ∈ t.fields.values ∧ f.deploy = some d ∧ d = .parentAttribute "Q_X" (some "X") ∧
      d.lacksAttribute = false := by
  have hview : ((DirectiveMap.ofFlatMap
      (FlatMap.ofTree (choiceLayer unnamedOption))).toOption.bind fun directives =>
        (build choiceDocument directives).toOption.map fun schema => schema.deploys) =
      some [.parentAttribute "Q_X" (some "X")] := by cbv
  obtain ⟨directives, schema, hdirectives, hbuild, hview⟩ := exists_build_choice hview
  have hmem : Directive.parentAttribute "Q_X" (some "X") ∈ schema.deploys := by
    rw [hview]
    exact List.mem_singleton_self _
  obtain ⟨t, ht, f, hf, hd⟩ := mem_deploys_iff.1 hmem
  obtain ⟨found, -, -, -, hnamed, -⟩ := attributes_of_build hbuild ht hf hd
  exact ⟨directives, schema, t, f, _, hdirectives, hbuild, ht, hf, hd, rfl, hnamed⟩

/-- The reference of an option of a choice stays without a name. -/
theorem exists_option_without_attribute : ∃ directives schema t f d b,
    DirectiveMap.ofFlatMap (FlatMap.ofTree (choiceLayer (choiceOf unnamedOption))) =
        .ok directives ∧
      build choiceDocument directives = .ok schema ∧ t ∈ schema.objects ∧
      f ∈ t.fields.values ∧ f.deploy = some d ∧ b ∈ d.atDepth 1 ∧
      b = .parentAttribute "Q_X" none := by
  have hview : ((DirectiveMap.ofFlatMap
      (FlatMap.ofTree (choiceLayer (choiceOf unnamedOption)))).toOption.bind fun directives =>
        (build choiceDocument directives).toOption.map fun schema => schema.deploys) =
      some [.dispatcher "Q_X" "s" [.parentAttribute "Q_X" none]] := by cbv
  obtain ⟨directives, schema, hdirectives, hbuild, hview⟩ := exists_build_choice hview
  have hmem : Directive.dispatcher "Q_X" "s" [.parentAttribute "Q_X" none] ∈ schema.deploys := by
    rw [hview]
    exact List.mem_singleton_self _
  obtain ⟨t, ht, f, hf, hd⟩ := mem_deploys_iff.1 hmem
  refine ⟨directives, schema, t, f, _, _, hdirectives, hbuild, ht, hf, hd, ?_, rfl⟩
  rw [Directive.atDepth_one]
  exact List.mem_singleton_self _

end Schema

end SignalSchema
