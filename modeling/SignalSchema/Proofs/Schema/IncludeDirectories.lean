import SignalSchema.Proofs.Deploy.Resolution
import SignalSchema.Proofs.Schema.AttributeNames
import SignalSchema.Proofs.Text
import SignalSchema.Sdl.Token

/-!
# Directories of included files

The files of an object lie in one directory below their roots, but it is told in two ways. For the
generic list implementation it is made from the name of the object, for a binding from the name of
the layer entry that declares it. The two agree (`includePath_of_build`): whatever is made of a
slot of the flat map, at any depth, has the name of the slot, and this is the name of the object
followed by a spelling of the field. As long as the field has no underscore in its name, the
spelling is the last segment, which is the one that the path of a binding leaves out
(`includeName_append`).
-/

namespace SignalSchema

open Deploy (Directive DirectiveMap FlatMap)

/-! ### Names -/

namespace Sdl.Token

/-- Whether a text is a GraphQL name. -/
def isName (text : String) : Bool :=
  match text.toList with
  | [] => false
  | c :: rest => isNameStart c && rest.all isNameContinue

/-- The characters of a GraphQL name are letters, digits and underscores. -/
theorem isNameContinue_of_isName {text : String} (h : isName text = true) :
    ∀ c ∈ text.toList, isNameContinue c = true := by
  unfold isName at h
  split at h
  · cases h
  next first rest hchars =>
    obtain ⟨hfirst, hrest⟩ := Bool.and_eq_true_iff.1 h
    rw [hchars, List.forall_mem_cons]
    refine ⟨?_, List.all_eq_true.1 hrest⟩
    rw [isNameStart, Bool.or_eq_true] at hfirst
    rw [isNameContinue, Char.isAlphanum, Bool.or_eq_true, Bool.or_eq_true]
    exact hfirst.imp_left .inl

/-- The characters of a GraphQL name are characters of ASCII. -/
theorem toNat_lt_of_isName {text : String} (h : isName text = true) :
    ∀ c ∈ text.toList, c.toNat < 128 := by
  intro c hc
  have hname := isNameContinue_of_isName h c hc
  rw [isNameContinue, Bool.or_eq_true, beq_iff_eq] at hname
  rcases hname with hname | rfl
  · exact Text.toNat_lt_of_isAlphanum hname
  · decide

/-- A GraphQL name without underscores is made of letters and digits. -/
theorem isAlphanum_of_isName {text : String} (h : isName text = true)
    (hplain : '_' ∉ text.toList) : ∀ c ∈ text.toList, c.isAlphanum = true := by
  intro c hc
  have hname := isNameContinue_of_isName h c hc
  rw [isNameContinue, Bool.or_eq_true, beq_iff_eq] at hname
  exact hname.resolve_right fun heq => hplain (heq ▸ hc)

end Sdl.Token

/-- The spellings of a field of letters and digits are made of letters and digits. -/
theorem isAlphanum_of_mem_nameCandidates {field candidate : String}
    (hfield : ∀ c ∈ field.toList, c.isAlphanum = true) (h : candidate ∈ nameCandidates field) :
    ∀ c ∈ candidate.toList, c.isAlphanum = true := by
  intro c hc
  have hlower := congrArg String.toList (toLower_of_mem_nameCandidates h)
  rw [String.toLower, String.toLower, String.toList_map, String.toList_map] at hlower
  obtain ⟨d, hd, heq⟩ := List.mem_map.1 (hlower ▸ List.mem_map_of_mem hc)
  rw [← Text.isAlphanum_toLower, ← heq, Text.isAlphanum_toLower]
  exact hfield d hd

/-! ### Directories -/

/-- The directory of an object below the roots of its files: its name with small letters and with
slashes for underscores. -/
def objectDirectory (object : String) : String :=
  (object.map Char.toLower).map fun c => if c = '_' then '/' else c

namespace Deploy

/-- The segments of an entry below an object, without the last one, make the directory of the
object. -/
theorem includeName_append {above own : String} (habove : ∀ c ∈ above.toList, c.toNat < 128)
    (hown : ∀ c ∈ own.toList, c.isAlphanum = true) :
    includeName (above ++ "_" ++ own) = objectDirectory above := by
  have hascii : ∀ c ∈ (above ++ "_" ++ own).toList, c.toNat < 128 := by
    simp only [String.toList_append, List.mem_append]
    rintro c ((hc | hc) | hc)
    · exact habove c hc
    · rw [List.mem_singleton.1 hc]
      decide
    · exact Text.toNat_lt_of_isAlphanum (hown c hc)
  have hlast : '_' ∉ own.toList.map Char.toLower := by
    intro hmem
    obtain ⟨c, hc, hlower⟩ := List.mem_map.1 hmem
    have halphanum := (Text.isAlphanum_toLower c).trans (hown c hc)
    rw [hlower] at halphanum
    exact absurd halphanum (by decide)
  have hchars : (Text.lower (above ++ "_" ++ own)).toList =
      above.toList.map Char.toLower ++ '_' :: own.toList.map Char.toLower := by
    rw [Text.lower_of_ascii hascii]
    simp
  have hparts : (Text.lower (above ++ "_" ++ own)).splitOn "_" =
      ((above.toList.map Char.toLower).splitOn '_').map String.ofList ++
        [String.ofList (own.toList.map Char.toLower)] := by
    have hsplit := Text.splitOn_eq (Text.lower (above ++ "_" ++ own)) '_'
    rwa [hchars, List.splitOn_append_cons_self, List.splitOn_eq_singleton hlast,
      List.map_append] at hsplit
  have hjoined : (includeName (above ++ "_" ++ own)).toList = ['/'].intercalate
      ((above.toList.map Char.toLower).splitOn '_') := by
    rw [includeName, hparts, List.dropLast_concat, String.toList_intercalate, List.map_map]
    simp
  rw [← String.toList_inj, hjoined, Text.intercalate_splitOn_eq_map, objectDirectory,
    String.toList_map, String.toList_map]

/-- The directory, named after the kind or the origin, below which the files of a binding lie. -/
def Directive.includeRoot? : Directive → Option String
  | .interface .. => some "franca"
  | .custom _ origin .. => some (Text.lowerFirst origin)
  | _ => none

/-- The path of a binding leads from its root to the directory of the entry that declares it. -/
theorem Directive.exists_includeRoot? {b : Directive} (h : b.isBinding = true) :
    ∃ root, b.includeRoot? = some root ∧ b.includePath = root ++ "/" ++ includeName b.name := by
  cases b with
  | interface name => exact ⟨_, rfl, rfl⟩
  | custom name origin => exact ⟨_, rfl, rfl⟩
  | _ => cases h

end Deploy

namespace Schema

variable {layer : Json} {document : SchemaDocument} {directives : DirectiveMap} {schema : Schema}
  {name : String} {d : Directive} {t : ObjectType} {f : Field}

/-- The directory of an object is the one of its generic list implementation. -/
theorem listInclude_eq (hname : Sdl.Token.isName name = true) :
    listInclude name = "list/" ++ objectDirectory name := by
  rw [listInclude, Text.lower_of_ascii (Sdl.Token.toNat_lt_of_isName hname), objectDirectory]

/-- Completing a reference to an attribute changes no names. -/
theorem name_nameAttribute (field : String) (d : Directive) :
    (nameAttribute field d).name = d.name := by
  unfold nameAttribute
  split <;> rfl

/-- Completing a reference to an attribute changes no names at any depth. -/
theorem name_eq_of_mem_atDepth_nameAttribute {depth : Nat} {b : Directive} (h : d.Nested name)
    (hb : b ∈ (nameAttribute f.name d).atDepth depth) : b.name = name := by
  cases depth with
  | zero =>
    rw [List.mem_singleton.1 hb, name_nameAttribute]
    exact h.name_eq 0 d (List.mem_singleton_self d)
  | succ depth =>
    rw [atDepth_succ_nameAttribute] at hb
    exact h.name_eq (depth + 1) b hb

/-- The deploy of a field and all that it is made of have the name of the object, followed by a
spelling of the field. -/
theorem exists_name_of_deploy
    (hlayer : DirectiveMap.ofFlatMap (FlatMap.ofTree layer) = .ok directives)
    (h : build document directives = .ok schema) (ht : t ∈ schema.objects)
    (hf : f ∈ t.fields.values) (hd : f.deploy = some d) :
    ∃ candidate ∈ nameCandidates f.name, ∀ depth, ∀ b ∈ d.atDepth depth,
      b.name = t.name ++ "_" ++ candidate := by
  obtain ⟨found, hfound, rfl⟩ := exists_found_of_deploy h ht hf hd
  obtain ⟨candidate, hcandidate, hget⟩ := List.exists_of_findSome?_eq_some hfound
  have hnested := (DirectiveMap.resolvedFrom_of_namedBySlot (Deploy.namedBySlot_ofTree layer)
    hlayer).nested _ _ hget
  exact ⟨candidate, hcandidate, fun depth b hb =>
    name_eq_of_mem_atDepth_nameAttribute hnested hb⟩

/-- The two ways to tell the directory of an object agree. Whatever the layer, the bindings at all
depths of the deploy of a field lie below their roots where the generic list implementation of the
object lies below its own, provided that the object and the field have GraphQL names and the field
has no underscore in its name. -/
theorem includePath_of_build
    (hlayer : DirectiveMap.ofFlatMap (FlatMap.ofTree layer) = .ok directives)
    (h : build document directives = .ok schema) (ht : t ∈ schema.objects)
    (hf : f ∈ t.fields.values) (htname : Sdl.Token.isName t.name = true)
    (hfname : Sdl.Token.isName f.name = true) (hplain : '_' ∉ f.name.toList)
    (hd : f.deploy = some d) :
    listInclude t.name = "list/" ++ objectDirectory t.name ∧
      ∀ depth, ∀ b ∈ d.atDepth depth, b.isBinding = true →
        ∃ root, b.includeRoot? = some root ∧
          b.includePath = root ++ "/" ++ objectDirectory t.name := by
  refine ⟨listInclude_eq htname, fun depth b hb hbinding => ?_⟩
  obtain ⟨candidate, hcandidate, hname⟩ := exists_name_of_deploy hlayer h ht hf hd
  obtain ⟨root, hroot, hpath⟩ := Directive.exists_includeRoot? hbinding
  have hown := isAlphanum_of_mem_nameCandidates (Sdl.Token.isAlphanum_of_isName hfname hplain)
    hcandidate
  rw [hname depth b hb, Deploy.includeName_append (Sdl.Token.toNat_lt_of_isName htname) hown]
    at hpath
  exact ⟨root, hroot, hpath⟩

/-- A document with one field, of an object whose name has two segments. -/
def segmentedDocument : SchemaDocument where
  types := Table.ofList
    [("V_C", ⟨"V_C", none, [], .object [⟨"X", none, .named "S", [], []⟩]⟩),
    ("S", ⟨"S", none, [], .scalar⟩)]
  query := some "V_C"
  mutation := none
  subscription := none

/-- A layer in which the field of the document is a list with a choice in it. -/
def segmentedLayer : Json :=
  .object [("V", .object [("C", .array [.object [("X", choiceOf customOption)]])])]

/-- A binding inside of a choice inside of a list lies in the directory of the object. -/
theorem includePath_of_build_segmentedDocument : ∃ directives schema t f d b,
    DirectiveMap.ofFlatMap (FlatMap.ofTree segmentedLayer) = .ok directives ∧
      build segmentedDocument directives = .ok schema ∧ t ∈ schema.objects ∧
      f ∈ t.fields.values ∧ Sdl.Token.isName t.name = true ∧ Sdl.Token.isName f.name = true ∧
      '_' ∉ f.name.toList ∧ f.deploy = some d ∧ b ∈ d.atDepth 2 ∧ b.isBinding = true ∧
      listInclude t.name = "list/v/c" ∧ b.includePath = "o/v/c" := by
  have hview : ((DirectiveMap.ofFlatMap (FlatMap.ofTree segmentedLayer)).toOption.bind
      fun directives => (build segmentedDocument directives).toOption.map fun schema =>
        schema.objects.flatMap fun t => t.fields.values.flatMap fun f =>
          f.deploy.toList.flatMap fun d => (d.atDepth 2).map fun b =>
            (t.name, f.name, b.isBinding, b.includeRoot?)) =
      some [("V_C", "X", true, some "o")] := by cbv
  obtain ⟨directives, hdirectives, hview⟩ := Option.bind_eq_some_iff.1 hview
  obtain ⟨schema, hschema, hview⟩ := Option.map_eq_some_iff.1 hview
  have hlayer := Results.toOption_eq_some_iff.1 hdirectives
  have hbuild := Results.toOption_eq_some_iff.1 hschema
  have hmem := hview ▸ List.mem_singleton_self ("V_C", "X", true, some "o")
  simp only [List.mem_flatMap, List.mem_map, Option.mem_toList, Prod.mk.injEq] at hmem
  obtain ⟨t, ht, f, hf, d, hd, b, hb, hown, hfield, hbinding, horigin⟩ := hmem
  have htname : Sdl.Token.isName t.name = true := by rw [hown]; decide
  have hfname : Sdl.Token.isName f.name = true := by rw [hfield]; decide
  have hplain : '_' ∉ f.name.toList := by rw [hfield]; decide
  obtain ⟨hlist, hbindings⟩ :=
    includePath_of_build hlayer hbuild ht hf htname hfname hplain hd
  obtain ⟨root, hroot, hpath⟩ := hbindings 2 b hb hbinding
  obtain rfl := Option.some.inj (hroot.symm.trans horigin)
  have hdirectory : objectDirectory t.name = "v/c" := by
    rw [hown]
    cbv
  rw [hdirectory] at hlist hpath
  exact ⟨directives, schema, t, f, d, b, hlayer, hbuild, ht, hf, htname, hfname, hplain, hd, hb,
    hbinding, hlist, hpath⟩

end Schema

end SignalSchema
