import SignalSchema.Proofs.Deploy.Resolution
import SignalSchema.Proofs.Signal.Vehicle

/-!
# The deployment of kept signals

A flat map is resolved in two places. The directives of a layer are made of all entries of a slot,
of which those without a directive are left out; a vehicle takes the first entry of a slot and
resolves it on its own, while the tree is filtered. Where a layer has directives, every entry
resolves, so that filtering cannot fail (`exists_run_ofTree`), and what a kept signal is deployed by
is found among the directives of the layer (`deployedBy_of_ofFlatMap`): it is the directive itself
where the slot has a single entry, and the head of the list where the first of several entries has a
directive.
-/

namespace SignalSchema.Vehicle

open Deploy (Directive DirectiveMap Entry FlatMap Slot)

variable {flat : FlatMap} {directives : DirectiveMap} {layer : Option FlatMap}
  {tree node : SignalTree} {v w : Vehicle} {registry registry' : Registry} {name : String}
  {slot : Slot} {entry : Entry}

/-! ### Filtering cannot fail -/

/-- Whatever entry a layer has for a signal, the entry resolves. -/
def Resolvable (layer : Option FlatMap) : Prop :=
  ∀ signal entry, entry? layer signal = some entry → entry.Resolves

/-- The first entry of a slot is one of its entries. -/
theorem mem_entries_of_first? (h : slot.first? = some entry) : entry ∈ slot.entries := by
  cases slot with
  | single previous =>
    obtain rfl := Option.some.inj h
    exact List.mem_singleton_self previous
  | many entries => exact List.mem_of_mem_head? h

/-- Where a layer has directives, every entry resolves. -/
theorem resolvable_of_ofFlatMap (h : DirectiveMap.ofFlatMap flat = .ok directives) :
    Resolvable (some flat) := by
  intro signal entry hentry
  obtain ⟨slot, hslot, hfirst⟩ := Option.bind_eq_some_iff.1 hentry
  have hmem : slot ∈ flat.slots.values :=
    List.mem_map.2 ⟨_, Table.get?_eq_some_iff.1 hslot, rfl⟩
  exact (DirectiveMap.ofFlatMap_eq_ok_iff.1 h).1 slot hmem entry (mem_entries_of_first? hfirst)

/-- A run on a tree succeeds when the entry of its root resolves and the run on its children
succeeds. -/
theorem exists_run_node (h : Resolvable layer) {signal : Signal} {cs : List SignalTree}
    {vs : List Vehicle} (hkept : ((keptChildren layer cs).run
      (registry.registerTree (.node signal cs))).run = (.ok vs, registry')) :
    ∃ v, ((ofTree layer (.node signal cs)).run registry).run = (.ok v, registry') := by
  rw [ofTree]
  dsimp only
  cases hentry : entry? layer signal with
  | none =>
    exact ⟨_, Results.run_bind_eq_ok_iff.2 ⟨none, registry, rfl, Results.run_bind_eq_ok_iff.2
      ⟨(), _, rfl, Results.run_bind_eq_ok_iff.2 ⟨vs, registry', hkept, rfl⟩⟩⟩⟩
  | some entry =>
    obtain ⟨d, hd⟩ := h signal entry hentry
    have hresolve :
        ((Registering.ofExcept entry.resolve).run registry).run = (.ok d, registry) := by
      rw [hd]
      rfl
    exact ⟨_, Results.run_bind_eq_ok_iff.2 ⟨d, registry, hresolve, Results.run_bind_eq_ok_iff.2
      ⟨(), _, rfl, Results.run_bind_eq_ok_iff.2 ⟨vs, registry', hkept, rfl⟩⟩⟩⟩

mutual
/-- Where every entry resolves, a run on a tree yields a vehicle. -/
theorem exists_run_ofTree (h : Resolvable layer) : ∀ (tree : SignalTree) (registry : Registry),
    ∃ v registry', ((ofTree layer tree).run registry).run = (.ok v, registry')
  | .node signal cs, registry => by
    obtain ⟨kept, registry', hkept⟩ :=
      exists_run_keptChildren h cs (registry.registerTree (.node signal cs))
    obtain ⟨v, hv⟩ := exists_run_node h hkept
    exact ⟨v, registry', hv⟩
/-- Where every entry resolves, a run on neighbouring trees yields vehicles. -/
theorem exists_run_keptChildren (h : Resolvable layer) :
    ∀ (cs : List SignalTree) (registry : Registry),
    ∃ vs registry', ((keptChildren layer cs).run registry).run = (.ok vs, registry')
  | [], registry => ⟨[], registry, by rw [keptChildren]; rfl⟩
  | t :: rest, registry => by
    by_cases hdeployed : isDeployed layer t.signal = true
    · obtain ⟨w, middle, hw⟩ := exists_run_ofTree h t registry
      obtain ⟨kept, registry', hkept⟩ := exists_run_keptChildren h rest middle
      rw [keptChildren, if_pos hdeployed]
      exact ⟨_, registry', Results.run_bind_eq_ok_iff.2 ⟨w, middle, hw,
        Results.run_bind_eq_ok_iff.2 ⟨kept, registry', hkept, rfl⟩⟩⟩
    · rw [run_keptChildren_of_not_deployed hdeployed]
      exact exists_run_keptChildren h rest registry
end

/-! ### What a kept signal is deployed by -/

/-- A kept signal has the entry and the directive that a layer has for its name. -/
structure DeployedBy (flat : FlatMap) (directives : DirectiveMap) (name : String)
    (part : VehicleSignal) : Prop where
  /-- The entry is the first one of the slot. -/
  entry : part.entry = (flat.get? name).bind Slot.first?
  /-- Without a slot there is no directive. -/
  absent : flat.get? name = none → part.deploy = none
  /-- A single entry has the directive that the layer has under the name, if any. -/
  single : ∀ entry, flat.get? name = some (.single entry) → part.deploy = directives.get? name
  /-- Of several entries the first one is resolved. -/
  many : ∀ first rest, flat.get? name = some (.many (first :: rest)) →
    first.resolve = .ok part.deploy
  /-- A slot without entries has no directive. -/
  empty : flat.get? name = some (.many []) → part.deploy = none
  /-- What the first of several entries resolves to is the head of the list under the name. -/
  head : ∀ entries d, flat.get? name = some (.many entries) → part.deploy = some d →
    ∃ listName rest, directives.get? name = some (.list listName (d :: rest))

/-- A single entry that was resolved has the directive under its name. -/
theorem eq_get?_of_single (h : DirectiveMap.ofFlatMap flat = .ok directives)
    (hslot : flat.get? name = some (.single entry)) {d? : Option Directive}
    (hd : entry.resolve = .ok d?) : d? = directives.get? name := by
  have hdirective : entry.directive? = d? := (Entry.resolve_eq_ok_iff.1 hd).2
  apply Option.ext
  intro d
  rw [DirectiveMap.get?_eq_some_iff h]
  constructor
  · rintro rfl
    exact ⟨_, hslot, hdirective⟩
  · rintro ⟨slot, hslot', hslotd⟩
    obtain rfl := Option.some.inj (hslot'.symm.trans hslot)
    exact hdirective.symm.trans hslotd

/-- Where the first of several entries has a directive, the list under the name begins with it. -/
theorem exists_get?_eq_list (h : DirectiveMap.ofFlatMap flat = .ok directives)
    {rest : List Entry} (hslot : flat.get? name = some (.many (entry :: rest))) {d : Directive}
    (hd : entry.resolve = .ok (some d)) :
    ∃ listName others, directives.get? name = some (.list listName (d :: others)) := by
  refine ⟨d.name, rest.filterMap Entry.directive?,
    (DirectiveMap.get?_eq_some_iff h).2 ⟨_, hslot, ?_⟩⟩
  rw [Slot.directive?, List.filterMap_cons_some (Entry.directive?_eq_some_iff.2 hd),
    Directive.ofList?]

/-- The part of a vehicle that stands for a node is deployed by what the layer has for it. -/
theorem StandsFor.deployedBy (hstands : StandsFor (some flat) node w)
    (h : DirectiveMap.ofFlatMap flat = .ok directives) :
    DeployedBy flat directives (node.signal.qualifiedName "_") w.top := by
  have hentry : w.top.entry = (flat.get? (node.signal.qualifiedName "_")).bind Slot.first? :=
    hstands.entry_eq
  have hmany : ∀ first rest, flat.get? (node.signal.qualifiedName "_") =
      some (.many (first :: rest)) → first.resolve = .ok w.top.deploy := by
    intro first rest hslot
    exact hstands.resolve_eq first (by rw [hentry, hslot]; rfl)
  refine ⟨hentry, fun hslot => ?_, fun entry hslot => ?_, hmany, fun hslot => ?_, ?_⟩
  · exact hstands.deploy_eq_none (by rw [hentry, hslot]; rfl)
  · exact eq_get?_of_single h hslot (hstands.resolve_eq entry (by rw [hentry, hslot]; rfl))
  · exact hstands.deploy_eq_none (by rw [hentry, hslot]; rfl)
  · intro entries d hslot hd
    cases entries with
    | nil =>
      have hnone := hstands.deploy_eq_none (by rw [hentry, hslot]; rfl)
      cases hnone.symm.trans hd
    | cons first rest => exact exists_get?_eq_list h hslot (hd ▸ hmany first rest hslot)

/-- Where a layer has directives, filtering a tree of signals by it never fails, and every kept
signal is deployed by what the layer has under its name: it has the first entry of the slot, and a
directive which for a single entry is the one under the name, and for several entries is that of the
first of them, with which the list under the name then begins. -/
theorem deployedBy_of_ofFlatMap (h : DirectiveMap.ofFlatMap flat = .ok directives)
    (tree : SignalTree) (registry : Registry) :
    ∃ v registry', ((ofTree (some flat) tree).run registry).run = (.ok v, registry') ∧
      ∀ w ∈ v.walk, DeployedBy flat directives (w.top.signal.qualifiedName "_") w.top := by
  obtain ⟨v, registry', hrun⟩ := exists_run_ofTree (resolvable_of_ofFlatMap h) tree registry
  refine ⟨v, registry', hrun, fun w hw => ?_⟩
  obtain ⟨node, -, hstands⟩ := Results.exists_of_mem_right (forall₂_keptNodes_walk hrun) hw
  rw [hstands.signal_eq]
  exact hstands.deployedBy h

/-- A layer with a constant under `A_B` and two items under `A_C`, of which the first one has a
constant under `D`, and the second one nothing. -/
def itemsLayer : Json :=
  .object [("A", .object [("B", .bool true),
    ("C", .array [.object [("D", .null)], .object [("D", .object [])]])])]

/-- All three leaves but `A.E` are kept; the leaf `A.C.D` has the head of the list under its name.
-/
theorem deployedBy_threeLeaves : ∃ directives v registry',
    DirectiveMap.ofFlatMap (FlatMap.ofTree itemsLayer) = .ok directives ∧
      directives.get? "A_C_D" = some (.list "A_C_D" [.constant "A_C_D" .null]) ∧
      ((ofTree (some (FlatMap.ofTree itemsLayer)) threeLeaves).run Registry.empty).run =
        (.ok v, registry') ∧
      ∀ w ∈ v.walk, DeployedBy (FlatMap.ofTree itemsLayer) directives
        (w.top.signal.qualifiedName "_") w.top := by
  have hentries : (DirectiveMap.ofFlatMap (FlatMap.ofTree itemsLayer)).toOption.map Table.entries =
      some [("A_B", .constant "A_B" (.bool true)),
        ("A_C_D", .list "A_C_D" [.constant "A_C_D" .null])] := by cbv
  obtain ⟨directives, hdirectives, hentries⟩ := Option.map_eq_some_iff.1 hentries
  have hok := Results.toOption_eq_some_iff.1 hdirectives
  obtain ⟨v, registry', hrun, hwalk⟩ := deployedBy_of_ofFlatMap hok threeLeaves Registry.empty
  refine ⟨directives, v, registry', hok, ?_, hrun, hwalk⟩
  rw [Table.get?_eq_some_iff, hentries]
  simp

end SignalSchema.Vehicle
