import SignalSchema.Proofs.Permission.Numbering
import SignalSchema.Proofs.Results
import SignalSchema.Proofs.Signal.Ways

/-!
# The kept part of a signal tree

A vehicle is made on one way down the tree and back: a child is visited when it is deployed, and
dropped afterwards when it lost everything below it. `keeps_of_run_ofTree` compares the result with
the nodes that lie on covered ways from the root to a leaf. The ways through the vehicle are the
ways to the kept nodes, one for one and in the same order (`forall₂_ways_of_run`). A leaf that is
visited is on a covered way itself, so that nothing is registered for what is dropped later
(`registry_of_run`).
-/

namespace SignalSchema.Vehicle

open SignalTree (Way Leads keptWays keptNodes)
open Deploy (FlatMap Directive)

variable {flat : Option FlatMap} {tree t : SignalTree} {cs rest : List SignalTree}
  {v : Vehicle} {vs : List Vehicle} {registry registry' : Registry} {n : Nat}

/-! ### Ways through vehicles -/

mutual
/-- The ways to all parts of a vehicle, in the order of the walk: the parts below the root that one
has to go through, and the part itself. -/
def ways : Vehicle → List (List Vehicle)
  | node _ cs => [] :: waysBelow cs
/-- The ways to all parts of neighbouring vehicles. -/
def waysBelow : List Vehicle → List (List Vehicle)
  | [] => []
  | v :: rest => v.ways.map (v :: ·) ++ waysBelow rest
end

/-- The part at the end of a way. -/
def target (v : Vehicle) : List Vehicle → Vehicle
  | [] => v
  | w :: rest => w.target rest

theorem ways_eq (v : Vehicle) : v.ways = [] :: waysBelow v.children := by
  cases v
  rw [ways, children]

mutual
/-- The ways end at the parts of the walk, in the same order. -/
theorem map_target_ways : ∀ v : Vehicle, v.ways.map v.target = v.walk
  | node top cs => by
    rw [ways, walk, List.map_cons, target, map_target_waysBelow]
theorem map_target_waysBelow (v : Vehicle) :
    ∀ vs : List Vehicle, (waysBelow vs).map v.target = walkAll vs
  | [] => rfl
  | w :: rest => by
    rw [waysBelow, walkAll, List.map_append, List.map_map, map_target_waysBelow v rest,
      ← map_target_ways w]
    rfl
end

/-- Neighbouring vehicles without any way are none. -/
theorem waysBelow_eq_nil_iff : waysBelow vs = [] ↔ vs = [] := by
  cases vs with
  | nil => simp [waysBelow]
  | cons w rest => simp [waysBelow, ways_eq]

/-! ### Runs -/

/-- A part of a vehicle stands for a node of the signal tree when it was made of it. -/
structure StandsFor (flat : Option FlatMap) (tree : SignalTree) (v : Vehicle) : Prop where
  signal_eq : v.top.signal = tree.signal
  entry_eq : v.top.entry = entry? flat tree.signal
  /-- The directive is that of the entry. -/
  resolve_eq : ∀ entry, v.top.entry = some entry → entry.resolve = .ok v.top.deploy
  /-- Without an entry there is no directive. -/
  deploy_eq_none : v.top.entry = none → v.top.deploy = none
  directives_eq : v.top.directives = SignalDirectives.ofTree tree

/-- A run on a tree registers the root and goes on to the children. -/
theorem run_ofTree_eq_ok (h : ((ofTree flat tree).run registry).run = (.ok v, registry')) :
    StandsFor flat tree v ∧
      ((keptChildren flat tree.children).run (registry.registerTree tree)).run =
        (.ok v.children, registry') := by
  obtain ⟨signal, cs⟩ := tree
  rw [ofTree] at h
  dsimp only at h
  cases hentry : entry? flat signal with
  | none =>
    rw [hentry] at h
    obtain ⟨deploy, middle, hdeploy, hrest⟩ := Results.run_bind_eq_ok_iff.1 h
    obtain ⟨u, registered, hmodify, hrest⟩ := Results.run_bind_eq_ok_iff.1 hrest
    obtain ⟨kept, last, hkept, hnode⟩ := Results.run_bind_eq_ok_iff.1 hrest
    cases hdeploy
    cases hmodify
    obtain ⟨rfl, rfl⟩ := Results.run_pure_eq_ok_iff.1 hnode
    exact ⟨⟨rfl, hentry.symm, nofun, fun _ => rfl, rfl⟩, hkept⟩
  | some entry =>
    rw [hentry] at h
    obtain ⟨deploy, middle, hdeploy, hrest⟩ := Results.run_bind_eq_ok_iff.1 h
    obtain ⟨u, registered, hmodify, hrest⟩ := Results.run_bind_eq_ok_iff.1 hrest
    obtain ⟨kept, last, hkept, hnode⟩ := Results.run_bind_eq_ok_iff.1 hrest
    cases hresolve : entry.resolve with
    | error e =>
      rw [hresolve] at hdeploy
      cases hdeploy
    | ok d =>
      rw [hresolve] at hdeploy
      cases hdeploy
      cases hmodify
      obtain ⟨rfl, rfl⟩ := Results.run_pure_eq_ok_iff.1 hnode
      refine ⟨⟨rfl, hentry.symm, ?_, nofun, rfl⟩, hkept⟩
      rintro _ ⟨⟩
      exact hresolve

/-- A child that is not deployed is passed over. -/
theorem run_keptChildren_of_not_deployed (hdeployed : isDeployed flat t.signal ≠ true) :
    keptChildren flat (t :: rest) = keptChildren flat rest := by
  rw [keptChildren, if_neg hdeployed]

/-- A child that is deployed is visited before its siblings, and stays when it is a leaf before and
after or neither. -/
theorem run_keptChildren_of_deployed (hdeployed : isDeployed flat t.signal = true)
    (h : ((keptChildren flat (t :: rest)).run registry).run = (.ok vs, registry')) :
    ∃ w middle kept, ((ofTree flat t).run registry).run = (.ok w, middle) ∧
      ((keptChildren flat rest).run middle).run = (.ok kept, registry') ∧
      vs = if t.isLeaf == w.isLeaf then w :: kept else kept := by
  rw [keptChildren, if_pos hdeployed] at h
  obtain ⟨w, middle, hw, h⟩ := Results.run_bind_eq_ok_iff.1 h
  obtain ⟨kept, last, hkept, h⟩ := Results.run_bind_eq_ok_iff.1 h
  obtain ⟨rfl, rfl⟩ := Results.run_pure_eq_ok_iff.1 h
  exact ⟨w, middle, kept, hw, hkept, rfl⟩

/-! ### What a run keeps and registers -/

/-- The permission to read a signal ends in the name of the operation. -/
theorem permission_readOperation (signal : Signal) :
    signal.permission readOperation = signal.qualifiedName "." ++ "_READ" := by
  rw [Signal.permission, String.append_assoc]
  rfl

/-- The permissions to read the leaves among some nodes. -/
def readPermissions (nodes : List SignalTree) : List String :=
  (nodes.filter SignalTree.isLeaf).map fun leaf => leaf.signal.permission readOperation

theorem readPermissions_append (first rest : List SignalTree) :
    readPermissions (first ++ rest) = readPermissions first ++ readPermissions rest := by
  rw [readPermissions, List.filter_append, List.map_append]
  rfl

/-- The permissions of a first node and of others are registered one after the other. -/
theorem registerAll_readPermissions_cons (registry : Registry) (tree : SignalTree)
    (nodes : List SignalTree) : registry.registerAll (readPermissions (tree :: nodes)) =
      (registry.registerTree tree).registerAll (readPermissions nodes) := by
  rw [Registry.registerTree, readPermissions, List.filter_cons]
  split
  · rfl
  · rfl

/-- The ways through a vehicle are ways through the signal tree: each part stands for the node in
its place, and is a leaf exactly when the node is one. -/
def Keeps (flat : Option FlatMap) (ways : List Way) (ways' : List (List Vehicle)) : Prop :=
  List.Forall₂ (List.Forall₂ fun e w => StandsFor flat e.2 w ∧ w.isLeaf = e.2.isLeaf) ways ways'

/-- Ways keep being ways when all of them are led through the same node first. -/
theorem Keeps.map_cons {ways : List Way} {ways' : List (List Vehicle)} {w : Vehicle}
    (h : Keeps flat ways ways') (hw : StandsFor flat t w) (hleaf : w.isLeaf = t.isLeaf) :
    Keeps flat (ways.map ((n, t) :: ·)) (ways'.map (w :: ·)) := by
  rw [Keeps, List.forall₂_map_left_iff, List.forall₂_map_right_iff]
  exact h.imp fun _ _ hway => .cons ⟨hw, hleaf⟩ hway

/-- A tree without children comes out without children. A tree with children does so exactly when
no way through it leads to a leaf. -/
theorem isLeaf_eq_iff_leads (h : Keeps flat (keptWays flat t) v.ways) :
    (t.isLeaf == v.isLeaf) = true ↔ Leads flat t [] := by
  classical
  rw [SignalTree.keptWays_eq, ways_eq, Keeps, List.forall₂_cons] at h
  have hnil : v.isLeaf = true ↔ ∀ way ∈ SignalTree.waysBelow 0 t.children, ¬ Leads flat t way := by
    have hlength := h.2.length_eq
    rw [isLeaf, List.isEmpty_iff, ← waysBelow_eq_nil_iff, ← List.length_eq_zero_iff, ← hlength,
      List.length_eq_zero_iff, List.filter_eq_nil_iff]
    simp
  rw [SignalTree.leads_nil_iff]
  cases ht : t.isLeaf with
  | true =>
    have hchildren : t.children = [] := List.isEmpty_iff.1 ht
    have hv : v.isLeaf = true := by
      rw [hnil, hchildren]
      simp [SignalTree.waysBelow]
    simp [hv]
  | false =>
    cases hv : v.isLeaf with
    | true => simpa using hnil.1 hv
    | false =>
      have hsome := mt hnil.2 (by rw [hv]; simp)
      push Not at hsome
      simpa using hsome

/-- Where no way leads to a leaf, there are no permissions. -/
theorem readPermissions_keptNodes_of_not_leads (h : ¬ Leads flat t []) :
    readPermissions (keptNodes flat t) = [] := by
  have hleaf : t.isLeaf = false := by
    by_contra hleaf
    exact h (SignalTree.leads_nil_iff.2 (.inl (by simpa using hleaf)))
  rw [keptNodes, SignalTree.keptWays_of_not_leads h]
  simp [readPermissions, hleaf]

section Classical

open Classical

mutual
/-- A run on a tree keeps the nodes on covered ways, and registers the permissions of the leaves
among them in their order. -/
theorem keeps_of_run_ofTree : ∀ (tree : SignalTree) {registry registry' : Registry} {v : Vehicle},
    ((ofTree flat tree).run registry).run = (.ok v, registry') →
      Keeps flat (keptWays flat tree) v.ways ∧
        registry' = registry.registerAll (readPermissions (keptNodes flat tree))
  | .node s cs, registry, registry', v, h => by
    obtain ⟨-, hchildren⟩ := run_ofTree_eq_ok h
    obtain ⟨hkeeps, hregistry⟩ := keeps_of_run_keptChildren cs (.node s cs) 0 hchildren
    rw [keptNodes, SignalTree.keptWays_eq, ways_eq, List.map_cons,
      registerAll_readPermissions_cons]
    exact ⟨.cons .nil hkeeps, hregistry⟩
/-- A run on neighbouring trees keeps the nodes to which ways lead that go on to a leaf. -/
theorem keeps_of_run_keptChildren : ∀ (cs : List SignalTree) (tree : SignalTree) (n : Nat)
    {registry registry' : Registry} {vs : List Vehicle},
    ((keptChildren flat cs).run registry).run = (.ok vs, registry') →
      Keeps flat ((SignalTree.waysBelow n cs).filter fun way => Leads flat tree way)
          (waysBelow vs) ∧
        registry' = registry.registerAll (readPermissions
          (((SignalTree.waysBelow n cs).filter fun way => Leads flat tree way).map tree.target))
  | [], _, _, registry, registry', vs, h => by
    rw [keptChildren] at h
    obtain ⟨rfl, rfl⟩ := Results.run_pure_eq_ok_iff.1 h
    exact ⟨.nil, rfl⟩
  | t :: rest, tree, n, registry, registry', vs, h => by
    rw [SignalTree.filter_leads_waysBelow, SignalTree.filter_leads_ways, List.map_append,
      readPermissions_append, Registry.registerAll_append]
    by_cases hdeployed : isDeployed flat t.signal = true
    · obtain ⟨w, middle, kept, hw, hkept, rfl⟩ := run_keptChildren_of_deployed hdeployed h
      obtain ⟨hstands, -⟩ := run_ofTree_eq_ok hw
      obtain ⟨hkeeps, hmiddle⟩ := keeps_of_run_ofTree t hw
      obtain ⟨hrest, hregistry⟩ := keeps_of_run_keptChildren rest tree (n + 1) hkept
      rw [if_pos hdeployed]
      by_cases hleads : Leads flat t []
      · -- the child leads to a leaf, so that it stays along with what was kept below it
        have hstays : (t.isLeaf == w.isLeaf) = true := (isLeaf_eq_iff_leads hkeeps).2 hleads
        have hleaf : w.isLeaf = t.isLeaf := (beq_iff_eq.1 hstays).symm
        rw [if_pos hleads, if_pos hstays, waysBelow, List.map_map]
        refine ⟨List.rel_append (hkeeps.map_cons hstands hleaf) hrest, ?_⟩
        rw [hregistry, hmiddle]
        rfl
      · -- nothing was kept below the child, and nothing was registered there
        have hdropped : ¬ (t.isLeaf == w.isLeaf) = true := mt (isLeaf_eq_iff_leads hkeeps).1 hleads
        rw [readPermissions_keptNodes_of_not_leads hleads] at hmiddle
        rw [if_neg hleads, if_neg hdropped]
        refine ⟨hrest, ?_⟩
        rw [hregistry, hmiddle]
        rfl
    · rw [run_keptChildren_of_not_deployed hdeployed] at h
      obtain ⟨hrest, hregistry⟩ := keeps_of_run_keptChildren rest tree (n + 1) h
      rw [if_neg hdeployed]
      exact ⟨hrest, hregistry⟩
end

end Classical

/-- The parts at the end of two ways that correspond to each other do so, too. -/
theorem StandsFor.target {way : Way} {way' : List Vehicle} (h : StandsFor flat tree v)
    (hway : List.Forall₂ (fun e w => StandsFor flat e.2 w ∧ w.isLeaf = e.2.isLeaf) way way') :
    StandsFor flat (tree.target way) (v.target way') := by
  induction hway generalizing tree v with
  | nil => exact h
  | cons he _ ih => exact ih he.1

/-- The parts that the walk of a vehicle meets stand for the kept nodes, in the same order. -/
theorem forall₂_keptNodes_walk (h : ((ofTree flat tree).run registry).run = (.ok v, registry')) :
    List.Forall₂ (StandsFor flat) (keptNodes flat tree) v.walk := by
  obtain ⟨hstands, -⟩ := run_ofTree_eq_ok h
  obtain ⟨hkeeps, -⟩ := keeps_of_run_ofTree tree h
  rw [keptNodes, ← map_target_ways, List.forall₂_map_left_iff, List.forall₂_map_right_iff]
  exact hkeeps.imp fun _ _ hway => hstands.target hway

/-! ### Main results -/

/-- The ways through a vehicle are the ways to the kept nodes of the signal tree, one for one and
in the order of the walk. The root is kept, and any other node exactly if all nodes on the way to
some leaf at or below it are deployed; without a layer all nodes are kept. No node occurs twice,
and a part below the root is a leaf exactly when its node is one. -/
theorem forall₂_ways_of_run (h : ((ofTree flat tree).run registry).run = (.ok v, registry')) :
    v.top.signal = tree.signal ∧
      List.Forall₂
        (List.Forall₂ fun e w => w.top.signal = e.2.signal ∧ w.isLeaf = e.2.isLeaf)
        (keptWays flat tree) v.ways ∧
      (keptWays flat tree).Nodup ∧ (flat = none → keptWays flat tree = tree.ways) := by
  obtain ⟨hstands, -⟩ := run_ofTree_eq_ok h
  obtain ⟨hkeeps, -⟩ := keeps_of_run_ofTree tree h
  refine ⟨hstands.signal_eq, ?_, ?_, ?_⟩
  · exact hkeeps.imp fun _ _ hway => hway.imp fun _ _ he => ⟨he.1.signal_eq, he.2⟩
  · exact (SignalTree.nodup_ways tree).filter _
  · rintro rfl
    exact SignalTree.keptWays_none tree

/-- A signal with nothing but its path. -/
def bareSignal (path : List String) : Signal where
  name := path.getLast?.getD ""
  path := path
  kind := .other
  datatype := none
  description := none
  unit := none
  min := none
  max := none
  deprecation := none

/-- A tree with the leaves `A.B`, `A.C.D` and `A.E`. -/
def threeLeaves : SignalTree :=
  .node (bareSignal ["A"])
    [.node (bareSignal ["A", "B"]) [],
      .node (bareSignal ["A", "C"]) [.node (bareSignal ["A", "C", "D"]) []],
      .node (bareSignal ["A", "E"]) []]

/-- A layer that deploys the leaf `A.B` and the branch `A.C`, but no leaf below the branch. -/
def branchLayer : FlatMap :=
  FlatMap.ofTree (.object [("A", .object [("B", .null), ("C", .object [("X", .null)])])])

/-- A run that visits the branch and drops it. -/
theorem exists_run_threeLeaves : ∃ v registry',
    ((ofTree (some branchLayer) threeLeaves).run Registry.empty).run = (.ok v, registry') ∧
      v.ways.map (fun way => way.map (·.top.signal.name)) = [[], ["B"]] ∧
      registry'.table.entries = [("A.B_READ", 0)] := by
  have hview : ((ofTree (some branchLayer) threeLeaves).run Registry.empty).run.1.toOption.map
      (fun v => v.ways.map fun way => way.map (·.top.signal.name)) = some [[], ["B"]] := by
    decide +kernel
  have hregistry :
      ((ofTree (some branchLayer) threeLeaves).run Registry.empty).run.2.table.entries =
        [("A.B_READ", 0)] := by decide +kernel
  generalize ((ofTree (some branchLayer) threeLeaves).run Registry.empty).run = outcome
    at hview hregistry ⊢
  obtain ⟨result, registry'⟩ := outcome
  cases result with
  | error e => cases hview
  | ok v => exact ⟨v, registry', rfl, Option.some.inj hview, hregistry⟩

/-- The only kept nodes are the root and the leaf `A.B`. -/
theorem forall₂_ways_of_run_threeLeaves : ∃ v registry',
    ((ofTree (some branchLayer) threeLeaves).run Registry.empty).run = (.ok v, registry') ∧
      (keptWays (some branchLayer) threeLeaves).map (fun way => way.map (·.2.signal.name)) =
        [[], ["B"]] := by
  obtain ⟨v, registry', hrun, hnames, -⟩ := exists_run_threeLeaves
  obtain ⟨-, hways, -⟩ := forall₂_ways_of_run hrun
  refine ⟨v, registry', hrun, ?_⟩
  rw [← hnames]
  refine Results.map_eq_map hways fun way way' hway => ?_
  exact Results.map_eq_map hway fun e w he => by rw [he.1]

/-- A run registers exactly the permissions to read the kept leaves, in the order in which the walk
of the vehicle meets them. Kept branches have no directives, and a kept leaf demands its permission,
which has a number. A branch that comes back as a leaf, and so is dropped by the branch above it,
leaves the registry as it was. -/
theorem registry_of_run (h : ((ofTree flat tree).run registry).run = (.ok v, registry')) :
    registry' = registry.registerAll (((keptNodes flat tree).filter SignalTree.isLeaf).map
      fun leaf => leaf.signal.qualifiedName "." ++ "_READ") ∧
      List.Forall₂ (fun node w => w.top.signal = node.signal ∧
          (node.isLeaf = false → w.top.directives = SignalDirectives.none) ∧
          (node.isLeaf = true → ∃ permission,
            permission = node.signal.qualifiedName "." ++ "_READ" ∧
              w.top.directives.hasPermissions = some (.requiring permission) ∧
              (registry'.get? permission).isSome = true))
        (keptNodes flat tree) v.walk ∧
      (tree.isLeaf = false → v.isLeaf = true → registry' = registry) := by
  obtain ⟨hkeeps, hregistry⟩ := keeps_of_run_ofTree tree h
  refine ⟨?_, ?_, fun hbranch hleaf => ?_⟩
  · simpa only [readPermissions, permission_readOperation] using hregistry
  · refine List.forall₂_iff_zip.2 ⟨(forall₂_keptNodes_walk h).length_eq, fun {node w} hmem => ?_⟩
    have hstands : StandsFor flat node w :=
      (List.forall₂_iff_zip.1 (forall₂_keptNodes_walk h)).2 hmem
    refine ⟨hstands.signal_eq, fun hbranch => ?_, fun hleaf => ⟨_, rfl, ?_, ?_⟩⟩
    · rw [hstands.directives_eq, SignalDirectives.ofTree, hbranch]
      rfl
    · rw [hstands.directives_eq, SignalDirectives.ofTree, if_pos hleaf, permission_readOperation]
    · have hpermission : node.signal.qualifiedName "." ++ "_READ" ∈
          readPermissions (keptNodes flat tree) := by
        rw [← permission_readOperation]
        exact List.mem_map_of_mem (List.mem_filter.2 ⟨(List.of_mem_zip hmem).1, hleaf⟩)
      rw [hregistry, Registry.isSome_get?_registerAll]
      exact .inr hpermission
  · have hleads : ¬ Leads flat tree [] := by
      rw [← isLeaf_eq_iff_leads hkeeps, hbranch, hleaf]
      simp
    rw [hregistry, readPermissions_keptNodes_of_not_leads hleads]
    rfl

/-- Of the permissions to read the three leaves only that of the kept one is registered. -/
theorem registry_of_run_threeLeaves : ∃ v registry',
    ((ofTree (some branchLayer) threeLeaves).run Registry.empty).run = (.ok v, registry') ∧
      registry' = Registry.empty.registerAll
        (((keptNodes (some branchLayer) threeLeaves).filter SignalTree.isLeaf).map
          fun leaf => leaf.signal.qualifiedName "." ++ "_READ") ∧
      registry'.table.entries = [("A.B_READ", 0)] := by
  obtain ⟨v, registry', hrun, -, hentries⟩ := exists_run_threeLeaves
  exact ⟨v, registry', hrun, (registry_of_run hrun).1, hentries⟩

end SignalSchema.Vehicle
