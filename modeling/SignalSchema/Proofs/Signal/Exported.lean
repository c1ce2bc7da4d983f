import Mathlib.Data.List.Forall2
import SignalSchema.Proofs.Signal.Vehicle
import SignalSchema.Proofs.Table

/-!
# Exported signal trees

The tree of an export is told from its text without the reader: the nodes below a node are those of
the distinct names in its property `children`, in the order in which the names occur first, and
each of them extends the path above it by its name (`Describes`). The reader takes the properties
in the order in which they come, from an object or from a list, and puts the children in a table;
whatever it accepts is described so (`describes_of_ofText`).

All that is known about single nodes follows from this at the end of a way (`Describes.target`).
The path of a node spells the way to it from the root, and since siblings have distinct names, no
two nodes have the same path (`Describes.nodup_map_path_walk`).
-/

namespace SignalSchema

/-! ### Descriptions -/

namespace RawJson

/-- The fields of the object under the property `children`, if there is one. -/
def childrenUnder (properties : List (Option String × RawJson)) : List (List Nat × RawJson) :=
  match properties.lookup (some "children") with
  | some (.object fields) => fields
  | _ => []

/-- The properties of other names are passed over. -/
theorem childrenUnder_cons_of_ne {key : String} (h : key ≠ "children") (raw : RawJson)
    (properties : List (Option String × RawJson)) :
    childrenUnder ((some key, raw) :: properties) = childrenUnder properties := by
  have hne : (some "children" == some key) = false := by simpa using Ne.symm h
  rw [childrenUnder, List.lookup_cons, hne]
  rfl

/-- The fields that describe what is below a node, which is an object with its properties or the
list of them in their fixed order. -/
def childFields : RawJson → List (List Nat × RawJson)
  | .object fields => childrenUnder (fields.map fun e => (text? e.1, e.2))
  | .array items => childrenUnder ((SignalTree.propertyNames.map some).zip items)
  | _ => []

end RawJson

namespace SignalTree

variable {source name : String} {above path : List String} {fields : List (List Nat × RawJson)}
  {raw : RawJson} {tree t : SignalTree} {trees cs : List SignalTree} {way way' : Way}
  {ps ps' : Properties} {depth : Nat}

/-- The trees are those that the fields describe below a path: one for each distinct name, in the
order in which the names occur first. A tree is described by the last value of its name, its path
is the path above it with its name, and the trees below it are described in the same way. -/
inductive Describes : List String → List (List Nat × RawJson) → List SignalTree → Prop
  | intro {above : List String} {fields : List (List Nat × RawJson)} {trees : List SignalTree}
      (named : List (String × RawJson)) (value : String → RawJson)
      (read : List.Forall₂ (fun e n => RawJson.text? e.1 = some n.1 ∧ n.2 = e.2) fields named)
      (names : trees.map (·.signal.name) = (named.map Prod.fst).eraseDups)
      (values : ∀ t ∈ trees, named.reverse.lookup t.signal.name = some (value t.signal.name))
      (paths : ∀ t ∈ trees, t.signal.path = above ++ [t.signal.name])
      (below : ∀ t ∈ trees,
        Describes t.signal.path (value t.signal.name).childFields t.children) :
      Describes above fields trees

/-- The tree is what a value describes under a name, at the end of a path. -/
structure DescribedAs (name : String) (path : List String) (raw : RawJson) (tree : SignalTree) :
    Prop where
  name_eq : tree.signal.name = name
  path_eq : tree.signal.path = path
  below : Describes path raw.childFields tree.children

/-- No fields describe no trees. -/
theorem Describes.nil (above : List String) : Describes above [] [] :=
  .intro [] (fun _ => .null) .nil rfl nofun nofun nofun

/-! ### Reading -/

/-- A property other than the children leaves them as they are. -/
theorem children_eq_of_set {key : String} (h : ps.set depth key raw = some ps') :
    ps'.children = ps.children := by
  unfold Properties.set at h
  split at h
  all_goals first
    | (split at h
       · cases h
       · obtain ⟨value, -, rfl⟩ := Option.map_eq_some_iff.1 h
         rfl)
    | rw [← Option.some.inj h]

/-- Before it goes on, reading either reads the children, which were not there before, or leaves
them as they are. -/
theorem exists_of_read_property {key : String} {next : Properties → Option Properties}
    (h : (if key = "children" then ((childrenOf? depth path raw).bind ps.setChildren).bind next
      else (ps.set depth key raw).bind next) = some ps') :
    ∃ middle, next middle = some ps' ∧
      ((key = "children" ∧ ps.children = none ∧
          ∃ cs, childrenOf? depth path raw = some cs ∧ middle.children = some cs) ∨
        (key ≠ "children" ∧ middle.children = ps.children)) := by
  split at h
  next hkey =>
    obtain ⟨middle, hmiddle, hnext⟩ := Option.bind_eq_some_iff.1 h
    obtain ⟨cs, hcs, hset⟩ := Option.bind_eq_some_iff.1 hmiddle
    unfold Properties.setChildren at hset
    split at hset
    · cases hset
    next hnone =>
      refine ⟨middle, hnext, .inl ⟨hkey, by simpa using hnone, cs, hcs, ?_⟩⟩
      rw [← Option.some.inj hset]
  next hkey =>
    obtain ⟨middle, hmiddle, hnext⟩ := Option.bind_eq_some_iff.1 h
    exact ⟨middle, hnext, .inr ⟨hkey, children_eq_of_set hmiddle⟩⟩

/-- Children that were read stay when the other fields are read. -/
theorem children_of_propertiesOf? (hcs : ps.children = some cs)
    (h : propertiesOf? depth path ps fields = some ps') : ps'.children = some cs := by
  induction fields generalizing ps with
  | nil =>
    rw [propertiesOf?] at h
    rwa [← Option.some.inj h]
  | cons e rest ih =>
    obtain ⟨units, raw⟩ := e
    rw [propertiesOf?] at h
    obtain ⟨key, -, h⟩ := Option.bind_eq_some_iff.1 h
    obtain ⟨middle, hrest, ⟨-, hnone, -⟩ | ⟨-, heq⟩⟩ := exists_of_read_property h
    · rw [hcs] at hnone
      cases hnone
    · exact ih (heq.trans hcs) hrest

/-- Children that were read stay when the other items are read. -/
theorem children_of_listedProperties? {names : List String} {items : List RawJson}
    (hcs : ps.children = some cs) (h : listedProperties? depth path ps names items = some ps') :
    ps'.children = some cs := by
  induction items generalizing ps names with
  | nil =>
    rw [listedProperties?] at h
    rwa [← Option.some.inj h]
  | cons raw rest ih =>
    cases names with
    | nil => simp [listedProperties?] at h
    | cons key names =>
      rw [listedProperties?] at h
      obtain ⟨middle, hrest, ⟨-, hnone, -⟩ | ⟨-, heq⟩⟩ := exists_of_read_property h
      · rw [hcs] at hnone
        cases hnone
      · exact ih (heq.trans hcs) hrest

/-- Pairs that are described make a table of trees that are described. -/
theorem describes_ofList {named : List (String × RawJson)} {entries : List (String × SignalTree)}
    (hread : List.Forall₂ (fun e n => RawJson.text? e.1 = some n.1 ∧ n.2 = e.2) fields named)
    (h : List.Forall₂ (fun n e => n.1 = e.1 ∧ DescribedAs e.1 (path ++ [e.1]) n.2 e.2)
      named entries) : Describes path fields (Table.ofList entries).values := by
  have hentry : ∀ e ∈ (Table.ofList entries).entries, ∃ u, named.reverse.lookup e.1 = some u ∧
      DescribedAs e.1 (path ++ [e.1]) u e.2 := by
    intro e he
    have hlast := Table.get?_eq_some_iff.2 he
    rw [Table.get?_ofList] at hlast
    obtain ⟨u, hu, -, hdescribed⟩ := Table.exists_lookup_of_forall₂
      (List.forall₂_reverse_iff.2 h) (fun _ _ hne => hne.1) hlast
    exact ⟨u, hu, hdescribed⟩
  have hvalue : ∀ t ∈ (Table.ofList entries).values, ∃ u,
      named.reverse.lookup t.signal.name = some u ∧
        DescribedAs t.signal.name (path ++ [t.signal.name]) u t := by
    intro t ht
    obtain ⟨e, he, rfl⟩ := List.mem_map.1 ht
    obtain ⟨u, hu, hdescribed⟩ := hentry e he
    rw [hdescribed.name_eq]
    exact ⟨u, hu, hdescribed⟩
  refine .intro named (fun name => (named.reverse.lookup name).getD .null) hread ?_ ?_ ?_ ?_
  · have hnames : named.map Prod.fst = entries.map Prod.fst :=
      Results.map_eq_map h fun _ _ hne => hne.1
    rw [hnames, ← Table.keys_ofList, Table.values, List.map_map]
    refine List.map_congr_left fun e he => ?_
    obtain ⟨u, -, hdescribed⟩ := hentry e he
    exact hdescribed.name_eq
  · intro t ht
    obtain ⟨u, hu, -⟩ := hvalue t ht
    rw [hu]
    rfl
  · intro t ht
    obtain ⟨u, -, hdescribed⟩ := hvalue t ht
    exact hdescribed.path_eq
  · intro t ht
    obtain ⟨u, hu, hdescribed⟩ := hvalue t ht
    rw [hu, hdescribed.path_eq]
    exact hdescribed.below

mutual
/-- What is read from a value is what it describes. -/
theorem describedAs_of_ofRaw? : (raw : RawJson) → {depth : Nat} → {name : String} →
    {path : List String} → {tree : SignalTree} → ofRaw? depth name path raw = some tree →
      DescribedAs name path raw tree
  | .object fields, depth, name, path, tree, h => by
    rw [ofRaw?] at h
    split at h
    · cases h
    · obtain ⟨ps, hps, htree⟩ := Option.bind_eq_some_iff.1 h
      obtain ⟨kind, -, rfl⟩ := Option.map_eq_some_iff.1 htree
      exact ⟨rfl, rfl, describes_of_propertiesOf? fields rfl hps⟩
  | .array items, depth, name, path, tree, h => by
    rw [ofRaw?] at h
    split at h
    · cases h
    · obtain ⟨ps, hps, htree⟩ := Option.bind_eq_some_iff.1 h
      obtain ⟨kind, -, rfl⟩ := Option.map_eq_some_iff.1 htree
      exact ⟨rfl, rfl, describes_of_listedProperties? items rfl hps⟩
  | .null, depth, name, path, tree, h | .bool _, depth, name, path, tree, h
  | .number _, depth, name, path, tree, h | .string _, depth, name, path, tree, h => by
    simp [ofRaw?] at h
/-- The children that are read from fields are those that their property describes. -/
theorem describes_of_propertiesOf? : (fields : List (List Nat × RawJson)) → {depth : Nat} →
    {path : List String} → {ps ps' : Properties} → ps.children = none →
      propertiesOf? depth path ps fields = some ps' →
        Describes path (RawJson.childrenUnder (fields.map fun e => (RawJson.text? e.1, e.2)))
          (ps'.children.getD [])
  | [], depth, path, ps, ps', hnone, h => by
    rw [propertiesOf?] at h
    rw [← Option.some.inj h, hnone]
    exact .nil path
  | (units, raw) :: rest, depth, path, ps, ps', hnone, h => by
    rw [propertiesOf?] at h
    obtain ⟨key, hkey, h⟩ := Option.bind_eq_some_iff.1 h
    rw [List.map_cons, hkey]
    obtain ⟨middle, hrest, ⟨rfl, -, cs, hcs, hmiddle⟩ | ⟨hne, heq⟩⟩ := exists_of_read_property h
    · obtain ⟨below, rfl, hbelow⟩ := describes_of_childrenOf? raw hcs
      rw [children_of_propertiesOf? hmiddle hrest]
      exact hbelow
    · rw [RawJson.childrenUnder_cons_of_ne hne]
      exact describes_of_propertiesOf? rest (heq.trans hnone) hrest
/-- The children that are read from items are those that the item in their place describes. -/
theorem describes_of_listedProperties? : (items : List RawJson) → {depth : Nat} →
    {path names : List String} → {ps ps' : Properties} → ps.children = none →
      listedProperties? depth path ps names items = some ps' →
        Describes path (RawJson.childrenUnder ((names.map some).zip items))
          (ps'.children.getD [])
  | [], depth, path, names, ps, ps', hnone, h => by
    rw [listedProperties?] at h
    rw [← Option.some.inj h, hnone, List.zip_nil_right]
    exact .nil path
  | raw :: rest, depth, path, [], ps, ps', hnone, h => by simp [listedProperties?] at h
  | raw :: rest, depth, path, key :: names, ps, ps', hnone, h => by
    rw [listedProperties?] at h
    rw [List.map_cons, List.zip_cons_cons]
    obtain ⟨middle, hrest, ⟨rfl, -, cs, hcs, hmiddle⟩ | ⟨hne, heq⟩⟩ := exists_of_read_property h
    · obtain ⟨below, rfl, hbelow⟩ := describes_of_childrenOf? raw hcs
      rw [children_of_listedProperties? hmiddle hrest]
      exact hbelow
    · rw [RawJson.childrenUnder_cons_of_ne hne]
      exact describes_of_listedProperties? rest (heq.trans hnone) hrest
/-- The trees that are read from an object are those that its fields describe. -/
theorem describes_of_childrenOf? : (raw : RawJson) → {depth : Nat} → {path : List String} →
    {cs : List SignalTree} → childrenOf? depth path raw = some cs →
      ∃ fields, raw = .object fields ∧ Describes path fields cs
  | .object fields, depth, path, cs, h => by
    rw [childrenOf?] at h
    split at h
    · cases h
    · obtain ⟨entries, hentries, rfl⟩ := Option.map_eq_some_iff.1 h
      obtain ⟨named, hread, hnamed⟩ := exists_named_of_namedTrees? fields hentries
      exact ⟨fields, rfl, describes_ofList hread hnamed⟩
  | .null, depth, path, cs, h | .bool _, depth, path, cs, h | .number _, depth, path, cs, h
  | .string _, depth, path, cs, h | .array _, depth, path, cs, h => by
    simp [childrenOf?] at h
/-- The trees that are read under names are what the values of the names describe. -/
theorem exists_named_of_namedTrees? : (fields : List (List Nat × RawJson)) → {depth : Nat} →
    {path : List String} → {entries : List (String × SignalTree)} →
      namedTrees? depth path fields = some entries → ∃ named : List (String × RawJson),
        List.Forall₂ (fun e n => RawJson.text? e.1 = some n.1 ∧ n.2 = e.2) fields named ∧
          List.Forall₂ (fun n e => n.1 = e.1 ∧ DescribedAs e.1 (path ++ [e.1]) n.2 e.2)
            named entries
  | [], depth, path, entries, h => by
    rw [namedTrees?] at h
    rw [← Option.some.inj h]
    exact ⟨[], .nil, .nil⟩
  | (units, raw) :: rest, depth, path, entries, h => by
    rw [namedTrees?] at h
    obtain ⟨key, hkey, h⟩ := Option.bind_eq_some_iff.1 h
    obtain ⟨tree, htree, h⟩ := Option.bind_eq_some_iff.1 h
    obtain ⟨others, hothers, h⟩ := Option.bind_eq_some_iff.1 h
    rw [← Option.some.inj h]
    obtain ⟨named, hread, hnamed⟩ := exists_named_of_namedTrees? rest hothers
    exact ⟨(key, raw) :: named, .cons ⟨hkey, rfl⟩ hread,
      .cons ⟨rfl, describedAs_of_ofRaw? raw htree⟩ hnamed⟩
end

/-- An export that is accepted describes its tree and no other. -/
theorem describes_of_ofText (h : ofText source = .ok tree) :
    ∃ fields, RawJson.parse? source = some (.object fields) ∧ Describes [] fields [tree] := by
  unfold ofText at h
  split at h
  · cases h
  · cases h
  next tree' hread =>
    obtain rfl := Except.ok.inj h
    obtain ⟨raw, hraw, hread⟩ := Option.bind_eq_some_iff.1 hread
    obtain ⟨fields, rfl, hfields⟩ := describes_of_childrenOf? raw hread
    exact ⟨fields, hraw, hfields⟩
  · cases h

/-! ### Nodes of described trees -/

/-- Trees that are described together have distinct names. -/
theorem Describes.nodup_names (h : Describes above fields trees) :
    (trees.map (·.signal.name)).Nodup := by
  obtain ⟨named, value, -, hnames, -, -, -⟩ := h
  rw [hnames]
  refine (pairwise_idxOf_eraseDups _).imp ?_
  rintro name _ hlt rfl
  exact Nat.lt_irrefl _ hlt

/-- The path of a described tree is the path above it with its name. -/
theorem Describes.path_eq (h : Describes above fields trees) (ht : t ∈ trees) :
    t.signal.path = above ++ [t.signal.name] := by
  obtain ⟨named, value, -, -, -, hpaths, -⟩ := h
  exact hpaths t ht

/-- The trees below a described tree are described. -/
theorem Describes.children (h : Describes above fields trees) (ht : t ∈ trees) :
    ∃ fields', Describes t.signal.path fields' t.children := by
  obtain ⟨named, value, -, -, -, -, hbelow⟩ := h
  exact ⟨_, hbelow t ht⟩

/-- At the end of every way there is a tree below which everything is described. -/
theorem Describes.target (h : Describes tree.signal.path fields tree.children)
    (hway : tree.IsWay way) :
    ∃ fields', Describes (tree.target way).signal.path fields' (tree.target way).children := by
  induction way generalizing tree fields with
  | nil => exact ⟨fields, h⟩
  | cons e way ih =>
    obtain ⟨hchild, hway⟩ := hway
    obtain ⟨fields', hbelow⟩ := h.children (List.mem_of_getElem? hchild)
    exact ih hbelow hway

/-- The names of the nodes that a way enters. -/
def wayNames (way : Way) : List String :=
  way.map fun e => e.2.signal.name

/-- The path of a node spells the way to it. -/
theorem Describes.path_target (h : Describes tree.signal.path fields tree.children)
    (hway : tree.IsWay way) :
    (tree.target way).signal.path = tree.signal.path ++ wayNames way := by
  induction way generalizing tree fields with
  | nil => exact (List.append_nil _).symm
  | cons e way ih =>
    obtain ⟨n, t⟩ := e
    obtain ⟨hchild, hway⟩ := hway
    have hmem := List.mem_of_getElem? hchild
    obtain ⟨fields', hbelow⟩ := h.children hmem
    rw [target_cons, ih hbelow hway, h.path_eq hmem, List.append_assoc]
    rfl

/-- Since siblings have distinct names, ways with the same names are the same. -/
theorem Describes.eq_of_wayNames_eq (h : Describes tree.signal.path fields tree.children)
    (hway : tree.IsWay way) (hway' : tree.IsWay way') (heq : wayNames way = wayNames way') :
    way = way' := by
  induction way generalizing tree fields way' with
  | nil => exact (List.map_eq_nil_iff.1 heq.symm).symm
  | cons e way ih =>
    cases way' with
    | nil => cases heq
    | cons e' way' =>
      obtain ⟨n, t⟩ := e
      obtain ⟨n', t'⟩ := e'
      obtain ⟨hchild, hway⟩ := hway
      obtain ⟨hchild', hway'⟩ := hway'
      obtain ⟨hname, hrest⟩ := List.cons.inj heq
      -- the names of the siblings are distinct, so that the children have the same place
      have hnames : (tree.children.map (·.signal.name))[n]? =
          (tree.children.map (·.signal.name))[n']? := by
        rw [List.getElem?_map, List.getElem?_map, hchild, hchild']
        exact congrArg some hname
      have hn : n < (tree.children.map (·.signal.name)).length := by
        rw [List.length_map]
        exact (List.getElem?_eq_some_iff.1 hchild).1
      obtain rfl := (List.getElem?_inj hn h.nodup_names).1 hnames
      obtain rfl : t = t' := Option.some.inj (hchild.symm.trans hchild')
      obtain ⟨fields', hbelow⟩ := h.children (List.mem_of_getElem? hchild)
      rw [ih hbelow hway hway' hrest]

/-- The nodes of the walk are those at the ends of ways. -/
theorem mem_walk_iff : t ∈ tree.walk ↔ ∃ way, tree.IsWay way ∧ tree.target way = t := by
  rw [← map_target_ways, List.mem_map]
  simp only [mem_ways_iff]

/-- No two nodes of a walk have the same path. -/
theorem Describes.nodup_map_path_walk (h : Describes tree.signal.path fields tree.children) :
    (tree.walk.map (·.signal.path)).Nodup := by
  rw [← map_target_ways, List.map_map]
  refine (nodup_ways tree).map_on fun way hway way' hway' heq => ?_
  have hway := mem_ways_iff.1 hway
  have hway' := mem_ways_iff.1 hway'
  have hnames : tree.signal.path ++ wayNames way = tree.signal.path ++ wayNames way' := by
    rw [← h.path_target hway, ← h.path_target hway']
    exact heq
  exact h.eq_of_wayNames_eq hway hway' (List.append_cancel_left hnames)

/-! ### Permissions of a walk -/

/-- Registering every node of a list in turn registers the permissions to read the leaves. -/
theorem foldl_registerTree (registry : Registry) (nodes : List SignalTree) :
    nodes.foldl Registry.registerTree registry =
      registry.registerAll (Vehicle.readPermissions nodes) := by
  induction nodes generalizing registry with
  | nil => rfl
  | cons node nodes ih =>
    rw [List.foldl_cons, ih, Vehicle.registerAll_readPermissions_cons]

/-- The permissions to read the leaves of a tree, in the order of the ways to them. A permission is
made of the names on the way, which are joined by dots. -/
def leafPermissions (tree : SignalTree) : List String :=
  (tree.ways.filter fun way => (tree.target way).isLeaf).map fun way =>
    ".".intercalate (tree.signal.name :: wayNames way) ++ "_READ"

/-- The permissions to read the nodes of a walk are those to read the leaves of the tree. -/
theorem Describes.readPermissions_walk (h : Describes tree.signal.path fields tree.children)
    (hroot : tree.signal.path = [tree.signal.name]) :
    Vehicle.readPermissions tree.walk = tree.leafPermissions := by
  rw [Vehicle.readPermissions, leafPermissions, ← map_target_ways, List.filter_map, List.map_map]
  refine List.map_congr_left fun way hway => ?_
  have hway := mem_ways_iff.1 (List.mem_of_mem_filter hway)
  rw [Function.comp_apply, Vehicle.permission_readOperation, Signal.qualifiedName,
    h.path_target hway, hroot]
  rfl

/-! ### Main result -/

/-- What the fields of an accepted export and its tree have in common. -/
structure Exported (fields : List (List Nat × RawJson)) (tree : SignalTree) : Prop where
  /-- There is a root, and only one name for it. -/
  root : fields ≠ [] ∧ ∀ e ∈ fields, RawJson.text? e.1 = some tree.signal.name
  /-- The tree is the one that the fields describe. In particular, the children of every node are
  those of its property, in their order there. -/
  described : Describes [] fields [tree]
  /-- The path of the root is its name. -/
  rootPath : tree.signal.path = [tree.signal.name]
  /-- The path of any other node is the path of its parent with its own name. -/
  paths : ∀ parent ∈ tree.walk, ∀ child ∈ parent.children,
    child.signal.path = parent.signal.path ++ [child.signal.name]
  /-- The walk leads to every node once, and it takes the nodes in the lexicographic order of their
  places: a node before those below it, and siblings with all below them one after the other. -/
  walk : tree.walk = tree.ways.map tree.target ∧ (∀ way, way ∈ tree.ways ↔ tree.IsWay way) ∧
    tree.ways.Pairwise fun a b => a.map Prod.fst < b.map Prod.fst
  /-- No two nodes of the walk have the same path. -/
  distinct : (tree.walk.map (·.signal.path)).Nodup
  /-- Registering all nodes in turn registers the permissions to read the leaves. -/
  permissions : ∀ registry : Registry,
    tree.walk.foldl Registry.registerTree registry = registry.registerAll tree.leafPermissions

/-- Fields that describe a single tree have a single name. -/
theorem Describes.root (h : Describes above fields [tree]) :
    fields ≠ [] ∧ ∀ e ∈ fields, RawJson.text? e.1 = some tree.signal.name := by
  obtain ⟨named, value, hread, hnames, -, -, -⟩ := h
  constructor
  · rintro rfl
    rw [List.forall₂_nil_left_iff.1 hread] at hnames
    cases hnames
  · intro e he
    obtain ⟨n, hn, hname, -⟩ := Results.exists_of_mem_left hread he
    have hmem : n.1 ∈ (named.map Prod.fst).eraseDups :=
      List.mem_eraseDups.2 (List.mem_map_of_mem hn)
    rw [← hnames, List.map_singleton, List.mem_singleton] at hmem
    rw [hname, hmem]

/-- Whatever export is accepted, its tree is the one that its text describes: the paths spell the
ways from the single root, the walk meets every node once and in order, and registering along the
walk registers the permissions to read the leaves. -/
theorem exported_of_ofText (h : ofText source = .ok tree) :
    ∃ fields, RawJson.parse? source = some (.object fields) ∧ Exported fields tree := by
  obtain ⟨fields, hparse, hdescribed⟩ := describes_of_ofText h
  have hroot : tree.signal.path = [tree.signal.name] :=
    hdescribed.path_eq (List.mem_singleton_self tree)
  obtain ⟨fields', hbelow⟩ := hdescribed.children (List.mem_singleton_self tree)
  refine ⟨fields, hparse, ?_⟩
  exact
    { root := hdescribed.root
      described := hdescribed
      rootPath := hroot
      paths := fun parent hparent child hchild => by
        obtain ⟨way, hway, rfl⟩ := mem_walk_iff.1 hparent
        obtain ⟨fields'', hchildren⟩ := hbelow.target hway
        exact hchildren.path_eq hchild
      walk := ⟨(map_target_ways tree).symm, fun way => mem_ways_iff, pairwise_ways tree⟩
      distinct := hbelow.nodup_map_path_walk
      permissions := fun registry => by
        rw [foldl_registerTree, hbelow.readPermissions_walk hroot] }

/-- An export with a leaf inside of a branch and one behind it. -/
def branchExport : String :=
  r#"{"V":{"type":"branch","children":{"# ++
    r#""B":{"type":"branch","children":{"D":{"type":"sensor"}}},"# ++
    r#""S":{"type":"sensor"}}}}"#

/-- The branch is met before its leaf, and the leaf before the other one. -/
theorem exported_branchExport : ∃ tree, ofText branchExport = .ok tree ∧
    (∃ fields, RawJson.parse? branchExport = some (.object fields) ∧ Exported fields tree) ∧
      tree.walk.map (·.signal.path) = [["V"], ["V", "B"], ["V", "B", "D"], ["V", "S"]] ∧
      tree.leafPermissions = ["V.B.D_READ", "V.S_READ"] := by
  have hview : ((ofText branchExport).toOption.map fun tree =>
      (tree.walk.map (·.signal.path), tree.leafPermissions)) =
        some ([["V"], ["V", "B"], ["V", "B", "D"], ["V", "S"]],
          ["V.B.D_READ", "V.S_READ"]) := by decide +kernel
  obtain ⟨tree, htree, hview⟩ := Option.map_eq_some_iff.1 hview
  obtain ⟨hwalk, hpermissions⟩ := Prod.mk.inj hview
  have htext := Results.toOption_eq_some_iff.1 htree
  exact ⟨tree, htext, exported_of_ofText htext, hwalk, hpermissions⟩

end SignalTree

end SignalSchema
