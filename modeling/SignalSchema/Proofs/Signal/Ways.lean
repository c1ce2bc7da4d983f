import Mathlib.Data.List.Nodup
import SignalSchema.Signal.Vehicle

/-!
# Ways through signal trees

A node of a signal tree is told apart from all others by the way to it from the root, and `ways`
lists the ways to all nodes in the order of the walk. A layer covers a node when it deploys all
nodes on the way to some leaf at or below it (`Leads`); the kept nodes are the root and the covered
ones (`Kept`). The condition speaks of whole ways from the root to a leaf. `filter_leads_waysBelow`
says how it is decided on the way down, one child after the other.
-/

namespace SignalSchema.SignalTree

open Vehicle (isDeployed)

/-- A way down a tree: the subtrees that it enters one after the other, each with its place among
its siblings. The way to the root is empty. -/
abbrev Way := List (Nat × SignalTree)

mutual
/-- The ways to all nodes of a tree, in the order of the walk. -/
def ways : SignalTree → List Way
  | node _ cs => [] :: waysBelow 0 cs
/-- The ways to all nodes of neighbouring trees, of which the first has the place `n`. -/
def waysBelow (n : Nat) : List SignalTree → List Way
  | [] => []
  | t :: rest => t.ways.map ((n, t) :: ·) ++ waysBelow (n + 1) rest
end

/-- The subtree at the end of a way. -/
def target (tree : SignalTree) : Way → SignalTree
  | [] => tree
  | (_, t) :: rest => t.target rest

variable {tree t : SignalTree} {cs rest : List SignalTree} {way below : Way} {n : Nat}
  {flat : Option Deploy.FlatMap}

@[simp] theorem target_nil : tree.target [] = tree := rfl

@[simp] theorem target_cons : tree.target ((n, t) :: way) = t.target way := rfl

/-- A way is gone in two parts. -/
theorem target_append (tree : SignalTree) (way below : Way) :
    tree.target (way ++ below) = (tree.target way).target below := by
  induction way generalizing tree with
  | nil => rfl
  | cons e way ih => exact ih e.2

/-! ### The nodes of a tree -/

theorem ways_eq (tree : SignalTree) : tree.ways = [] :: waysBelow 0 tree.children := by
  cases tree
  rw [ways, children]

theorem nil_mem_ways (tree : SignalTree) : [] ∈ tree.ways := by
  rw [ways_eq]
  exact List.mem_cons_self

/-- The ways into neighbouring trees start with one of them. -/
theorem mem_waysBelow_iff : way ∈ waysBelow n cs ↔
    ∃ i t rest, cs[i]? = some t ∧ rest ∈ t.ways ∧ way = (n + i, t) :: rest := by
  induction cs generalizing n with
  | nil => simp [waysBelow]
  | cons c cs ih =>
    rw [waysBelow, List.mem_append, List.mem_map, ih]
    constructor
    · rintro (⟨rest, hrest, rfl⟩ | ⟨i, t, rest, ht, hrest, rfl⟩)
      · exact ⟨0, c, rest, rfl, hrest, rfl⟩
      · exact ⟨i + 1, t, rest, ht, hrest, by rw [Nat.add_assoc, Nat.add_comm 1 i]⟩
    · rintro ⟨i, t, rest, ht, hrest, rfl⟩
      cases i with
      | zero =>
        obtain rfl : c = t := Option.some.inj ht
        exact .inl ⟨rest, hrest, rfl⟩
      | succ i =>
        exact .inr ⟨i, t, rest, ht, hrest, by rw [Nat.add_assoc, Nat.add_comm 1 i]⟩

/-- A way that is not empty enters a child and goes on in it. -/
theorem cons_mem_ways_iff :
    (n, t) :: way ∈ tree.ways ↔ tree.children[n]? = some t ∧ way ∈ t.ways := by
  rw [ways_eq, List.mem_cons, mem_waysBelow_iff]
  constructor
  · rintro (h | ⟨i, t', rest, ht, hrest, heq⟩)
    · cases h
    · rw [Nat.zero_add] at heq
      cases heq
      exact ⟨ht, hrest⟩
  · rintro ⟨ht, hway⟩
    exact .inr ⟨n, t, way, ht, hway, by rw [Nat.zero_add]⟩

/-- A way can be continued by any way through its target. -/
theorem append_mem_ways (hway : way ∈ tree.ways) (hbelow : below ∈ (tree.target way).ways) :
    way ++ below ∈ tree.ways := by
  induction way generalizing tree with
  | nil => exact hbelow
  | cons e way ih =>
    obtain ⟨n, t⟩ := e
    obtain ⟨ht, hway⟩ := cons_mem_ways_iff.1 hway
    exact cons_mem_ways_iff.2 ⟨ht, ih hway hbelow⟩

mutual
/-- The ways end at the nodes of the walk, in the same order. -/
theorem map_target_ways : ∀ tree : SignalTree, tree.ways.map tree.target = tree.walk
  | node s cs => by
    rw [ways, walk, List.map_cons, target_nil, map_target_waysBelow]
theorem map_target_waysBelow (tree : SignalTree) :
    ∀ (n : Nat) (cs : List SignalTree), (waysBelow n cs).map tree.target = walkAll cs
  | _, [] => rfl
  | n, t :: rest => by
    rw [waysBelow, walkAll, List.map_append, List.map_map, map_target_waysBelow tree (n + 1) rest,
      ← map_target_ways t]
    rfl
end

/-- A list of places and subtrees is a way when each subtree is the child in its place. -/
def IsWay : SignalTree → Way → Prop
  | _, [] => True
  | tree, (n, t) :: way => tree.children[n]? = some t ∧ IsWay t way

/-- All ways through a tree are listed, and nothing else. -/
theorem mem_ways_iff : way ∈ tree.ways ↔ tree.IsWay way := by
  induction way generalizing tree with
  | nil => exact iff_of_true (nil_mem_ways tree) trivial
  | cons e way ih => exact cons_mem_ways_iff.trans (and_congr_right fun _ => ih)

mutual
/-- The ways stand in the lexicographic order of their places: a node comes before those below it,
and a node and all below it come before the next sibling. -/
theorem pairwise_ways : ∀ tree : SignalTree,
    tree.ways.Pairwise fun a b => a.map Prod.fst < b.map Prod.fst
  | node s cs => by
    rw [ways, List.pairwise_cons]
    refine ⟨fun way hway => ?_, pairwise_waysBelow 0 cs⟩
    obtain ⟨i, t, rest, -, -, rfl⟩ := mem_waysBelow_iff.1 hway
    exact List.nil_lt_cons _ _
theorem pairwise_waysBelow : ∀ (n : Nat) (cs : List SignalTree),
    (waysBelow n cs).Pairwise fun a b => a.map Prod.fst < b.map Prod.fst
  | _, [] => .nil
  | n, t :: rest => by
    rw [waysBelow, List.pairwise_append, List.pairwise_map]
    refine ⟨?_, pairwise_waysBelow (n + 1) rest, fun way hway way' hway' => ?_⟩
    · refine (pairwise_ways t).imp fun hlt => ?_
      exact List.cons_lt_cons_iff.2 (.inr ⟨rfl, hlt⟩)
    -- the places of the trees after the first one are greater
    · obtain ⟨first, -, rfl⟩ := List.mem_map.1 hway
      obtain ⟨i, t', rest', -, -, rfl⟩ := mem_waysBelow_iff.1 hway'
      have hplace : n < n + 1 + i := by omega
      exact List.cons_lt_cons_iff.2 (.inl hplace)
end

/-- No two nodes have the same way. -/
theorem nodup_ways (tree : SignalTree) : tree.ways.Nodup := by
  refine (pairwise_ways tree).imp ?_
  rintro way _ hlt rfl
  exact List.lt_irrefl _ hlt

/-! ### Kept nodes -/

/-- A way goes through deployed nodes only and can be continued so to a leaf. -/
def Leads (flat : Option Deploy.FlatMap) (tree : SignalTree) (way : Way) : Prop :=
  ∃ below ∈ (tree.target way).ways, ((tree.target way).target below).isLeaf = true ∧
    ∀ e ∈ way ++ below, isDeployed flat e.2.signal = true

/-- A node is kept when it is the root, or when there is a leaf, the node itself or one below it,
such that all nodes on the way from the root to the leaf are deployed. -/
def Kept (flat : Option Deploy.FlatMap) (tree : SignalTree) (way : Way) : Prop :=
  way = [] ∨ Leads flat tree way

open Classical in
/-- The ways to the kept nodes, in the order of the walk. -/
noncomputable def keptWays (flat : Option Deploy.FlatMap) (tree : SignalTree) : List Way :=
  tree.ways.filter fun way => Kept flat tree way

/-- The kept nodes, in the order of the walk. -/
noncomputable def keptNodes (flat : Option Deploy.FlatMap) (tree : SignalTree) :
    List SignalTree :=
  (keptWays flat tree).map tree.target

/-- A way into a child leads to a leaf when the child is deployed and the rest of the way leads to a
leaf from there. -/
theorem leads_cons_iff : Leads flat tree ((n, t) :: way) ↔
    isDeployed flat t.signal = true ∧ Leads flat t way := by
  simp only [Leads, target_cons, List.cons_append, List.forall_mem_cons]
  constructor
  · rintro ⟨below, hbelow, hleaf, ht, hall⟩
    exact ⟨ht, below, hbelow, hleaf, hall⟩
  · rintro ⟨ht, below, hbelow, hleaf, hall⟩
    exact ⟨below, hbelow, hleaf, ht, hall⟩

/-- Where some way through a tree leads to a leaf, the tree itself does. -/
theorem Leads.root (h : Leads flat tree way) (hway : way ∈ tree.ways) : Leads flat tree [] := by
  obtain ⟨below, hbelow, hleaf, hall⟩ := h
  refine ⟨way ++ below, append_mem_ways hway hbelow, ?_, hall⟩
  rw [target_nil, target_append]
  exact hleaf

/-- A tree leads to a leaf when it is one or when a way into one of its children does. -/
theorem leads_nil_iff : Leads flat tree [] ↔
    tree.isLeaf = true ∨ ∃ way ∈ waysBelow 0 tree.children, Leads flat tree way := by
  constructor
  · rintro ⟨below, hbelow, hleaf, hall⟩
    rw [target_nil, ways_eq, List.mem_cons] at hbelow
    rcases hbelow with rfl | hbelow
    · exact .inl hleaf
    · refine .inr ⟨below, hbelow, [], nil_mem_ways _, hleaf, ?_⟩
      rwa [List.append_nil]
  · rintro (hleaf | ⟨way, hway, hleads⟩)
    · exact ⟨[], nil_mem_ways _, hleaf, by simp⟩
    · exact hleads.root (by rw [ways_eq]; exact List.mem_cons_of_mem _ hway)

/-- Below every node there is a leaf, unless the node is one. -/
theorem exists_leaf : ∀ tree : SignalTree,
    ∃ below ∈ tree.ways, (tree.target below).isLeaf = true
  | node s [] => ⟨[], nil_mem_ways _, rfl⟩
  | node s (c :: cs) => by
    obtain ⟨below, hbelow, hleaf⟩ := exists_leaf c
    exact ⟨(0, c) :: below, cons_mem_ways_iff.2 ⟨rfl, hbelow⟩, hleaf⟩

/-- Without a layer every way leads to a leaf. -/
theorem leads_none (tree : SignalTree) (way : Way) : Leads none tree way := by
  obtain ⟨below, hbelow, hleaf⟩ := exists_leaf (tree.target way)
  exact ⟨below, hbelow, hleaf, fun _ _ => rfl⟩

section Classical

open Classical

/-- The kept ways are the way to the root and those into its children that lead to a leaf. -/
theorem keptWays_eq (flat : Option Deploy.FlatMap) (tree : SignalTree) :
    keptWays flat tree =
      [] :: (waysBelow 0 tree.children).filter fun way => Leads flat tree way := by
  rw [keptWays, ways_eq, List.filter_cons_of_pos (by simp [Kept])]
  congr 1
  refine List.filter_congr fun way hway => ?_
  obtain ⟨i, t, rest, -, -, rfl⟩ := mem_waysBelow_iff.1 hway
  simp [Kept]

/-- Of the ways through a tree either those to its kept nodes lead to a leaf, or none. -/
theorem filter_leads_ways (flat : Option Deploy.FlatMap) (tree : SignalTree) :
    (tree.ways.filter fun way => Leads flat tree way) =
      if Leads flat tree [] then keptWays flat tree else [] := by
  split
  · rename_i hroot
    refine List.filter_congr fun way _ => ?_
    have hkept : Kept flat tree way ↔ Leads flat tree way :=
      or_iff_right_of_imp fun heq => heq ▸ hroot
    simp only [hkept]
  · rename_i hroot
    rw [List.filter_eq_nil_iff]
    intro way hway hleads
    exact hroot ((of_decide_eq_true hleads).root hway)

/-- Where no way leads to a leaf, nothing but the root is kept. -/
theorem keptWays_of_not_leads (h : ¬ Leads flat tree []) : keptWays flat tree = [[]] := by
  rw [keptWays_eq, List.filter_eq_nil_iff.2]
  intro way hway hleads
  exact h (leads_nil_iff.2 (.inr ⟨way, hway, of_decide_eq_true hleads⟩))

/-- Among neighbouring trees, a tree that is not deployed has no way that leads to a leaf, and one
that is deployed has those of its own. -/
theorem filter_leads_waysBelow :
    ((waysBelow n (t :: rest)).filter fun way => Leads flat tree way) =
      (if isDeployed flat t.signal then
        (t.ways.filter fun way => Leads flat t way).map ((n, t) :: ·) else []) ++
      (waysBelow (n + 1) rest).filter fun way => Leads flat tree way := by
  rw [waysBelow, List.filter_append, List.filter_map]
  congr 1
  split
  · rename_i hdeployed
    congr 1
    refine List.filter_congr fun way _ => ?_
    simp only [Function.comp_apply, leads_cons_iff, hdeployed, true_and]
  · rename_i hdeployed
    rw [List.map_eq_nil_iff, List.filter_eq_nil_iff]
    intro way _ hleads
    exact hdeployed (leads_cons_iff.1 (of_decide_eq_true hleads)).1

/-- Without a layer all nodes are kept. -/
theorem keptWays_none (tree : SignalTree) : keptWays none tree = tree.ways := by
  rw [keptWays, List.filter_eq_self]
  intro way _
  exact decide_eq_true (.inr (leads_none tree way))

end Classical

end SignalSchema.SignalTree
