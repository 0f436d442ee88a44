/-
Module: Paratix.Orchestration.ModuleFilter
Purpose: The `--filter` option: which nodes of the tree of recipes and modules are kept,
  rebuilt or replaced by a stub.
Main exports: LeafModule, moduleFilter_exact
-/
import Paratix.Orchestration.Runner

namespace Paratix.Orchestration

open Foundation

variable {σ : Type}

/-! ### The tree -/

/-- A module that is no recipe, a `when` block included. -/
structure LeafModule (σ : Type) where
  name : Name
  isLocal : Bool
  dryRunBlocker : Bool
  check : Environment σ → Async σ CheckResult
  apply : ApplyOptions σ → Environment σ → Async σ (ModuleResult σ)
  /-- `_applyDryRun`, with the `_dryRunDetail` of its result -/
  applyDryRun : Option (Environment σ → Async σ (ModuleResult σ × Option (List Char)))

inductive ModuleTree (σ : Type) where
  | leaf (module : LeafModule σ)
  | recipe (name : Name) (modules : List (ModuleTree σ)) (signals : Option (List (ModuleTree σ)))

namespace ModuleTree

def name : ModuleTree σ → Name
  | .leaf module => module.name
  | .recipe name _ _ => name

/-- Induction over the children; nothing descends into the signals. -/
theorem children_induction {holds : ModuleTree σ → Prop} (leaf : ∀ module, holds (.leaf module))
    (recipe : ∀ name modules signals, (∀ child ∈ modules, holds child) →
      holds (.recipe name modules signals)) : ∀ tree, holds tree
  | .leaf module => leaf module
  | .recipe name modules signals =>
    recipe name modules signals fun child _ => children_induction leaf recipe child

/-- The node at a position below this one. -/
def nodeAt : ModuleTree σ → List Nat → Option (ModuleTree σ)
  | tree, [] => some tree
  | .leaf _, _ :: _ => none
  | .recipe _ modules _, index :: path =>
      match modules[index]? with
      | none => none
      | some child => child.nodeAt path

/-- The names of the enclosing recipes, from this node on, and of the node itself. -/
def namesTo : ModuleTree σ → List Nat → List Name
  | tree, [] => [tree.name]
  | .leaf _, _ :: _ => []
  | .recipe name modules _, index :: path =>
      match modules[index]? with
      | none => []
      | some child => name :: child.namesTo path

end ModuleTree

/-! ### Filtering -/

def SKIP_DRY_RUN_DETAIL : List Char := "filtered out".toList

def createSkipModule (name : Name) : LeafModule σ where
  name := name
  isLocal := true
  dryRunBlocker := true
  check _ := pure .needsApply
  apply _ _ := pure skippedResult
  applyDryRun := some fun _ => pure (skippedResult, some SKIP_DRY_RUN_DETAIL)

section Filter

variable (filter : List Name)

mutual

def subtreeHasFilterMatch : ModuleTree σ → Bool
  | .leaf module => module.name ∈ filter
  | .recipe name modules _ => name ∈ filter || someSubtreeMatches modules

def someSubtreeMatches : List (ModuleTree σ) → Bool
  | [] => false
  | child :: children => subtreeHasFilterMatch child || someSubtreeMatches children

end

mutual

def filterNode (ancestorSelected : Bool) : ModuleTree σ → ModuleTree σ
  | .leaf module =>
      let selfSelected := ancestorSelected || module.name ∈ filter
      if selfSelected then .leaf module else .leaf (createSkipModule module.name)
  | .recipe name modules signals =>
      let selfSelected := ancestorSelected || name ∈ filter
      if selfSelected then .recipe name modules signals
      else if subtreeHasFilterMatch filter (.recipe name modules signals) then
        .recipe name (filterChildren modules) signals
      else .leaf (createSkipModule name)

/-- `module._modules.map((child) => filterNode(child, filter, false))` -/
def filterChildren : List (ModuleTree σ) → List (ModuleTree σ)
  | [] => []
  | child :: children => filterNode false child :: filterChildren children

end

def applyModuleFilter (modules : List (ModuleTree σ)) : List (ModuleTree σ) :=
  modules.map (filterNode filter false)

end Filter

/-- The node at a position of a list of modules. -/
def nodeAt (modules : List (ModuleTree σ)) (index : Nat) (path : List Nat) :
    Option (ModuleTree σ) := modules[index]?.bind (·.nodeAt path)

/-- The filter names the node at the position or a recipe around it. -/
def Selected (filter : List Name) (modules : List (ModuleTree σ)) (index : Nat)
    (path : List Nat) : Prop :=
  ∃ tree, modules[index]? = some tree ∧ ∃ name ∈ tree.namesTo path, name ∈ filter

section Filter

variable {filter : List Name}

theorem someSubtreeMatches_eq (modules : List (ModuleTree σ)) :
    someSubtreeMatches filter modules = modules.any (subtreeHasFilterMatch filter) := by
  induction modules with
  | nil => rfl
  | cons child children ih =>
    rw [someSubtreeMatches, ih, List.any_cons]

theorem filterChildren_eq (modules : List (ModuleTree σ)) :
    filterChildren filter modules = applyModuleFilter filter modules := by
  induction modules with
  | nil => rfl
  | cons child children ih =>
    rw [filterChildren, ih]
    rfl

theorem subtreeHasFilterMatch_recipe {name : Name} {modules : List (ModuleTree σ)}
    {signals : Option (List (ModuleTree σ))} :
    subtreeHasFilterMatch filter (.recipe name modules signals) = true ↔
      name ∈ filter ∨ ∃ child ∈ modules, subtreeHasFilterMatch filter child = true := by
  rw [subtreeHasFilterMatch, someSubtreeMatches_eq, Bool.or_eq_true, decide_eq_true_eq,
    List.any_eq_true]

theorem filterNode_leaf (module : LeafModule σ) : filterNode filter false (.leaf module) =
      if module.name ∈ filter then .leaf module else .leaf (createSkipModule module.name) := by
  simp only [filterNode, Bool.false_or, decide_eq_true_eq]

/-- The three outcomes of a recipe: kept, rebuilt and replaced. -/
theorem filterNode_recipe (name : Name) (modules : List (ModuleTree σ))
    (signals : Option (List (ModuleTree σ))) :
    filterNode filter false (.recipe name modules signals) =
      if name ∈ filter then .recipe name modules signals
      else if subtreeHasFilterMatch filter (.recipe name modules signals) then
        .recipe name (applyModuleFilter filter modules) signals
      else .leaf (createSkipModule name) := by
  simp only [filterNode, Bool.false_or, decide_eq_true_eq, filterChildren_eq]

/-- Every outcome has the node's name. -/
theorem name_filterNode (tree : ModuleTree σ) :
    (filterNode filter false tree).name = tree.name := by
  cases tree with
  | leaf module =>
    rw [filterNode_leaf]
    split
    · rfl
    · rfl
  | recipe name modules signals =>
    rw [filterNode_recipe]
    split
    · rfl
    · split
      · rfl
      · rfl

theorem map_name_applyModuleFilter (modules : List (ModuleTree σ)) :
    (applyModuleFilter filter modules).map ModuleTree.name = modules.map ModuleTree.name := by
  rw [applyModuleFilter, List.map_map]
  exact List.map_congr_left fun tree _ => name_filterNode tree

theorem getElem?_applyModuleFilter (modules : List (ModuleTree σ)) (index : Nat) :
    (applyModuleFilter filter modules)[index]? = modules[index]?.map (filterNode filter false) :=
  List.getElem?_map ..

/-! ### Positions -/

/-- A name on the way to a node makes the subtree one with a match. -/
theorem subtreeHasFilterMatch_of_namesTo {tree : ModuleTree σ} {path : List Nat} {name : Name}
    (onPath : name ∈ tree.namesTo path) (inFilter : name ∈ filter) :
    subtreeHasFilterMatch filter tree = true := by
  induction path generalizing tree with
  | nil =>
    rw [ModuleTree.namesTo, List.mem_singleton] at onPath
    cases tree with
    | leaf module =>
      rw [onPath] at inFilter
      rw [subtreeHasFilterMatch]
      exact decide_eq_true inFilter
    | recipe own modules signals =>
      rw [onPath] at inFilter
      exact subtreeHasFilterMatch_recipe.2 (.inl inFilter)
  | cons index path ih =>
    cases tree with
    | leaf module => exact absurd onPath List.not_mem_nil
    | recipe own modules signals =>
      rw [ModuleTree.namesTo] at onPath
      cases found : modules[index]? with
      | none =>
        rw [found] at onPath
        exact absurd onPath List.not_mem_nil
      | some child =>
        rw [found] at onPath
        rcases List.mem_cons.1 onPath with isOwn | below
        · rw [isOwn] at inFilter
          exact subtreeHasFilterMatch_recipe.2 (.inl inFilter)
        · exact subtreeHasFilterMatch_recipe.2
            (.inr ⟨child, List.mem_of_getElem? found, ih below⟩)

theorem nodeAt_recipe {name : Name} {modules : List (ModuleTree σ)}
    {signals : Option (List (ModuleTree σ))} {index : Nat} {path : List Nat} {node : ModuleTree σ}
    (isNode : (ModuleTree.recipe name modules signals).nodeAt (index :: path) = some node) :
    ∃ child, modules[index]? = some child ∧ child.nodeAt path = some node := by
  rw [ModuleTree.nodeAt] at isNode
  cases found : modules[index]? with
  | none =>
    rw [found] at isNode
    cases isNode
  | some child =>
    rw [found] at isNode
    exact ⟨child, rfl, isNode⟩

theorem nodeAt_rebuilt {name : Name} {modules : List (ModuleTree σ)}
    {signals : Option (List (ModuleTree σ))} {index : Nat} {child : ModuleTree σ}
    (found : modules[index]? = some child) (path : List Nat) :
    (ModuleTree.recipe name (applyModuleFilter filter modules) signals).nodeAt (index :: path) =
      (filterNode filter false child).nodeAt path := by
  rw [ModuleTree.nodeAt, getElem?_applyModuleFilter, found]
  rfl

/-- A leaf with a named node on its way is kept as it is. -/
theorem nodeAt_filterNode_of_named {tree : ModuleTree σ} {path : List Nat}
    {module : LeafModule σ} (isLeaf : tree.nodeAt path = some (.leaf module)) {name : Name}
    (onPath : name ∈ tree.namesTo path) (inFilter : name ∈ filter) :
    (filterNode filter false tree).nodeAt path = some (.leaf module) := by
  induction path generalizing tree with
  | nil =>
    cases isLeaf
    rw [ModuleTree.namesTo, List.mem_singleton] at onPath
    have named : module.name ∈ filter := by
      rw [onPath] at inFilter
      exact inFilter
    rw [filterNode_leaf, if_pos named]
    rfl
  | cons index path ih =>
    cases tree with
    | leaf other => cases isLeaf
    | recipe own modules signals =>
      have isMatch := subtreeHasFilterMatch_of_namesTo onPath inFilter
      obtain ⟨child, found, isChild⟩ := nodeAt_recipe isLeaf
      rw [filterNode_recipe]
      by_cases ownNamed : own ∈ filter
      · rw [if_pos ownNamed]
        exact isLeaf
      · rw [if_neg ownNamed, if_pos isMatch, nodeAt_rebuilt found]
        apply ih isChild
        rw [ModuleTree.namesTo, found] at onPath
        rcases List.mem_cons.1 onPath with isOwn | below
        · rw [isOwn] at inFilter
          exact absurd inFilter ownNamed
        · exact below

/-- A recipe without any match above the leaf became a stub as a whole. -/
def StubbedAbove (filter : List Name) (tree : ModuleTree σ) (path : List Nat) : Prop :=
  ∃ front back name modules signals, path = front ++ back ∧ back ≠ [] ∧
    tree.nodeAt front = some (.recipe name modules signals) ∧
    subtreeHasFilterMatch filter (.recipe name modules signals) = false ∧
    (filterNode filter false tree).nodeAt front = some (.leaf (createSkipModule name))

/-- A leaf without a named node on its way is a stub of its own or inside one. -/
theorem nodeAt_filterNode_of_unnamed {tree : ModuleTree σ} {path : List Nat}
    {module : LeafModule σ} (isLeaf : tree.nodeAt path = some (.leaf module))
    (unnamed : ∀ name ∈ tree.namesTo path, name ∉ filter) :
    (filterNode filter false tree).nodeAt path = some (.leaf (createSkipModule module.name)) ∨
      StubbedAbove filter tree path := by
  induction path generalizing tree with
  | nil =>
    cases isLeaf
    left
    have ownUnnamed : module.name ∉ filter := unnamed _ (List.mem_singleton.2 rfl)
    rw [filterNode_leaf, if_neg ownUnnamed]
    rfl
  | cons index path ih =>
    cases tree with
    | leaf other => cases isLeaf
    | recipe own modules signals =>
      obtain ⟨child, found, isChild⟩ := nodeAt_recipe isLeaf
      rw [ModuleTree.namesTo, found] at unnamed
      obtain ⟨ownUnnamed, below⟩ := List.forall_mem_cons.1 unnamed
      by_cases isMatch : subtreeHasFilterMatch filter (.recipe own modules signals) = true
      · have rebuilt := @filterNode_recipe _ filter own modules signals
        rw [if_neg ownUnnamed, if_pos isMatch] at rebuilt
        rcases ih isChild below with stub | ⟨front, back, name, inner,
          innerSignals, isPath, someBack, isRecipe, noMatch, stub⟩
        · left
          rw [rebuilt, nodeAt_rebuilt found]
          exact stub
        · right
          refine ⟨index :: front, back, name, inner, innerSignals, ?_, someBack, ?_, noMatch, ?_⟩
          · rw [isPath, List.cons_append]
          · rw [ModuleTree.nodeAt, found]
            exact isRecipe
          · rw [rebuilt, nodeAt_rebuilt found]
            exact stub
      · right
        refine ⟨[], index :: path, own, modules, signals, rfl, List.cons_ne_nil _ _, rfl,
          Bool.eq_false_iff.2 isMatch, ?_⟩
        rw [filterNode_recipe, if_neg ownUnnamed, if_neg isMatch]
        rfl

/-- A recipe that is still there keeps its name, its signals, and the number, order and
names of its children. -/
theorem recipe_of_nodeAt_filterNode {tree : ModuleTree σ} {path : List Nat} {name : Name}
    {modules : List (ModuleTree σ)} {signals : Option (List (ModuleTree σ))}
    (isRecipe : (filterNode filter false tree).nodeAt path = some (.recipe name modules signals)) :
    ∃ original, tree.nodeAt path = some (.recipe name original signals) ∧
      modules.map ModuleTree.name = original.map ModuleTree.name := by
  induction path generalizing tree with
  | nil =>
    cases tree with
    | leaf module =>
      rw [filterNode_leaf] at isRecipe
      split at isRecipe
      · cases isRecipe
      · cases isRecipe
    | recipe own original ownSignals =>
      rw [filterNode_recipe] at isRecipe
      split at isRecipe
      · cases isRecipe
        exact ⟨_, rfl, rfl⟩
      · split at isRecipe
        · cases isRecipe
          exact ⟨_, rfl, map_name_applyModuleFilter _⟩
        · cases isRecipe
  | cons index path ih =>
    cases tree with
    | leaf module =>
      rw [filterNode_leaf] at isRecipe
      split at isRecipe
      · cases isRecipe
      · cases isRecipe
    | recipe own original ownSignals =>
      rw [filterNode_recipe] at isRecipe
      split at isRecipe
      · exact ⟨modules, isRecipe, rfl⟩
      · split at isRecipe
        · obtain ⟨filtered, isFiltered, isNode⟩ := nodeAt_recipe isRecipe
          rw [getElem?_applyModuleFilter] at isFiltered
          obtain ⟨child, found, rfl⟩ := Option.map_eq_some_iff.1 isFiltered
          rw [ModuleTree.nodeAt, found]
          exact ih isNode
        · cases isRecipe

/-! ### Filtering twice -/

theorem subtreeHasFilterMatch_filterNode (tree : ModuleTree σ) :
    subtreeHasFilterMatch filter (filterNode filter false tree) =
      subtreeHasFilterMatch filter tree := by
  induction tree using ModuleTree.children_induction with
  | leaf module =>
    rw [filterNode_leaf]
    split
    · rfl
    · rfl
  | recipe name modules signals ih =>
    rw [filterNode_recipe]
    split
    · rfl
    · rename_i unnamed
      split
      · rename_i isMatch
        rw [isMatch, subtreeHasFilterMatch_recipe]
        rcases subtreeHasFilterMatch_recipe.1 isMatch with named | ⟨child, isChild, below⟩
        · exact absurd named unnamed
        · refine .inr ⟨_, List.mem_map_of_mem isChild, ?_⟩
          rw [ih child isChild]
          exact below
      · rename_i noMatch
        rw [Bool.eq_false_iff.2 noMatch, subtreeHasFilterMatch]
        exact decide_eq_false unnamed

theorem filterNode_filterNode (tree : ModuleTree σ) :
    filterNode filter false (filterNode filter false tree) = filterNode filter false tree := by
  induction tree using ModuleTree.children_induction with
  | leaf module =>
    rw [filterNode_leaf]
    split
    · rename_i named
      rw [filterNode_leaf, if_pos named]
    · rename_i unnamed
      rw [filterNode_leaf]
      exact if_neg unnamed
  | recipe name modules signals ih =>
    have same := @subtreeHasFilterMatch_filterNode _ filter (.recipe name modules signals)
    rw [filterNode_recipe] at same ⊢
    split
    · rename_i named
      rw [filterNode_recipe, if_pos named]
    · rename_i unnamed
      split
      · rename_i isMatch
        rw [if_neg unnamed, if_pos isMatch, isMatch] at same
        rw [filterNode_recipe, if_neg unnamed, if_pos same, applyModuleFilter,
          applyModuleFilter, List.map_map]
        congr 1
        exact List.map_congr_left ih
      · rw [filterNode_leaf]
        exact if_neg unnamed

theorem nodeAt_applyModuleFilter {modules : List (ModuleTree σ)} {index : Nat}
    {tree : ModuleTree σ} (found : modules[index]? = some tree) (path : List Nat) :
    nodeAt (applyModuleFilter filter modules) index path =
      (filterNode filter false tree).nodeAt path := by
  rw [nodeAt, getElem?_applyModuleFilter, found]
  rfl

/-- A recipe around the position has no match in its subtree and became one stub. -/
def InsideStub (filter : List Name) (modules : List (ModuleTree σ)) (index : Nat)
    (path : List Nat) : Prop :=
  ∃ front back name inner signals, path = front ++ back ∧ back ≠ [] ∧
    nodeAt modules index front = some (.recipe name inner signals) ∧
    subtreeHasFilterMatch filter (.recipe name inner signals) = false ∧
    nodeAt (applyModuleFilter filter modules) index front =
      some (.leaf (createSkipModule name))

/-- A leaf is kept if the filter names it or a recipe around it, and is otherwise a stub
with its name or inside a recipe that is one. What is still a recipe, and the list
itself, keeps the order and names of its children and its signals, and the filter finds
nothing more to do in its own result. -/
theorem moduleFilter_exact (filter : List Name) (modules : List (ModuleTree σ)) :
    (∀ index path module, nodeAt modules index path = some (.leaf module) →
      (Selected filter modules index path →
        nodeAt (applyModuleFilter filter modules) index path = some (.leaf module)) ∧
      (¬ Selected filter modules index path →
        nodeAt (applyModuleFilter filter modules) index path =
            some (.leaf (createSkipModule module.name)) ∨
          InsideStub filter modules index path)) ∧
    (applyModuleFilter filter modules).map ModuleTree.name = modules.map ModuleTree.name ∧
    (∀ index path name children signals,
      nodeAt (applyModuleFilter filter modules) index path =
          some (.recipe name children signals) →
        ∃ original, nodeAt modules index path = some (.recipe name original signals) ∧
          children.map ModuleTree.name = original.map ModuleTree.name) ∧
    applyModuleFilter filter (applyModuleFilter filter modules) =
      applyModuleFilter filter modules := by
  refine ⟨?_, map_name_applyModuleFilter modules, ?_, ?_⟩
  · intro index path module isLeaf
    obtain ⟨tree, found, isNode⟩ := Option.bind_eq_some_iff.mp isLeaf
    rw [nodeAt_applyModuleFilter found]
    constructor
    · rintro ⟨other, isOther, name, onPath, inFilter⟩
      rw [found] at isOther
      cases isOther
      exact nodeAt_filterNode_of_named isNode onPath inFilter
    · intro unselected
      have unnamed : ∀ name ∈ tree.namesTo path, name ∉ filter :=
        fun name onPath inFilter => unselected ⟨tree, found, name, onPath, inFilter⟩
      apply (nodeAt_filterNode_of_unnamed isNode unnamed).imp_right
      rintro ⟨front, back, name, inner, signals, isPath, someBack, isRecipe, noMatch, stub⟩
      refine ⟨front, back, name, inner, signals, isPath, someBack, ?_, noMatch, ?_⟩
      · rw [nodeAt, found]
        exact isRecipe
      · rw [nodeAt_applyModuleFilter found]
        exact stub
  · intro index path name children signals isRecipe
    obtain ⟨filtered, isFiltered, isNode⟩ := Option.bind_eq_some_iff.mp isRecipe
    rw [getElem?_applyModuleFilter] at isFiltered
    obtain ⟨tree, found, rfl⟩ := Option.map_eq_some_iff.mp isFiltered
    rw [nodeAt, found]
    exact recipe_of_nodeAt_filterNode isNode
  · rw [applyModuleFilter, applyModuleFilter, List.map_map]
    exact List.map_congr_left fun tree _ => filterNode_filterNode tree

end Filter

/-- A module that always has something to do. -/
def changingModule (name : Name) : LeafModule Unit where
  name := name
  isLocal := false
  dryRunBlocker := false
  check _ := pure .needsApply
  apply _ _ := pure { skippedResult with status := .changed }
  applyDryRun := none

/-- Two modules of a recipe and one beside it. -/
def smallTree : List (ModuleTree Unit) :=
  [.recipe ['w'] [.leaf (changingModule ['a']), .leaf (changingModule ['b'])] none,
    .leaf (changingModule ['c'])]

/-- With the filter `a` the first module of the recipe is kept and the second a stub. -/
theorem moduleFilter_exact_smallTree :
    nodeAt (applyModuleFilter [['a']] smallTree) 0 [0] = some (.leaf (changingModule ['a'])) ∧
      (nodeAt (applyModuleFilter [['a']] smallTree) 0 [1] =
          some (.leaf (createSkipModule ['b'])) ∨ InsideStub [['a']] smallTree 0 [1]) ∧
      ∃ original, nodeAt smallTree 0 [] = some (.recipe ['w'] original none) :=
  have exact_ := moduleFilter_exact [['a']] smallTree
  ⟨(exact_.1 0 [0] _ rfl).1 ⟨_, rfl, ['a'], by decide, by decide⟩,
    (exact_.1 0 [1] (changingModule ['b']) rfl).2 (by
      rintro ⟨tree, isTree, name, onPath, inFilter⟩
      cases isTree
      have unnamed : ∀ name ∈ [['w'], ['b']], name ∉ [['a']] := by decide
      exact unnamed name onPath inFilter),
    (exact_.2.2.1 0 [] _ _ _ rfl).imp fun _ original => original.1⟩

/-- Every unselected leaf is a stub in its own position. -/
def LeavesStubbed (filter : List Name) (modules : List (ModuleTree Unit)) : Prop :=
  ∀ index path module, nodeAt modules index path = some (.leaf module) →
    ¬ Selected filter modules index path →
      nodeAt (applyModuleFilter filter modules) index path =
        some (.leaf (createSkipModule module.name))

/-- With the filter `c` the whole recipe is one stub, without positions inside it. -/
theorem leaf_inside_stub : ¬ LeavesStubbed [['c']] smallTree := by
  intro stubbed
  have stub := stubbed 0 [0] (changingModule ['a']) rfl (by
    rintro ⟨tree, isTree, name, onPath, inFilter⟩
    cases isTree
    have unnamed : ∀ name ∈ [['w'], ['a']], name ∉ [['c']] := by decide
    exact unnamed name onPath inFilter)
  have gone : nodeAt (applyModuleFilter [['c']] smallTree) 0 [0] = none := rfl
  rw [gone] at stub
  cases stub

end Paratix.Orchestration
