import SchemaQuery.Proofs.Query.Merging
import SchemaQuery.Proofs.Query.RelationPaths

/-!
# Merged forests

Merging a forest leaves no two siblings of one name, and changes nothing else. Merging what is below a name is merging
the forest and going down to the name, so at the end of every path stand the names that the forest has there, each
where it comes first, and the paths are the same. Merging can also be done with what is below a name merged anew
whenever more comes below it. That ends, and with the same forest, since what has been merged is merged again without
change.
-/

namespace SchemaQuery

namespace PopulateNode

/-! ## Going down -/

/-- What relations of a name have below them, one after another. -/
def childrenAt (x : String) : List PopulateNode → List PopulateNode
  | [] => []
  | node other children :: rest =>
    if other = x then children ++ childrenAt x rest else childrenAt x rest

/-- The relations at the end of a path of names. -/
def along : List String → List PopulateNode → List PopulateNode
  | [], forest => forest
  | x :: path, forest => along path (childrenAt x forest)

section Descent

variable {x y : String} {f : List PopulateNode → List PopulateNode} {forest : List PopulateNode}

/-- Nothing is below a name that is not there. -/
theorem childrenAt_of_not_mem (h : x ∉ forest.map name) : childrenAt x forest = [] := by
  induction forest with
  | nil => rfl
  | cons first rest ih =>
    obtain ⟨other, children⟩ := first
    simp only [List.map_cons, name_node, List.mem_cons, not_or] at h
    rw [childrenAt, if_neg (Ne.symm h.1), ih h.2]

/-- A change below a name is a change of what is below it, if the name is there once at most. -/
theorem childrenAt_growAt_self (h : AllMerged forest) :
    childrenAt x (growAt x f forest) = f (childrenAt x forest) := by
  induction forest with
  | nil => simp [growAt, childrenAt]
  | cons first rest ih =>
    obtain ⟨other, children⟩ := first
    obtain ⟨hnew, -, hrest⟩ := h
    by_cases hother : other = x
    · subst hother
      -- No later relation has the name, so that the first has all that is below it.
      rw [name_node] at hnew
      simp [growAt, childrenAt, childrenAt_of_not_mem hnew]
    · simp only [growAt, childrenAt, hother, if_false, ih hrest]

/-- A change below a name leaves alone what is below the others. -/
theorem childrenAt_growAt_of_ne (h : x ≠ y) : childrenAt y (growAt x f forest) = childrenAt y forest := by
  induction forest with
  | nil => simp [growAt, childrenAt, h]
  | cons first rest ih =>
    obtain ⟨other, children⟩ := first
    by_cases hother : other = x
    · simp [growAt, childrenAt, hother, h]
    · simp only [growAt, childrenAt, hother, if_false, ih]

/-- Grafting relations grafts what they have below a name onto what is below it. -/
theorem childrenAt_graftAll (nodes : List PopulateNode) (h : AllMerged forest) :
    childrenAt x (graftAll nodes forest) = graftAll (childrenAt x nodes) (childrenAt x forest) := by
  induction nodes generalizing forest with
  | nil => rfl
  | cons n rest ih =>
    obtain ⟨other, children⟩ := n
    rw [graftAll, ih (h.graft _), graft]
    by_cases hother : other = x
    · subst hother
      rw [childrenAt_growAt_self h, childrenAt, if_pos rfl, graftAll_append]
    · rw [childrenAt_growAt_of_ne hother, childrenAt, if_neg hother]

/-- What is below a name of a forest that has been merged is what is below it in the forest, merged. -/
theorem childrenAt_merge (x : String) (forest : List PopulateNode) :
    childrenAt x (merge forest) = merge (childrenAt x forest) :=
  childrenAt_graftAll forest allMerged_nil

/-- At the end of a path a forest that has been merged is what the forest is there, merged. -/
theorem along_merge (path : List String) (forest : List PopulateNode) :
    along path (merge forest) = merge (along path forest) := by
  induction path generalizing forest with
  | nil => rfl
  | cons x path ih => rw [along, childrenAt_merge, ih, along]

end Descent

/-! ## Names and paths -/

/-- A name that is said again does not come first. -/
theorem eraseDups_append_singleton (names : List String) (x : String) :
    (names ++ [x]).eraseDups = if x ∈ names then names.eraseDups else names.eraseDups ++ [x] := by
  rw [List.eraseDups_append]
  by_cases hmem : x ∈ names <;> simp [List.removeAll, List.eraseDups_cons, hmem]

/-- Merging a forest keeps its names, each where it comes first. -/
theorem names_merge (forest : List PopulateNode) : (merge forest).map name = (forest.map name).eraseDups := by
  -- By induction on the last relation: a new name is added behind those that are there.
  induction forest using List.reverseRecOn with
  | nil => rfl
  | append_singleton before last ih =>
    obtain ⟨x, children⟩ := last
    rw [merge_append, graftAll, graftAll, graft, names_growAt, ih, List.map_append, List.map_singleton, name_node,
      eraseDups_append_singleton]
    simp only [List.mem_eraseDups]

/-- The paths of forests one after another. -/
theorem pathsOf_append (left right : List PopulateNode) : pathsOf (left ++ right) = pathsOf left ++ pathsOf right := by
  induction left with
  | nil => rfl
  | cons n rest ih => rw [List.cons_append, pathsOf, pathsOf, ih, List.append_assoc]

/-- Every path has a name. -/
theorem nil_not_mem_pathsOf (forest : List PopulateNode) : [] ∉ pathsOf forest := by
  induction forest with
  | nil => exact List.not_mem_nil
  | cons first rest ih =>
    obtain ⟨other, children⟩ := first
    simp [pathsOf, paths, ih]

/-- The paths of one name are the names of a forest. -/
theorem singleton_mem_pathsOf_iff {x : String} {forest : List PopulateNode} :
    [x] ∈ pathsOf forest ↔ x ∈ forest.map name := by
  induction forest with
  | nil => simp [pathsOf]
  | cons first rest ih =>
    obtain ⟨other, children⟩ := first
    simp [pathsOf, paths, ih, nil_not_mem_pathsOf]

/-- A longer path goes on below its first name. -/
theorem cons_mem_pathsOf_iff {x : String} {path : List String} (hpath : path ≠ []) {forest : List PopulateNode} :
    x :: path ∈ pathsOf forest ↔ path ∈ pathsOf (childrenAt x forest) := by
  induction forest with
  | nil => simp [pathsOf, childrenAt]
  | cons first rest ih =>
    obtain ⟨other, children⟩ := first
    by_cases hother : other = x
    · simp [pathsOf, paths, childrenAt, pathsOf_append, hother, hpath, ih]
    · simp [pathsOf, paths, childrenAt, hother, Ne.symm hother, ih]

/-- A path leads to a relation exactly if its last name is among those at the end of the rest. -/
theorem append_singleton_mem_pathsOf_iff {path : List String} {x : String} {forest : List PopulateNode} :
    path ++ [x] ∈ pathsOf forest ↔ x ∈ (along path forest).map name := by
  induction path generalizing forest with
  | nil => exact singleton_mem_pathsOf_iff
  | cons first path ih =>
    rw [List.cons_append, cons_mem_pathsOf_iff (by simp), ih, along]

/-- Merging keeps all paths and adds none. -/
theorem mem_pathsOf_merge_iff {path : List String} {forest : List PopulateNode} :
    path ∈ pathsOf (merge forest) ↔ path ∈ pathsOf forest := by
  rcases path.eq_nil_or_concat with rfl | ⟨front, last, rfl⟩
  · simp only [nil_not_mem_pathsOf]
  · rw [List.concat_eq_append, append_singleton_mem_pathsOf_iff, append_singleton_mem_pathsOf_iff, along_merge,
      names_merge, List.mem_eraseDups]

/-! ## Merging anew -/

/-- How relations are added to a forest when what is below a name is merged anew each time more comes below it: the
forest so far, the relations to add, and the forest that this ends with. -/
inductive Remerges : List PopulateNode → List PopulateNode → List PopulateNode → Prop where
  | done (forest : List PopulateNode) : Remerges forest [] forest
  | new {x : String} {forest children below rest result : List PopulateNode} (hnew : x ∉ forest.map name)
      (hbelow : Remerges [] children below) (hrest : Remerges (forest ++ [node x below]) rest result) :
      Remerges forest (node x children :: rest) result
  | known {x : String} {before after old children below rest result : List PopulateNode}
      (hfirst : x ∉ before.map name) (hbelow : Remerges [] (old ++ children) below)
      (hrest : Remerges (before ++ node x below :: after) rest result) :
      Remerges (before ++ node x old :: after) (node x children :: rest) result

section Remerging

variable {x : String} {before after old children nodes others forest middle result : List PopulateNode}

/-- A name that is there is there for a first time. -/
theorem exists_first (h : x ∈ forest.map name) :
    ∃ before old after, forest = before ++ node x old :: after ∧ x ∉ before.map name := by
  induction forest with
  | nil => cases h
  | cons first rest ih =>
    obtain ⟨other, children⟩ := first
    by_cases hother : other = x
    · subst hother
      exact ⟨[], children, rest, rfl, List.not_mem_nil⟩
    · have hrest : x ∈ rest.map name := (List.mem_cons.mp h).resolve_left (Ne.symm hother)
      obtain ⟨before, old, after, rfl, hfirst⟩ := ih hrest
      refine ⟨node other children :: before, old, after, rfl, ?_⟩
      simpa [Ne.symm hother] using hfirst

/-- A relation is grafted onto the first of its name. -/
theorem graft_append_cons (hfirst : x ∉ before.map name) :
    graft (node x children) (before ++ node x old :: after) = before ++ node x (graftAll children old) :: after := by
  rw [graft]
  induction before with
  | nil => simp [growAt]
  | cons first rest ih =>
    obtain ⟨other, below⟩ := first
    simp only [List.map_cons, name_node, List.mem_cons, not_or] at hfirst
    rw [List.cons_append, growAt, if_neg (Ne.symm hfirst.1), ih hfirst.2, List.cons_append]

/-- In a merged forest what is below each relation is merged. -/
theorem AllMerged.of_mem (h : AllMerged forest) (hmem : node x old ∈ forest) : AllMerged old := by
  induction forest with
  | nil => cases hmem
  | cons first rest ih =>
    obtain ⟨-, hchildren, hrest⟩ := h
    rcases List.mem_cons.mp hmem with rfl | hmem
    · exact hchildren
    · exact ih hrest hmem

/-- Where merging anew ends, relations have been grafted. -/
theorem Remerges.eq_graftAll (h : Remerges forest nodes result) (hforest : AllMerged forest) :
    result = graftAll nodes forest := by
  induction h with
  | done forest => rfl
  | @new x forest children below rest result hnew hbelow hrest ihbelow ihrest =>
    have hgraft : graft (node x children) forest = forest ++ [node x below] := by
      rw [graft, growAt_of_not_mem hnew, ihbelow allMerged_nil]
    rw [graftAll, hgraft]
    exact ihrest (hgraft ▸ hforest.graft _)
  | @known x before after old children below rest result hfirst hbelow hrest ihbelow ihrest =>
    have hold : AllMerged old := hforest.of_mem (List.mem_append_right _ List.mem_cons_self)
    have hgraft : graft (node x children) (before ++ node x old :: after) = before ++ node x below :: after := by
      rw [graft_append_cons hfirst, ihbelow allMerged_nil, ← merge, merge_append, merge_of_allMerged hold]
    rw [graftAll, hgraft]
    exact ihrest (hgraft ▸ hforest.graft _)

/-- Relations that are added one list after the other. -/
theorem Remerges.append (hnodes : Remerges forest nodes middle) (hothers : Remerges middle others result) :
    Remerges forest (nodes ++ others) result := by
  induction hnodes with
  | done => exact hothers
  | new hnew hbelow _ _ ih => exact .new hnew hbelow (ih hothers)
  | known hfirst hbelow _ _ ih => exact .known hfirst hbelow (ih hothers)

end Remerging

/-- Merged relations of new names are added as they are, also when what is below them is merged anew. -/
theorem remerges_of_disjoint {nodes forest : List PopulateNode} (hmerged : AllMerged nodes)
    (hnew : ∀ n ∈ nodes, n.name ∉ forest.map name) : Remerges forest nodes (forest ++ nodes) := by
  match nodes with
  | [] =>
    rw [List.append_nil]
    exact .done forest
  | node x children :: rest =>
    have hbelow : Remerges [] children children :=
      remerges_of_disjoint hmerged.2.1 fun _ _ => List.not_mem_nil
    have hrest := remerges_of_disjoint hmerged.2.2 (not_mem_names_append_singleton hmerged hnew)
    rw [List.append_assoc, List.singleton_append] at hrest
    exact .new (hnew _ List.mem_cons_self) hbelow hrest

/-- Merging anew ends, whatever is added to a merged forest. -/
theorem remerges_graftAll (nodes : List PopulateNode) {forest : List PopulateNode} (hforest : AllMerged forest) :
    Remerges forest nodes (graftAll nodes forest) := by
  match nodes with
  | [] => exact .done forest
  | node x children :: rest =>
    have hrest := remerges_graftAll rest (hforest.graft (node x children))
    rw [graftAll]
    by_cases hmem : x ∈ forest.map name
    · obtain ⟨before, old, after, rfl, hfirst⟩ := exists_first hmem
      have hold : AllMerged old := hforest.of_mem (List.mem_append_right _ List.mem_cons_self)
      -- What was below the name is merged already, and stays as it is when it is merged with the rest.
      have hbelow : Remerges [] (old ++ children) (graftAll children old) :=
        (remerges_of_disjoint hold fun _ _ => List.not_mem_nil).append (remerges_graftAll children hold)
      rw [graft_append_cons hfirst] at hrest ⊢
      exact .known hfirst hbelow hrest
    · have hgraft : graft (node x children) forest = forest ++ [node x (graftAll children [])] := by
        rw [graft, growAt_of_not_mem hmem]
      rw [hgraft] at hrest ⊢
      exact .new hmem (remerges_graftAll children allMerged_nil) hrest

/-- Merging is a normalisation. Merging anew whenever more comes below a name ends, with the same forest. In it siblings
have different names at every depth, the paths are those that there were, and at the end of each path the names stand in
the order in which they come first. A merged forest is merged without change, and either of two forests may be merged
before they are put together. -/
theorem merge_normalizes (x y : List PopulateNode) :
    (∀ result, Remerges [] x result ↔ result = merge x) ∧
      AllMerged (merge x) ∧
      (∀ path, path ∈ pathsOf (merge x) ↔ path ∈ pathsOf x) ∧
      (∀ path, (along path (merge x)).map name = ((along path x).map name).eraseDups) ∧
      merge (merge x) = merge x ∧
      merge (merge x ++ y) = merge (x ++ y) ∧ merge (x ++ merge y) = merge (x ++ y) := by
  refine ⟨fun result => ⟨fun h => h.eq_graftAll allMerged_nil, ?_⟩, allMerged_merge x,
    fun path => mem_pathsOf_merge_iff, fun path => ?_, merge_of_allMerged (allMerged_merge x), ?_, ?_⟩
  · rintro rfl
    exact remerges_graftAll x allMerged_nil
  · rw [along_merge, names_merge]
  · rw [merge_append, merge_append, merge_of_allMerged (allMerged_merge x)]
  · rw [merge_append, merge_append, graftAll_merge]

/-- Books with the cities of their authors, then shelves, then books with the names of their authors. -/
example :
    merge [node "books" [node "author" [node "city" []]], node "shelf" [],
        node "books" [node "author" [node "name" []], node "author" [node "city" []]]] =
      [node "books" [node "author" [node "city" [], node "name" []]], node "shelf" []] := rfl

end PopulateNode

end SchemaQuery
