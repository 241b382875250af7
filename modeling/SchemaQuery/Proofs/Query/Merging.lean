import SchemaQuery.Query.Populate

/-!
# Merging forests of relations

A forest is merged by grafting its relations one after another onto the forest before them. Grafting is an
action: grafting a merged forest is grafting all that it was merged from, in order. So it does not matter
whether parts of a forest are merged before they are put together or after.
-/

namespace SchemaQuery

namespace PopulateNode

@[simp] theorem name_node (x : String) (children : List PopulateNode) : (node x children).name = x := rfl

mutual

/-- Whether siblings below a relation have different names, at every depth. -/
def Merged : PopulateNode → Prop
  | node _ children => AllMerged children

/-- Whether siblings have different names, at every depth of a forest. -/
def AllMerged : List PopulateNode → Prop
  | [] => True
  | first :: rest => first.name ∉ rest.map name ∧ first.Merged ∧ AllMerged rest

end

/-- The empty forest is merged. -/
theorem allMerged_nil : AllMerged [] :=
  trivial

section Growing

variable {x y : String} {f g : List PopulateNode → List PopulateNode}

/-- Changing what is below a name adds the name if it is new, and no other. -/
theorem names_growAt (x : String) (f : List PopulateNode → List PopulateNode) (forest : List PopulateNode) :
    (growAt x f forest).map name =
      if x ∈ forest.map name then forest.map name else forest.map name ++ [x] := by
  induction forest with
  | nil => rfl
  | cons first rest ih =>
    obtain ⟨other, children⟩ := first
    by_cases hother : other = x
    · subst hother
      simp [growAt, name]
    · simp only [growAt, hother, if_false, List.map_cons, ih, List.mem_cons, name_node, Ne.symm hother,
        false_or]
      split <;> rfl

/-- A name that something is put below is there. -/
theorem mem_names_growAt (x : String) (f : List PopulateNode → List PopulateNode)
    (forest : List PopulateNode) : x ∈ (growAt x f forest).map name := by
  rw [names_growAt]
  split
  · assumption
  · simp

/-- Names stay when something is put below a name. -/
theorem mem_names_growAt_of_mem {forest : List PopulateNode} (y : String)
    (g : List PopulateNode → List PopulateNode) (h : x ∈ forest.map name) :
    x ∈ (growAt y g forest).map name := by
  rw [names_growAt]
  split
  · exact h
  · exact List.mem_append_left _ h

/-- A new name comes last. -/
theorem growAt_of_not_mem {forest : List PopulateNode} (h : x ∉ forest.map name) :
    growAt x f forest = forest ++ [node x (f [])] := by
  induction forest with
  | nil => rfl
  | cons first rest ih =>
    obtain ⟨other, children⟩ := first
    simp only [List.map_cons, name_node, List.mem_cons, not_or] at h
    rw [growAt, if_neg (Ne.symm h.1), ih h.2, List.cons_append]

/-- Two changes below one name are one change. -/
theorem growAt_growAt (x : String) (f g : List PopulateNode → List PopulateNode)
    (forest : List PopulateNode) :
    growAt x f (growAt x g forest) = growAt x (fun old => f (g old)) forest := by
  induction forest with
  | nil => simp [growAt]
  | cons first rest ih =>
    obtain ⟨other, children⟩ := first
    by_cases hother : other = x <;> simp [growAt, hother, ih]

/-- Changes below two names can be made in either order when the first name is there: where a name comes is
decided once. -/
theorem growAt_comm {forest : List PopulateNode} (hne : x ≠ y) (hmem : x ∈ forest.map name) :
    growAt x f (growAt y g forest) = growAt y g (growAt x f forest) := by
  induction forest with
  | nil => cases hmem
  | cons first rest ih =>
    obtain ⟨other, children⟩ := first
    by_cases hx : other = x
    · subst hx
      simp [growAt, hne]
    · have hrest : x ∈ rest.map name := (List.mem_cons.mp hmem).resolve_left (Ne.symm hx)
      by_cases hy : other = y
      · subst hy
        simp [growAt, hx]
      · simp only [growAt, hx, hy, if_false, ih hrest]

/-- Changing what is below a name keeps a forest merged if the change does. -/
theorem AllMerged.growAt {forest : List PopulateNode} (h : AllMerged forest)
    (hf : ∀ children, AllMerged children → AllMerged (f children)) : AllMerged (growAt x f forest) := by
  induction forest with
  | nil => exact ⟨List.not_mem_nil, hf [] trivial, trivial⟩
  | cons first rest ih =>
    obtain ⟨other, children⟩ := first
    obtain ⟨hnew, hchildren, hrest⟩ := h
    by_cases hother : other = x
    · rw [PopulateNode.growAt, if_pos hother]
      exact ⟨hnew, hf children hchildren, hrest⟩
    · rw [PopulateNode.growAt, if_neg hother]
      refine ⟨?_, hchildren, ih hrest⟩
      rw [names_growAt]
      split
      · exact hnew
      · rw [List.mem_append, not_or]
        exact ⟨hnew, fun h => hother (List.mem_singleton.mp h)⟩

end Growing

mutual

/-- Grafting a relation keeps a forest merged. -/
theorem AllMerged.graft {forest : List PopulateNode} (h : AllMerged forest) (n : PopulateNode) :
    AllMerged (graft n forest) := by
  match n with
  | node x children =>
    rw [PopulateNode.graft]
    exact h.growAt fun old hold => hold.graftAll children

/-- Grafting relations keeps a forest merged. -/
theorem AllMerged.graftAll {forest : List PopulateNode} (h : AllMerged forest)
    (nodes : List PopulateNode) : AllMerged (graftAll nodes forest) := by
  match nodes with
  | [] => exact h
  | n :: rest =>
    rw [PopulateNode.graftAll]
    exact (h.graft n).graftAll rest

end

/-- A forest is merged after it has been merged. -/
theorem allMerged_merge (forest : List PopulateNode) : AllMerged (merge forest) :=
  allMerged_nil.graftAll forest

/-- Relations are grafted one after another. -/
theorem graftAll_append (left right forest : List PopulateNode) :
    graftAll (left ++ right) forest = graftAll right (graftAll left forest) := by
  induction left generalizing forest with
  | nil => rfl
  | cons n rest ih => rw [List.cons_append, graftAll, graftAll, ih]

/-- Merging forests one after another is grafting the second onto the first, merged. -/
theorem merge_append (left right : List PopulateNode) : merge (left ++ right) = graftAll right (merge left) :=
  graftAll_append left right []

/-- Grafting relations of other names does not meddle with what is below a name that is there. -/
theorem graftAll_growAt_of_not_mem {x : String} {f : List PopulateNode → List PopulateNode}
    {nodes forest : List PopulateNode} (hnodes : x ∉ nodes.map name) (hmem : x ∈ forest.map name) :
    graftAll nodes (growAt x f forest) = growAt x f (graftAll nodes forest) := by
  induction nodes generalizing forest with
  | nil => rfl
  | cons n rest ih =>
    obtain ⟨other, children⟩ := n
    simp only [List.map_cons, name_node, List.mem_cons, not_or] at hnodes
    rw [graftAll, graftAll, graft, graft, ← growAt_comm hnodes.1 hmem]
    exact ih hnodes.2 (mem_names_growAt_of_mem _ _ hmem)

/-- A change below a name can be made in a merged forest before it is grafted, or after: it is the same if it
is the same for what is below the name. -/
theorem graftAll_growAt {x : String} {f : List PopulateNode → List PopulateNode}
    (hf : ∀ children old, AllMerged children → graftAll (f children) old = f (graftAll children old))
    {nodes : List PopulateNode} (hnodes : AllMerged nodes) (forest : List PopulateNode) :
    graftAll (growAt x f nodes) forest = growAt x f (graftAll nodes forest) := by
  induction nodes generalizing forest with
  | nil =>
    have hbelow : graftAll (f []) = f := funext fun old => hf [] old trivial
    rw [growAt, graftAll, graftAll, graftAll, graft, hbelow]
  | cons n rest ih =>
    obtain ⟨other, children⟩ := n
    obtain ⟨hnew, hchildren, hrest⟩ := hnodes
    by_cases hother : other = x
    · subst hother
      have hbelow (old) : graftAll (f children) old = f (graftAll children old) := hf children old hchildren
      -- No later relation has the name, so the change can be made behind all of them.
      rw [name_node] at hnew
      simp only [growAt, if_true, graftAll, graft, hbelow]
      rw [← growAt_growAt, graftAll_growAt_of_not_mem hnew (mem_names_growAt other _ _)]
    · rw [growAt, if_neg hother, graftAll, graftAll, ih hrest]

mutual

/-- Grafting a relation onto a merged forest that is then grafted is grafting the forest, then the relation. -/
theorem graftAll_graft (n : PopulateNode) {nodes : List PopulateNode} (hnodes : AllMerged nodes)
    (forest : List PopulateNode) : graftAll (graft n nodes) forest = graft n (graftAll nodes forest) := by
  match n with
  | node x children =>
    rw [graft, graft]
    exact graftAll_growAt (fun nodes old hmerged => graftAll_graftAll children hmerged old) hnodes forest

/-- Grafting relations onto a merged forest that is then grafted is grafting the forest, then the
relations. -/
theorem graftAll_graftAll (left : List PopulateNode) {nodes : List PopulateNode}
    (hnodes : AllMerged nodes) (forest : List PopulateNode) :
    graftAll (graftAll left nodes) forest = graftAll left (graftAll nodes forest) := by
  match left with
  | [] => rfl
  | n :: rest =>
    rw [graftAll, graftAll_graftAll rest (hnodes.graft n), graftAll_graft n hnodes, ← graftAll]

end

/-- Grafting a forest that has been merged is grafting the forest. -/
theorem graftAll_merge (nodes forest : List PopulateNode) :
    graftAll (merge nodes) forest = graftAll nodes forest :=
  graftAll_graftAll nodes allMerged_nil forest

/-- Parts of a forest may be merged before they are put together. -/
theorem merge_flatten_map_merge (forests : List (List PopulateNode)) :
    merge (forests.map merge).flatten = merge forests.flatten := by
  -- Grafting onto any forest, for the induction on the parts.
  have hgraft (start : List PopulateNode) :
      graftAll (forests.map merge).flatten start = graftAll forests.flatten start := by
    induction forests generalizing start with
    | nil => rfl
    | cons first rest ih =>
      rw [List.map_cons, List.flatten_cons, List.flatten_cons, graftAll_append, graftAll_append,
        graftAll_merge, ih]
  exact hgraft []

/-- New names stay new behind the first of them. -/
theorem not_mem_names_append_singleton {n : PopulateNode} {nodes forest : List PopulateNode}
    (hmerged : AllMerged (n :: nodes)) (hnew : ∀ m ∈ n :: nodes, m.name ∉ forest.map name) :
    ∀ m ∈ nodes, m.name ∉ (forest ++ [n]).map name := by
  intro m hm hmem
  rw [List.map_append, List.mem_append] at hmem
  obtain hforest | hn := hmem
  · exact hnew m (List.mem_cons_of_mem _ hm) hforest
  · have hname : m.name = n.name := List.mem_singleton.mp hn
    exact hmerged.1 (hname ▸ List.mem_map_of_mem hm)

mutual

/-- A merged relation of a new name is added as it is. -/
theorem graft_of_not_mem {n : PopulateNode} (hmerged : n.Merged) {forest : List PopulateNode}
    (hnew : n.name ∉ forest.map name) : graft n forest = forest ++ [n] := by
  match n with
  | node x children =>
    have hchildren : graftAll children [] = children :=
      graftAll_of_disjoint hmerged fun _ _ => List.not_mem_nil
    rw [name_node] at hnew
    rw [graft, growAt_of_not_mem hnew, hchildren]

/-- Merged relations of new names are added as they are. -/
theorem graftAll_of_disjoint {nodes : List PopulateNode} (hmerged : AllMerged nodes)
    {forest : List PopulateNode} (hnew : ∀ n ∈ nodes, n.name ∉ forest.map name) :
    graftAll nodes forest = forest ++ nodes := by
  match nodes with
  | [] => rw [graftAll, List.append_nil]
  | n :: rest =>
    have hgraft := graft_of_not_mem hmerged.2.1 (hnew n List.mem_cons_self)
    rw [graftAll, hgraft, graftAll_of_disjoint hmerged.2.2 (not_mem_names_append_singleton hmerged hnew),
      List.append_assoc, List.singleton_append]

end

/-- A forest that is merged is merged without change. -/
theorem merge_of_allMerged {forest : List PopulateNode} (h : AllMerged forest) : merge forest = forest :=
  graftAll_of_disjoint h fun _ _ => List.not_mem_nil

/-- Merged forests without a name in common are merged when they are put together. -/
theorem merge_append_of_disjoint {left right : List PopulateNode} (hleft : AllMerged left)
    (hright : AllMerged right) (hnew : ∀ n ∈ right, n.name ∉ left.map name) :
    merge (left ++ right) = left ++ right := by
  rw [merge_append, merge_of_allMerged hleft, graftAll_of_disjoint hright hnew]

end PopulateNode

end SchemaQuery
