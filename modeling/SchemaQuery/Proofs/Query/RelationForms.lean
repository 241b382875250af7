import SchemaQuery.Proofs.Query.Expressions

/-!
# Forms of what to load

What to load is said as an expression, as a list, or as a path with something below it, one inside the other. It is
written out as one expression and read from that, yet nothing of a part gets into another: a list is read as its
members one after another, and a path as a chain of relations with what is below it under the last one. So every form
of a forest of relations is read the same: objects, a list of expressions, or one expression.
-/

namespace SchemaQuery

namespace Populate

/-! ## Paths -/

/-- Names with dots between them. -/
inductive Chain where
  | last (name : Name)
  | link (name : Name) (below : Chain)

namespace Chain

/-- The characters of a chain. -/
def text : Chain → List Char
  | last name => name.chars
  | link name below => name.chars ++ '.' :: below.text

/-- The relations of a chain, each below the one before it, with relations below the last one. -/
def node (children : List PopulateNode) : Chain → PopulateNode
  | last name => .node (String.ofList name.chars) children
  | link name below => .node (String.ofList name.chars) [below.node children]

/-- The tree of a chain, with a list behind a dot or not. -/
def tree (below : Option ListTree) : Chain → ItemTree
  | last name =>
    match below with
    | none => .bare name
    | some behind => .dotted name behind
  | link name rest => .dotted name (.item (rest.tree below))

/-- A chain by itself spells its characters and denotes its relations. -/
theorem tree_none (chain : Chain) :
    (chain.tree none).text = chain.text ∧ (chain.tree none).node = chain.node [] := by
  induction chain with
  | last name => exact ⟨rfl, rfl⟩
  | link name below ih => simp [tree, ItemTree.text, ListTree.text, ItemTree.node, ListTree.forest, text, node, ih]

/-- A chain with a list spells the dot and the list behind its characters, and the relations of the list are below
its last one. -/
theorem tree_some (chain : Chain) (behind : ListTree) :
    (chain.tree (some behind)).text = chain.text ++ '.' :: behind.text ∧
      (chain.tree (some behind)).node = chain.node behind.forest := by
  induction chain with
  | last name => exact ⟨rfl, rfl⟩
  | link name below ih => simp [tree, ItemTree.text, ListTree.text, ItemTree.node, ListTree.forest, text, node, ih]

/-- Merging a chain merges what is below its last relation. -/
theorem merge_node (chain : Chain) (children : List PopulateNode) :
    PopulateNode.merge [chain.node children] = [chain.node (PopulateNode.merge children)] := by
  have hsingle (name : String) (below : List PopulateNode) :
      PopulateNode.merge [.node name below] = [.node name (PopulateNode.merge below)] := rfl
  induction chain with
  | last name => exact hsingle _ children
  | link name below ih => rw [node, node, hsingle, ih]

end Chain

section Paths

variable {names : String} {chain : Chain}

/-- A path by itself denotes its chain. -/
theorem denotes_path (h : chain.text = compact names) : Denotes (compact names) [chain.node []] := by
  obtain ⟨htext, hnode⟩ := chain.tree_none
  exact denotes_iff_tree.mpr ⟨.item (chain.tree none), htext.trans h, congrArg (fun node => [node]) hnode⟩

/-- A path with something below it denotes its chain, with what the rest denotes below the last relation. -/
theorem denotes_nested (h : chain.text = compact names) {below : Populate} {children : List PopulateNode}
    (hbelow : Denotes (compact below.toExpression) children) :
    Denotes (compact (nested names below).toExpression) [chain.node children] := by
  obtain ⟨behind, hbehind, rfl⟩ := denotes_iff_tree.mp hbelow
  obtain ⟨htext, hnode⟩ := chain.tree_some behind
  have hcompact : compact (nested names below).toExpression = chain.text ++ '.' :: behind.text := by
    rw [toExpression, compact_append, compact_append, h, hbehind, List.append_assoc]
    rfl
  exact denotes_iff_tree.mpr
    ⟨.item (chain.tree (some behind)), htext.trans hcompact.symm, congrArg (fun node => [node]) hnode⟩

/-- A path by itself is read as its chain. -/
theorem parse_path (h : chain.text = compact names) : (path names).parse = .ok [chain.node []] :=
  parse_eq_ok_iff.mpr ⟨_, denotes_path h, chain.merge_node []⟩

/-- A path with something below it is read as its chain, with what is read of the rest below the last relation. -/
theorem parse_nested (h : chain.text = compact names) {below : Populate} {nodes : List PopulateNode}
    (hbelow : below.parse = .ok nodes) : (nested names below).parse = .ok [chain.node nodes] := by
  obtain ⟨children, hchildren, rfl⟩ := parse_eq_ok_iff.mp hbelow
  exact parse_eq_ok_iff.mpr ⟨_, denotes_nested h hchildren, chain.merge_node children⟩

end Paths

/-! ## Forms of a forest -/

mutual

/-- Whether what to load is a form of a forest: an expression that spells it, a list of forms of its parts, or a chain
of names with a form of what is below the last one. -/
def Spells : Populate → List PopulateNode → Prop
  | expression text, forest => ∃ tree : ListTree, tree.text = compact text ∧ tree.forest = forest
  | list items, forest => items ≠ [] ∧ SpellTogether items forest
  | path names, forest => ∃ chain : Chain, chain.text = compact names ∧ [chain.node []] = forest
  | nested names below, forest => ∃ chain : Chain, chain.text = compact names ∧
      ∃ children, below.Spells children ∧ [chain.node children] = forest

/-- Whether the members of a list are forms of the parts of a forest, in order. -/
def SpellTogether : List Populate → List PopulateNode → Prop
  | [], forest => forest = []
  | item :: rest, forest => ∃ first others, item.Spells first ∧ SpellTogether rest others ∧ first ++ others = forest

end

mutual

/-- Written out as one expression, a form of a forest still denotes the forest. -/
theorem Spells.denotes {p : Populate} {forest : List PopulateNode} (h : p.Spells forest) :
    Denotes (compact p.toExpression) forest := by
  match p with
  | expression text => exact denotes_iff_tree.mpr h
  | list items =>
    obtain ⟨parts, hparts, rfl⟩ := SpellTogether.exists_parts h.2
    exact denotes_list hparts h.1
  | path names =>
    obtain ⟨chain, hchain, rfl⟩ := h
    exact denotes_path hchain
  | nested names below =>
    obtain ⟨chain, hchain, children, hbelow, rfl⟩ := h
    exact denotes_nested hchain hbelow.denotes

/-- Written out, the members of a list still denote the parts of the forest. -/
theorem SpellTogether.exists_parts {items : List Populate} {forest : List PopulateNode}
    (h : SpellTogether items forest) :
    ∃ parts, items.Forall₂ (fun p part => Denotes (compact p.toExpression) part) parts ∧ parts.flatten = forest := by
  match items with
  | [] => exact ⟨[], .nil, h.symm⟩
  | item :: rest =>
    obtain ⟨first, others, hitem, hrest, rfl⟩ := h
    obtain ⟨parts, hparts, rfl⟩ := SpellTogether.exists_parts hrest
    exact ⟨first :: parts, .cons hitem.denotes hparts, rfl⟩

end

/-- Every form of a forest is read as the forest, merged. -/
theorem Spells.parse {p : Populate} {forest : List PopulateNode} (h : p.Spells forest) :
    p.parse = .ok (PopulateNode.merge forest) :=
  parse_eq_ok_iff.mpr ⟨forest, h.denotes, rfl⟩

/-- The expression that a form of a forest is written out as is a form of it, too. -/
theorem Spells.expression {p : Populate} {forest : List PopulateNode} (h : p.Spells forest) :
    (expression p.toExpression).Spells forest :=
  denotes_iff_tree.mp h.denotes

/-! ## What is well-formed -/

/-- Whether a path is a chain of names. -/
def IsChain (names : String) : Prop :=
  ∃ chain : Chain, chain.text = compact names

mutual

/-- Whether every expression is read by itself, no list is empty, and every path is a chain of names, at any depth. -/
def WellFormed : Populate → Prop
  | expression text => ∃ nodes, (expression text).parse = .ok nodes
  | list items => items ≠ [] ∧ AllWellFormed items
  | path names => IsChain names
  | nested names below => IsChain names ∧ below.WellFormed

/-- Whether all members of a list are well-formed. -/
def AllWellFormed : List Populate → Prop
  | [] => True
  | item :: rest => item.WellFormed ∧ AllWellFormed rest

end

mutual

/-- What is well-formed is a form of a forest. -/
theorem WellFormed.exists_spells {p : Populate} (h : p.WellFormed) : ∃ forest, p.Spells forest := by
  match p with
  | expression text =>
    obtain ⟨nodes, hnodes⟩ := h
    obtain ⟨forest, hforest, -⟩ := parse_eq_ok_iff.mp hnodes
    exact ⟨forest, denotes_iff_tree.mp hforest⟩
  | list items =>
    obtain ⟨forest, hforest⟩ := AllWellFormed.exists_spellTogether h.2
    exact ⟨forest, h.1, hforest⟩
  | path names =>
    obtain ⟨chain, hchain⟩ := h
    exact ⟨_, chain, hchain, rfl⟩
  | nested names below =>
    obtain ⟨⟨chain, hchain⟩, hbelow⟩ := h
    obtain ⟨children, hchildren⟩ := hbelow.exists_spells
    exact ⟨_, chain, hchain, children, hchildren, rfl⟩

/-- Well-formed members of a list are forms of the parts of a forest. -/
theorem AllWellFormed.exists_spellTogether {items : List Populate} (h : AllWellFormed items) :
    ∃ forest, SpellTogether items forest := by
  match items with
  | [] => exact ⟨[], rfl⟩
  | item :: rest =>
    obtain ⟨first, hfirst⟩ := h.1.exists_spells
    obtain ⟨others, hothers⟩ := AllWellFormed.exists_spellTogether h.2
    exact ⟨first ++ others, first, others, hfirst, hothers, rfl⟩

end

/-- What is well-formed is read. -/
theorem WellFormed.exists_parse {p : Populate} (h : p.WellFormed) : ∃ nodes, p.parse = .ok nodes := by
  obtain ⟨forest, hforest⟩ := h.exists_spells
  exact ⟨_, hforest.parse⟩

/-- Well-formed members of a list are read. -/
theorem AllWellFormed.exists_parts {items : List Populate} (h : AllWellFormed items) :
    ∃ parts, items.Forall₂ (fun p nodes => p.parse = .ok nodes) parts := by
  induction items with
  | nil => exact ⟨[], .nil⟩
  | cons item rest ih =>
    obtain ⟨nodes, hnodes⟩ := h.1.exists_parse
    obtain ⟨parts, hparts⟩ := ih h.2
    exact ⟨nodes :: parts, .cons hnodes hparts⟩

end Populate

/-! ## Objects and texts -/

mutual

/-- Whether a relation and all below it have names that expressions can hold. -/
def PopulateNode.Named : PopulateNode → Prop
  | .node name children => (∃ word : Populate.Name, String.ofList word.chars = name) ∧ AllNamed children

/-- Whether the relations of a forest have names that expressions can hold, at any depth. -/
def AllNamed : List PopulateNode → Prop
  | [] => True
  | node :: rest => node.Named ∧ AllNamed rest

end

mutual

/-- A relation as an object: its path, with a list of objects for what is below it. -/
def PopulateNode.asObject : PopulateNode → Populate
  | .node name [] => .path name
  | .node name (first :: rest) => .nested name (.list (first.asObject :: objectsOf rest))

/-- The relations of a forest as objects. -/
def objectsOf : List PopulateNode → List Populate
  | [] => []
  | node :: rest => node.asObject :: objectsOf rest

end

mutual

/-- A relation as text: its name, with a dot and the relations below it in brackets. -/
def PopulateNode.asText : PopulateNode → String
  | .node name [] => name
  | .node name (first :: rest) => name ++ "." ++ ("[" ++ Sql.join "," (first.asText :: relationTexts rest) ++ "]")

/-- The relations of a forest as texts. -/
def relationTexts : List PopulateNode → List String
  | [] => []
  | node :: rest => node.asText :: relationTexts rest

end

/-- A forest as text, in brackets. -/
def forestText (forest : List PopulateNode) : String :=
  "[" ++ Sql.join "," (relationTexts forest) ++ "]"

mutual

/-- An object is written out as the text of its relation. -/
theorem PopulateNode.toExpression_asObject (node : PopulateNode) : node.asObject.toExpression = node.asText := by
  match node with
  | .node name [] => rfl
  | .node name (first :: rest) =>
    rw [PopulateNode.asObject, Populate.toExpression, Populate.toExpression, expressionsOf,
      first.toExpression_asObject, expressionsOf_objectsOf rest, PopulateNode.asText]

/-- Objects are written out as the texts of their relations. -/
theorem expressionsOf_objectsOf (forest : List PopulateNode) :
    expressionsOf (objectsOf forest) = relationTexts forest := by
  match forest with
  | [] => rfl
  | node :: rest =>
    rw [objectsOf, expressionsOf, node.toExpression_asObject, expressionsOf_objectsOf rest, relationTexts]

end

namespace Populate

/-- A character of names is no blank. -/
theorem isBlank_of_inNames {c : Char} (h : InNames c) : Text.isBlank c = false := by
  have hrange : (65 ≤ c.toNat ∧ c.toNat ≤ 90) ∨ (97 ≤ c.toNat ∧ c.toNat ≤ 122) ∨
      (48 ≤ c.toNat ∧ c.toNat ≤ 57) ∨ c.toNat = 95 ∨ c.toNat = 36 := by
    obtain h | h | h | rfl | rfl := h
    · exact .inl h
    · exact .inr (.inl h)
    · exact .inr (.inr (.inl h))
    · exact .inr (.inr (.inr (.inl rfl)))
    · exact .inr (.inr (.inr (.inr rfl)))
  simp only [Text.isBlank, Bool.or_eq_false_iff, Bool.and_eq_false_iff, decide_eq_false_iff_not]
  omega

/-- Every character of a name counts. -/
theorem Name.compact_chars (name : Name) : compact (String.ofList name.chars) = name.chars := by
  rw [compact, String.toList_ofList]
  exact List.filter_eq_self.mpr fun c hc => by rw [isBlank_of_inNames (name.inNames c hc)]; rfl

end Populate

mutual

/-- The object of a relation is a form of it. -/
theorem PopulateNode.Named.spells_asObject {node : PopulateNode} (h : node.Named) : node.asObject.Spells [node] := by
  match node with
  | .node name [] =>
    obtain ⟨⟨word, rfl⟩, -⟩ := h
    exact ⟨.last word, word.compact_chars.symm, rfl⟩
  | .node name (first :: rest) =>
    obtain ⟨⟨word, rfl⟩, hbelow⟩ := h
    exact ⟨.last word, word.compact_chars.symm, _, ⟨List.cons_ne_nil _ _, AllNamed.spell_objects hbelow⟩, rfl⟩

/-- The objects of relations are forms of them. -/
theorem AllNamed.spell_objects {forest : List PopulateNode} (h : AllNamed forest) :
    Populate.SpellTogether (objectsOf forest) forest := by
  match forest with
  | [] => exact rfl
  | node :: rest => exact ⟨[node], rest, h.1.spells_asObject, AllNamed.spell_objects h.2, rfl⟩

end

/-- The texts of relations are forms of them. -/
theorem AllNamed.spell_texts {forest : List PopulateNode} (h : AllNamed forest) :
    Populate.SpellTogether ((relationTexts forest).map .expression) forest := by
  induction forest with
  | nil => exact rfl
  | cons node rest ih =>
    have htext := h.1.spells_asObject.expression
    rw [node.toExpression_asObject] at htext
    exact ⟨[node], rest, htext, ih h.2, rfl⟩

/-- A list of its objects, a list of its texts, and its text are forms of a forest. -/
theorem AllNamed.spells {forest : List PopulateNode} (h : AllNamed forest) (hne : forest ≠ []) :
    (Populate.list (objectsOf forest)).Spells forest ∧
      (Populate.list ((relationTexts forest).map .expression)).Spells forest ∧
      (Populate.expression (forestText forest)).Spells forest := by
  have hsome : objectsOf forest ≠ [] ∧ (relationTexts forest).map Populate.expression ≠ [] := by
    cases forest with
    | nil => exact absurd rfl hne
    | cons node rest => exact ⟨List.cons_ne_nil _ _, List.cons_ne_nil _ _⟩
  have hobjects : (Populate.list (objectsOf forest)).Spells forest := ⟨hsome.1, h.spell_objects⟩
  have htext := hobjects.expression
  rw [Populate.toExpression, expressionsOf_objectsOf, ← forestText] at htext
  exact ⟨hobjects, ⟨hsome.2, h.spell_texts⟩, htext⟩

namespace Populate

/-- What is well-formed is read by parts: a list as what is read of its members, one after another and merged; a path
as the chain of its names, with what is read of the rest below the last one. So all forms of a forest are read as the
forest, merged; every forest has a list of objects, a list of expressions, and one expression among its forms. -/
theorem parse_composes :
    (∀ items, (list items).WellFormed → ∃ parts,
      items.Forall₂ (fun p nodes => p.parse = .ok nodes) parts ∧
        (list items).parse = .ok (PopulateNode.merge parts.flatten)) ∧
    (∀ names below, (nested names below).WellFormed → ∃ chain : Chain, chain.text = compact names ∧
      ∃ nodes, below.parse = .ok nodes ∧ (nested names below).parse = .ok [chain.node nodes]) ∧
    (∀ names, (path names).WellFormed → ∃ chain : Chain, chain.text = compact names ∧
      (path names).parse = .ok [chain.node []]) ∧
    (∀ p : Populate, ∀ forest, p.Spells forest → p.parse = .ok (PopulateNode.merge forest)) ∧
    ∀ forest ≠ [], AllNamed forest →
      (list (objectsOf forest)).Spells forest ∧
        (list ((relationTexts forest).map expression)).Spells forest ∧
        (expression (forestText forest)).Spells forest := by
  refine ⟨fun items h => ?_, fun names below h => ?_, fun names h => ?_, fun p forest h => h.parse,
    fun forest hne h => h.spells hne⟩
  · obtain ⟨parts, hparts⟩ := h.2.exists_parts
    exact ⟨parts, hparts, parse_list hparts h.1⟩
  · obtain ⟨⟨chain, hchain⟩, hbelow⟩ := h
    obtain ⟨nodes, hnodes⟩ := hbelow.exists_parse
    exact ⟨chain, hchain, nodes, hnodes, parse_nested hchain hnodes⟩
  · obtain ⟨chain, hchain⟩ := h
    exact ⟨chain, hchain, parse_path hchain⟩

/-- The copies of books, each with its editor, the city of its publisher, and its shelf. -/
theorem parse_composes_books :
    let below : Populate := list [expression "[editor, publisher.city]", path " shelf"]
    (nested "books . copies" below).WellFormed ∧
      below.parse = .ok [.node "editor" [], .node "publisher" [.node "city" []], .node "shelf" []] ∧
      ∃ chain : Chain, chain.text = compact "books . copies" ∧
        ∃ nodes, below.parse = .ok nodes ∧ (nested "books . copies" below).parse = .ok [chain.node nodes] := by
  intro below
  let books : Name := ⟨['b', 'o', 'o', 'k', 's'], by decide, by simp [InNames]⟩
  let copies : Name := ⟨['c', 'o', 'p', 'i', 'e', 's'], by decide, by simp [InNames]⟩
  let shelf : Name := ⟨['s', 'h', 'e', 'l', 'f'], by decide, by simp [InNames]⟩
  have hpath : IsChain "books . copies" := ⟨.link books (.last copies), by decide⟩
  have hshelf : IsChain " shelf" := ⟨.last shelf, by decide⟩
  have hexpression : (expression "[editor, publisher.city]").parse =
      .ok [.node "editor" [], .node "publisher" [.node "city" []]] := by decide +kernel
  have hbelow : below.parse = .ok [.node "editor" [], .node "publisher" [.node "city" []], .node "shelf" []] := by
    decide +kernel
  have hformed : (nested "books . copies" below).WellFormed :=
    ⟨hpath, List.cons_ne_nil _ _, ⟨_, hexpression⟩, hshelf, trivial⟩
  exact ⟨hformed, hbelow, parse_composes.2.1 _ _ hformed⟩

end Populate

end SchemaQuery
