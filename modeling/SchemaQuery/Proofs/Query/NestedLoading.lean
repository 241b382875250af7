import Mathlib.Data.List.Forall2
import SchemaQuery.Proofs.Query.EagerLoading
import SchemaQuery.Proofs.Query.RelationPaths

/-!
# Loading below a relation

What is loaded below a relation goes into the rows that are fetched for it before these rows are handed out.
They are handed out by the column that the relation is followed by. When nothing below is loaded into this
column, each row is given the rows that it would be given without anything below; when something is, the keys
are overwritten and no row is handed out any more.
-/

namespace SchemaQuery

namespace Load

/-- Whether two rows agree on every column but some. -/
def AgreeBut (columns : List String) (a b : Row) : Prop :=
  ∀ column ∉ columns, a.get? column = b.get? column

/-- Whether two rows are shown the same rows under the name of a relation, in the same order and number, but
for the columns that are loaded below, and agree on everything else. -/
structure SameLinks (kind : RelationKind) (name : String) (below : List String) (nested plain : Row) :
    Prop where
  others : ∀ column ≠ name, nested.get? column = plain.get? column
  attached : ∃ rows stored, nested.get? name = some (shown kind rows) ∧
    plain.get? name = some (shown kind stored) ∧ rows.Forall₂ (AgreeBut below) stored

variable {registry : Registry} {store : Store}

/-! ## Loading succeeds -/

mutual

/-- A relation that has been checked is loaded if the tables are there. -/
theorem exists_loadNode_eq_ok (model : Model) (node : PopulateNode)
    (hcheck : checkNode registry model node = .ok ())
    (hstored : nodeStored registry store model node) (rows : List Row) :
    ∃ loaded, loadNode registry store model node rows = .ok loaded := by
  match node with
  | .node name children =>
    obtain ⟨relation, hrelation, hbelow⟩ := checkNode_eq_ok hcheck
    simp only [nodeStored, hrelation, Option.all_some] at hstored
    cases htarget : registry.models.get? relation.model with
    | none => simp [htarget] at hstored
    | some target =>
      simp only [htarget, Bool.and_eq_true] at hstored
      obtain ⟨t, ht⟩ := (Dictionary.contains_eq_true_iff ..).mp hstored.1
      rw [loadNode_of_target hrelation htarget, fetch_eq ht]
      obtain ⟨related, hrelated⟩ :=
        exists_loadAll_eq_ok target children (hbelow target htarget) hstored.2 _
      exact ⟨_, congrArg (Except.map _) hrelated⟩

/-- Relations that have been checked are loaded if the tables are there. -/
theorem exists_loadAll_eq_ok (model : Model) (nodes : List PopulateNode)
    (hcheck : checkAll registry model nodes = .ok ())
    (hstored : allStored registry store model nodes) (rows : List Row) :
    ∃ loaded, loadAll registry store model nodes rows = .ok loaded := by
  match nodes with
  | [] => exact ⟨rows, rfl⟩
  | node :: rest =>
    rw [checkAll] at hcheck
    obtain ⟨⟨⟩, hnode, hrest⟩ := bind_eq_ok_iff.mp hcheck
    simp only [allStored, Bool.and_eq_true] at hstored
    obtain ⟨first, hfirst⟩ := exists_loadNode_eq_ok model node hnode hstored.1 rows
    obtain ⟨loaded, hloaded⟩ := exists_loadAll_eq_ok model rest hrest hstored.2 first
    rw [loadAll, hfirst]
    exact ⟨loaded, hloaded⟩

end

/-! ## Loading keeps the other columns -/

/-- Rows that agree with rows that agree with others agree with them. -/
theorem AgreeBut.trans {xs ys : List String} {a b c : Row} (h : AgreeBut xs a b) (h' : AgreeBut ys b c) :
    AgreeBut (ys ++ xs) a c := by
  intro column hcolumn
  rw [List.mem_append, not_or] at hcolumn
  rw [h column hcolumn.2, h' column hcolumn.1]

/-- Rows that agree one by one with rows that agree with others agree with them. -/
theorem forall₂_agree_trans {xs ys : List String} {as bs cs : List Row} (h : as.Forall₂ (AgreeBut xs) bs)
    (h' : bs.Forall₂ (AgreeBut ys) cs) : as.Forall₂ (AgreeBut (ys ++ xs)) cs := by
  induction h generalizing cs with
  | nil =>
    cases h'
    exact .nil
  | cons hab _ ih =>
    cases h' with
    | cons hbc hrest => exact .cons (hab.trans hbc) (ih hrest)

/-- Attaching leaves the other columns as they are. -/
theorem get?_attach {relation : Relation} {name : String} (related : List Row) (row : Row)
    {column : String} (h : column ≠ name) :
    (attach relation name related row).get? column = row.get? column :=
  (Members.get?_insert ..).trans (if_neg (Ne.symm h))

/-- What is attached to a row stands under the name. -/
theorem get?_attach_self (relation : Relation) (name : String) (related : List Row) (row : Row) :
    (attach relation name related row).get? name =
      some (attachment relation related (row.getD relation.sourceKey)) :=
  (Members.get?_insert ..).trans (if_pos rfl)

/-- Loading a relation that succeeds has fetched its rows, loaded what is below into them, and attached
them. -/
theorem loadNode_eq_ok {model : Model} {name : String} {children : List PopulateNode}
    {rows loaded : List Row} (h : loadNode registry store model (.node name children) rows = .ok loaded) :
    ∃ relation target fetched related, model.relations.get? name = some relation ∧
      registry.models.get? relation.model = some target ∧
      fetch store target.table relation.targetKey (distinctKeys relation.sourceKey rows) = .ok fetched ∧
      loadAll registry store target children fetched = .ok related ∧
      loaded = rows.map (attach relation name related) := by
  rw [loadNode] at h
  obtain ⟨relation, hrelation, h⟩ := bind_eq_ok_iff.mp h
  obtain ⟨target, htarget, h⟩ := bind_eq_ok_iff.mp h
  obtain ⟨fetched, hfetch, h⟩ := bind_eq_ok_iff.mp h
  obtain ⟨related, hrelated, h⟩ := bind_eq_ok_iff.mp h
  refine ⟨relation, target, fetched, related, ?_, ?_, hfetch, hrelated, (Except.ok.inj h).symm⟩
  · unfold Load.relation at hrelation
    split at hrelation
    · next hget => rw [hget, Except.ok.inj hrelation]
    · cases hrelation
  · unfold modelNamed at htarget
    split at htarget
    · next hget => rw [hget, Except.ok.inj htarget]
    · cases htarget

/-- Loading a relation into rows gives as many rows, which agree with them on all other columns. -/
theorem loadNode_agree {model : Model} {node : PopulateNode} {rows loaded : List Row}
    (h : loadNode registry store model node rows = .ok loaded) :
    loaded.Forall₂ (AgreeBut [node.name]) rows := by
  obtain ⟨name, children⟩ := node
  obtain ⟨relation, -, -, related, -, -, -, -, rfl⟩ := loadNode_eq_ok h
  rw [List.forall₂_map_left_iff, List.forall₂_same]
  exact fun row _ column hcolumn => get?_attach related row (List.ne_of_not_mem_cons hcolumn)

/-- Loading relations into rows gives as many rows, which agree with them on all other columns. -/
theorem loadAll_agree {model : Model} {nodes : List PopulateNode} {rows loaded : List Row}
    (h : loadAll registry store model nodes rows = .ok loaded) :
    loaded.Forall₂ (AgreeBut (nodes.map PopulateNode.name)) rows := by
  induction nodes generalizing rows with
  | nil =>
    rw [← Except.ok.inj h, List.forall₂_same]
    exact fun _ _ _ _ => rfl
  | cons node rest ih =>
    rw [loadAll] at h
    obtain ⟨first, hfirst, hrest⟩ := bind_eq_ok_iff.mp h
    exact forall₂_agree_trans (ih hrest) (loadNode_agree hfirst)

/-! ## The same rows -/

/-- What is attached to a row shows the rows with its key. -/
theorem attachment_eq_shown (relation : Relation) (related : List Row) (key : Json) :
    attachment relation related key = shown relation.kind
      (related.filter fun candidate => (candidate.getD relation.targetKey).equals key) := by
  have hmap : attachment relation (related.map id) key = _ := attachment_map key fun _ => rfl
  rwa [List.map_id, List.map_id] at hmap

/-- Rows that agree on the column a relation is followed by are handed out alike. -/
theorem attach_sameLinks {relation : Relation} {name : String} {below : List String}
    (hkey : relation.targetKey ∉ below) {related stored : List Row}
    (hrelated : related.Forall₂ (AgreeBut below) stored) (row : Row) :
    SameLinks relation.kind name below (attach relation name related row)
      (attach relation name stored row) where
  others column hcolumn := by rw [get?_attach related row hcolumn, get?_attach stored row hcolumn]
  attached := by
    have hlinked (a b : Row) (hagree : AgreeBut below a b) :
        (a.getD relation.targetKey).equals (row.getD relation.sourceKey) ↔
          (b.getD relation.targetKey).equals (row.getD relation.sourceKey) := by
      have hsame : a.getD relation.targetKey = b.getD relation.targetKey :=
        congrArg (·.getD .null) (hagree _ hkey)
      rw [hsame]
    refine ⟨_, _, ?_, ?_, List.rel_filter (fun a b => hlinked a b) hrelated⟩
    all_goals rw [get?_attach_self, attachment_eq_shown]

/-- Each row is given the same rows under a relation whether more is loaded below them or not, when nothing is
loaded into the column by which the relation is followed. -/
theorem loadNode_same_links {model : Model} {name : String} {children : List PopulateNode}
    (hcheck : checkNode registry model (.node name children) = .ok ())
    (hstored : nodeStored registry store model (.node name children)) {relation : Relation}
    (hrelation : model.relations.get? name = some relation)
    (hkey : relation.targetKey ∉ children.map PopulateNode.name) (rows : List Row) :
    ∃ nested plain, loadNode registry store model (.node name children) rows = .ok nested ∧
      loadNode registry store model (.node name []) rows = .ok plain ∧
      nested.Forall₂ (SameLinks relation.kind name (children.map PopulateNode.name)) plain := by
  obtain ⟨nested, hnested⟩ := exists_loadNode_eq_ok model _ hcheck hstored rows
  obtain ⟨found, target, fetched, related, hfound, htarget, hfetch, hrelated, rfl⟩ := loadNode_eq_ok hnested
  obtain rfl : relation = found := Option.some.inj (hrelation.symm.trans hfound)
  refine ⟨_, rows.map (attach relation name fetched), hnested, ?_, ?_⟩
  · rw [loadNode_of_target hrelation htarget, hfetch]
    rfl
  · rw [List.forall₂_map_left_iff, List.forall₂_map_right_iff, List.forall₂_same]
    exact fun row _ => attach_sameLinks hkey (loadAll_agree hrelated) row

/-- Authors with their books: the same book, with its author or without. -/
theorem loadNode_same_links_books :
    let author : Model := ⟨"Author", "author", .empty, .empty⟩
    let book : Model := ⟨"Book", "book", .empty, .empty⟩
    let relation : Relation := .between .hasMany "books" author book "author_id"
    let authors : Model := { author with relations := .ofList [("books", relation)] }
    let books : Model :=
      { book with relations := .ofList [("author", .between .belongsTo "author" book author "author_id")] }
    let registry : Registry := ⟨.ofList [("Author", authors), ("Book", books)], .empty, .empty⟩
    let store := (Store.ofTables ["author", "book"]).run
      [.insert "author" [("name", .str "Austen")],
        .insert "book" [("title", .str "Emma"), ("author_id", .ofNat 1)]]
    let children : List PopulateNode := [.node "author" []]
    let rows : List Row := [[("id", .ofNat 1)], [("name", .str "Anonymous")]]
    checkNode registry authors (.node "books" children) = .ok () ∧
      nodeStored registry store authors (.node "books" children) = true ∧
      authors.relations.get? "books" = some relation ∧
      relation.targetKey ∉ children.map PopulateNode.name ∧
      ∃ nested plain, loadNode registry store authors (.node "books" children) rows = .ok nested ∧
        loadNode registry store authors (.node "books" []) rows = .ok plain ∧
        nested.Forall₂ (SameLinks relation.kind "books" (children.map PopulateNode.name)) plain := by
  intro author book relation authors books registry store children rows
  have hcheck : checkNode registry authors (.node "books" children) = .ok () := by decide +kernel
  have hstored : nodeStored registry store authors (.node "books" children) = true := by decide +kernel
  have hrelation : authors.relations.get? "books" = some relation := by rfl
  have hkey : relation.targetKey ∉ children.map PopulateNode.name := by decide +kernel
  exact ⟨hcheck, hstored, hrelation, hkey, loadNode_same_links hcheck hstored hrelation hkey rows⟩

/-! ## No rows -/

/-- What is attached to a row equals no key: it is null, an array or an object. -/
theorem attachment_equals (relation : Relation) (related : List Row) (source : Json) {key : Json}
    (hkey : key.isContainer = false) : (attachment relation related source).equals key = false := by
  have hcontainer {value : Json} (hvalue : value.isContainer) : value.equals key = false := by
    cases value with
    | arr | obj => cases key <;> first | rfl | cases hkey
    | null | bool | int | float | str => cases hvalue
  rw [attachment_eq_shown]
  unfold shown
  split
  · exact hcontainer rfl
  · exact Json.equals_of_isNull rfl key
  · exact hcontainer rfl

/-- What holds of a column of all rows holds of it in rows that agree with them on it. -/
theorem forall_getD_of_agree {xs : List String} {as bs : List Row} (h : as.Forall₂ (AgreeBut xs) bs)
    {column : String} (hcolumn : column ∉ xs) {p : Json → Prop} (hbs : ∀ row ∈ bs, p (row.getD column)) :
    ∀ row ∈ as, p (row.getD column) := by
  induction h with
  | nil => exact hbs
  | @cons a b as bs hab _ ih =>
    rw [List.forall_mem_cons] at hbs ⊢
    have hsame : a.getD column = b.getD column := congrArg (·.getD .null) (hab column hcolumn)
    exact ⟨hsame ▸ hbs.1, ih hbs.2⟩

/-- A column that a relation is loaded into equals no key. -/
theorem loadAll_equals {model : Model} {nodes : List PopulateNode} {rows loaded : List Row}
    (h : loadAll registry store model nodes rows = .ok loaded) {column : String}
    (hcolumn : column ∈ nodes.map PopulateNode.name) {key : Json} (hkey : key.isContainer = false) :
    ∀ row ∈ loaded, (row.getD column).equals key = false := by
  induction nodes generalizing rows with
  | nil => cases hcolumn
  | cons node rest ih =>
    rw [loadAll] at h
    obtain ⟨first, hfirst, hrest⟩ := bind_eq_ok_iff.mp h
    by_cases hlater : column ∈ rest.map PopulateNode.name
    · exact ih hrest hlater
    · -- No later relation is loaded into the column: it holds what the first one has attached.
      obtain rfl : column = node.name := (List.mem_cons.mp hcolumn).resolve_right hlater
      refine forall_getD_of_agree (loadAll_agree hrest) hlater (p := (·.equals key = false)) ?_
      obtain ⟨name, children⟩ := node
      obtain ⟨relation, -, -, related, -, -, -, -, rfl⟩ := loadNode_eq_ok hfirst
      intro row hrow
      obtain ⟨source, -, rfl⟩ := List.mem_map.mp hrow
      rw [Members.getD, PopulateNode.name, get?_attach_self, Option.getD_some]
      exact attachment_equals relation related _ hkey

/-- No row is given any rows under a relation when something below is loaded into the column by which the
relation is followed. -/
theorem loadNode_loses_links {model : Model} {name : String} {children : List PopulateNode}
    {relation : Relation} (hrelation : model.relations.get? name = some relation)
    (hkey : relation.targetKey ∈ children.map PopulateNode.name) {rows loaded : List Row}
    (h : loadNode registry store model (.node name children) rows = .ok loaded) :
    loaded.Forall₂ (fun new row => (row.getD relation.sourceKey).isContainer = false →
      new.get? name = some (shown relation.kind [])) rows := by
  obtain ⟨found, target, fetched, related, hfound, -, -, hrelated, rfl⟩ := loadNode_eq_ok h
  obtain rfl : relation = found := Option.some.inj (hrelation.symm.trans hfound)
  rw [List.forall₂_map_left_iff, List.forall₂_same]
  intro row _ hscalar
  have hnone : (related.filter fun candidate =>
      (candidate.getD relation.targetKey).equals (row.getD relation.sourceKey)) = [] := by
    refine List.filter_eq_nil_iff.mpr fun candidate hcandidate => ?_
    rw [loadAll_equals hrelated hkey hscalar candidate hcandidate]
    exact Bool.false_ne_true
  rw [get?_attach_self, attachment_eq_shown, hnone]

/-- A registry in which books belong to their author under the name of the key column: an author is shown a
book, and no book any more once the author of the book is loaded too. -/
theorem loadNode_loses_books :
    let registry := Registry.empty.run
      [.addModel ((Definition.named "Author").addHasMany "books" ⟨"Book", "author_id"⟩),
        .addModel ((Definition.named "Book").addBelongsTo "author_id" ⟨"Author", "author_id"⟩),
        .resolve]
    let store := (Store.ofTables ["author", "book"]).run
      [.insert "author" [("name", .str "Austen")],
        .insert "book" [("title", .str "Emma"), ("author_id", .ofNat 1)]]
    let austen : Row := [("id", .ofNat 1), ("name", .str "Austen")]
    let emma : Row := [("id", .ofNat 1), ("title", .str "Emma"), ("author_id", .ofNat 1)]
    let checks (children : List PopulateNode) : Bool := (registry.models.get? "Author").any fun author =>
      (checkNode registry author (.node "books" children)).isOk
    let shows (children : List PopulateNode) (books : List Row) : Bool :=
      (registry.models.get? "Author").any fun author =>
        (loadNode registry store author (.node "books" children) [austen]).toOption.any fun rows =>
          (Json.arr (rows.map .obj)).same (.arr [.obj (austen ++ [("books", .arr (books.map .obj))])])
    checks [.node "author_id" []] = true ∧ shows [] [emma] = true ∧
      shows [.node "author_id" []] [] = true := by
  decide +kernel

end Load

end SchemaQuery
