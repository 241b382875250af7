import SchemaQuery.Filter.Codec
import SchemaQuery.Proofs.Schema.Codec
import SchemaQuery.Query.Populate

/-!
# Reading back what was written

Trees, what is to be loaded, and models are read back from the values that they are written as. Definitions and
what is to be loaded may be written in many ways; what is read of any of them is written in one way, and reading
that gives it again.

A value in memory has no name twice in an object. The laws ask it of the values that a tree or a model holds, and
every value that is read is of this kind.
-/

namespace SchemaQuery

/-! ## Trees -/

/-- A comparison is found by its operator. -/
theorem Comparison.ofSql?_sql (op : Comparison) : ofSql? op.sql = some op := by
  cases op <;> rfl

/-- A condition is read back. -/
theorem Condition.ofDocument?_toJson {c : Condition} (h : c.operand.Distinct) :
    ofDocument? c.toJson.toDocument = some c := by
  obtain ⟨field, op, operand⟩ := c
  have hfields : (toJson ⟨field, op, operand⟩).toDocument.fields? [["field"], ["op"], ["value"]] =
      some [some (.str field), some (.str op.sql), some operand.toDocument] :=
    rfl
  simp only [ofDocument?, hfields, Document.required?, Document.asString?, Document.asCase?, op.ofSql?_sql,
    operand.toJson?_toDocument h, Option.bind_eq_bind, Option.bind_some]
  rfl

mutual

/-- A tree is read back. -/
theorem Predicate.ofDocument?_toJson (p : Predicate) (h : ∀ c ∈ p.leaves, c.operand.Distinct) :
    Predicate.ofDocument? p.toJson.toDocument = some p := by
  match p with
  | .leaf c =>
    have hleaf := Condition.ofDocument?_toJson (h c List.mem_cons_self)
    simp only [Predicate.toJson, Json.toDocument, membersToDocuments, Predicate.ofDocument?, hleaf, Option.map_some]
  | .and children =>
    have hchildren := treesOfDocuments?_treesToJson children h
    simp only [Predicate.toJson, Json.toDocument, membersToDocuments, Predicate.ofDocument?, hchildren, Option.map_some]
  | .or children =>
    have hchildren := treesOfDocuments?_treesToJson children h
    simp only [Predicate.toJson, Json.toDocument, membersToDocuments, Predicate.ofDocument?, hchildren, Option.map_some]

/-- Trees are read back. -/
theorem treesOfDocuments?_treesToJson (trees : List Predicate)
    (h : ∀ c ∈ leavesOf trees, c.operand.Distinct) :
    treesOfDocuments? (itemsToDocuments (treesToJson trees)) = some trees := by
  match trees with
  | [] => simp only [treesToJson, itemsToDocuments, treesOfDocuments?]
  | tree :: rest =>
    have htree := tree.ofDocument?_toJson fun c hc => h c (List.mem_append_left _ hc)
    have hrest := treesOfDocuments?_treesToJson rest fun c hc => h c (List.mem_append_right _ hc)
    simp only [treesToJson, itemsToDocuments, treesOfDocuments?, htree, hrest]

end

/-! ## What is to be loaded -/

/-- A path with what is below it is read from both, unless what is below is null. -/
theorem Populate.ofMembers?_nested {path : String} {first below : Option Populate} {d : Document}
    (h : d ≠ .null) : ofMembers? [(some "path", .str path, first), (some "populate", d, below)] =
      below.map (.nested path) := by
  cases d with
  | null => exact absurd rfl h
  | bool | int | float | str | arr | obj | unreadable => cases below <;> rfl

/-- What is to be loaded is not written as null. -/
theorem Populate.isNull_toJson (p : Populate) : p.toJson.isNull = false := by
  cases p <;> simp [toJson, Json.isNull]

mutual

/-- What is to be loaded is read back. -/
theorem Populate.ofDocument?_toJson (p : Populate) : Populate.ofDocument? p.toJson.toDocument = some p := by
  match p with
  | .expression text => simp only [Populate.toJson, Json.toDocument, Populate.ofDocument?]
  | .list items =>
    have hitems := populatesOfDocuments?_populatesToJson items
    simp only [Populate.toJson, Json.toDocument, Populate.ofDocument?, hitems, Option.map_some]
  | .path path =>
    simp only [Populate.toJson, Json.toDocument, membersToDocuments, Populate.ofDocument?, populateMembers]
    rfl
  | .nested path below =>
    have hbelow := below.ofDocument?_toJson
    simp only [Populate.toJson, Json.toDocument, membersToDocuments, Populate.ofDocument?, populateMembers, hbelow,
      Populate.ofMembers?_nested (Json.toDocument_ne_null below.isNull_toJson), Option.map_some]

/-- A list of what is to be loaded is read back. -/
theorem populatesOfDocuments?_populatesToJson (items : List Populate) :
    populatesOfDocuments? (itemsToDocuments (populatesToJson items)) = some items := by
  match items with
  | [] => simp only [populatesToJson, itemsToDocuments, populatesOfDocuments?]
  | item :: rest =>
    have hitem := item.ofDocument?_toJson
    have hrest := populatesOfDocuments?_populatesToJson rest
    simp only [populatesToJson, itemsToDocuments, populatesOfDocuments?, hitem, hrest]

end

/-! ## Models -/

/-- Whether the value of a default has no name twice in an object. -/
def DefaultValue.Distinct : DefaultValue → Prop
  | .literal value => value.Distinct
  | .now => True

/-- Whether the defaults of a model have no name twice in an object. -/
def Model.Distinct (m : Model) : Prop :=
  ∀ entry ∈ m.properties.entries, ∀ value ∈ entry.2.fallback, value.Distinct

/-- A type is found by its name. -/
theorem PropertyType.ofName?_name (kind : PropertyType) : ofName? kind.name = some kind := by
  cases kind <;> rfl

/-- A kind of relation is found by its name. -/
theorem RelationKind.ofName?_name (kind : RelationKind) : ofName? kind.name = some kind := by
  cases kind <;> rfl

/-- A default is read back, null included. -/
theorem DefaultValue.ofDocument?_toJson {value : DefaultValue} (h : value.Distinct) :
    ofDocument? value.toJson.toDocument = some value := by
  cases value with
  | literal value =>
    simp only [toJson, Json.toDocument, membersToDocuments, ofDocument?, value.toJson?_toDocument h,
      Option.map_some]
  | now => rfl

/-- A property of a model is read back. -/
theorem Property.ofDocument?_toJson {p : Property} (h : ∀ value ∈ p.fallback, value.Distinct) :
    ofDocument? p.toJson.toDocument = some p := by
  obtain ⟨declaredType, kind, required, fallback⟩ := p
  have hfields : (toJson ⟨declaredType, kind, required, fallback⟩).toDocument.fields?
      [["declared_type"], ["type"], ["required"], ["default"]] =
        some [some (.str declaredType), some (.str kind.name), some (.bool required),
          fallback.map fun value => value.toJson.toDocument] := by
    cases fallback <;> rfl
  have hfallback : Document.optional? DefaultValue.ofDocument?
      (fallback.map fun value => value.toJson.toDocument) = some fallback :=
    Document.optional?_map fun value hvalue =>
      ⟨by cases value <;> rfl, DefaultValue.ofDocument?_toJson (h value hvalue)⟩
  simp only [ofDocument?, hfields, hfallback, Document.required?, Document.asString?, Document.asCase?,
    Document.asBool?, kind.ofName?_name, Option.bind_eq_bind, Option.bind_some]
  rfl

/-- A relation of a model is read back. -/
theorem Relation.ofDocument?_toJson (r : Relation) : ofDocument? r.toJson.toDocument = some r := by
  obtain ⟨kind, name, model, sourceTable, targetTable, foreignKey, join⟩ := r
  have hjoin : Join.ofDocument? join.toJson.toDocument = some join := rfl
  have hfields : (toJson ⟨kind, name, model, sourceTable, targetTable, foreignKey, join⟩).toDocument.fields?
      [["kind"], ["alias"], ["model_class"], ["source_table"], ["target_table"], ["foreign_key"], ["join"]] =
        some [some (.str kind.name), some (.str name), some (.str model), some (.str sourceTable),
          some (.str targetTable), some (.str foreignKey), some join.toJson.toDocument] :=
    rfl
  simp only [ofDocument?, hfields, hjoin, Document.required?, Document.asString?, Document.asCase?,
    kind.ofName?_name, Option.bind_eq_bind, Option.bind_some]
  rfl

/-- A model is read back. -/
theorem Model.ofDocument?_toJson {m : Model} (h : m.Distinct) : ofDocument? m.toJson.toDocument = some m := by
  obtain ⟨name, table, properties, relations⟩ := m
  have hfields : (toJson ⟨name, table, properties, relations⟩).toDocument.fields?
      [["name"], ["table_name"], ["properties"], ["relations"]] =
        some [some (.str name), some (.str table), some (properties.toJson Property.toJson).toDocument,
          some (relations.toJson Relation.toJson).toDocument] :=
    rfl
  have hproperties : Document.asDictionary? Property.ofDocument? (properties.toJson Property.toJson).toDocument =
      some properties :=
    Document.asDictionary?_toJson properties fun entry hentry => Property.ofDocument?_toJson (h entry hentry)
  have hrelations : Document.asDictionary? Relation.ofDocument? (relations.toJson Relation.toJson).toDocument =
      some relations :=
    Document.asDictionary?_toJson relations fun entry _ => entry.2.ofDocument?_toJson
  simp only [ofDocument?, hfields, hproperties, hrelations, Document.required?, Document.asString?,
    Option.bind_eq_bind, Option.bind_some]
  rfl

/-! ## Values that are read -/

/-- Members are without repetition when the value of each is. -/
theorem membersDistinct_iff {members : Members} :
    MembersDistinct members ↔ ∀ entry ∈ members, entry.2.Distinct := by
  induction members with
  | nil => simp [MembersDistinct]
  | cons entry rest ih => simp only [MembersDistinct, ih, List.forall_mem_cons]

mutual

/-- No object that is read has a name twice. -/
theorem Document.distinct_of_toJson? {d : Document} {value : Json} (h : d.toJson? = some value) :
    value.Distinct := by
  match d with
  | .null | .bool _ | .int _ | .float _ | .str _ =>
    obtain rfl := Option.some.inj h
    trivial
  | .arr items =>
    obtain ⟨values, hvalues, rfl⟩ := Option.map_eq_some_iff.mp h
    exact itemsDistinct_of_itemsToJson? hvalues
  | .obj members =>
    obtain ⟨entries, hentries, rfl⟩ := Option.map_eq_some_iff.mp h
    have hvalues := membersDistinct_iff.mp (membersDistinct_of_membersToJson? hentries)
    exact ⟨Members.nodup_names_extend (m := []) List.nodup_nil entries, membersDistinct_iff.mpr fun entry hentry =>
      (Members.mem_extend hentry).elim nofun (hvalues entry)⟩
  | .unreadable => cases h

/-- No object among items that are read has a name twice. -/
theorem itemsDistinct_of_itemsToJson? {items : List Document} {values : List Json}
    (h : itemsToJson? items = some values) : ItemsDistinct values := by
  match items with
  | [] =>
    obtain rfl := Option.some.inj h
    trivial
  | item :: rest =>
    unfold itemsToJson? at h
    split at h
    · next hitem hrest =>
      obtain rfl := Option.some.inj h
      exact ⟨Document.distinct_of_toJson? hitem, itemsDistinct_of_itemsToJson? hrest⟩
    · cases h

/-- No object among the values of members that are read has a name twice. -/
theorem membersDistinct_of_membersToJson? {members : List (Option String × Document)}
    {entries : List (String × Json)} (h : membersToJson? members = some entries) : MembersDistinct entries := by
  match members with
  | [] =>
    obtain rfl := Option.some.inj h
    trivial
  | (name, d) :: rest =>
    unfold membersToJson? at h
    split at h
    · next hd hrest =>
      obtain rfl := Option.some.inj h
      exact ⟨Document.distinct_of_toJson? hd, membersDistinct_of_membersToJson? hrest⟩
    · cases h

end

/-- What is not null is not read as null. -/
theorem Document.isNull_of_toJson? {d : Document} {value : Json} (h : d.toJson? = some value) (hd : d ≠ .null) :
    value.isNull = false := by
  cases d with
  | null => exact absurd rfl hd
  | bool | int | float | str => exact Option.some.inj h ▸ rfl
  | arr | obj =>
    obtain ⟨_, -, rfl⟩ := Option.map_eq_some_iff.mp h
    rfl
  | unreadable => cases h

/-- What is read of a part that may be missing or null is read of a document that is not null. -/
theorem Document.exists_of_optional? {α : Type} {read : Document → Option α} {field : Option Document} {value : α}
    (h : optional? read field = some (some value)) : ∃ d, d ≠ .null ∧ read d = some value := by
  cases field with
  | none => cases h
  | some d =>
    by_cases hd : d = .null
    · subst hd
      cases h
    · rw [optional?, orElse?, asOption?_of_ne_null hd, Option.map_eq_some_iff] at h
      obtain ⟨found, hfound, heq⟩ := h
      exact ⟨d, hd, hfound.trans heq⟩

/-- What is read of members is read of a member each. -/
theorem Document.exists_of_mem_readMembers? {α : Type} {read : Document → Option α}
    {members : List (Option String × Document)} {entries : List (String × α)}
    (h : readMembers? read members = some entries) {entry : String × α} (hentry : entry ∈ entries) :
    ∃ d, read d = some entry.2 := by
  induction members generalizing entries with
  | nil =>
    obtain rfl := Option.some.inj h
    cases hentry
  | cons first rest ih =>
    unfold readMembers? at h
    split at h
    · next hfirst hrest =>
      obtain rfl := Option.some.inj h
      obtain rfl | hmem := List.mem_cons.mp hentry
      · exact ⟨_, hfirst⟩
      · exact ih hrest hmem
    · cases h

/-- Every value of a dictionary that is read is read itself. -/
theorem Document.exists_of_mem_asDictionary? {α : Type} {read : Document → Option α} {d : Document}
    {dictionary : Dictionary α} (h : asDictionary? read d = some dictionary) {entry : String × α}
    (hentry : entry ∈ dictionary.entries) : ∃ d, read d = some entry.2 := by
  cases d with
  | obj members =>
    obtain ⟨entries, hentries, rfl⟩ := Option.map_eq_some_iff.mp h
    exact exists_of_mem_readMembers? hentries
      (Dictionary.mem_of_get?_ofList (Dictionary.get?_eq_some_iff.mpr hentry))
  | null | bool | int | float | str | arr | unreadable => cases h

/-! ## Definitions that are read -/

/-- A declared property that is read can be read back. -/
theorem PropertyDeclaration.readable_of_ofDocument? {d : Document} {p : PropertyDeclaration}
    (h : ofDocument? d = some p) : p.Readable := by
  obtain ⟨fields, -, h⟩ := Option.bind_eq_some_iff.mp h
  split at h
  · next declaredType required fallback =>
    obtain ⟨_, -, h⟩ := Option.bind_eq_some_iff.mp h
    obtain ⟨_, -, h⟩ := Option.bind_eq_some_iff.mp h
    obtain ⟨value?, hvalue?, h⟩ := Option.bind_eq_some_iff.mp h
    obtain rfl := Option.some.inj h
    rintro value (rfl : value? = some value)
    obtain ⟨document, hnull, hread⟩ := Document.exists_of_optional? hvalue?
    exact ⟨Document.isNull_of_toJson? hread hnull, Document.distinct_of_toJson? hread⟩
  · cases h

/-- The declared properties of a body that is read can be read back. -/
theorem DefinitionBody.readable_of_ofDocument? {d : Document} {b : DefinitionBody} (h : ofDocument? d = some b) :
    ∀ properties ∈ b.properties, ∀ entry ∈ properties.entries, entry.2.Readable := by
  obtain ⟨fields, -, h⟩ := Option.bind_eq_some_iff.mp h
  split at h
  · next properties hasMany belongsTo =>
    obtain ⟨properties?, hproperties?, h⟩ := Option.bind_eq_some_iff.mp h
    obtain ⟨_, -, h⟩ := Option.bind_eq_some_iff.mp h
    obtain ⟨_, -, h⟩ := Option.bind_eq_some_iff.mp h
    obtain rfl := Option.some.inj h
    rintro declared (rfl : properties? = some declared) entry hentry
    obtain ⟨document, -, hread⟩ := Document.exists_of_optional? hproperties?
    obtain ⟨document', hentry⟩ := Document.exists_of_mem_asDictionary? hread hentry
    exact PropertyDeclaration.readable_of_ofDocument? hentry
  · cases h

/-- A definition that is read can be read back. -/
theorem Definition.readable_of_ofDocument? {d : Document} {definition : Definition}
    (h : ofDocument? d = some definition) : definition.Readable := by
  obtain ⟨fields, -, h⟩ := Option.bind_eq_some_iff.mp h
  split at h
  · next name body =>
    obtain ⟨_, -, h⟩ := Option.bind_eq_some_iff.mp h
    obtain ⟨body?, hbody?, h⟩ := Option.bind_eq_some_iff.mp h
    obtain rfl := Option.some.inj h
    rintro body (rfl : body? = some body)
    obtain ⟨document, -, hread⟩ := Document.exists_of_optional? hbody?
    exact DefinitionBody.readable_of_ofDocument? hread
  · cases h

/-- Trees, what is to be loaded, and models are read back as they were written. What is read of any document as a
definition or as what is to be loaded, however it is spelled, is read again from the way it is written. No value in
memory has a name twice in an object, and so it is asked of the operands of a tree and the defaults of a model. -/
theorem reads_back :
    (∀ p : Predicate, (∀ c ∈ p.leaves, c.operand.Distinct) →
      Predicate.ofDocument? p.toJson.toDocument = some p) ∧
    (∀ p : Populate, Populate.ofDocument? p.toJson.toDocument = some p) ∧
    (∀ m : Model, m.Distinct → Model.ofDocument? m.toJson.toDocument = some m) ∧
    (∀ document definition, Definition.ofDocument? document = some definition →
      Definition.ofDocument? definition.toJson.toDocument = some definition) ∧
    (∀ document p, Populate.ofDocument? document = some p →
      Populate.ofDocument? p.toJson.toDocument = some p) := by
  refine ⟨Predicate.ofDocument?_toJson, Populate.ofDocument?_toJson, fun _ => Model.ofDocument?_toJson, ?_, ?_⟩
  · intro document definition hread
    exact Definition.ofDocument?_toJson (Definition.readable_of_ofDocument? hread)
  · intro document p _
    exact p.ofDocument?_toJson

/-- A tree that compares with an object is read back, and so is a model with a default that is null. A definition
in the form of an array, with the second name of a part, and a path that comes after what is below it are read
again. -/
theorem reads_back_books :
    let tree : Predicate := .and [.leaf (.equal "cover" (.obj [("size", .null), ("tags", .arr [.null])])),
      .or [.leaf (.isNull "sold")]]
    let model : Model :=
      { name := "Book"
        table := "book"
        properties := ⟨[("note", ⟨"String", .string, false, some (.literal .null)⟩),
          ("printed", ⟨"Date", .date, true, some .now⟩)], by decide⟩
        relations := .empty }
    let definition : Definition := ⟨some "Book", some ⟨some (.ofList [("note", ⟨some "String", true, none⟩)]),
      some (.ofList [("pages", ⟨"Page", "book_id"⟩)]), none⟩⟩
    let populate : Populate := .nested "books" (.list [.expression "author"])
    Predicate.ofDocument? tree.toJson.toDocument = some tree ∧
      Model.ofDocument? model.toJson.toDocument = some model ∧
      Definition.ofDocument? definition.toJson.toDocument = some definition ∧
      Populate.ofDocument? populate.toJson.toDocument = some populate := by
  intro tree model definition populate
  have htree : ∀ c ∈ tree.leaves, c.operand.Distinct := by
    simp [tree, Predicate.leaves, leavesOf, Condition.equal, Condition.isNull, Json.Distinct, ItemsDistinct,
      MembersDistinct, Members.names]
  have hmodel : model.Distinct := by
    simp [model, Model.Distinct, DefaultValue.Distinct, Json.Distinct]
  have hdefinition : Definition.ofDocument? (.arr [.str "Book", .obj [
      (some "has_many", .obj [(some "pages", .obj [(some "key", .str "book_id"), (some "ref", .str "Page")])]),
      (some "properties", .obj [(some "note", .arr [.str "String", .bool true, .null])])]]) = some definition :=
    rfl
  have hpopulate : Populate.ofDocument? (.obj [(some "populate", .arr [.str "author"]),
      (some "path", .str "books")]) = some populate := by
    simp only [Populate.ofDocument?, populatesOfDocuments?, populateMembers, Option.map_some]
    rfl
  obtain ⟨htrees, -, hmodels, hdefinitions, hpopulates⟩ := reads_back
  exact ⟨htrees tree htree, hmodels model hmodel, hdefinitions _ definition hdefinition,
    hpopulates _ populate hpopulate⟩

end SchemaQuery
