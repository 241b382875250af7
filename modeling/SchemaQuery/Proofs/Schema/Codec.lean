import SchemaQuery.Proofs.Basic
import SchemaQuery.Schema.Codec

/-!
# Reading definitions back

A value in which no object has a name twice is the value of the document that is made of it, and a dictionary
is read back entry by entry. A definition is read back as it was written, unless one of its properties has null
for a default: a default that is null is written and then read as missing.
-/

namespace SchemaQuery

/-! ## Values -/

mutual

/-- Whether no object of a value has a name twice, as in every object that is read. -/
def Json.Distinct : Json → Prop
  | .null | .bool _ | .int _ | .float _ | .str _ => True
  | .arr items => ItemsDistinct items
  | .obj members => (Members.names members).Nodup ∧ MembersDistinct members

/-- Whether no object of some values has a name twice. -/
def ItemsDistinct : List Json → Prop
  | [] => True
  | item :: rest => item.Distinct ∧ ItemsDistinct rest

/-- Whether no object of the values of some members has a name twice. -/
def MembersDistinct : List (String × Json) → Prop
  | [] => True
  | (_, value) :: rest => value.Distinct ∧ MembersDistinct rest

end

mutual

/-- The document of a value has the value. -/
theorem Json.toJson?_toDocument (v : Json) (h : v.Distinct) : v.toDocument.toJson? = some v := by
  match v with
  | .null | .bool _ | .int _ | .float _ | .str _ => rfl
  | .arr items => rw [Json.toDocument, Document.toJson?, itemsToJson?_toDocuments items h]; rfl
  | .obj members =>
    rw [Json.toDocument, Document.toJson?, membersToJson?_toDocuments members h.2, Option.map_some,
      Members.ofEntries_of_nodup h.1]

/-- The documents of values have the values. -/
theorem itemsToJson?_toDocuments (items : List Json) (h : ItemsDistinct items) :
    itemsToJson? (itemsToDocuments items) = some items := by
  match items with
  | [] => rfl
  | item :: rest =>
    simp only [itemsToDocuments, itemsToJson?, item.toJson?_toDocument h.1,
      itemsToJson?_toDocuments rest h.2]

/-- The documents of members have the members. -/
theorem membersToJson?_toDocuments (members : List (String × Json)) (h : MembersDistinct members) :
    membersToJson? (membersToDocuments members) = some members := by
  match members with
  | [] => rfl
  | (name, value) :: rest =>
    simp only [membersToDocuments, membersToJson?, value.toJson?_toDocument h.1,
      membersToJson?_toDocuments rest h.2]

end

/-! ## Dictionaries -/

namespace Dictionary

variable {α : Type}

/-- An entry whose name comes after all others is put at the end. -/
theorem insertEntry_of_greatest {name : String} (value : α) {entries : List (String × α)}
    (h : ∀ entry ∈ entries, entry.1 < name) :
    insertEntry name value entries = entries ++ [(name, value)] := by
  induction entries with
  | nil => rfl
  | cons first rest ih =>
    rw [List.forall_mem_cons] at h
    have hne : name ≠ first.1 := fun heq => String.lt_irrefl _ (heq ▸ h.1)
    have hnot : ¬name < first.1 := fun hlt => String.lt_irrefl _ (String.lt_trans h.1 hlt)
    rw [insertEntry, if_neg hnot, if_neg hne, ih h.2, List.cons_append]

/-- Dictionaries with the same entries are the same. -/
theorem eq_of_entries {d other : Dictionary α} (h : d.entries = other.entries) : d = other := by
  cases d
  cases other
  cases h
  rfl

/-- Entries that come after those of a dictionary are put at the end, one by one. -/
theorem entries_foldl_insert (d : Dictionary α) {more : List (String × α)}
    (h : (d.entries ++ more).Pairwise (·.1 < ·.1)) :
    (more.foldl (fun d entry => d.insert entry.1 entry.2) d).entries = d.entries ++ more := by
  induction more generalizing d with
  | nil => rw [List.foldl_nil, List.append_nil]
  | cons entry rest ih =>
    have hinsert : (d.insert entry.1 entry.2).entries = d.entries ++ [entry] :=
      insertEntry_of_greatest entry.2 fun other hother =>
        (List.pairwise_append.mp h).2.2 other hother entry List.mem_cons_self
    rw [List.append_cons, ← hinsert] at h ⊢
    exact ih _ h

/-- The entries of a dictionary make the dictionary. -/
theorem ofList_entries (d : Dictionary α) : ofList d.entries = d :=
  eq_of_entries (entries_foldl_insert empty d.sorted)

end Dictionary

/-- A dictionary is read back when its values are. -/
theorem Document.asDictionary?_toJson {α : Type} {write : α → Json} {read : Document → Option α}
    (d : Dictionary α) (h : ∀ entry ∈ d.entries, read (write entry.2).toDocument = some entry.2) :
    asDictionary? read (d.toJson write).toDocument = some d := by
  have hmembers (entries : List (String × α))
      (hentries : ∀ entry ∈ entries, read (write entry.2).toDocument = some entry.2) :
      readMembers? read (membersToDocuments (entries.map fun entry => (entry.1, write entry.2))) =
        some entries := by
    induction entries with
    | nil => rfl
    | cons entry rest ih =>
      rw [List.forall_mem_cons] at hentries
      simp only [List.map_cons, membersToDocuments, readMembers?, hentries.1, ih hentries.2]
  rw [Dictionary.toJson, Json.toDocument, asDictionary?, hmembers d.entries h, Option.map_some,
    d.ofList_entries]

/-! ## Definitions -/

/-- Whether a declared property has no default or one that can be read back. -/
def PropertyDeclaration.Readable (d : PropertyDeclaration) : Prop :=
  ∀ value ∈ d.fallback, value.isNull = false ∧ value.Distinct

/-- Whether all declared properties of a definition can be read back. -/
def Definition.Readable (d : Definition) : Prop :=
  ∀ body ∈ d.body, ∀ properties ∈ body.properties, ∀ entry ∈ properties.entries, entry.2.Readable

/-- A value that is not null is not written as null. -/
theorem Json.toDocument_ne_null {v : Json} (h : v.isNull = false) : v.toDocument ≠ .null := by
  cases v with
  | null => cases h
  | bool | int | float | str | arr | obj => exact nofun

/-- What is not null is read as something. -/
theorem Document.asOption?_of_ne_null {α : Type} {read : Document → Option α} {d : Document}
    (hd : d ≠ .null) : asOption? read d = (read d).map some := by
  cases d with
  | null => exact absurd rfl hd
  | bool | int | float | str | arr | obj | unreadable => rfl

/-- A part that may be missing is read back when it is not written as null. -/
theorem Document.optional?_map {α : Type} {write : α → Json} {read : Document → Option α}
    {part : Option α}
    (h : ∀ value ∈ part, (write value).isNull = false ∧ read (write value).toDocument = some value) :
    optional? read (part.map fun value => (write value).toDocument) = some part := by
  cases part with
  | none => rfl
  | some value =>
    obtain ⟨hnull, hread⟩ := h value rfl
    rw [Option.map_some, optional?, orElse?, asOption?_of_ne_null (Json.toDocument_ne_null hnull), hread,
      Option.map_some]

/-- A declared property is read back. -/
theorem PropertyDeclaration.ofDocument?_toJson {d : PropertyDeclaration} (h : d.Readable) :
    ofDocument? d.toJson.toDocument = some d := by
  obtain ⟨declaredType, required, fallback⟩ := d
  have hfields : (toJson ⟨declaredType, required, fallback⟩).toDocument.fields?
      [["type"], ["required"], ["default"]] =
        some [declaredType.map fun value => (Json.str value).toDocument, some (.bool required),
          fallback.map fun value => (id value).toDocument] := by
    cases declaredType <;> cases fallback <;> rfl
  have htype : Document.optional? Document.asString?
      (declaredType.map fun value => (Json.str value).toDocument) = some declaredType :=
    Document.optional?_map fun _ _ => ⟨rfl, rfl⟩
  have hfallback : Document.optional? Document.toJson?
      (fallback.map fun value => (id value).toDocument) = some fallback :=
    Document.optional?_map fun value hvalue =>
      ⟨(h value hvalue).1, value.toJson?_toDocument (h value hvalue).2⟩
  simp only [ofDocument?, hfields, htype, hfallback, Option.bind_eq_bind, Option.bind_some]
  rfl

/-- A declared relation is read back. -/
theorem RelationDeclaration.ofDocument?_toJson (d : RelationDeclaration) :
    ofDocument? d.toJson.toDocument = some d :=
  rfl

/-- The body of a definition is read back. -/
theorem DefinitionBody.ofDocument?_toJson {b : DefinitionBody}
    (h : ∀ properties ∈ b.properties, ∀ entry ∈ properties.entries, entry.2.Readable) :
    ofDocument? b.toJson.toDocument = some b := by
  obtain ⟨properties, hasMany, belongsTo⟩ := b
  have hfields : (toJson ⟨properties, hasMany, belongsTo⟩).toDocument.fields?
      [["properties"], ["hasMany", "has_many"], ["belongsTo", "belongs_to"]] =
        some [properties.map fun value => (value.toJson PropertyDeclaration.toJson).toDocument,
          hasMany.map fun value => (value.toJson RelationDeclaration.toJson).toDocument,
          belongsTo.map fun value => (value.toJson RelationDeclaration.toJson).toDocument] := by
    cases properties <;> cases hasMany <;> cases belongsTo <;> rfl
  have hproperties : Document.optional? (Document.asDictionary? PropertyDeclaration.ofDocument?)
      (properties.map fun value => (value.toJson PropertyDeclaration.toJson).toDocument) =
        some properties :=
    Document.optional?_map fun value hvalue => ⟨rfl, Document.asDictionary?_toJson value
      fun entry hentry => PropertyDeclaration.ofDocument?_toJson (h value hvalue entry hentry)⟩
  have hrelations (relations : Option RelationDeclarations) :
      Document.optional? (Document.asDictionary? RelationDeclaration.ofDocument?)
        (relations.map fun value => (value.toJson RelationDeclaration.toJson).toDocument) =
          some relations :=
    Document.optional?_map fun value _ => ⟨rfl, Document.asDictionary?_toJson value
      fun entry _ => entry.2.ofDocument?_toJson⟩
  simp only [ofDocument?, hfields, hproperties, hrelations, Option.bind_eq_bind, Option.bind_some]
  rfl

/-- A definition is read back. -/
theorem Definition.ofDocument?_toJson {d : Definition} (h : d.Readable) :
    ofDocument? d.toJson.toDocument = some d := by
  obtain ⟨name, body⟩ := d
  have hfields : (toJson ⟨name, body⟩).toDocument.fields? [["name"], ["schema"]] =
      some [name.map fun value => (Json.str value).toDocument,
        body.map fun value => value.toJson.toDocument] := by
    cases name <;> cases body <;> rfl
  have hname : Document.optional? Document.asString?
      (name.map fun value => (Json.str value).toDocument) = some name :=
    Document.optional?_map fun _ _ => ⟨rfl, rfl⟩
  have hbody : Document.optional? DefinitionBody.ofDocument?
      (body.map fun value => value.toJson.toDocument) = some body :=
    Document.optional?_map fun value hvalue =>
      ⟨rfl, DefinitionBody.ofDocument?_toJson (h value hvalue)⟩
  simp only [ofDocument?, hfields, hname, hbody, Option.bind_eq_bind, Option.bind_some]
  rfl

end SchemaQuery
