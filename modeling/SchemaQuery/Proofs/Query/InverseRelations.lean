import Mathlib.Data.List.Pairwise
import SchemaQuery.Proofs.Json.Binary64
import SchemaQuery.Proofs.Query.FirstRow

/-!
# Relations there and back

Where one model has many of another and those belong to one of it, over the same key, the two relations link the same
rows. They are loaded in opposite directions: a row that has many is compared by its primary key with the keys of the
other table, and a row that belongs to one by its key with the primary keys, of which the first that fits is taken. So
it rests on the equality of column values, which can be turned around and taken on, and on primary keys that it tells
apart, as it does below 2⁵³.
-/

namespace SchemaQuery

/-- Whether a model shows a relation of a kind under a name, over a key, to a registered model. -/
def Registry.Leads (r : Registry) (kind : RelationKind) (source : Model) (name key : String) (target : Model) : Prop :=
  ∃ relation, source.relations.get? name = some relation ∧ relation.kind = kind ∧ relation.foreignKey = key ∧
    r.models.get? relation.model = some target

/-! ## Primary keys below 2⁵³ -/

namespace Table

/-- Whether all primary keys of a table are below 2⁵³. -/
def SmallKeys (t : Table) : Prop :=
  ∀ row ∈ t.rows, ∃ id < 2 ^ 53, row.getD primaryKey = .ofNat id

/-- Numbers of which one is below 2⁵³ are equal as column values just when they are one number. -/
theorem equals_ofNat_iff {m n : Nat} (hm : m < 2 ^ 53) : (Json.ofNat m).equals (.ofNat n) = true ↔ m = n := by
  rw [Json.equals_of_number (Json.asNumber?_ofNat m), Json.asNumber?_ofNat]
  simp only [Option.some.injEq, exists_eq_left', Binary64.key_ofInt_inj hm]

variable {t : Table}

/-- No two rows of a counted table have primary keys below 2⁵³ that are equal as column values. -/
theorem Counted.pairwise_equals (ht : t.Counted) (hsmall : t.SmallKeys) :
    t.rows.Pairwise fun a b => (a.getD primaryKey).equals (b.getD primaryKey) = false := by
  refine (List.pairwise_map.mp ht.apart).imp_of_mem fun {a b} ha hb hapart => ?_
  obtain ⟨m, hm, hida⟩ := hsmall a ha
  obtain ⟨n, hn, hidb⟩ := hsmall b hb
  have hbits {k : Nat} (hk : k < 2 ^ 53) : (Json.ofNat k).asNat? = some k :=
    Json.asNat?_eq_some_iff.mpr ⟨by unfold Whole.greatest; omega, rfl⟩
  rw [hida, hidb, Bool.eq_false_iff, ne_eq, equals_ofNat_iff hm]
  rintro rfl
  exact hapart m (hida ▸ hbits hm) (hidb ▸ hbits hn)

/-- Rows of a counted table that have primary keys below 2⁵³ are one row if the keys are equal as column values. -/
theorem Counted.eq_of_equals (ht : t.Counted) (hsmall : t.SmallKeys) {a b : Row} (ha : a ∈ t.rows) (hb : b ∈ t.rows)
    (h : (a.getD primaryKey).equals (b.getD primaryKey) = true) : a = b := by
  have hpairwise : t.rows.Pairwise fun a b => (a.getD primaryKey).equals (b.getD primaryKey) = true → a = b :=
    (ht.pairwise_equals hsmall).imp fun hne heq => absurd heq (Bool.eq_false_iff.mp hne)
  refine hpairwise.forall_of_forall_of_flip (fun _ _ _ => rfl) ?_ ha hb h
  refine (ht.pairwise_equals hsmall).imp fun hne heq => ?_
  exact absurd (Json.equals_symm heq) (Bool.eq_false_iff.mp hne)

end Table

namespace Load

/-! ## Loading one relation -/

section Loading

variable {registry : Registry} {store : Store} {model target : Model} {name : String} {relation : Relation} {t : Table}

/-- Loading one relation, with nothing below it, shows for each row the rows that belong to its key. -/
theorem loadAll_single (hstore : store.Numbered) (hrelation : model.relations.get? name = some relation)
    (htarget : registry.models.get? relation.model = some target) (ht : store.tables.get? target.table = some t)
    (rows : List Row) :
    loadAll registry store model [.node name []] rows = .ok (rows.map fun row => row.insert name
      (shown relation.kind (belonging store target.table relation.targetKey (row.getD relation.sourceKey)))) := by
  have hflat : ∀ node ∈ [PopulateNode.node name []], node.children = [] := fun node hnode => by
    rw [List.mem_singleton.mp hnode]
    rfl
  have hcheck : checkAll registry model [.node name []] = .ok () := by
    rw [checkAll, checkNode_of_target hrelation htarget]
    rfl
  have hstored : allStored registry store model [.node name []] = true := by
    have hcontains : store.tables.contains target.table = true := (Dictionary.contains_eq_true_iff ..).mpr ⟨t, ht⟩
    simp [allStored, nodeStored, hrelation, htarget, hcontains]
  rw [loadAll_eq hstore model _ rows hcheck hstored (allKeep_of_flat hflat)]
  simp only [withAll, withNode, hrelation, htarget, List.map_id']

/-- What belongs to a key is a row of the table whose column equals the key. -/
theorem mem_belonging_iff {table column : String} {key : Json} (ht : store.tables.get? table = some t) {row : Row} :
    row ∈ belonging store table column key ↔ row ∈ t.rows ∧ (row.getD column).equals key = true := by
  rw [belonging, ht]
  cases hnull : key.isNull with
  | true => simp [Json.equals_null hnull]
  | false => simp

end Loading

/-! ## Two relations over one key -/

section Inverse

variable (store : Store) (source target : Model) (key : String)

/-- The rows of the target that a row of the source has, as the storage holds them. -/
def manyOf (row : Row) : List Row :=
  belonging store target.table key (row.getD primaryKey)

/-- The row of the source that a row of the target belongs to, as the storage holds it. -/
def ownerOf? (row : Row) : Option Row :=
  (belonging store source.table primaryKey (row.getD key)).head?

/-- Two relations over one key are there and back: what they show are links between the rows of two tables, and they
are the same links. -/
structure Inverse (registry : Registry) (many one : String) (owners members : List Row) : Prop where
  /-- Loading the one relation shows each row what it has. -/
  loadsMany : ∀ rows, loadAll registry store source [.node many []] rows =
    .ok (rows.map fun row => row.insert many (.arr ((manyOf store target key row).map .obj)))
  /-- Loading the other relation shows each row what it belongs to, or null. -/
  loadsOne : ∀ rows, loadAll registry store target [.node one []] rows =
    .ok (rows.map fun row => row.insert one ((ownerOf? store source key row).elim .null .obj))
  /-- What a row has are rows of the other table. -/
  mem_members : ∀ owner, ∀ member ∈ manyOf store target key owner, member ∈ members
  /-- What a row belongs to is a row of the other table. -/
  mem_owners : ∀ member, ∀ owner ∈ ownerOf? store source key member, owner ∈ owners
  /-- A row has another just when that belongs to it. -/
  linked : ∀ owner ∈ owners, ∀ member ∈ members,
    member ∈ manyOf store target key owner ↔ ownerOf? store source key member = some owner
  /-- No two rows have a row in common. -/
  disjoint : owners.Pairwise fun owner other =>
    (manyOf store target key owner).Disjoint (manyOf store target key other)
  /-- A row that no row has is one that belongs to none. -/
  alone : ∀ member ∈ members,
    (∀ owner ∈ owners, member ∉ manyOf store target key owner) ↔ ownerOf? store source key member = none

variable {store} {source} {target} {key} {owners members : Table}

/-- A row has another just when it is among the rows that fit the key of the other. -/
theorem mem_manyOf_iff (howners : store.tables.get? source.table = some owners)
    (hmembers : store.tables.get? target.table = some members) {owner member : Row} (howner : owner ∈ owners.rows)
    (hmember : member ∈ members.rows) :
    member ∈ manyOf store target key owner ↔
      owner ∈ belonging store source.table primaryKey (member.getD key) := by
  rw [manyOf, mem_belonging_iff hmembers, mem_belonging_iff howners]
  exact ⟨fun h => ⟨howner, Json.equals_symm h.2⟩, fun h => ⟨hmember, Json.equals_symm h.2⟩⟩

/-- Of rows with primary keys below 2⁵³, no two fit one key. -/
theorem ownerOf?_eq_some_iff (howners : store.tables.get? source.table = some owners) (hcounted : owners.Counted)
    (hsmall : owners.SmallKeys) {owner member : Row} :
    ownerOf? store source key member = some owner ↔
      owner ∈ belonging store source.table primaryKey (member.getD key) := by
  refine ⟨List.mem_of_head?, fun howner => ?_⟩
  rw [ownerOf?]
  cases hfits : belonging store source.table primaryKey (member.getD key) with
  | nil =>
    rw [hfits] at howner
    cases howner
  | cons first rest =>
    have hfirst : first ∈ belonging store source.table primaryKey (member.getD key) := hfits ▸ List.mem_cons_self
    obtain ⟨hfirstRow, hfirstFits⟩ := (mem_belonging_iff howners).mp hfirst
    obtain ⟨hownerRow, hownerFits⟩ := (mem_belonging_iff howners).mp howner
    have hequals := Json.equals_trans hfirstFits (Json.equals_symm hownerFits)
    exact congrArg some (hcounted.eq_of_equals hsmall hfirstRow hownerRow hequals)

/-- Loading has-many shows each row what it has. -/
theorem loadAll_many (hstore : store.Numbered) {registry : Registry} {many : String}
    (hmany : registry.Leads .hasMany source many key target)
    (hmembers : store.tables.get? target.table = some members) (rows : List Row) :
    loadAll registry store source [.node many []] rows =
      .ok (rows.map fun row => row.insert many (.arr ((manyOf store target key row).map .obj))) := by
  obtain ⟨relation, hrelation, hkind, rfl, htarget⟩ := hmany
  rw [loadAll_single hstore hrelation htarget hmembers]
  simp only [shown, manyOf, Relation.sourceKey, Relation.targetKey, hkind]

/-- Loading belongs-to shows each row what it belongs to, or null. -/
theorem loadAll_owner (hstore : store.Numbered) {registry : Registry} {one : String}
    (hone : registry.Leads .belongsTo target one key source)
    (howners : store.tables.get? source.table = some owners) (rows : List Row) :
    loadAll registry store target [.node one []] rows =
      .ok (rows.map fun row => row.insert one ((ownerOf? store source key row).elim .null .obj)) := by
  obtain ⟨relation, hrelation, hkind, rfl, hsource⟩ := hone
  have hshown (found : List Row) : shown .belongsTo found = found.head?.elim .null .obj := by cases found <;> rfl
  rw [loadAll_single hstore hrelation hsource howners]
  simp only [hshown, ownerOf?, Relation.sourceKey, Relation.targetKey, hkind]

/-- Has-many and belongs-to over one key are there and back in every store that runs lead to, if the primary keys of
the rows that have many are below 2⁵³. The runs that a counter of 64 bits can take are those of `Store.RunFits`, in
which no row without a key is added to a table whose counter is `Whole.greatest`; what holds of all runs holds of
them. -/
theorem inverse_of_leads {registry : Registry} {many one : String}
    (hmany : registry.Leads .hasMany source many key target) (hone : registry.Leads .belongsTo target one key source)
    (names : List String) (steps : List StoreStep)
    (howners : ((Store.ofTables names).run steps).tables.get? source.table = some owners)
    (hmembers : ((Store.ofTables names).run steps).tables.get? target.table = some members)
    (hsmall : owners.SmallKeys) :
    Inverse ((Store.ofTables names).run steps) source target key registry many one owners.rows members.rows := by
  have hnumbered := Store.numbered_run names steps
  have hcounted : owners.Counted := Store.counted_run names steps _ owners howners
  generalize (Store.ofTables names).run steps = store at *
  have hlinked : ∀ owner ∈ owners.rows, ∀ member ∈ members.rows,
      member ∈ manyOf store target key owner ↔ ownerOf? store source key member = some owner := by
    intro owner howner member hmember
    rw [mem_manyOf_iff howners hmembers howner hmember, ownerOf?_eq_some_iff howners hcounted hsmall]
  have hownerRow : ∀ member, ∀ owner ∈ ownerOf? store source key member, owner ∈ owners.rows := by
    intro member owner howner
    exact ((mem_belonging_iff howners).mp (List.mem_of_head? howner)).1
  constructor
  case loadsMany => exact loadAll_many hnumbered hmany hmembers
  case loadsOne => exact loadAll_owner hnumbered hone howners
  case mem_members => exact fun owner member hmember => ((mem_belonging_iff hmembers).mp hmember).1
  case mem_owners => exact hownerRow
  case linked => exact hlinked
  case disjoint =>
    refine (hcounted.pairwise_equals hsmall).imp_of_mem fun {owner other} howner hother hne member hmember hshared => ?_
    have howns := (mem_belonging_iff hmembers).mp hmember
    have hshares := (mem_belonging_iff hmembers).mp hshared
    exact absurd (Json.equals_trans (Json.equals_symm howns.2) hshares.2) (Bool.eq_false_iff.mp hne)
  case alone =>
    intro member hmember
    constructor
    · intro hnone
      refine Option.eq_none_iff_forall_ne_some.mpr fun owner howner => ?_
      have howns := hownerRow member owner howner
      exact hnone owner howns ((hlinked owner howns member hmember).mpr howner)
    · intro hnone owner howner hmem
      rw [(hlinked owner howner member hmember).mp hmem] at hnone
      cases hnone

/-- Authors and their books: keys that are a whole number, a boolean and a float, and a book without one. -/
theorem inverse_of_leads_books :
    let author : Model := ⟨"Author", "author", .empty, .empty⟩
    let book : Model := ⟨"Book", "book", .empty, .empty⟩
    let authors : Model :=
      { author with relations := .ofList [("books", .between .hasMany "books" author book "author_id")] }
    let books : Model :=
      { book with relations := .ofList [("author", .between .belongsTo "author" book author "author_id")] }
    let registry : Registry := ⟨.ofList [("Author", authors), ("Book", books)], .empty, .empty⟩
    let steps : List StoreStep :=
      [.insert "author" [("name", .str "Austen")], .insert "author" [("name", .str "Shelley")],
        .insert "book" [("title", .str "Emma"), ("author_id", .ofNat 1)],
        .insert "book" [("title", .str "Persuasion"), ("author_id", .bool true)],
        .insert "book" [("title", .str "Mathilda"), ("author_id", .float (Binary64.ofInt 2))],
        .insert "book" [("title", .str "Amok")]]
    let store := (Store.ofTables ["author", "book"]).run steps
    let austen : Row := [(primaryKey, .ofNat 1), ("name", .str "Austen")]
    let shelley : Row := [(primaryKey, .ofNat 2), ("name", .str "Shelley")]
    let emma : Row := [(primaryKey, .ofNat 1), ("title", .str "Emma"), ("author_id", .ofNat 1)]
    let persuasion : Row := [(primaryKey, .ofNat 2), ("title", .str "Persuasion"), ("author_id", .bool true)]
    let mathilda : Row := [(primaryKey, .ofNat 3), ("title", .str "Mathilda"), ("author_id", .float (Binary64.ofInt 2))]
    let amok : Row := [(primaryKey, .ofNat 4), ("title", .str "Amok")]
    registry.Leads .hasMany authors "books" "author_id" books ∧
      registry.Leads .belongsTo books "author" "author_id" authors ∧
      store.tables.get? "author" = some ⟨[austen, shelley], 2⟩ ∧
      store.tables.get? "book" = some ⟨[emma, persuasion, mathilda, amok], 4⟩ ∧
      Table.SmallKeys ⟨[austen, shelley], 2⟩ ∧
      Inverse store authors books "author_id" registry "books" "author" [austen, shelley]
        [emma, persuasion, mathilda, amok] ∧
      persuasion ∈ manyOf store books "author_id" austen ∧ ownerOf? store authors "author_id" amok = none := by
  intro author book authors books registry steps store austen shelley emma persuasion mathilda amok
  have hbooks : registry.models.get? "Book" = some books := by
    simp [registry, Dictionary.ofList, Dictionary.get?_insert]
  have hauthors : registry.models.get? "Author" = some authors := by
    simp [registry, Dictionary.ofList, Dictionary.get?_insert]
  have hmany : registry.Leads .hasMany authors "books" "author_id" books := ⟨_, rfl, rfl, rfl, hbooks⟩
  have hone : registry.Leads .belongsTo books "author" "author_id" authors := ⟨_, rfl, rfl, rfl, hauthors⟩
  have howners : store.tables.get? "author" = some ⟨[austen, shelley], 2⟩ := rfl
  have hmembers : store.tables.get? "book" = some ⟨[emma, persuasion, mathilda, amok], 4⟩ := rfl
  have hsmall : Table.SmallKeys ⟨[austen, shelley], 2⟩ := by
    intro row hrow
    obtain rfl | hrow := List.mem_cons.mp hrow
    · exact ⟨1, by decide, rfl⟩
    · obtain rfl := List.mem_singleton.mp hrow
      exact ⟨2, by decide, rfl⟩
  have hinverse := inverse_of_leads hmany hone ["author", "book"] steps howners hmembers hsmall
  have hshares : persuasion ∈ manyOf store books "author_id" austen :=
    (mem_belonging_iff hmembers).mpr ⟨List.mem_cons_of_mem _ List.mem_cons_self, by decide +kernel⟩
  exact ⟨hmany, hone, howners, hmembers, hsmall, hinverse, hshares, rfl⟩

end Inverse

end Load

end SchemaQuery
