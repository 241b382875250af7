import SchemaQuery.Proofs.Query.EagerLoading
import SchemaQuery.Proofs.Query.RelationPaths
import SchemaQuery.Proofs.Rows.Operations
import SchemaQuery.Proofs.Storage.PrimaryKeys

/-!
# The first row

Asking for the first row cuts the rows in the storage to one, before relations are loaded and columns are dropped. It
gives what cutting at the end gives: the rows come in the same order whether they are cut or not, and a row is given
its relations without regard to the other rows. So the answer is the first row of the answer for all of them.
-/

namespace SchemaQuery

/-! ## Requests for one row and for all -/

/-- Whether a call sets no limit and loads nothing below relations. -/
def RequestCall.Flat : RequestCall → Prop
  | .limit _ => False
  | .populate what => ∀ nodes, what.parse = .ok nodes → ∀ node ∈ nodes, node.children = []
  | .filter _ | .select _ | .sort _ | .skip _ => True

namespace Request

/-- A request for all rows of a model, without a limit, that loads nothing below relations. -/
structure Flat (model : Model) (r : Request) : Prop where
  model_eq : r.model = model
  kind : r.kind = .select
  all : r.first = false
  limit : r.limit = none
  children : ∀ node ∈ r.populate, node.children = []

section Calls

variable {r after : Request} {model : Model}

/-- Adding a filter does not change that nothing is loaded below relations. -/
theorem Flat.addFilter (h : r.Flat model) {value : Json} (hafter : r.addFilter value = .ok after) :
    after.Flat model := by
  obtain ⟨filter, rfl⟩ := addFilter_eq_ok hafter
  exact ⟨h.model_eq, h.kind, h.all, h.limit, h.children⟩

/-- A call that sets no limit and loads nothing below relations keeps a request so. -/
theorem Flat.call (h : r.Flat model) {next : RequestCall} (hnext : next.Flat) (hafter : r.call next = .ok after) :
    after.Flat model := by
  cases next with
  | filter value => exact h.addFilter hafter
  | select fields =>
    rw [Request.call, addFields, if_pos h.kind] at hafter
    obtain rfl := Except.ok.inj hafter
    exact ⟨h.model_eq, h.kind, h.all, h.limit, h.children⟩
  | sort fields =>
    simp only [Request.call, addOrder] at hafter
    split at hafter
    · cases hafter
    · cases hafter
    · obtain rfl := Except.ok.inj hafter
      exact ⟨h.model_eq, h.kind, h.all, h.limit, h.children⟩
  | limit n => exact hnext.elim
  | skip n =>
    obtain rfl := Except.ok.inj hafter
    exact ⟨h.model_eq, h.kind, h.all, h.limit, h.children⟩
  | populate what =>
    rw [Request.call, addPopulate, if_pos h.kind] at hafter
    obtain ⟨nodes, hnodes, rfl⟩ := map_eq_ok_iff.mp hafter
    refine ⟨h.model_eq, h.kind, h.all, h.limit, fun node hnode => ?_⟩
    exact (List.mem_append.mp hnode).elim (h.children node) (hnext nodes hnodes node)

end Calls

/-- A filter is added alike to a request for the first row. -/
theorem addFilter_onlyFirst (r : Request) (value : Json) :
    r.onlyFirst.addFilter value = (r.addFilter value).map onlyFirst := by
  cases value <;> rfl

/-- A request for the first row is refined like the one for all rows. -/
theorem call_onlyFirst (r : Request) (next : RequestCall) :
    r.onlyFirst.call next = (r.call next).map onlyFirst := by
  have hkind : r.onlyFirst.kind = r.kind := rfl
  cases next with
  | filter value => exact r.addFilter_onlyFirst value
  | select fields =>
    rw [Request.call, Request.call, addFields, addFields, hkind]
    split <;> rfl
  | sort fields =>
    rw [Request.call, Request.call, addOrder, addOrder]
    split <;> rfl
  | limit n => rfl
  | skip n => rfl
  | populate what =>
    rw [Request.call, Request.call, addPopulate, addPopulate, hkind]
    split
    · cases what.parse <;> rfl
    · rfl

/-- A request for the first row is refined, call by call, like the one for all rows. -/
theorem foldlM_call_onlyFirst (calls : List RequestCall) (r : Request) :
    calls.foldlM Request.call r.onlyFirst = (calls.foldlM Request.call r).map onlyFirst := by
  induction calls generalizing r with
  | nil => rfl
  | cons next rest ih =>
    rw [List.foldlM_cons, List.foldlM_cons, call_onlyFirst]
    cases r.call next with
    | error fault => rfl
    | ok refined => exact ih refined

end Request

/-- A request for the first row is compiled like the one for all rows. -/
theorem Request.compile_onlyFirst {r : Request} (hkind : r.kind = .select) (registry : Registry) :
    r.onlyFirst.compile registry = (r.compile registry).map fun c => r.onlyFirst.selecting c.tree := by
  have hkindFirst : r.onlyFirst.kind = .select := hkind
  rw [compile_select hkind, compile_select hkindFirst]
  have hfilter : r.onlyFirst.filter = r.filter := rfl
  have hmodel : r.onlyFirst.model = r.model := rfl
  have hpopulate : r.onlyFirst.populate = r.populate := rfl
  rw [hfilter, hmodel, hpopulate]
  cases r.filter.compile with
  | error fault => rfl
  | ok tree => cases Load.checkAll registry r.model r.populate <;> rfl

/-! ## Selections -/

/-- Cut to one row, a selection without a limit gives the first of its rows. -/
theorem Store.select_one (s : Store) {selection : Selection} (hlimit : selection.limit = none) :
    s.select { selection with limit := some 1 } = (s.select selection).map (List.take 1) := by
  simp only [Store.select, Table.select, hlimit]
  cases s.table selection.table with
  | error fault => rfl
  | ok t => exact congrArg Except.ok List.map_take

/-- The selection of the first row is the selection of all rows, cut to one. -/
theorem Request.Flat.select_onlyFirst {r : Request} {model : Model} (h : r.Flat model) (s : Store) (clause : Clause) :
    s.select (r.onlyFirst.selection clause) = (s.select (r.selection clause)).map (List.take 1) := by
  have hlimit : (r.selection clause).limit = none := by
    rw [selection, rowLimit, h.all]
    exact h.limit
  exact s.select_one hlimit

namespace Load

variable {registry : Registry} {store : Store} {model : Model} {nodes : List PopulateNode}

/-- With the tables of all registered models stored, those of the relations of a registered model are, if nothing is
loaded below them. -/
theorem allStored_of_flat (hsound : registry.Sound) (hmodel : registry.models.get? model.name = some model)
    (htables : ∀ name other, registry.models.get? name = some other → store.tables.contains other.table = true)
    (hflat : ∀ node ∈ nodes, node.children = []) : allStored registry store model nodes = true := by
  induction nodes with
  | nil => rfl
  | cons node rest ih =>
    obtain ⟨name, children⟩ := node
    obtain rfl : children = [] := hflat _ List.mem_cons_self
    have hnode : nodeStored registry store model (.node name []) = true := by
      rw [nodeStored]
      cases hrelation : model.relations.get? name with
      | none => rfl
      | some relation =>
        obtain ⟨target, htarget, -⟩ := hsound.exists_target hmodel hrelation
        simp [htarget, htables _ _ htarget, allStored]
    rw [allStored, hnode, ih fun other hother => hflat other (List.mem_cons_of_mem _ hother), Bool.and_self]

/-- Relations with nothing below them are loaded into no column by which a relation is followed. -/
theorem allKeep_of_flat (hflat : ∀ node ∈ nodes, node.children = []) : allKeep registry model nodes = true := by
  induction nodes with
  | nil => rfl
  | cons node rest ih =>
    obtain ⟨name, children⟩ := node
    obtain rfl : children = [] := hflat _ List.mem_cons_self
    have hnode : nodeKeeps registry model (.node name []) = true := by
      rw [nodeKeeps]
      cases model.relations.get? name with
      | none => rfl
      | some relation => cases registry.models.get? relation.model <;> simp [allKeep]
    rw [allKeep, hnode, ih fun other hother => hflat other (List.mem_cons_of_mem _ hother), Bool.and_self]

end Load

namespace Database

variable (db : Database) (model : Model)

/-- What a request for rows, refined by calls, comes to when it is run. -/
def answer (single : Bool) (filter : Json) (calls : List RequestCall) : Except QueryError Output :=
  db.refined model single filter calls >>= fun r => (db.run r).result

/-- What a request for all rows, refined by calls, compiles to. -/
def compiled (filter : Json) (calls : List RequestCall) : Except QueryError CompiledRequest :=
  db.refined model false filter calls >>= fun r => r.compile db.registry

/-- The request for the first row is the one for all rows, asking for the first only. -/
theorem refined_single (filter : Json) (calls : List RequestCall) :
    db.refined model true filter calls = (db.refined model false filter calls).map Request.onlyFirst := by
  simp only [refined, ↓reduceIte, Bool.false_eq_true, find, findOne, Request.addFilter_onlyFirst]
  cases (db.request model .select).addFilter filter with
  | error fault => rfl
  | ok started => exact Request.foldlM_call_onlyFirst calls started

variable {db} {model}

/-- Refined by calls that set no limit and load nothing below relations, a request for rows is as they are. -/
theorem flat_refined {filter : Json} {calls : List RequestCall} (hcalls : ∀ next ∈ calls, next.Flat) {r : Request}
    (h : db.refined model false filter calls = .ok r) : r.Flat model := by
  obtain ⟨started, hstarted, hrefined⟩ := bind_eq_ok_iff.mp h
  have hrequest : (db.request model .select).Flat model :=
    ⟨rfl, rfl, rfl, rfl, fun _ hnode => absurd hnode List.not_mem_nil⟩
  exact Request.foldlM_call_keeps (fun next hnext _ _ hflat hcall => hflat.call (hcalls next hnext) hcall)
    (hrequest.addFilter hstarted) hrefined

/-- The tables of all registered models are stored. -/
def HasTables (db : Database) : Prop :=
  ∀ name model, db.registry.models.get? name = some model → db.store.tables.contains model.table = true

/-- Finishing rows for a request without nested relations changes every row by itself. -/
theorem finish_flat (hsound : db.registry.Sound) (hstore : db.store.Numbered) (htables : db.HasTables)
    (hmodel : db.registry.models.get? model.name = some model) {r : Request} (hflat : r.Flat model)
    (hcheck : Load.checkAll db.registry r.model r.populate = .ok ()) (tree : Option Predicate) :
    ∃ f : Row → Row, ∀ rows, db.finish (r.selecting tree) rows = .ok (rows.map f) := by
  obtain rfl := hflat.model_eq
  refine ⟨fun row => r.projection.apply (r.populate.map PopulateNode.name)
    (Load.withAll db.registry db.store r.model r.populate row), fun rows => ?_⟩
  have hload := Load.loadAll_eq hstore r.model r.populate rows hcheck
    (Load.allStored_of_flat hsound hmodel htables hflat.children) (Load.allKeep_of_flat hflat.children)
  change (Load.loadAll db.registry db.store r.model r.populate rows).map _ = _
  rw [hload]
  exact congrArg Except.ok List.map_map

/-- Run, a request for all rows gives rows, and the one for the first row gives the first of them. -/
theorem execute_onlyFirst (hsound : db.registry.Sound) (hstore : db.store.Numbered) (htables : db.HasTables)
    (hmodel : db.registry.models.get? model.name = some model) {r : Request} (hflat : r.Flat model)
    (hcheck : Load.checkAll db.registry r.model r.populate = .ok ()) (tree : Option Predicate) :
    ∃ rows, (db.execute (r.selecting tree)).result = .ok (.rows rows) ∧
      (db.execute (r.onlyFirst.selecting tree)).result = .ok (.row rows.head?) := by
  obtain ⟨f, hfinish⟩ := finish_flat hsound hstore htables hmodel hflat hcheck tree
  have hfinishFirst : db.finish (r.onlyFirst.selecting tree) = db.finish (r.selecting tree) := rfl
  obtain rfl := hflat.model_eq
  obtain ⟨t, ht⟩ := (Dictionary.contains_eq_true_iff ..).mp (htables _ _ hmodel)
  have htable : db.store.table (r.selection (Clause.ofPredicate tree)).table = .ok t := Store.table_eq_ok_iff.mpr ht
  have hselect : db.store.select (r.selection (Clause.ofPredicate tree)) =
      .ok (t.select (r.selection (Clause.ofPredicate tree))) := by
    rw [Store.select, htable]
    rfl
  generalize t.select (r.selection (Clause.ofPredicate tree)) = found at hselect
  refine ⟨found.map f, ?_, ?_⟩
  · rw [result_execute_select, hselect, hflat.all]
    change (db.finish (r.selecting tree) found).map _ = _
    rw [hfinish]
    rfl
  · rw [result_execute_select, hflat.select_onlyFirst, hselect, hfinishFirst]
    change (db.finish (r.selecting tree) (found.take 1)).map _ = _
    rw [hfinish]
    cases found <;> rfl

/-- In every state in which the tables of all registered models are stored, asking for the first row, with a filter and
calls that set no limit and load nothing below relations, fails as asking for all rows does, before anything is read,
or gives the first of the rows, with the same columns and relations, and none just when there are no rows. -/
theorem answer_single (changes : List RegistryStep) (names : List String) (steps : List StoreStep)
    (options : DatabaseOptions) :
    let db : Database := ⟨Registry.empty.run changes, (Store.ofTables names).run steps, options⟩
    db.HasTables → ∀ model, db.registry.models.get? model.name = some model →
      ∀ (filter : Json) (calls : List RequestCall), (∀ next ∈ calls, next.Flat) →
        (∀ fault, db.compiled model filter calls = .error fault →
          db.answer model false filter calls = .error fault ∧ db.answer model true filter calls = .error fault) ∧
        ∀ c, db.compiled model filter calls = .ok c →
          ∃ rows, db.answer model false filter calls = .ok (.rows rows) ∧
            db.answer model true filter calls = .ok (.row rows.head?) := by
  intro db htables model hmodel filter calls hcalls
  have hsound : db.registry.Sound := Registry.Sound.empty.run changes
  have hstore : db.store.Numbered := Store.numbered_run names steps
  simp only [answer, compiled, refined_single]
  cases hrefined : db.refined model false filter calls with
  | error fault =>
    refine ⟨fun other hother => ?_, nofun⟩
    obtain rfl : fault = other := Except.error.inj hother
    exact ⟨rfl, rfl⟩
  | ok r =>
    have hflat := flat_refined hcalls hrefined
    have hfirst := Request.compile_onlyFirst hflat.kind db.registry
    constructor
    · intro fault (hcompile : r.compile db.registry = .error fault)
      change (db.run r).result = _ ∧ (db.run r.onlyFirst).result = _
      rw [run, run, hfirst, hcompile]
      exact ⟨rfl, rfl⟩
    · intro c (hcompile : r.compile db.registry = .ok c)
      obtain ⟨tree, hcheck, rfl⟩ := Request.compile_select_eq_ok hflat.kind hcompile
      change ∃ rows, (db.run r).result = _ ∧ (db.run r.onlyFirst).result = _
      rw [run, run, hfirst, hcompile]
      exact execute_onlyFirst hsound hstore htables hmodel hflat hcheck tree

/-- The first of the books but one, with its author and without its year. -/
theorem answer_single_books :
    let changes : List RegistryStep :=
      [.addModel (Definition.named "Author"),
        .addModel ((Definition.named "Book").addBelongsTo "author" ⟨"Author", "author_id"⟩), .resolve]
    let austen : Row := [(primaryKey, .ofNat 1), ("name", .str "Austen")]
    let steps : List StoreStep :=
      [.insert "author" austen, .insert "book" [("title", .str "Amok")],
        .insert "book" [("title", .str "Emma"), ("author_id", .ofNat 1), ("year", .ofNat 1815)],
        .insert "book" [("title", .str "Persuasion"), ("author_id", .ofNat 1)]]
    let db : Database := ⟨Registry.empty.run changes, (Store.ofTables ["author", "book"]).run steps, default⟩
    let calls : List RequestCall :=
      [.populate (.expression "[author]"), .skip 1, .select ⟨["-year"]⟩]
    db.HasTables ∧ (∀ next ∈ calls, next.Flat) ∧ ∃ book, db.registry.models.get? book.name = some book ∧
      (db.answer book true .null calls).toOption.any (fun output => output.toJson.same (.obj
        [(primaryKey, .ofNat 2), ("title", .str "Emma"), ("author_id", .ofNat 1), ("author", .obj austen)])) = true ∧
      ∃ rows, db.answer book false .null calls = .ok (.rows rows) ∧
        db.answer book true .null calls = .ok (.row rows.head?) := by
  intro changes austen steps db calls
  have htables : db.HasTables := by
    have hall : (db.registry.models.entries.all fun entry => db.store.tables.contains entry.2.table) = true := by
      decide +kernel
    exact fun name model hmodel => List.all_eq_true.mp hall (name, model) (Dictionary.get?_eq_some_iff.mp hmodel)
  have hflat : ∀ next ∈ calls, next.Flat := by
    have hparse : (Populate.expression "[author]").parse.toOption.all (List.all · fun node => node.children.isEmpty) =
        true := by
      decide +kernel
    have hpopulate : (RequestCall.populate (.expression "[author]")).Flat := by
      intro nodes hnodes node hnode
      rw [hnodes] at hparse
      exact List.isEmpty_iff.mp (List.all_eq_true.mp hparse node hnode)
    simp only [calls, List.forall_mem_cons]
    exact ⟨hpopulate, trivial, trivial, by simp⟩
  have hsome : (db.registry.models.get? "Book").isSome = true := by decide +kernel
  obtain ⟨book, hbook⟩ := Option.isSome_iff_exists.mp hsome
  have hname := ((Registry.Sound.empty.run changes).named _ book hbook).name_eq
  have hmodel : db.registry.models.get? book.name = some book := by rw [hname, hbook]
  have hemma : (db.registry.models.get? "Book").any (fun book => (db.answer book true .null calls).toOption.any
      (fun output => output.toJson.same (.obj [(primaryKey, .ofNat 2), ("title", .str "Emma"),
        ("author_id", .ofNat 1), ("author", .obj austen)]))) = true := by decide +kernel
  rw [hbook, Option.any_some] at hemma
  obtain ⟨hfails, hgives⟩ :=
    answer_single changes ["author", "book"] steps default htables book hmodel .null calls hflat
  cases hcompiled : db.compiled book .null calls with
  | error fault =>
    rw [(hfails fault hcompiled).2] at hemma
    cases hemma
  | ok c => exact ⟨htables, hflat, book, hmodel, hemma, hgives c hcompiled⟩

end Database

end SchemaQuery
