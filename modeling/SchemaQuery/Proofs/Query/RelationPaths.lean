import SchemaQuery.Proofs.Query.EagerLoading
import SchemaQuery.Proofs.Query.Selecting
import SchemaQuery.Proofs.Schema.Integrity
import SchemaQuery.Proofs.Storage.Steps

/-!
# Paths of relations

What a request is to load is a tree of relations, and each place in the tree is reached by a path of names
from the model of the request. Compiling follows the paths, but does not look up the model that a path ends
at; loading looks it up. In a sound registry it is there, so a request that has been compiled meets no
relation and no model that is missing, however deep it loads.
-/

namespace SchemaQuery

mutual

/-- The paths to a relation and to all below it. -/
def PopulateNode.paths : PopulateNode → List (List String)
  | .node name children => [name] :: (pathsOf children).map (name :: ·)

/-- The paths to relations and to all below them. -/
def pathsOf : List PopulateNode → List (List String)
  | [] => []
  | node :: rest => node.paths ++ pathsOf rest

end

namespace Registry

/-- The model that a path of relations leads to from a model, step by step. -/
def follow? (r : Registry) (model : Model) : List String → Option Model
  | [] => some model
  | name :: rest => do
    let relation ← model.relations.get? name
    let target ← r.models.get? relation.model
    r.follow? target rest

/-- A relation of a registered model leads to a registered model. -/
theorem Sound.exists_target {r : Registry} (h : r.Sound) {model : Model}
    (hmodel : r.models.get? model.name = some model) {name : String} {relation : Relation}
    (hrelation : model.relations.get? name = some relation) :
    ∃ target, r.models.get? relation.model = some target ∧ r.models.get? target.name = some target := by
  obtain ⟨_, target, _, htarget, hname, -⟩ := h.related _ model hmodel name relation hrelation
  exact ⟨target, hname ▸ htarget, htarget⟩

end Registry

/-- A fault that says that a table is not there. -/
def QueryError.IsUnknownTable (fault : QueryError) : Prop :=
  ∃ table, fault = .storage (.unknownTable table)

namespace Load

variable {registry : Registry} {model : Model}

/-! ## Checking -/

/-- What checking paths comes to: each of them leads to a model, or one does not and a relation is unknown. -/
def Checks (registry : Registry) (model : Model) (paths : List (List String)) :
    Except QueryError Unit → Prop
  | .ok () => ∀ path ∈ paths, ∃ target, registry.follow? model path = some target
  | .error fault => (∃ owner name, fault = .unknownRelation owner name) ∧
      ∃ path ∈ paths, registry.follow? model path = none

/-- Checking paths and then others is checking them all. -/
theorem Checks.append {first second : List (List String)} {outcome next : Except QueryError Unit}
    (hfirst : Checks registry model first outcome) (hsecond : Checks registry model second next) :
    Checks registry model (first ++ second) (outcome >>= fun _ => next) := by
  cases outcome with
  | error fault =>
    obtain ⟨hfault, path, hpath, hnone⟩ := hfirst
    exact ⟨hfault, path, List.mem_append_left _ hpath, hnone⟩
  | ok checked =>
    cases next with
    | error fault =>
      obtain ⟨hfault, path, hpath, hnone⟩ := hsecond
      exact ⟨hfault, path, List.mem_append_right _ hpath, hnone⟩
    | ok _ =>
      intro path hpath
      exact (List.mem_append.mp hpath).elim (hfirst path) (hsecond path)

/-- Checking paths from the model that a relation leads to is checking them behind the relation. -/
theorem Checks.below {name : String} {target : Model} {paths : List (List String)}
    {outcome : Except QueryError Unit}
    (hfollow : ∀ path, registry.follow? model (name :: path) = registry.follow? target path)
    (h : Checks registry target paths outcome) :
    Checks registry model ([name] :: paths.map (name :: ·)) outcome := by
  cases outcome with
  | error fault =>
    obtain ⟨hfault, path, hpath, hnone⟩ := h
    exact ⟨hfault, name :: path, List.mem_cons_of_mem _ (List.mem_map_of_mem hpath),
      (hfollow path).trans hnone⟩
  | ok checked =>
    intro path hpath
    rcases List.mem_cons.mp hpath with rfl | hpath
    · exact ⟨target, hfollow []⟩
    · obtain ⟨rest, hrest, rfl⟩ := List.mem_map.mp hpath
      rw [hfollow]
      exact h rest hrest

/-- Checking paths finds a relation unknown just when one of them leads nowhere. -/
theorem Checks.unknown_iff {paths : List (List String)} {outcome : Except QueryError Unit}
    (h : Checks registry model paths outcome) :
    (∃ owner name, outcome = .error (.unknownRelation owner name)) ↔
      ∃ path ∈ paths, registry.follow? model path = none := by
  cases outcome with
  | error fault =>
    obtain ⟨⟨owner, name, rfl⟩, hpath⟩ := h
    exact ⟨fun _ => hpath, fun _ => ⟨owner, name, rfl⟩⟩
  | ok checked =>
    refine ⟨fun ⟨_, _, hfails⟩ => (by cases hfails), fun ⟨path, hpath, hnone⟩ => ?_⟩
    obtain ⟨target, htarget⟩ := h path hpath
    rw [hnone] at htarget
    cases htarget

/-- Checking paths that all lead to models succeeds. -/
theorem Checks.eq_ok {paths : List (List String)} {outcome : Except QueryError Unit}
    (h : Checks registry model paths outcome)
    (hpaths : ∀ path ∈ paths, ∃ target, registry.follow? model path = some target) : outcome = .ok () := by
  cases outcome with
  | error fault =>
    obtain ⟨-, path, hpath, hnone⟩ := h
    obtain ⟨target, htarget⟩ := hpaths path hpath
    rw [hnone] at htarget
    cases htarget
  | ok checked => rfl

/-- Checking a relation of a registered model is checking what is below it. -/
theorem checkNode_of_target {name : String} {relation : Relation} {target : Model}
    (hrelation : model.relations.get? name = some relation)
    (htarget : registry.models.get? relation.model = some target) (children : List PopulateNode) :
    checkNode registry model (.node name children) = checkAll registry target children := by
  rw [checkNode]
  cases children with
  | nil => simp [Load.relation, hrelation, checkAll, bind, Except.bind, pure, Except.pure]
  | cons first rest => simp [Load.relation, hrelation, modelNamed, htarget, bind, Except.bind]

mutual

/-- Checking a relation is following the paths to it and to all below it. -/
theorem checks_node (h : registry.Sound) (model : Model)
    (hmodel : registry.models.get? model.name = some model) (node : PopulateNode) :
    Checks registry model node.paths (checkNode registry model node) := by
  match node with
  | .node name children =>
    rw [PopulateNode.paths]
    cases hrelation : model.relations.get? name with
    | none =>
      have hnone : registry.follow? model [name] = none := by simp [Registry.follow?, hrelation]
      rw [checkNode]
      simp only [Load.relation, hrelation]
      exact ⟨⟨model.name, name, rfl⟩, [name], List.mem_cons_self, hnone⟩
    | some relation =>
      -- A path that ends here leads to a model although checking does not look it up.
      obtain ⟨target, htarget, hregistered⟩ := h.exists_target hmodel hrelation
      have hfollow (path : List String) :
          registry.follow? model (name :: path) = registry.follow? target path := by
        simp [Registry.follow?, hrelation, htarget]
      rw [checkNode_of_target hrelation htarget]
      exact (checks_all h target hregistered children).below hfollow

/-- Checking relations is following the paths to them and to all below them. -/
theorem checks_all (h : registry.Sound) (model : Model)
    (hmodel : registry.models.get? model.name = some model) (nodes : List PopulateNode) :
    Checks registry model (pathsOf nodes) (checkAll registry model nodes) := by
  match nodes with
  | [] => exact nofun
  | node :: rest =>
    rw [checkAll, pathsOf]
    exact (checks_node h model hmodel node).append (checks_all h model hmodel rest)

end

/-! ## Loading -/

/-- What is read of a table fails only when the table is not there. -/
theorem isUnknownTable_of_table {α : Type} {store : Store} {table : String} {f : Table → α}
    {fault : QueryError} (h : Database.liftStore ((store.table table).map f) = .error fault) :
    fault.IsUnknownTable := by
  unfold Store.table at h
  split at h
  · cases h
  · exact ⟨table, (Except.error.inj h).symm⟩

/-- Fetching rows fails only when their table is not there. -/
theorem fetch_eq_error {store : Store} {table column : String} {keys : List Json} {fault : QueryError}
    (h : fetch store table column keys = .error fault) : fault.IsUnknownTable := by
  unfold fetch at h
  split at h
  · cases h
  · have hlift : Database.liftStore (store.select (selectionOf table column keys)) = .error fault := by
      cases hselect : store.select (selectionOf table column keys) with
      | ok rows => simp [hselect] at h
      | error other => simpa [hselect, Database.liftStore] using h
    exact isUnknownTable_of_table hlift

/-- Loading a relation of a registered model is fetching its rows, loading what is below into them, and
attaching them. -/
theorem loadNode_of_target {store : Store} {name : String} {relation : Relation} {target : Model}
    (hrelation : model.relations.get? name = some relation)
    (htarget : registry.models.get? relation.model = some target) (children : List PopulateNode)
    (rows : List Row) : loadNode registry store model (.node name children) rows =
      (fetch store target.table relation.targetKey (distinctKeys relation.sourceKey rows) >>=
        loadAll registry store target children).map fun related =>
          rows.map (attach relation name related) := by
  have hfound : Load.relation model name = .ok relation := by rw [Load.relation, hrelation]
  have hnamed : modelNamed registry relation.model = .ok target := by rw [modelNamed, htarget]
  rw [loadNode, hfound]
  change modelNamed registry relation.model >>= _ = _
  rw [hnamed]
  change fetch .. >>= _ = _
  cases fetch store target.table relation.targetKey (distinctKeys relation.sourceKey rows) with
  | error fault => rfl
  | ok related =>
    change loadAll .. >>= _ = (loadAll registry store target children related).map _
    cases loadAll registry store target children related with
    | error fault => rfl
    | ok related => rfl

mutual

/-- Loading a relation that has been checked fails only when a table is not there. -/
theorem loadNode_eq_error (h : registry.Sound) {store : Store} (model : Model)
    (hmodel : registry.models.get? model.name = some model) (node : PopulateNode) {rows : List Row}
    (hcheck : checkNode registry model node = .ok ()) {fault : QueryError}
    (hload : loadNode registry store model node rows = .error fault) : fault.IsUnknownTable := by
  match node with
  | .node name children =>
    obtain ⟨relation, hrelation, -⟩ := checkNode_eq_ok hcheck
    obtain ⟨target, htarget, hregistered⟩ := h.exists_target hmodel hrelation
    rw [checkNode_of_target hrelation htarget] at hcheck
    rw [loadNode_of_target hrelation htarget, map_eq_error_iff] at hload
    rcases bind_eq_error_iff.mp hload with hfetch | ⟨related, -, hbelow⟩
    · exact fetch_eq_error hfetch
    · exact loadAll_eq_error h target hregistered children hcheck hbelow

/-- Loading relations that have been checked fails only when a table is not there. -/
theorem loadAll_eq_error (h : registry.Sound) {store : Store} (model : Model)
    (hmodel : registry.models.get? model.name = some model) (nodes : List PopulateNode) {rows : List Row}
    (hcheck : checkAll registry model nodes = .ok ()) {fault : QueryError}
    (hload : loadAll registry store model nodes rows = .error fault) : fault.IsUnknownTable := by
  match nodes with
  | [] => cases hload
  | node :: rest =>
    rw [checkAll] at hcheck
    obtain ⟨⟨⟩, hnode, hrest⟩ := bind_eq_ok_iff.mp hcheck
    rw [loadAll] at hload
    rcases bind_eq_error_iff.mp hload with hfirst | ⟨loaded, -, hload⟩
    · exact loadNode_eq_error h model hmodel node hnode hfirst
    · exact loadAll_eq_error h model hmodel rest hrest hload

end

end Load

/-! ## Requests -/

/-- A registry guards a request for rows: a relation or a model that is missing is met when the request is
compiled, as a path that leads nowhere, and not later. -/
structure Registry.Guards (registry : Registry) (r : Request) : Prop where
  /-- A filter that is refused is what compiling fails with. -/
  refused : ∀ fault, r.filter.compile = .error fault → r.compile registry = .error (.filter fault)
  /-- Under a filter that is taken, a relation is unknown just when a path leads nowhere. -/
  unknown : ∀ tree, r.filter.compile = .ok tree →
    ((∃ owner name, r.compile registry = .error (.unknownRelation owner name)) ↔
      ∃ path ∈ pathsOf r.populate, registry.follow? r.model path = none)
  /-- Under a filter that is taken, a request of which every path leads to a model compiles. -/
  compiled : ∀ tree, r.filter.compile = .ok tree →
    (∀ path ∈ pathsOf r.populate, ∃ target, registry.follow? r.model path = some target) →
    ∃ c, r.compile registry = .ok c
  /-- A compiled request fails only when a table is not there. -/
  executed : ∀ c, r.compile registry = .ok c → ∀ db : Database, db.registry = registry →
    ∀ fault, (db.execute c).result = .error fault → fault.IsUnknownTable
  /-- A range of a compiled request fails only when a table is not there. -/
  ranged : ∀ c, r.compile registry = .ok c → ∀ db : Database, db.registry = registry →
    ∀ start stop fault, (db.executeRange c start stop).result = .error fault → fault.IsUnknownTable

section Requests

variable {registry : Registry} {r : Request}

/-- What a request for rows compiles to, and that its relations have been checked. -/
theorem Request.compile_select_eq_ok (hkind : r.kind = .select) {c : CompiledRequest}
    (h : r.compile registry = .ok c) :
    ∃ tree, Load.checkAll registry r.model r.populate = .ok () ∧ c = r.selecting tree := by
  rw [compile_select hkind] at h
  split at h
  · cases h
  · next tree _ =>
    obtain ⟨⟨⟩, hcheck, rfl⟩ := map_eq_ok_iff.mp h
    exact ⟨tree, hcheck, rfl⟩

/-- Finishing the rows of a request that has been checked fails only when a table is not there. -/
theorem Database.finish_eq_error {db : Database} (h : db.registry.Sound)
    (hmodel : db.registry.models.get? r.model.name = some r.model)
    (hcheck : Load.checkAll db.registry r.model r.populate = .ok ()) {tree : Option Predicate}
    {rows : List Row} {fault : QueryError} (hfinish : db.finish (r.selecting tree) rows = .error fault) :
    fault.IsUnknownTable :=
  Load.loadAll_eq_error h r.model hmodel r.populate hcheck (map_eq_error_iff.mp hfinish)

/-- A sound registry guards the requests for rows of its models. -/
theorem Registry.Sound.guards (h : registry.Sound) (hkind : r.kind = .select)
    (hmodel : registry.models.get? r.model.name = some r.model) : registry.Guards r := by
  have hcompile := Request.compile_select hkind registry
  have hchecks := Load.checks_all h r.model hmodel r.populate
  refine ⟨fun fault hfault => ?_, fun tree htree => ?_, fun tree htree hpaths => ?_,
    fun c hc db hdb fault hfault => ?_, fun c hc db hdb start stop fault hfault => ?_⟩
  · rw [hcompile, hfault]
  · rw [hcompile, htree]
    simp only [map_eq_error_iff]
    exact hchecks.unknown_iff
  · rw [hcompile, htree, hchecks.eq_ok hpaths]
    exact ⟨r.selecting tree, rfl⟩
  · subst hdb
    obtain ⟨tree, hcheck, rfl⟩ := Request.compile_select_eq_ok hkind hc
    rw [Database.result_execute_select, map_eq_error_iff] at hfault
    rcases bind_eq_error_iff.mp hfault with hselect | ⟨rows, -, hfinish⟩
    · exact Load.isUnknownTable_of_table hselect
    · exact Database.finish_eq_error h hmodel hcheck hfinish
  · subst hdb
    obtain ⟨tree, hcheck, rfl⟩ := Request.compile_select_eq_ok hkind hc
    rw [Database.result_executeRange_select] at hfault
    rcases bind_eq_error_iff.mp hfault with hselect | ⟨page, -, hfinish⟩
    · exact Load.isUnknownTable_of_table hselect
    · exact Database.finish_eq_error h hmodel hcheck (map_eq_error_iff.mp hfinish)

end Requests

/-- Whatever is done to a registry, it stays sound and guards every request for rows of its models. -/
theorem Registry.run_sound_guards (steps : List RegistryStep) :
    (Registry.empty.run steps).Sound ∧
      ∀ r : Request, r.kind = .select →
        (Registry.empty.run steps).models.get? r.model.name = some r.model →
        (Registry.empty.run steps).Guards r :=
  ⟨Registry.Sound.empty.run steps, fun _ hkind hmodel => (Registry.Sound.empty.run steps).guards hkind hmodel⟩

/-- Authors with their books, the model of which comes later: the authors of their books can be loaded, the
editors of their books are unknown. -/
theorem Registry.run_sound_guards_books :
    let registry := Registry.empty.run
      [.register " Author " (some .empty) (some (.ofList [("books", ⟨"Book", "author_id"⟩)])) none,
        .resolve,
        .addModel ((Definition.named "Book").addBelongsTo "author" ⟨"Author", "author_id"⟩),
        .resolve]
    let asking (author : Model) (name : String) : Request :=
      { Request.ofKind author .select defaultPageLimit with
        populate := [.node "books" [.node name []]] }
    ∃ author, registry.models.get? author.name = some author ∧ author.table = "author" ∧
      registry.Guards (asking author "author") ∧
      (∃ c, (asking author "author").compile registry = .ok c) ∧
      ∃ owner name, (asking author "editor").compile registry = .error (.unknownRelation owner name) := by
  intro registry asking
  obtain ⟨hsound, hguards⟩ := Registry.run_sound_guards
    [.register " Author " (some .empty) (some (.ofList [("books", ⟨"Book", "author_id"⟩)])) none,
      .resolve,
      .addModel ((Definition.named "Book").addBelongsTo "author" ⟨"Author", "author_id"⟩),
      .resolve]
  have hsome : (registry.models.get? "Author").isSome = true := by decide +kernel
  obtain ⟨author, hauthor⟩ := Option.isSome_iff_exists.mp hsome
  have hnamed := hsound.named _ author hauthor
  have hmodel : registry.models.get? author.name = some author := by rw [hnamed.name_eq, hauthor]
  have htable : author.table = "author" := hnamed.table.trans (by decide +kernel)
  have hfollow (path : List String) :
      (registry.models.get? "Author").bind (registry.follow? · path) = registry.follow? author path := by
    rw [hauthor, Option.bind_some]
  have hknown : ∀ path ∈ pathsOf [.node "books" [.node "author" []]],
      ((registry.models.get? "Author").bind (registry.follow? · path)).isSome = true := by decide +kernel
  have hunknown : ((registry.models.get? "Author").bind
      (registry.follow? · ["books", "editor"])).isNone = true := by decide +kernel
  have hguarded (name : String) := hguards (asking author name) rfl hmodel
  refine ⟨author, hmodel, htable, hguarded "author",
    (hguarded "author").compiled none rfl fun path hpath => ?_, ?_⟩
  · exact Option.isSome_iff_exists.mp (hfollow path ▸ hknown path hpath)
  · refine ((hguarded "editor").unknown none rfl).mpr ⟨["books", "editor"], ?_, ?_⟩
    · simp [asking, pathsOf, PopulateNode.paths]
    · exact Option.isNone_iff_eq_none.mp (hfollow _ ▸ hunknown)

end SchemaQuery
