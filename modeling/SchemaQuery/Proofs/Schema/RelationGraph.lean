import Mathlib.Algebra.GroupWithZero.Nat
import Mathlib.Data.Finset.Card
import Mathlib.Data.List.Nodup
import SchemaQuery.Proofs.Schema.Integrity

/-!
# The relation graph

Resolving turns the declarations that wait into relations: one for every declaration whose target is registered
and whose key is not blank, under its own name in the model that declares it. Where a name is declared both ways
the relation to one row stays. Every declaration is told of once, as resolved or with its fault, so that the
relations that are there and those that gave way to another make up the number that was resolved.
-/

namespace SchemaQuery

/-! ## Names inside of names -/

namespace Dictionary

variable {α β : Type}

/-- The names of a dictionary with the names of a dictionary under each. -/
def pairs (d : Dictionary α) (inner : α → Dictionary β) : List (String × String) :=
  d.entries.flatMap fun entry => (inner entry.2).names.map fun name => (entry.1, name)

/-- A pair of names is there when the second has a value under the first. -/
theorem mem_pairs_iff {d : Dictionary α} {inner : α → Dictionary β} {outer name : String} :
    (outer, name) ∈ d.pairs inner ↔ ∃ value, d.get? outer = some value ∧ ((inner value).get? name).isSome := by
  simp only [pairs, List.mem_flatMap, List.mem_map, Prod.mk.injEq, mem_names_iff]
  constructor
  · rintro ⟨⟨_, value⟩, hmem, _, hname, rfl, rfl⟩
    exact ⟨value, get?_eq_some_iff.mpr hmem, hname⟩
  · rintro ⟨value, hvalue, hname⟩
    exact ⟨(outer, value), get?_eq_some_iff.mp hvalue, name, hname, rfl, rfl⟩

/-- No pair of names is there twice. -/
theorem nodup_pairs (d : Dictionary α) (inner : α → Dictionary β) : (d.pairs inner).Nodup := by
  refine List.nodup_flatMap.mpr ⟨fun entry _ => ?_, ?_⟩
  · exact (nodup_names _).map fun _ _ h => congrArg Prod.snd h
  · refine d.sorted.imp fun {a b} hlt pair hfirst hsecond => ?_
    obtain ⟨_, -, rfl⟩ := List.mem_map.mp hfirst
    obtain ⟨_, -, heq⟩ := List.mem_map.mp hsecond
    have hname : b.1 = a.1 := (Prod.mk.inj heq).1
    exact String.lt_irrefl a.1 (hname ▸ hlt)

/-- There are as many pairs as names under the names. -/
theorem length_pairs (d : Dictionary α) (inner : α → Dictionary β) :
    (d.pairs inner).length = (d.entries.map fun entry => (inner entry.2).size).sum := by
  simp [pairs, List.length_flatMap, names, size]

end Dictionary

/-- Lists without repetition that hold what one or the other of two lists holds, and what both hold, are together
as long as the two. -/
theorem length_add_length_of_nodup {α : Type} [DecidableEq α] {left right either both : List α}
    (hleft : left.Nodup) (hright : right.Nodup) (heither : either.Nodup) (hboth : both.Nodup)
    (hunion : ∀ a, a ∈ either ↔ a ∈ left ∨ a ∈ right) (hinter : ∀ a, a ∈ both ↔ a ∈ left ∧ a ∈ right) :
    either.length + both.length = left.length + right.length := by
  have hcard := Finset.card_union_add_card_inter left.toFinset right.toFinset
  have heq : left.toFinset ∪ right.toFinset = either.toFinset := by
    ext a
    simp [hunion]
  have heq' : left.toFinset ∩ right.toFinset = both.toFinset := by
    ext a
    simp [hinter]
  rwa [heq, heq', List.toFinset_card_of_nodup heither, List.toFinset_card_of_nodup hboth,
    List.toFinset_card_of_nodup hleft, List.toFinset_card_of_nodup hright] at hcard

/-! ## Declarations that wait -/

/-- A declaration with the model that makes it and the name it makes it under. -/
structure PendingRelation where
  model : String
  name : String
  declaration : RelationDeclaration

/-- What a declaration that waits is found by. -/
def PendingRelation.key (p : PendingRelation) : String × String := (p.model, p.name)

namespace Registry

/-- The declarations of a kind that wait, by model and name. -/
def pendingOf (r : Registry) (kind : RelationKind) : List PendingRelation :=
  (r.declarations kind).entries.flatMap fun entry =>
    entry.2.entries.map fun declared => ⟨entry.1, declared.1, declared.2⟩

/-- Whether a declaration can be resolved: its target is registered and its key is not blank. -/
def IsResolvable (r : Registry) (declaration : RelationDeclaration) : Prop :=
  r.models.contains declaration.target = true ∧ Text.isEmptyOrBlank declaration.key = false

instance (r : Registry) : DecidablePred r.IsResolvable := fun _ => inferInstanceAs (Decidable (_ ∧ _))

/-- The declaration of a kind that a model makes under a name, if it can be resolved. -/
def resolvable? (r : Registry) (kind : RelationKind) (model name : String) : Option RelationDeclaration :=
  (((r.declarations kind).get? model).bind (·.get? name)).filter fun declaration => r.IsResolvable declaration

/-- What is reported of a declaration that cannot be resolved. -/
def faultOf (r : Registry) (p : PendingRelation) : SchemaError :=
  .unresolvedRelation p.model p.name p.declaration.target
    (if r.models.contains p.declaration.target then .missingKey else .targetNotFound)

/-- The relation of a declaration that can be resolved. -/
def relation? (r : Registry) (kind : RelationKind) (p : PendingRelation) : Option Relation :=
  if r.IsResolvable p.declaration then do
    let source ← r.models.get? p.model
    let target ← r.models.get? p.declaration.target
    return .between kind p.name source target p.declaration.key
  else none

/-- The result of a declaration: its relation, or what is reported of it. -/
def settled (r : Registry) (kind : RelationKind) (p : PendingRelation) : Resolution where
  model := p.model
  name := p.name
  kind := kind
  outcome :=
    match r.relation? kind p with
    | some relation => .ok relation
    | none => .error (r.faultOf p)

variable {r : Registry}

/-- The declarations that wait stand under the names inside of the names. -/
theorem map_key_pendingOf (r : Registry) (kind : RelationKind) :
    (r.pendingOf kind).map PendingRelation.key = (r.declarations kind).pairs id := by
  simp [pendingOf, PendingRelation.key, Dictionary.pairs, Dictionary.names, List.map_flatMap, Function.comp_def]

/-- No two declarations of a kind are found by one name in one model. -/
theorem nodup_map_key_pendingOf (r : Registry) (kind : RelationKind) :
    ((r.pendingOf kind).map PendingRelation.key).Nodup := by
  rw [map_key_pendingOf]
  exact Dictionary.nodup_pairs _ _

/-- A declaration waits when it is found under its model and its name. -/
theorem mem_pendingOf_iff {kind : RelationKind} {p : PendingRelation} :
    p ∈ r.pendingOf kind ↔
      ((r.declarations kind).get? p.model).bind (·.get? p.name) = some p.declaration := by
  simp only [pendingOf, List.mem_flatMap, List.mem_map, Option.bind_eq_some_iff]
  constructor
  · rintro ⟨entry, hentry, declared, hdeclared, rfl⟩
    exact ⟨entry.2, Dictionary.get?_eq_some_iff.mpr hentry, Dictionary.get?_eq_some_iff.mpr hdeclared⟩
  · rintro ⟨declarations, hentry, hdeclared⟩
    exact ⟨(p.model, declarations), Dictionary.get?_eq_some_iff.mp hentry, (p.name, p.declaration),
      Dictionary.get?_eq_some_iff.mp hdeclared, rfl⟩

/-- In a sound registry the model of a declaration is registered under its own name. -/
theorem Sound.exists_source (h : r.Sound) {kind : RelationKind} {p : PendingRelation}
    (hp : p ∈ r.pendingOf kind) : ∃ source, r.models.get? p.model = some source ∧ source.name = p.model := by
  obtain ⟨declarations, hdeclarations, -⟩ := Option.bind_eq_some_iff.mp (mem_pendingOf_iff.mp hp)
  obtain ⟨source, hsource⟩ := h.pending kind p.model declarations hdeclarations
  exact ⟨source, hsource, (h.named p.model source hsource).name_eq⟩

/-- A declaration of a registered model has a relation just when it can be resolved. -/
theorem isSome_relation? {p : PendingRelation} {source : Model} (hsource : r.models.get? p.model = some source)
    (kind : RelationKind) :
    (r.relation? kind p).isSome = true ↔ r.IsResolvable p.declaration := by
  unfold relation?
  split
  · next hresolvable =>
    obtain ⟨target, htarget⟩ := (Dictionary.contains_eq_true_iff _ _).mp hresolvable.1
    simp [hsource, htarget, hresolvable]
  · next hnot => simp [hnot]

/-- The relation of a declaration leads from the model that makes it to its target. -/
theorem relation?_eq_some {kind : RelationKind} {p : PendingRelation} {relation : Relation}
    (h : r.relation? kind p = some relation) :
    ∃ source target, r.models.get? p.model = some source ∧ r.models.get? p.declaration.target = some target ∧
      relation = .between kind p.name source target p.declaration.key := by
  unfold relation? at h
  split at h
  · obtain ⟨source, hsource, h⟩ := Option.bind_eq_some_iff.mp h
    obtain ⟨target, htarget, h⟩ := Option.bind_eq_some_iff.mp h
    exact ⟨source, target, hsource, htarget, (Option.some.inj h).symm⟩
  · cases h

/-- A declaration of a registered model is resolved to its relation, or to what is reported of it. -/
theorem resolveOne_eq_settled {kind : RelationKind} {p : PendingRelation} {source : Model}
    (hsource : r.models.get? p.model = some source) (hname : source.name = p.model) :
    r.resolveOne source kind p.name p.declaration = (r.settled kind p).outcome := by
  cases htarget : r.models.get? p.declaration.target with
  | none =>
    have hnone : r.models.contains p.declaration.target = false := by simp [Dictionary.contains, htarget]
    simp [resolveOne, settled, relation?, faultOf, IsResolvable, htarget, hnone, hname]
  | some target =>
    have hsome : r.models.contains p.declaration.target = true := by simp [Dictionary.contains, htarget]
    by_cases hkey : Text.isEmptyOrBlank p.declaration.key = true
    · simp [resolveOne, settled, relation?, faultOf, IsResolvable, htarget, hsome, hkey, hname]
    · simp [resolveOne, settled, relation?, IsResolvable, htarget, hsome, hkey, hsource]

/-- In a sound registry every declaration that waits is settled, in order. -/
theorem resolutionsOf_eq_map (h : r.Sound) (kind : RelationKind) :
    r.resolutionsOf kind = (r.pendingOf kind).map (r.settled kind) := by
  rw [resolutionsOf, pendingOf, List.map_flatMap]
  refine List.flatMap_congr fun entry hentry => ?_
  obtain ⟨source, hsource⟩ := h.pending kind entry.1 entry.2 (Dictionary.get?_eq_some_iff.mpr hentry)
  have hname : source.name = entry.1 := (h.named entry.1 source hsource).name_eq
  simp only [hsource, List.map_map]
  refine List.map_congr_left fun declared _ => ?_
  rw [resolveOne_eq_settled (p := ⟨entry.1, declared.1, declared.2⟩) hsource hname]
  rfl

/-! ## The report -/

/-- A declaration that waits is settled with a relation just when it can be resolved. -/
theorem isOk_settled (h : r.Sound) {kind : RelationKind} {p : PendingRelation} (hp : p ∈ r.pendingOf kind) :
    (r.settled kind p).outcome.isOk = decide (r.IsResolvable p.declaration) := by
  obtain ⟨source, hsource, -⟩ := h.exists_source hp
  have hiff := isSome_relation? hsource kind
  cases hrelation : r.relation? kind p with
  | none =>
    have hnot : ¬r.IsResolvable p.declaration := fun hresolvable => by
      simpa [hrelation] using hiff.mpr hresolvable
    simp [settled, hrelation, hnot, Except.isOk, Except.toBool]
  | some relation =>
    have hresolvable : r.IsResolvable p.declaration := hiff.mp (by rw [hrelation, Option.isSome_some])
    simp [settled, hrelation, hresolvable, Except.isOk, Except.toBool]

/-- As many declarations of a kind are resolved as can be. -/
theorem resolved_settled (h : r.Sound) (kind : RelationKind) :
    (reportOf ((r.pendingOf kind).map (r.settled kind))).resolved =
      (r.pendingOf kind).countP fun p => r.IsResolvable p.declaration := by
  rw [reportOf, ← List.countP_eq_length_filter, List.countP_map]
  exact List.countP_congr fun p hp => by rw [Function.comp_apply, isOk_settled h hp]

/-- A fault is reported for each declaration of a kind that cannot be resolved, and for no other. -/
theorem unresolved_settled (h : r.Sound) (kind : RelationKind) :
    (reportOf ((r.pendingOf kind).map (r.settled kind))).unresolved =
      ((r.pendingOf kind).filter fun p => ¬r.IsResolvable p.declaration).map r.faultOf := by
  rw [reportOf, List.filterMap_map, ← List.filterMap_eq_map (f := r.faultOf), List.filterMap_filter]
  refine List.filterMap_congr fun p hp => ?_
  have hok := isOk_settled h hp
  cases hrelation : r.relation? kind p with
  | none =>
    have hnot : ¬r.IsResolvable p.declaration := by simpa [settled, hrelation, Except.isOk, Except.toBool] using hok
    simp [settled, hrelation, hnot]
  | some relation =>
    have hresolvable : r.IsResolvable p.declaration := by
      simpa [settled, hrelation, Except.isOk, Except.toBool] using hok
    simp [settled, hrelation, hresolvable]

/-- The summary of results one after another is that of both. -/
theorem reportOf_append (early late : List Resolution) :
    (reportOf (early ++ late)).resolved = (reportOf early).resolved + (reportOf late).resolved ∧
      (reportOf (early ++ late)).unresolved = (reportOf early).unresolved ++ (reportOf late).unresolved := by
  simp [reportOf]

/-! ## The relations of a model -/

/-- The relations of a model with what a result adds to them. -/
def showing (model : String) (relations : Dictionary Relation) (x : Resolution) : Dictionary Relation :=
  if x.model = model then
    match x.outcome with
    | .ok relation => relations.insert x.name relation
    | .error _ => relations
  else relations

/-- What a result adds is shown before what is there. -/
theorem get?_showing (model name : String) (start : Dictionary Relation) (x : Resolution) :
    (showing model start x).get? name = ((showing model .empty x).get? name).or (start.get? name) := by
  by_cases hmodel : x.model = model
  · cases houtcome : x.outcome with
    | error fault =>
      simp only [showing, if_pos hmodel, houtcome]
      rfl
    | ok relation =>
      simp only [showing, if_pos hmodel, houtcome, Dictionary.get?_insert]
      split <;> rfl
  · simp only [showing, if_neg hmodel]
    rfl

/-- What results add is shown before what is there at the start. -/
theorem get?_foldl_showing (results : List Resolution) (model name : String) (start : Dictionary Relation) :
    (results.foldl (showing model) start).get? name =
      ((relationsOf results model).get? name).or (start.get? name) := by
  induction results generalizing start with
  | nil => rfl
  | cons x rest ih =>
    rw [List.foldl_cons, ih (showing model start x), get?_showing, ← Option.or_assoc, ← ih (showing model .empty x)]
    rfl

/-- Later results are shown before earlier ones. -/
theorem get?_relationsOf_append (early late : List Resolution) (model name : String) :
    (relationsOf (early ++ late) model).get? name =
      ((relationsOf late model).get? name).or ((relationsOf early model).get? name) := by
  rw [relationsOf, List.foldl_append]
  exact get?_foldl_showing late model name _

/-- A model shows nothing under a name that none of its results has. -/
theorem get?_relationsOf_eq_none {results : List Resolution} {model name : String}
    (h : ∀ x ∈ results, x.model = model → x.name ≠ name) : (relationsOf results model).get? name = none := by
  refine Option.eq_none_iff_forall_not_mem.mpr fun relation hrelation => ?_
  obtain ⟨x, hx, hmodel, hname, -⟩ := exists_resolution hrelation
  exact h x hx hmodel hname

/-- Of declarations under distinct names a model shows the relation of each that is resolved. -/
theorem get?_relationsOf_settled {kind : RelationKind} {pending : List PendingRelation}
    (hdistinct : (pending.map PendingRelation.key).Nodup) {p : PendingRelation} (hp : p ∈ pending) :
    (relationsOf (pending.map (r.settled kind)) p.model).get? p.name = r.relation? kind p := by
  obtain ⟨before, after, rfl⟩ := List.append_of_mem hp
  rw [List.map_append, List.map_cons, List.nodup_append, List.nodup_cons] at hdistinct
  obtain ⟨-, ⟨hafter, -⟩, hbefore⟩ := hdistinct
  have hother {others : List PendingRelation} (h : p.key ∉ others.map PendingRelation.key) :
      (relationsOf (others.map (r.settled kind)) p.model).get? p.name = none := by
    refine get?_relationsOf_eq_none fun x hx hmodel hname => ?_
    obtain ⟨other, hmem, rfl⟩ := List.mem_map.mp hx
    exact h (List.mem_map.mpr ⟨other, hmem, Prod.ext hmodel hname⟩)
  have hself : (relationsOf [r.settled kind p] p.model).get? p.name = r.relation? kind p := by
    cases hrelation : r.relation? kind p with
    | none => simp [relationsOf, settled, hrelation, Dictionary.empty, Dictionary.get?]
    | some relation => simp [relationsOf, settled, hrelation, Dictionary.get?_insert]
  rw [List.map_append, List.map_cons, ← List.singleton_append, get?_relationsOf_append, get?_relationsOf_append,
    hother hafter, hself, hother fun hmem => hbefore _ hmem _ List.mem_cons_self rfl]
  simp

/-- Of the declarations of a kind a model shows under a name the relation of the one that can be resolved. -/
theorem get?_relationsOf_resolutionsOf (h : r.Sound) (kind : RelationKind) (model name : String) :
    (relationsOf (r.resolutionsOf kind) model).get? name =
      (r.resolvable? kind model name).bind fun declaration => r.relation? kind ⟨model, name, declaration⟩ := by
  rw [resolutionsOf_eq_map h]
  cases hdeclaration : ((r.declarations kind).get? model).bind (·.get? name) with
  | none =>
    rw [resolvable?, hdeclaration]
    refine get?_relationsOf_eq_none fun x hx hmodel hname => ?_
    obtain ⟨p, hp, rfl⟩ := List.mem_map.mp hx
    obtain rfl : p.model = model := hmodel
    obtain rfl : p.name = name := hname
    rw [mem_pendingOf_iff, hdeclaration] at hp
    cases hp
  | some declaration =>
    have hp : ⟨model, name, declaration⟩ ∈ r.pendingOf kind := mem_pendingOf_iff.mpr hdeclaration
    rw [get?_relationsOf_settled (nodup_map_key_pendingOf r kind) hp, resolvable?, hdeclaration]
    by_cases hresolvable : r.IsResolvable declaration
    · simp [Option.filter, hresolvable]
    · simp [Option.filter, relation?, hresolvable]

/-- A model shows under a name the relation to one row if its declaration can be resolved, and otherwise the
relation to many. -/
theorem get?_relationsOf_resolutions (h : r.Sound) (model name : String) :
    (relationsOf r.resolutions model).get? name =
      ((r.resolvable? .belongsTo model name).bind fun declaration =>
          r.relation? .belongsTo ⟨model, name, declaration⟩).or
        ((r.resolvable? .hasMany model name).bind fun declaration =>
          r.relation? .hasMany ⟨model, name, declaration⟩) := by
  rw [resolutions, get?_relationsOf_append, get?_relationsOf_resolutionsOf h, get?_relationsOf_resolutionsOf h]

/-- A registered model has a relation for its declaration just when the declaration can be resolved. -/
theorem isSome_bind_relation? {model : String} {source : Model} (hsource : r.models.get? model = some source)
    (kind : RelationKind) (name : String) :
    ((r.resolvable? kind model name).bind fun declaration =>
        r.relation? kind ⟨model, name, declaration⟩).isSome = (r.resolvable? kind model name).isSome := by
  cases hdeclaration : r.resolvable? kind model name with
  | none => rfl
  | some declaration =>
    have hresolvable : r.IsResolvable declaration := by
      simpa using (Option.filter_eq_some_iff.mp hdeclaration).2
    rw [Option.bind_some, (isSome_relation? (p := ⟨model, name, declaration⟩) hsource kind).mpr hresolvable]
    rfl

/-- The relation of a registered model leads to the target that its declaration names. -/
theorem Sound.exists_of_bind_relation? (h : r.Sound) {kind : RelationKind} {model name : String} {source : Model}
    {relation : Relation} (hsource : r.models.get? model = some source)
    (hrelation : ((r.resolvable? kind model name).bind fun declaration =>
      r.relation? kind ⟨model, name, declaration⟩) = some relation) :
    ∃ declaration target, r.resolvable? kind model name = some declaration ∧
      r.models.get? declaration.target = some target ∧ target.name = declaration.target ∧
      relation = .between kind name source target declaration.key := by
  obtain ⟨declaration, hdeclaration, hrelation⟩ := Option.bind_eq_some_iff.mp hrelation
  obtain ⟨found, target, hfound, htarget, hbetween⟩ := relation?_eq_some hrelation
  obtain rfl : found = source := Option.some.inj (hfound.symm.trans hsource)
  exact ⟨declaration, target, hdeclaration, htarget, (h.named _ target htarget).name_eq, hbetween⟩

/-! ## The graph -/

/-- The declarations that can be resolved both ways, each once. -/
def twofold (r : Registry) : List PendingRelation :=
  (r.pendingOf .hasMany).filter fun p =>
    (r.resolvable? .hasMany p.model p.name).isSome ∧ (r.resolvable? .belongsTo p.model p.name).isSome

/-- Whether a registry shows the graph of the declarations of another, and a report accounts for each of them. -/
structure ShowsGraph (r : Registry) (report : ResolveReport) (after : Registry) : Prop where
  /-- A model shows a relation under a name when a declaration of either kind can be resolved. -/
  shown : ∀ owner, ∀ model ∈ after.models.get? owner, ∀ name,
    model.relations.contains name = true ↔ ∃ kind, (r.resolvable? kind owner name).isSome = true
  /-- It is the relation of that declaration, and to many rows only if there is none to one. The column with the
  key is compared with the primary key of the other table. -/
  joined : ∀ owner, ∀ model ∈ after.models.get? owner, ∀ name, ∀ relation ∈ model.relations.get? name,
    ∃ declaration target, r.resolvable? relation.kind owner name = some declaration ∧
      (relation.kind = .hasMany → r.resolvable? .belongsTo owner name = none) ∧
      r.models.get? declaration.target = some target ∧
      relation =
        { kind := relation.kind
          name
          model := declaration.target
          sourceTable := model.table
          targetTable := target.table
          foreignKey := declaration.key
          join :=
            match relation.kind with
            | .hasMany => ⟨⟨target.table, declaration.key⟩, ⟨model.table, primaryKey⟩⟩
            | .belongsTo => ⟨⟨model.table, declaration.key⟩, ⟨target.table, primaryKey⟩⟩ }
  /-- Every declaration is counted once. -/
  counted : report.resolved + report.unresolved.length =
    (r.pendingOf .hasMany).length + (r.pendingOf .belongsTo).length
  /-- There is one fault for each declaration that cannot be resolved, and no other fault. -/
  unresolved : report.unresolved =
    ((r.pendingOf .hasMany ++ r.pendingOf .belongsTo).filter fun p => ¬r.IsResolvable p.declaration).map r.faultOf
  /-- A name that can be resolved both ways is resolved twice and shows one relation. -/
  resolved : report.resolved =
    (after.models.entries.map fun entry => entry.2.relations.size).sum +
      r.twofold.length
  /-- Nothing but the relations changes. -/
  untouched : ∀ owner, (after.models.get? owner).map (fun model => (model.name, model.table, model.properties)) =
    (r.models.get? owner).map fun model => (model.name, model.table, model.properties)

/-- A model after resolving shows the results of its declarations. -/
theorem get?_models_resolveAll (r : Registry) (owner : String) :
    r.resolveAll.value.2.models.get? owner =
      (r.models.get? owner).map fun model => { model with relations := relationsOf r.resolutions owner } :=
  Dictionary.get?_map ..

/-- A registered model shows a relation under a name when a declaration of either kind can be resolved. -/
theorem contains_relationsOf (h : r.Sound) {owner : String} {source : Model}
    (hsource : r.models.get? owner = some source) (name : String) :
    (relationsOf r.resolutions owner).contains name = true ↔
      (r.resolvable? .hasMany owner name).isSome = true ∨ (r.resolvable? .belongsTo owner name).isSome = true := by
  rw [Dictionary.contains, get?_relationsOf_resolutions h, Option.isSome_or, isSome_bind_relation? hsource,
    isSome_bind_relation? hsource, Bool.or_eq_true, or_comm]

/-- A declaration that can be resolved is among those that wait. -/
theorem isSome_resolvable?_iff {kind : RelationKind} {pair : String × String} :
    (r.resolvable? kind pair.1 pair.2).isSome = true ↔
      ∃ p ∈ r.pendingOf kind, p.key = pair ∧ r.IsResolvable p.declaration := by
  rw [Option.isSome_iff_exists]
  constructor
  · rintro ⟨declaration, hdeclaration⟩
    obtain ⟨hfound, hresolvable⟩ := Option.filter_eq_some_iff.mp hdeclaration
    exact ⟨⟨pair.1, pair.2, declaration⟩, mem_pendingOf_iff.mpr hfound, rfl, by simpa using hresolvable⟩
  · rintro ⟨p, hp, rfl, hresolvable⟩
    exact ⟨p.declaration, Option.filter_eq_some_iff.mpr ⟨mem_pendingOf_iff.mp hp, by simpa using hresolvable⟩⟩

/-- What can be resolved is found by its model and its name. -/
theorem mem_map_key_filter_iff {kind : RelationKind} {pair : String × String} :
    pair ∈ ((r.pendingOf kind).filter fun p => r.IsResolvable p.declaration).map PendingRelation.key ↔
      (r.resolvable? kind pair.1 pair.2).isSome = true := by
  rw [isSome_resolvable?_iff]
  simp only [List.mem_map, List.mem_filter, decide_eq_true_eq]
  exact ⟨fun ⟨p, ⟨hp, htest⟩, hpair⟩ => ⟨p, hp, hpair, htest⟩, fun ⟨p, hp, hpair, htest⟩ => ⟨p, ⟨hp, htest⟩, hpair⟩⟩

/-- A name is in both ways when it can be resolved to many rows and to one. -/
theorem mem_map_key_twofold_iff {pair : String × String} :
    pair ∈ r.twofold.map PendingRelation.key ↔
      (r.resolvable? .hasMany pair.1 pair.2).isSome = true ∧
        (r.resolvable? .belongsTo pair.1 pair.2).isSome = true := by
  simp only [twofold, List.mem_map, List.mem_filter, decide_eq_true_eq]
  constructor
  · rintro ⟨p, ⟨-, htest⟩, rfl⟩
    exact htest
  · intro htest
    obtain ⟨p, hp, rfl, -⟩ := isSome_resolvable?_iff.mp htest.1
    exact ⟨p, ⟨hp, htest⟩, rfl⟩

/-- The relations that are shown stand under the names that can be resolved one way or the other. -/
theorem mem_pairs_resolveAll_iff (h : r.Sound) {pair : String × String} :
    pair ∈ r.resolveAll.value.2.models.pairs (·.relations) ↔
      (r.resolvable? .hasMany pair.1 pair.2).isSome = true ∨
        (r.resolvable? .belongsTo pair.1 pair.2).isSome = true := by
  rw [Dictionary.mem_pairs_iff]
  simp only [get?_models_resolveAll, Option.map_eq_some_iff]
  constructor
  · rintro ⟨_, ⟨source, hsource, rfl⟩, hname⟩
    exact (contains_relationsOf h hsource pair.2).mp hname
  · intro hname
    obtain ⟨source, hsource⟩ : ∃ source, r.models.get? pair.1 = some source := by
      rcases hname with hkind | hkind
      all_goals
        obtain ⟨p, hp, rfl, -⟩ := isSome_resolvable?_iff.mp hkind
        obtain ⟨source, hsource, -⟩ := h.exists_source hp
        exact ⟨source, hsource⟩
    exact ⟨_, ⟨source, hsource, rfl⟩, (contains_relationsOf h hsource pair.2).mpr hname⟩

/-- As many relations are shown, and as many names can be resolved both ways, as declarations can be resolved. -/
theorem size_relations_resolveAll (h : r.Sound) :
    (r.resolveAll.value.2.models.entries.map fun entry => entry.2.relations.size).sum + r.twofold.length =
      ((r.pendingOf .hasMany).countP fun p => r.IsResolvable p.declaration) +
        ((r.pendingOf .belongsTo).countP fun p => r.IsResolvable p.declaration) := by
  have hdistinct (kind : RelationKind) (test : PendingRelation → Bool) :
      (((r.pendingOf kind).filter test).map PendingRelation.key).Nodup :=
    (nodup_map_key_pendingOf r kind).sublist (List.filter_sublist.map _)
  have hlength := length_add_length_of_nodup (hdistinct .hasMany fun p => r.IsResolvable p.declaration)
    (hdistinct .belongsTo fun p => r.IsResolvable p.declaration)
    (Dictionary.nodup_pairs r.resolveAll.value.2.models (·.relations)) (hdistinct .hasMany _)
    (fun pair => by rw [mem_pairs_resolveAll_iff h, mem_map_key_filter_iff, mem_map_key_filter_iff])
    (fun pair => by rw [← twofold, mem_map_key_twofold_iff, mem_map_key_filter_iff, mem_map_key_filter_iff])
  rw [Dictionary.length_pairs, ← twofold] at hlength
  simpa only [List.length_map, List.countP_eq_length_filter] using hlength

/-- The report on the declarations of a sound registry counts those that can be resolved and tells the fault of
each of the others. -/
theorem report_resolveAll (h : r.Sound) :
    r.resolveAll.value.1.resolved =
        ((r.pendingOf .hasMany).countP fun p => r.IsResolvable p.declaration) +
          ((r.pendingOf .belongsTo).countP fun p => r.IsResolvable p.declaration) ∧
      r.resolveAll.value.1.unresolved =
        ((r.pendingOf .hasMany ++ r.pendingOf .belongsTo).filter fun p =>
          ¬r.IsResolvable p.declaration).map r.faultOf := by
  have hreport : r.resolveAll.value.1 = reportOf ((r.pendingOf .hasMany).map (r.settled .hasMany) ++
      (r.pendingOf .belongsTo).map (r.settled .belongsTo)) := by
    rw [← resolutionsOf_eq_map h, ← resolutionsOf_eq_map h]
    rfl
  rw [hreport, (reportOf_append _ _).1, (reportOf_append _ _).2]
  constructor
  · rw [resolved_settled h, resolved_settled h]
  · rw [unresolved_settled h, unresolved_settled h, List.filter_append, List.map_append]

/-- Resolving the declarations of a sound registry shows their graph. -/
theorem Sound.showsGraph (h : r.Sound) : r.ShowsGraph r.resolveAll.value.1 r.resolveAll.value.2 where
  shown owner model hmodel name := by
    obtain ⟨source, hsource, rfl⟩ := Option.map_eq_some_iff.mp ((get?_models_resolveAll r owner).symm.trans hmodel)
    rw [contains_relationsOf h hsource]
    constructor
    · rintro (hmany | hone)
      · exact ⟨_, hmany⟩
      · exact ⟨_, hone⟩
    · rintro ⟨_ | _, hkind⟩
      · exact Or.inl hkind
      · exact Or.inr hkind
  joined owner model hmodel name relation hrelation := by
    obtain ⟨source, hsource, rfl⟩ := Option.map_eq_some_iff.mp ((get?_models_resolveAll r owner).symm.trans hmodel)
    rw [Option.mem_def, get?_relationsOf_resolutions h, Option.or_eq_some_iff] at hrelation
    rcases hrelation with hone | ⟨hnone, hmany⟩
    · obtain ⟨declaration, target, hdeclaration, htarget, hname, rfl⟩ := h.exists_of_bind_relation? hsource hone
      exact ⟨declaration, target, hdeclaration, nofun, htarget, by rw [← hname]; rfl⟩
    · obtain ⟨declaration, target, hdeclaration, htarget, hname, rfl⟩ := h.exists_of_bind_relation? hsource hmany
      have hother := isSome_bind_relation? hsource .belongsTo name
      rw [hnone, Option.isSome_none, eq_comm, Option.isSome_eq_false_iff, Option.isNone_iff_eq_none] at hother
      exact ⟨declaration, target, hdeclaration, fun _ => hother, htarget, by rw [← hname]; rfl⟩
  counted := by
    obtain ⟨hresolved, hunresolved⟩ := report_resolveAll h
    rw [hresolved, hunresolved, List.length_map, List.filter_append, List.length_append,
      ← List.countP_eq_length_filter, ← List.countP_eq_length_filter]
    have hmany := List.length_eq_countP_add_countP (fun p => decide (r.IsResolvable p.declaration))
      (l := r.pendingOf .hasMany)
    have hone := List.length_eq_countP_add_countP (fun p => decide (r.IsResolvable p.declaration))
      (l := r.pendingOf .belongsTo)
    simp only [decide_eq_true_eq] at hmany hone
    omega
  unresolved := (report_resolveAll h).2
  resolved := (report_resolveAll h).1.trans (size_relations_resolveAll h).symm
  untouched owner := by
    rw [get?_models_resolveAll, Option.map_map]
    rfl

/-- Resolving after any steps shows the graph of the declarations that wait. -/
theorem resolveAll_showsGraph (steps : List RegistryStep) :
    (empty.run steps).ShowsGraph (empty.run steps).resolveAll.value.1 (empty.run steps).resolveAll.value.2 :=
  (Sound.empty.run steps).showsGraph

/-- A name declared both ways is resolved twice and shown once; a target that is nowhere and a key that is blank
are told of. -/
example :
    let shelf (kind : RelationKind) : Option RelationDeclarations :=
      match kind with
      | .hasMany => some (.ofList [("place", ⟨"Room", "shelf_id"⟩), ("owner", ⟨"Nobody", "owner_id"⟩)])
      | .belongsTo => some (.ofList [("place", ⟨"Room", "room_id"⟩), ("twin", ⟨"Shelf", " "⟩)])
    let r := empty.run [.register "Room" (some .empty) none none,
      .register "Shelf" (some .empty) (shelf .hasMany) (shelf .belongsTo)]
    let after := r.resolveAll.value
    after.1.resolved = 2 ∧ after.1.unresolved.length = 2 ∧ r.twofold.length = 1 ∧
      (after.2.models.get? "Shelf").map (·.relations.names) = some ["place"] := by
  decide +kernel

end Registry

end SchemaQuery
