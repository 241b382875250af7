import SchemaQuery.Proofs.Basic
import SchemaQuery.Proofs.Storage.Steps
import SchemaQuery.Rows

/-!
# Operations on the rows of a model

Everything that can be done through a model: making, saving, changing, dropping and counting rows, and reading
them by a request that is refined call by call. What an operation can do to the store is said once: it leaves
the store as it is, or it is a write that succeeds, and then the storage has taken one step on the table of the
model, with values that are cut down to the declared properties and brought to their types.
-/

namespace SchemaQuery

/-! ## Requests, call by call -/

/-- A call that refines a request. -/
inductive RequestCall where
  | filter (value : Json)
  | select (fields : Fields)
  | sort (fields : Fields)
  | limit (n : Nat)
  | skip (n : Nat)
  | populate (populate : Populate)

namespace Request

/-- Refines a request by a call. -/
def call (r : Request) : RequestCall → Except QueryError Request
  | .filter value => r.addFilter value
  | .select fields => r.addFields fields
  | .sort fields => r.addOrder fields
  | .limit n => .ok (r.setLimit n)
  | .skip n => .ok (r.setOffset n)
  | .populate populate => r.addPopulate populate

/-- What a request may do to a store: add its payload as a row of the table of its model, give the payload as
new values to rows of the table, or drop rows of the table. -/
inductive Writes (r : Request) : StoreStep → Prop
  | insert (h : r.kind = .insert) : Writes r (.insert r.model.table r.payload)
  | patch (h : r.kind = .update) (clause : Clause) :
    Writes r (.patch r.model.table clause r.payload r.rowLimit)
  | delete (h : r.kind = .delete) (clause : Clause) : Writes r (.delete r.model.table clause)

/-- Adding a filter changes nothing else of a request. -/
theorem addFilter_eq_ok {r after : Request} {value : Json} (h : r.addFilter value = .ok after) :
    ∃ filter, after = { r with filter } := by
  cases value with
  | null => exact ⟨r.filter, (Except.ok.inj h).symm⟩
  | obj members => exact ⟨r.filter.extend members, (Except.ok.inj h).symm⟩
  | bool | int | float | str | arr => cases h

/-- A request with a filter added may do to a store what it may do without. -/
theorem Writes.of_addFilter {r after : Request} {value : Json} (h : r.addFilter value = .ok after)
    {action : StoreStep} (haction : after.Writes action) : r.Writes action := by
  obtain ⟨filter, rfl⟩ := addFilter_eq_ok h
  cases haction with
  | insert hkind => exact .insert hkind
  | patch hkind clause => exact .patch (r := r) hkind clause
  | delete hkind clause => exact .delete (r := r) hkind clause

/-- A request for rows, or for their number, may do nothing to a store. -/
theorem not_writes {r : Request} (h : r.kind = .select ∨ r.kind = .count) (action : StoreStep) :
    ¬r.Writes action := by
  intro haction
  cases haction <;> simp_all

/-- Refining a request does not change its kind. -/
theorem kind_call {r after : Request} {next : RequestCall} (h : r.call next = .ok after) :
    after.kind = r.kind := by
  cases next with
  | filter value =>
    obtain ⟨filter, rfl⟩ := addFilter_eq_ok h
    rfl
  | select fields =>
    simp only [call, addFields] at h
    split at h
    · rw [← Except.ok.inj h]
    · cases h
  | sort fields =>
    simp only [call, addOrder] at h
    split at h
    · cases h
    · cases h
    · rw [← Except.ok.inj h]
  | limit n => rw [← Except.ok.inj h]; rfl
  | skip n => rw [← Except.ok.inj h]; rfl
  | populate populate =>
    simp only [call, addPopulate] at h
    split at h
    · obtain ⟨nodes, -, rfl⟩ := map_eq_ok_iff.mp h
      rfl
    · cases h

/-- What every call of a list keeps of a request, refining it by the list keeps. -/
theorem foldlM_call_keeps {P : Request → Prop} {calls : List RequestCall}
    (hcall : ∀ next ∈ calls, ∀ r after, P r → r.call next = .ok after → P after) {r after : Request} (h : P r)
    (hafter : calls.foldlM call r = .ok after) : P after := by
  induction calls generalizing r with
  | nil => exact Except.ok.inj hafter ▸ h
  | cons next rest ih =>
    rw [List.foldlM_cons] at hafter
    obtain ⟨refined, hrefined, hrest⟩ := bind_eq_ok_iff.mp hafter
    exact ih (fun other hother => hcall other (List.mem_cons_of_mem _ hother))
      (hcall next List.mem_cons_self r refined h hrefined) hrest

/-- Refining a request by calls does not change its kind. -/
theorem kind_foldlM_call {r after : Request} {calls : List RequestCall}
    (h : calls.foldlM call r = .ok after) : after.kind = r.kind :=
  foldlM_call_keeps (P := fun refined => refined.kind = r.kind)
    (fun _ _ _ _ hkind hnext => (kind_call hnext).trans hkind) rfl h

/-- A compiled request has the statement of the request with some clause. -/
theorem compile_eq_ok {r : Request} {registry : Registry} {c : CompiledRequest}
    (h : r.compile registry = .ok c) : ∃ clause, r.statement registry clause = .ok c.statement := by
  rw [compile] at h
  split at h
  · cases h
  · obtain ⟨statement, hstatement, hc⟩ := bind_eq_ok_iff.mp h
    obtain rfl := Except.ok.inj hc
    exact ⟨_, hstatement⟩

end Request

/-- The step that a statement is for the store. -/
def Statement.step? : Statement → Option StoreStep
  | .insert table row => some (.insert table row)
  | .update table clause patch limit => some (.patch table clause patch limit)
  | .delete table clause => some (.delete table clause)
  | .select _ | .count .. => none

/-- A statement that changes the store is what its request may do. -/
theorem Request.writes_of_statement {r : Request} {registry : Registry} {clause : Clause}
    {statement : Statement} {action : StoreStep} (h : r.statement registry clause = .ok statement)
    (haction : statement.step? = some action) : r.Writes action := by
  rw [Request.statement] at h
  cases hkind : r.kind with
  | select =>
    simp only [hkind] at h
    obtain ⟨checked, -, hselect⟩ := bind_eq_ok_iff.mp h
    obtain rfl := Except.ok.inj hselect
    cases haction
  | count =>
    simp only [hkind] at h
    obtain rfl := Except.ok.inj h
    cases haction
  | insert =>
    simp only [hkind] at h
    obtain rfl := Except.ok.inj h
    obtain rfl := Option.some.inj haction
    exact .insert hkind
  | update =>
    simp only [hkind] at h
    split at h
    · cases h
    · obtain rfl := Except.ok.inj h
      obtain rfl := Option.some.inj haction
      exact .patch hkind clause
  | delete =>
    simp only [hkind] at h
    obtain rfl := Except.ok.inj h
    obtain rfl := Option.some.inj haction
    exact .delete hkind clause

/-! ## Outcomes -/

/-- An outcome leaves the store as it was, or succeeds and has taken a step that is allowed. -/
def Outcome.TakesOne {α : Type} (before : Store) (allowed : StoreStep → Prop) (outcome : Outcome α) :
    Prop :=
  outcome.store = before ∨
    (∃ value, outcome.result = .ok value) ∧ ∃ action, allowed action ∧ outcome.store = before.step action

/-- An outcome whose result is changed takes the same step, which may be one of more that are allowed. -/
theorem Outcome.TakesOne.map {α β : Type} {before : Store} {allowed allowed' : StoreStep → Prop}
    {outcome : Outcome α} {outcome' : Outcome β} (h : outcome.TakesOne before allowed)
    (hstore : outcome'.store = outcome.store) {f : α → β}
    (hresult : outcome'.result = outcome.result.map f)
    (hallowed : ∀ action, allowed action → allowed' action) : outcome'.TakesOne before allowed' := by
  obtain hkept | ⟨⟨value, hvalue⟩, action, haction, hstep⟩ := h
  · exact Or.inl (hstore.trans hkept)
  · exact Or.inr ⟨⟨f value, by rw [hresult, hvalue]; rfl⟩, action, hallowed action haction,
      hstore.trans hstep⟩

/-- An outcome that leaves the store or takes a step and succeeds leaves the store if it fails. -/
theorem Outcome.TakesOne.store_of_error {α : Type} {before : Store} {allowed : StoreStep → Prop}
    {outcome : Outcome α} (h : outcome.TakesOne before allowed) {fault : QueryError}
    (hfault : outcome.result = .error fault) : outcome.store = before := by
  obtain hkept | ⟨⟨value, hvalue⟩, -⟩ := h
  · exact hkept
  · cases hvalue.symm.trans hfault

/-- An outcome that may take no step leaves the store as it was. -/
theorem Outcome.TakesOne.store_of_none {α : Type} {before : Store} {outcome : Outcome α}
    (h : outcome.TakesOne before fun _ => False) : outcome.store = before := by
  obtain hkept | ⟨-, action, hfalse, -⟩ := h
  · exact hkept
  · exact hfalse.elim

namespace Database

variable (db : Database)

/-- A storage operation that succeeds as a statement has succeeded in the storage. -/
theorem liftStore_eq_ok_iff {α : Type} {result : Except StoreError α} {value : α} :
    liftStore result = .ok value ↔ result = .ok value := by
  cases result <;> simp [liftStore]

/-- A statement that succeeds leaves the store as it was, or is the step that it is for the store. -/
theorem runStatement_eq_ok {c : CompiledRequest} {output : Output} {after : Store}
    (h : db.runStatement c = .ok (output, after)) :
    after = db.store ∨ ∃ action, c.statement.step? = some action ∧ after = db.store.step action := by
  rw [runStatement] at h
  cases hstatement : c.statement with
  | select selection =>
    simp only [hstatement] at h
    obtain ⟨rows, -, hrows⟩ := bind_eq_ok_iff.mp h
    obtain ⟨finished, -, hdone⟩ := bind_eq_ok_iff.mp hrows
    exact Or.inl (Prod.mk.inj (Except.ok.inj hdone)).2.symm
  | count table clause =>
    simp only [hstatement] at h
    obtain ⟨n, -, hdone⟩ := bind_eq_ok_iff.mp h
    exact Or.inl (Prod.mk.inj (Except.ok.inj hdone)).2.symm
  | insert table row =>
    simp only [hstatement] at h
    obtain ⟨⟨added, store⟩, hinsert, hdone⟩ := bind_eq_ok_iff.mp h
    refine Or.inr ⟨.insert table row, rfl, ?_⟩
    rw [Store.step, liftStore_eq_ok_iff.mp hinsert]
    exact (Prod.mk.inj (Except.ok.inj hdone)).2.symm
  | update table clause patch limit =>
    simp only [hstatement] at h
    obtain ⟨⟨changed, store⟩, hpatch, hdone⟩ := bind_eq_ok_iff.mp h
    refine Or.inr ⟨.patch table clause patch limit, rfl, ?_⟩
    rw [Store.step, liftStore_eq_ok_iff.mp hpatch]
    exact (Prod.mk.inj (Except.ok.inj hdone)).2.symm
  | delete table clause =>
    simp only [hstatement] at h
    obtain ⟨⟨dropped, store⟩, hdelete, hdone⟩ := bind_eq_ok_iff.mp h
    refine Or.inr ⟨.delete table clause, rfl, ?_⟩
    rw [Store.step, liftStore_eq_ok_iff.mp hdelete]
    exact (Prod.mk.inj (Except.ok.inj hdone)).2.symm

/-- A request that fails leaves the store as it was, and one that succeeds does to it what it may do. -/
theorem run_takesOne (r : Request) : (db.run r).TakesOne db.store r.Writes := by
  rw [run]
  cases hcompile : r.compile db.registry with
  | error fault => exact Or.inl rfl
  | ok c =>
    obtain ⟨clause, hstatement⟩ := Request.compile_eq_ok hcompile
    simp only [execute]
    cases hrun : db.runStatement c with
    | error fault => exact Or.inl rfl
    | ok done =>
      obtain ⟨output, after⟩ := done
      obtain hkept | ⟨action, haction, hstep⟩ := db.runStatement_eq_ok hrun
      · exact Or.inl hkept
      · exact Or.inr ⟨⟨output, rfl⟩, action, Request.writes_of_statement hstatement haction, hstep⟩

/-- A request that is run behind signals does the same to the store, and one that could not be made does
nothing to it. -/
theorem runAfter_takesOne (signals : List Signal) {r : Except QueryError Request}
    {allowed : StoreStep → Prop} (h : ∀ request, r = .ok request → ∀ action, request.Writes action →
      allowed action) : (db.runAfter signals r).TakesOne db.store allowed := by
  cases r with
  | error fault => exact Or.inl rfl
  | ok request =>
    refine (db.run_takesOne request).map rfl (f := id) ?_ (h request rfl)
    simp only [runAfter]
    cases (db.run request).result <;> rfl

/-- An outcome whose output is counted takes the same step. -/
theorem counted_takesOne {outcome : Outcome Output} {allowed : StoreStep → Prop} {before : Store}
    (h : outcome.TakesOne before allowed) : (counted outcome).TakesOne before allowed :=
  h.map rfl rfl fun _ => id

end Database

/-! ## Operations -/

/-- How a request for rows ends. -/
inductive Ending where
  /-- Its rows are read, or the first of them. -/
  | all
  | page (p : Pagination)
  | range (start stop : Nat)

/-- What can be done with the rows of a model. -/
inductive Operation where
  | create (now : Calendar.Instant) (doc : Json)
  | save (row : Row)
  | update (row : Row) (doc : Json)
  | updateMany (filter doc : Json)
  | updateOne (filter doc : Json)
  | deleteMany (filter : Json)
  | count (filter : Json)
  /-- The rows that a filter holds of are asked for, or the first of them, and the request is refined by calls
  before it ends. -/
  | find (single : Bool) (filter : Json) (calls : List RequestCall) (ending : Ending)

/-- Whether an operation only reads. -/
def Operation.IsReading : Operation → Prop
  | .count _ | .find .. => True
  | .create .. | .save _ | .update .. | .updateMany .. | .updateOne .. | .deleteMany _ => False

/-- An outcome of which it only counts whether it succeeds. -/
def Outcome.done {α : Type} (outcome : Outcome α) : Outcome Unit :=
  { outcome with result := outcome.result.map fun _ => () }

namespace Database

variable (db : Database) (model : Model)

/-- The request for the rows that a filter holds of, or for the first of them, refined by calls. -/
def refined (single : Bool) (filter : Json) (calls : List RequestCall) : Except QueryError Request :=
  (if single then db.findOne model filter else db.find model filter) >>= (calls.foldlM Request.call ·)

/-- Ends a request for rows. -/
def endRequest (request : Except QueryError Request) : Ending → Outcome Unit
  | .all => (db.runAfter [] request).done
  | .page p =>
    match request with
    | .error fault => db.fail [] fault
    | .ok r => (db.paginate r p).done
  | .range start stop =>
    match request >>= fun r => r.compile db.registry with
    | .error fault => db.fail [] fault
    | .ok c => (db.executeRange c start stop).done

/-- Does something with the rows of a model. -/
def perform : Operation → Outcome Unit
  | .create now doc => (db.create now model doc).done
  | .save row => (db.save model row).done
  | .update row doc => (db.update model row doc).2.done
  | .updateMany filter doc => (db.updateMany model filter doc).done
  | .updateOne filter doc => (db.updateOne model filter doc).done
  | .deleteMany filter => (db.deleteMany model filter).done
  | .count filter => (db.count model filter).done
  | .find single filter calls ending => db.endRequest (db.refined model single filter calls) ending

/-- The database after an operation on the rows of a model. -/
def performed (op : Operation) : Database :=
  { db with store := (db.perform model op).store }

end Database

/-- What an operation on the rows of a model may do to a store: add a row of coerced properties with the
defaults of those that are missing, give coerced properties as new values to rows, or drop rows. -/
inductive Model.Writes (model : Model) : StoreStep → Prop
  | insert (now : Calendar.Instant) (doc : Members) :
    Writes model (.insert model.table (model.fillDefaults now (model.coerce doc).value))
  | patch (doc : Members) (clause : Clause) (limit : Option Nat) :
    Writes model (.patch model.table clause (model.coerce doc).value limit)
  | delete (clause : Clause) : Writes model (.delete model.table clause)

/-- What may be done through a model works on no table but its own. -/
theorem Model.Writes.eq_table {model : Model} {action : StoreStep} (h : model.Writes action) {table : String}
    (hconcerns : action.concerns table = true) : table = model.table := by
  cases h <;> simpa [StoreStep.concerns, eq_comm] using hconcerns

namespace Database

variable (db : Database) (model : Model)

/-- Making a row adds it. -/
theorem create_takesOne (now : Calendar.Instant) (doc : Json) :
    (db.create now model doc).TakesOne db.store model.Writes := by
  rw [create]
  cases hdoc : documentMembers doc with
  | error fault => exact Or.inl rfl
  | ok members =>
    have hadded : (db.runAfter (model.coerce members).signals (.ok ((db.request model .insert).withPayload
        (model.fillDefaults now (model.coerce members).value)))).TakesOne db.store model.Writes := by
      refine db.runAfter_takesOne _ fun request hrequest action haction => ?_
      obtain rfl := Except.ok.inj hrequest
      cases haction with
      | insert => exact .insert now members
      | patch h => cases h
      | delete h => cases h
    exact hadded.map rfl rfl fun _ => id

/-- Giving new values to rows changes them. -/
theorem updateWhere_takesOne (single : Bool) (filter doc : Json) :
    (db.updateWhere model single filter doc).TakesOne db.store model.Writes := by
  rw [updateWhere]
  cases hdoc : documentMembers doc with
  | error fault => exact Or.inl rfl
  | ok members =>
    refine counted_takesOne (db.runAfter_takesOne _ fun request hrequest action haction => ?_)
    have hwrites := haction.of_addFilter hrequest
    cases single <;> cases hwrites with
    | patch _ clause => exact .patch members clause _
    | insert h => cases h
    | delete h => cases h

/-- Dropping rows drops them. -/
theorem deleteMany_takesOne (filter : Json) :
    (db.deleteMany model filter).TakesOne db.store model.Writes := by
  refine counted_takesOne (db.runAfter_takesOne _ fun request hrequest action haction => ?_)
  cases haction.of_addFilter hrequest with
  | delete _ clause => exact .delete clause
  | insert h => cases h
  | patch h => cases h

/-- Saving a row changes rows. -/
theorem save_takesOne (row : Row) : (db.save model row).TakesOne db.store model.Writes := by
  simp only [save]
  split
  · exact Or.inl rfl
  · split
    · exact Or.inl rfl
    · refine counted_takesOne (db.runAfter_takesOne _ fun request hrequest action haction => ?_)
      cases haction.of_addFilter hrequest with
      | patch _ clause => exact .patch row clause _
      | insert h => cases h
      | delete h => cases h

/-- Updating a row changes rows. -/
theorem update_takesOne (row : Row) (doc : Json) :
    (db.update model row doc).2.TakesOne db.store model.Writes := by
  cases doc with
  | obj members => exact db.save_takesOne model (row.extend members)
  | null | bool | int | float | str | arr => exact Or.inl rfl

/-- Counting rows leaves the store as it was. -/
theorem store_count (filter : Json) : (db.count model filter).store = db.store := by
  have htakes : (db.count model filter).TakesOne db.store fun _ => False :=
    counted_takesOne (db.runAfter_takesOne _ fun request hrequest action haction =>
      Request.not_writes (Or.inr rfl) action (haction.of_addFilter hrequest))
  exact htakes.store_of_none

/-- Reading a range of rows leaves the store as it was. -/
theorem store_executeRange (c : CompiledRequest) (start stop : Nat) :
    (db.executeRange c start stop).store = db.store := by
  rw [executeRange]
  split
  · dsimp only
    split <;> rfl
  · rfl

/-- Reading a page leaves the store as it was. -/
theorem store_paginate (r : Request) (p : Pagination) : (db.paginate r p).store = db.store := by
  rw [paginate]
  split
  · rfl
  · dsimp only
    split
    · rfl
    · exact db.store_executeRange ..

/-- A request for rows stays one however it is refined. -/
theorem kind_refined {single : Bool} {filter : Json} {calls : List RequestCall} {request : Request}
    (h : db.refined model single filter calls = .ok request) : request.kind = .select := by
  obtain ⟨started, hstarted, hcalls⟩ := bind_eq_ok_iff.mp h
  have hkind : started.kind = .select := by
    cases single <;> obtain ⟨_, rfl⟩ := Request.addFilter_eq_ok hstarted <;> rfl
  rw [Request.kind_foldlM_call hcalls, hkind]

/-- Reading rows leaves the store as it was. -/
theorem store_endRequest {request : Except QueryError Request}
    (h : ∀ r, request = .ok r → r.kind = .select) (ending : Ending) :
    (db.endRequest request ending).store = db.store := by
  cases ending with
  | all =>
    have htakes : (db.runAfter [] request).TakesOne db.store fun _ => False :=
      db.runAfter_takesOne _ fun r hr action => Request.not_writes (Or.inl (h r hr)) action
    exact htakes.store_of_none
  | page p =>
    cases request with
    | error fault => rfl
    | ok r => exact db.store_paginate r p
  | range start stop =>
    simp only [endRequest]
    split
    · rfl
    · exact db.store_executeRange ..

/-- An operation that only reads leaves the store as it was. -/
theorem store_perform_of_isReading {op : Operation} (h : op.IsReading) :
    (db.perform model op).store = db.store := by
  cases op with
  | count filter => exact db.store_count model filter
  | find single filter calls ending => exact db.store_endRequest (fun r hr => db.kind_refined model hr) ending
  | create | save | update | updateMany | updateOne | deleteMany => cases h

/-- An operation on the rows of a model leaves the store as it was, or succeeds and does to it what it may do. -/
theorem perform_takesOne (op : Operation) : (db.perform model op).TakesOne db.store model.Writes := by
  have hdone {α : Type} {outcome : Outcome α} (h : outcome.TakesOne db.store model.Writes) :
      outcome.done.TakesOne db.store model.Writes := h.map rfl rfl fun _ => id
  cases op with
  | create now doc => exact hdone (db.create_takesOne model now doc)
  | save row => exact hdone (db.save_takesOne model row)
  | update row doc => exact hdone (db.update_takesOne model row doc)
  | updateMany filter doc => exact hdone (db.updateWhere_takesOne model false filter doc)
  | updateOne filter doc => exact hdone (db.updateWhere_takesOne model true filter doc)
  | deleteMany filter => exact hdone (db.deleteMany_takesOne model filter)
  | count | find => exact Or.inl (db.store_perform_of_isReading model trivial)

end Database

end SchemaQuery
