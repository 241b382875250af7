import Mathlib.Data.List.DropRight
import SchemaQuery.Proofs.Basic
import SchemaQuery.Schema.Scan

/-!
# Integrity of the registry

A registry is filled by registering models, by resolving what they declare, and by scanning directories; it is
emptied by a reset. Whatever is done to it in whatever order, every model stands under its own name, only
registered models have declarations waiting, and every relation leads from the model that shows it to a
registered model: models go only when all go.
-/

namespace SchemaQuery

/-! ## Names -/

/-- Dropping blanks at both ends leaves none at either end. -/
theorem Text.trim_trim (cs : List Char) : trim (trim cs) = trim cs := by
  have hfront : trimLeft (trim cs) = trim cs := by
    refine List.dropWhile_eq_self_iff.mpr fun hlong => ?_
    -- What is left begins as it did before the blanks behind it were dropped.
    have hbegins : trim cs <+: trimLeft cs := List.rdropWhile_prefix ..
    rw [hbegins.getElem hlong]
    exact List.dropWhile_get_zero_not isBlank cs _
  rw [trim, hfront]
  exact List.rdropWhile_idempotent ..

/-- A name without blanks around it is taken as it stands. -/
theorem Text.trimmed_trimmed (name : String) : trimmed (trimmed name) = trimmed name := by
  simp only [trimmed, String.toList_ofList, trim_trim]

/-! ## Steps -/

/-- What can be done to a registry. -/
inductive RegistryStep where
  | register (name : String) (properties : Option PropertyDeclarations)
      (hasMany belongsTo : Option RelationDeclarations)
  | addModel (d : Definition)
  | resolve
  | scan (files : FileTree) (directory : String)
  | reset

namespace Registry

/-- The registry after a step. -/
def step (r : Registry) : RegistryStep → Registry
  | .register name properties hasMany belongsTo => (r.register name properties hasMany belongsTo).value.2
  | .addModel d => (r.addModel d).value.2
  | .resolve => r.resolveAll.value.2
  | .scan files directory => (r.scan files directory).value.2
  | .reset => r.reset.value

/-- The registry after steps, taken in order. -/
def run (r : Registry) (steps : List RegistryStep) : Registry :=
  steps.foldl step r

/-- A model stands under its own name, which is not empty and has no blanks around it, and has its table
named after it. -/
structure NamedAs (name : String) (model : Model) : Prop where
  name_eq : model.name = name
  trimmed : Text.trimmed name = name
  nonempty : name ≠ ""
  table : model.table = Text.lower name

/-- A relation that a model shows under a name leads to a registered model over a key that is not blank. -/
def Joins (r : Registry) (model : Model) (name : String) (relation : Relation) : Prop :=
  ∃ kind target key, r.models.get? target.name = some target ∧ target.name = relation.model ∧
    Text.isEmptyOrBlank key = false ∧ relation = .between kind name model target key

/-- Models have names of their own, declarations wait for registered models only, and relations lead to
registered models. -/
structure Sound (r : Registry) : Prop where
  named : ∀ name, ∀ model ∈ r.models.get? name, NamedAs name model
  pending : ∀ kind name, ∀ declarations ∈ (r.declarations kind).get? name,
    ∃ model, r.models.get? name = some model
  related : ∀ owner, ∀ model ∈ r.models.get? owner, ∀ name, ∀ relation ∈ model.relations.get? name,
    r.Joins model name relation

variable {r : Registry}

/-- The registry without models is sound. -/
theorem Sound.empty : Registry.empty.Sound where
  named := nofun
  pending := by rintro (_ | _) _ _ ⟨⟩
  related := nofun

/-! ## Registering -/

/-- What is accepted has a free name and no relations yet. -/
theorem accept_eq_ok {name : String} {properties : Option PropertyDeclarations} {model : Model}
    (h : r.accept name properties = .ok model) :
    NamedAs (Text.trimmed name) model ∧ r.models.get? (Text.trimmed name) = none ∧
      model.relations = .empty := by
  by_cases hname : Text.trimmed name = ""
  · simp [accept, hname] at h
  · cases properties with
    | none => simp [accept, hname] at h
    | some properties =>
      simp only [accept, if_neg hname] at h
      split at h
      · cases h
      · next hfree =>
        obtain rfl := Except.ok.inj h
        exact ⟨⟨rfl, Text.trimmed_trimmed name, hname, rfl⟩, by simpa [Dictionary.contains] using hfree, rfl⟩

/-- Declarations that are put aside stand under the name they are put under. -/
theorem get?_keep {pending : Dictionary RelationDeclarations} {name other : String}
    {added : Option RelationDeclarations} {declarations : RelationDeclarations}
    (h : (keep pending name added).get? other = some declarations) :
    other = name ∨ pending.get? other = some declarations := by
  unfold keep at h
  split at h
  · exact Or.inr h
  · split at h
    · exact Or.inr h
    · rw [Dictionary.get?_insert] at h
      split at h
      · next hname => exact Or.inl hname.symm
      · exact Or.inr h

/-- Registering a model keeps a registry sound. -/
theorem Sound.register (h : r.Sound) (name : String) (properties : Option PropertyDeclarations)
    (hasMany belongsTo : Option RelationDeclarations) :
    (r.register name properties hasMany belongsTo).value.2.Sound := by
  unfold Registry.register
  split
  · exact h
  · next model haccept =>
    obtain ⟨hmodel, hfree, hrelations⟩ := accept_eq_ok haccept
    rw [← hmodel.name_eq] at hfree
    -- A registered model has another name, and is still found.
    have hkept {other : String} {found : Model} (hfound : r.models.get? other = some found) :
        (r.models.insert model.name model).get? other = some found := by
      have hne : model.name ≠ other := fun heq => by simp [← heq, hfree] at hfound
      rw [Dictionary.get?_insert, if_neg hne, hfound]
    have hcases {other : String} {found : Model}
        (hfound : (r.models.insert model.name model).get? other = some found) :
        other = model.name ∧ found = model ∨ r.models.get? other = some found := by
      rw [Dictionary.get?_insert] at hfound
      split at hfound
      · next hname => exact Or.inl ⟨hname.symm, (Option.some.inj hfound).symm⟩
      · exact Or.inr hfound
    refine ⟨fun other found hfound => ?_, fun kind other declarations hdeclarations => ?_,
      fun other found hfound shown relation hrelation => ?_⟩
    · rcases hcases hfound with ⟨rfl, rfl⟩ | hold
      · exact hmodel.name_eq ▸ hmodel
      · exact h.named other found hold
    · have hwaiting : other = model.name ∨ (r.declarations kind).get? other = some declarations := by
        cases kind with
        | hasMany => exact get?_keep hdeclarations
        | belongsTo => exact get?_keep hdeclarations
      rcases hwaiting with rfl | hold
      · exact ⟨model, by rw [Dictionary.get?_insert, if_pos rfl]⟩
      · obtain ⟨found, hfound⟩ := h.pending kind other declarations hold
        exact ⟨found, hkept hfound⟩
    · rcases hcases hfound with ⟨rfl, rfl⟩ | hold
      · rw [hrelations] at hrelation
        cases hrelation
      · obtain ⟨kind, target, key, htarget, hjoins⟩ := h.related other found hold shown relation hrelation
        exact ⟨kind, target, key, hkept htarget, hjoins⟩

/-- Registering the model of a definition keeps a registry sound. -/
theorem Sound.addModel (h : r.Sound) (d : Definition) : (r.addModel d).value.2.Sound :=
  h.register ..

/-! ## Resolving -/

/-- A declaration gives a relation when its model is registered and its key is not blank. -/
theorem resolveOne_eq_ok {source : Model} {kind : RelationKind} {name : String}
    {declaration : RelationDeclaration} {relation : Relation}
    (h : r.resolveOne source kind name declaration = .ok relation) :
    ∃ target, r.models.get? declaration.target = some target ∧
      Text.isEmptyOrBlank declaration.key = false ∧
      relation = .between kind name source target declaration.key := by
  unfold resolveOne at h
  cases htarget : r.models.get? declaration.target with
  | none => simp [htarget] at h
  | some target =>
    simp only [htarget] at h
    split at h
    · cases h
    · next hkey => exact ⟨target, rfl, by simpa using hkey, (Except.ok.inj h).symm⟩

/-- A result is that of a declaration of a registered model. -/
theorem exists_declaration {x : Resolution} (h : x ∈ r.resolutions) :
    ∃ source declaration, r.models.get? x.model = some source ∧
      x.outcome = r.resolveOne source x.kind x.name declaration := by
  have hkind {kind : RelationKind} (h : x ∈ r.resolutionsOf kind) :
      ∃ source declaration, r.models.get? x.model = some source ∧
        x.outcome = r.resolveOne source x.kind x.name declaration := by
    obtain ⟨⟨model, declarations⟩, -, hmem⟩ := List.mem_flatMap.mp h
    cases hsource : r.models.get? model with
    | none => simp [hsource] at hmem
    | some source =>
      simp only [hsource] at hmem
      obtain ⟨⟨name, declaration⟩, -, rfl⟩ := List.mem_map.mp hmem
      exact ⟨source, declaration, hsource, rfl⟩
  exact (List.mem_append.mp h).elim hkind hkind

/-- A relation of a model is the result of one of its declarations. -/
theorem exists_resolution {results : List Resolution} {model name : String} {relation : Relation}
    (h : (relationsOf results model).get? name = some relation) :
    ∃ x ∈ results, x.model = model ∧ x.name = name ∧ x.outcome = .ok relation := by
  unfold relationsOf at h
  -- The induction is over the results that are left, for any relations found so far.
  generalize hstart : (Dictionary.empty : Dictionary Relation) = start at h
  suffices hfold : (∃ x ∈ results, x.model = model ∧ x.name = name ∧ x.outcome = .ok relation) ∨
      start.get? name = some relation by
    exact hfold.resolve_right (hstart ▸ nofun)
  clear hstart
  induction results generalizing start with
  | nil => exact Or.inr h
  | cons x rest ih =>
    rcases ih _ h with ⟨y, hy, hrelation⟩ | hget
    · exact Or.inl ⟨y, List.mem_cons_of_mem _ hy, hrelation⟩
    · simp only at hget
      split at hget
      · next hmodel =>
        cases houtcome : x.outcome with
        | error fault => exact Or.inr (by simpa [houtcome] using hget)
        | ok found =>
          simp only [houtcome, Dictionary.get?_insert] at hget
          split at hget
          · next hname =>
            exact Or.inl ⟨x, List.mem_cons_self, hmodel, hname, by rw [houtcome, Option.some.inj hget]⟩
          · exact Or.inr hget
      · exact Or.inr hget

/-- Resolving keeps a registry sound. -/
theorem Sound.resolveAll (h : r.Sound) : r.resolveAll.value.2.Sound := by
  have hget (name : String) : r.resolveAll.value.2.models.get? name =
      (r.models.get? name).map fun model =>
        { model with relations := relationsOf r.resolutions name } :=
    Dictionary.get?_map ..
  refine ⟨fun name model hmodel => ?_, fun kind name declarations hdeclarations => ?_,
    fun owner model hmodel name relation hrelation => ?_⟩
  · obtain ⟨old, hold, rfl⟩ := Option.map_eq_some_iff.mp ((hget name).symm.trans hmodel)
    obtain ⟨hname, htrimmed, hnonempty, htable⟩ := h.named name old hold
    exact ⟨hname, htrimmed, hnonempty, htable⟩
  · have hwaiting : (r.declarations kind).get? name = some declarations := by
      cases kind <;> exact hdeclarations
    obtain ⟨model, hmodel⟩ := h.pending kind name declarations hwaiting
    exact ⟨_, by rw [hget, hmodel, Option.map_some]⟩
  · obtain ⟨old, hold, rfl⟩ := Option.map_eq_some_iff.mp ((hget owner).symm.trans hmodel)
    obtain ⟨x, hx, rfl, rfl, houtcome⟩ := exists_resolution hrelation
    obtain ⟨source, declaration, hsource, hresolve⟩ := exists_declaration hx
    obtain rfl : source = old := Option.some.inj (hsource.symm.trans hold)
    obtain ⟨target, htarget, hkey, rfl⟩ := resolveOne_eq_ok (hresolve.symm.trans houtcome)
    have hregistered : r.models.get? target.name = some target := by
      rw [(h.named _ target htarget).name_eq, htarget]
    -- A relation says of its models only what resolving leaves as it is.
    exact ⟨x.kind, { target with relations := relationsOf r.resolutions target.name }, declaration.key,
      by rw [hget, hregistered, Option.map_some], rfl, hkey, rfl⟩

/-! ## Scanning -/

/-- Registering the model of a file keeps a registry sound. -/
theorem Sound.addFile (h : r.Sound) (path : String) (content : Option String) :
    (r.addFile path content).value.2.Sound := by
  unfold Registry.addFile
  split
  · exact h
  · exact h.addModel _

/-- Registering the models of files keeps a registry sound. -/
theorem Sound.addFiles (h : r.Sound) (files : List (String × Option String)) :
    (r.addFiles files).value.2.Sound := by
  induction files generalizing r with
  | nil => exact h
  | cons file rest ih => exact ih (h.addFile file.1 file.2)

/-- Scanning a directory keeps a registry sound. -/
theorem Sound.scan (h : r.Sound) (files : FileTree) (directory : String) :
    (r.scan files directory).value.2.Sound := by
  unfold Registry.scan scanEntries
  split
  · exact h
  · exact (h.addFiles _).resolveAll

/-! ## Runs -/

/-- A step keeps a registry sound. -/
theorem Sound.step (h : r.Sound) (action : RegistryStep) : (r.step action).Sound := by
  cases action with
  | register name properties hasMany belongsTo => exact h.register name properties hasMany belongsTo
  | addModel d => exact h.addModel d
  | resolve => exact h.resolveAll
  | scan files directory => exact h.scan files directory
  | reset => exact .empty

/-- Steps keep a registry sound. -/
theorem Sound.run (h : r.Sound) (steps : List RegistryStep) : (r.run steps).Sound := by
  induction steps generalizing r with
  | nil => exact h
  | cons action rest ih => exact ih (h.step action)

end Registry

end SchemaQuery
