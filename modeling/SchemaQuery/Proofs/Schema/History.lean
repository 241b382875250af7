import SchemaQuery.Proofs.Schema.Integrity

/-!
# Registries without a history

Models are registered one by one, some are refused, and relations are resolved in between. What a registry
holds in the end is told by the definitions it has accepted: each gives the model and the waiting declarations
of its name, in whatever order they came, and what was refused gives nothing. Resolving looks at these alone
and makes every relation anew, so that registries which have accepted the same definitions are the same once
their relations are resolved.
-/

namespace SchemaQuery

/-! ## Definitions -/

namespace Definition

/-- The name that a definition is registered under. -/
def modelName (d : Definition) : String :=
  Text.trimmed (d.name.getD "")

/-- A definition under the name that it is registered under. -/
def underModelName (d : Definition) : Definition :=
  { d with name := some d.modelName }

/-- The model of a definition, before its relations are resolved. -/
def model (d : Definition) : Model :=
  .ofDeclarations d.modelName ((d.body.getD default).properties.getD .empty)

/-- The relations that a definition declares, if there are any. -/
def declared? (d : Definition) (kind : RelationKind) : Option RelationDeclarations :=
  let body := d.body.getD default
  let declarations := match kind with
    | .hasMany => body.hasMany
    | .belongsTo => body.belongsTo
  declarations.filter fun declarations => !declarations.isEmpty

/-- The name that a definition is registered under is its name from then on. -/
theorem modelName_underModelName (d : Definition) : d.underModelName.modelName = d.modelName :=
  Text.trimmed_trimmed _

/-- Under the name that it is registered under a definition gives the same model. -/
theorem model_underModelName (d : Definition) : d.underModelName.model = d.model := by
  rw [model, modelName_underModelName]
  rfl

end Definition

/-- A model without its relations. -/
def Model.bare (model : Model) : Model :=
  { model with relations := .empty }

/-- The definition that a step offers to a registry. -/
def RegistryStep.offered? : RegistryStep → Option Definition
  | .register name properties hasMany belongsTo =>
    some ⟨some name, some ⟨properties, hasMany, belongsTo⟩⟩
  | .addModel d => some d
  | .resolve | .scan .. | .reset => none

/-- Whether a step registers a model or resolves the relations. -/
def RegistryStep.IsRegistering : RegistryStep → Prop
  | .register .. | .addModel _ | .resolve => True
  | .scan .. | .reset => False

namespace Registry

/-- Whether a definition is accepted. -/
def accepts (r : Registry) (d : Definition) : Bool :=
  (r.addModel d).value.1.isOk

/-- The definitions that a registry accepts in steps, in order, each under the name it gets. -/
def accepted (r : Registry) : List RegistryStep → List Definition
  | [] => []
  | action :: rest =>
    ((action.offered?.filter r.accepts).map Definition.underModelName).toList ++
      (r.step action).accepted rest

variable {r : Registry}

/-! ## Registering -/

/-- The registry with the model and the declarations of a definition. -/
def taking (r : Registry) (d : Definition) : Registry :=
  let body := d.body.getD default
  { models := r.models.insert d.modelName d.model
    hasMany := keep r.hasMany d.modelName body.hasMany
    belongsTo := keep r.belongsTo d.modelName body.belongsTo }

/-- What is accepted is the model of the declared properties under the name without blanks around it. -/
theorem eq_ofDeclarations_of_accept {name : String} {properties : Option PropertyDeclarations}
    {model : Model} (h : r.accept name properties = .ok model) :
    model = .ofDeclarations (Text.trimmed name) (properties.getD .empty) := by
  simp only [accept] at h
  split at h
  · cases h
  · cases properties with
    | none => cases h
    | some properties =>
      simp only at h
      split at h
      · cases h
      · exact (Except.ok.inj h).symm

/-- A definition is refused and leaves no trace, or its name is free and its model and its declarations are
taken. -/
theorem addModel_cases (r : Registry) (d : Definition) :
    (r.accepts d = false ∧ (r.addModel d).value.2 = r) ∨
      (r.accepts d = true ∧ r.models.get? d.modelName = none ∧ (r.addModel d).value.2 = r.taking d) := by
  simp only [accepts, addModel, register]
  cases haccept : r.accept (d.name.getD "") (d.body.getD default).properties with
  | error fault => exact Or.inl ⟨rfl, rfl⟩
  | ok model =>
    obtain ⟨hnamed, hfree, -⟩ := accept_eq_ok haccept
    have hmodel : model = d.model := eq_ofDeclarations_of_accept haccept
    subst hmodel
    exact Or.inr ⟨rfl, hfree, rfl⟩

/-- Declarations that are put aside under a name that has none are found under it, if there are any. -/
theorem get?_keep_of_free {pending : Dictionary RelationDeclarations} {name : String}
    (hfree : pending.get? name = none) (added : Option RelationDeclarations) (other : String) :
    (keep pending name added).get? other =
      if name = other then added.filter fun declarations => !declarations.isEmpty
      else pending.get? other := by
  have hkept : pending.get? other = if name = other then none else pending.get? other := by
    split
    · next heq => rw [← heq, hfree]
    · rfl
  cases added with
  | none => exact hkept
  | some declarations =>
    rw [keep]
    by_cases hempty : declarations.isEmpty
    · simpa [Option.filter, hempty] using hkept
    · simp [Option.filter, hempty, Dictionary.get?_insert]

/-- A definition that is refused leaves no trace. -/
theorem addModel_of_refused {d : Definition} (h : r.accepts d = false) : (r.addModel d).value.2 = r := by
  obtain ⟨-, heq⟩ | ⟨haccepts, -, -⟩ := r.addModel_cases d
  · exact heq
  · rw [h] at haccepts
    cases haccepts

/-! ## What a registry holds -/

/-- Whether look-ups are told by definitions: a name has the value that a definition of the name gives. -/
def Tells {α : Type} (taken : List Definition) (give : Definition → Option α) (lookup : String → Option α) :
    Prop :=
  ∀ name value, lookup name = some value ↔ ∃ d ∈ taken, d.name = some name ∧ give d = some value

/-- A name of which no definition gives a value has none. -/
theorem Tells.eq_none {α : Type} {taken : List Definition} {give : Definition → Option α}
    {lookup : String → Option α} (h : Tells taken give lookup) {name : String}
    (hname : ∀ d ∈ taken, d.name ≠ some name) : lookup name = none :=
  Option.eq_none_iff_forall_ne_some.mpr fun value hvalue =>
    let ⟨d, hd, heq, _⟩ := (h name value).mp hvalue
    hname d hd heq

/-- One more definition, of a new name, tells the look-up of its name. -/
theorem Tells.append {α : Type} {taken : List Definition} {give : Definition → Option α}
    {lookup after : String → Option α} (h : Tells taken give lookup) {d : Definition} {name : String}
    (hname : d.name = some name) (hnew : ∀ other ∈ taken, other.name ≠ some name)
    (hafter : ∀ other, after other = if name = other then give d else lookup other) :
    Tells (taken ++ [d]) give after := by
  intro other value
  simp only [hafter, List.mem_append, List.mem_singleton, or_and_right, exists_or, exists_eq_left]
  by_cases heq : name = other
  · subst heq
    simp only [if_pos, hname, true_and]
    refine ⟨Or.inr, fun hgiven => hgiven.resolve_left ?_⟩
    rintro ⟨earlier, hearlier, hsame, -⟩
    exact hnew earlier hearlier hsame
  · have hne : d.name ≠ some other := fun hsame => heq (Option.some.inj (hname.symm.trans hsame))
    simp only [if_neg heq, hne, false_and, or_false]
    exact h other value

/-- Look-ups that the same definitions tell are the same. -/
theorem Tells.unique {α : Type} {taken taken' : List Definition} {give : Definition → Option α}
    {lookup lookup' : String → Option α} (h : Tells taken give lookup) (h' : Tells taken' give lookup')
    (hsame : ∀ d, d ∈ taken ↔ d ∈ taken') (name : String) : lookup name = lookup' name := by
  ext value
  rw [h name value, h' name value]
  simp only [hsame]

/-- What the definitions that a registry has accepted tell of it: the models apart from their relations, and
the declarations that wait. -/
structure Records (r : Registry) (taken : List Definition) : Prop where
  models : Tells taken (fun d => some d.model) fun name => (r.models.get? name).map Model.bare
  declarations : ∀ kind, Tells taken (Definition.declared? · kind) (r.declarations kind).get?

variable {taken taken' : List Definition}

/-- The registry without models has accepted nothing. -/
theorem Records.empty : Registry.empty.Records [] where
  models name value := by simp [Registry.empty, Dictionary.empty, Dictionary.get?]
  declarations kind name value := by
    cases kind <;> simp [Registry.empty, Registry.declarations, Dictionary.empty, Dictionary.get?]

/-- A definition under a free name is recorded when its model and its declarations are taken. -/
theorem Records.taking (h : r.Records taken) {d : Definition}
    (hfree : r.models.get? d.modelName = none) : (r.taking d).Records (taken ++ [d.underModelName]) := by
  -- A definition that has been accepted under the name would have given it a model.
  have hnew : ∀ other ∈ taken, other.name ≠ some d.modelName := by
    intro other hother hname
    have hmodel := (h.models d.modelName other.model).mpr ⟨other, hother, hname, rfl⟩
    simp [hfree] at hmodel
  refine ⟨h.models.append rfl hnew fun other => ?_, fun kind =>
    (h.declarations kind).append rfl hnew fun other => ?_⟩
  · simp only [Registry.taking, Dictionary.get?_insert, d.model_underModelName]
    split <;> rfl
  · have hwaiting : (r.declarations kind).get? d.modelName = none :=
      (h.declarations kind).eq_none hnew
    cases kind <;> exact get?_keep_of_free hwaiting _ other

/-! ## Resolving -/

/-- A registry without the relations of its models. -/
def bare (r : Registry) : Registry :=
  { r with models := r.models.map fun _ => Model.bare }

/-- Registries that record the same definitions differ at most in their relations. -/
theorem Records.bare_eq {r' : Registry} (h : r.Records taken) (h' : r'.Records taken')
    (hsame : ∀ d, d ∈ taken ↔ d ∈ taken') : r.bare = r'.bare := by
  have hmodels : r.bare.models = r'.bare.models := Dictionary.ext_get? fun name => by
    simp only [bare, Dictionary.get?_map]
    exact h.models.unique h'.models hsame name
  have hdeclarations (kind : RelationKind) : r.declarations kind = r'.declarations kind :=
    Dictionary.ext_get? ((h.declarations kind).unique (h'.declarations kind) hsame)
  have hhasMany : r.hasMany = r'.hasMany := hdeclarations .hasMany
  have hbelongsTo : r.belongsTo = r'.belongsTo := hdeclarations .belongsTo
  simp only [bare] at hmodels
  rw [bare, bare, hmodels, hhasMany, hbelongsTo]

/-- A declaration is resolved without a look at the relations. -/
theorem resolveOne_bare (r : Registry) (source : Model) (kind : RelationKind) (name : String)
    (declaration : RelationDeclaration) :
    r.bare.resolveOne source.bare kind name declaration = r.resolveOne source kind name declaration := by
  simp only [resolveOne, bare, Dictionary.get?_map]
  cases r.models.get? declaration.target <;> rfl

/-- Declarations are resolved without a look at the relations. -/
theorem resolutions_bare (r : Registry) : r.bare.resolutions = r.resolutions := by
  have hkind (kind : RelationKind) : r.bare.resolutionsOf kind = r.resolutionsOf kind := by
    have hdeclarations : r.bare.declarations kind = r.declarations kind := by cases kind <;> rfl
    rw [resolutionsOf, resolutionsOf, hdeclarations]
    refine congrArg (List.flatMap · _) (funext fun (model, declarations) => ?_)
    have hget : r.bare.models.get? model = (r.models.get? model).map Model.bare :=
      Dictionary.get?_map ..
    simp only [hget]
    cases r.models.get? model with
    | none => rfl
    | some source => simp only [Option.map_some, resolveOne_bare]
  rw [resolutions, resolutions, hkind, hkind]

/-- Resolving does not look at the relations that are there. -/
theorem resolveAll_bare (r : Registry) : r.bare.resolveAll = r.resolveAll := by
  have hmodels (f : String → Model → Model) (hf : ∀ name model, f name model.bare = f name model) :
      r.bare.models.map f = r.models.map f := Dictionary.ext_get? fun name => by
    simp only [bare, Dictionary.get?_map, Option.map_map]
    cases r.models.get? name <;> simp [hf]
  rw [resolveAll, resolveAll, resolutions_bare, hmodels _ fun _ _ => rfl]
  rfl

/-- Resolving changes nothing but the relations. -/
theorem bare_resolveAll (r : Registry) : r.resolveAll.value.2.bare = r.bare := by
  have hmodels : r.resolveAll.value.2.bare.models = r.bare.models := Dictionary.ext_get? fun name => by
    simp only [bare, resolveAll, Dictionary.get?_map]
    cases r.models.get? name <;> rfl
  exact congrArg (Registry.mk · r.hasMany r.belongsTo) hmodels

/-- Resolving twice is resolving once: the second time gives the same report, the same relations and the same
signals. -/
theorem resolveAll_resolveAll (r : Registry) : r.resolveAll.value.2.resolveAll = r.resolveAll := by
  rw [← resolveAll_bare r.resolveAll.value.2, bare_resolveAll, resolveAll_bare]

/-- What a registry records is recorded when its relations are resolved. -/
theorem Records.resolveAll (h : r.Records taken) : r.resolveAll.value.2.Records taken where
  models name value := by
    rw [← h.models name value]
    simp only [Registry.resolveAll, Dictionary.get?_map, Option.map_map]
    cases r.models.get? name <;> rfl
  declarations kind := by cases kind <;> exact h.declarations _

/-! ## Runs -/

/-- A step that offers a definition does what adding its model does. -/
theorem step_of_offered {action : RegistryStep} {d : Definition} (h : action.offered? = some d) :
    r.step action = (r.addModel d).value.2 := by
  cases action with
  | register name properties hasMany belongsTo =>
    obtain rfl := Option.some.inj h
    rfl
  | addModel other =>
    obtain rfl := Option.some.inj h
    rfl
  | _ => cases h

/-- A step that registers or resolves adds what it gets accepted to the record. -/
theorem Records.step (h : r.Records taken) {action : RegistryStep} (haction : action.IsRegistering) :
    (r.step action).Records (taken ++
      ((action.offered?.filter r.accepts).map Definition.underModelName).toList) := by
  cases hoffered : action.offered? with
  | some d =>
    rw [step_of_offered hoffered]
    obtain ⟨hrefused, heq⟩ | ⟨haccepts, hfree, heq⟩ := r.addModel_cases d
    · simpa [heq, Option.filter, hrefused] using h
    · simpa [heq, Option.filter, haccepts] using h.taking hfree
  | none =>
    cases action with
    | resolve =>
      rw [Option.filter_none, Option.map_none, Option.toList_none, List.append_nil]
      exact h.resolveAll
    | register | addModel => cases hoffered
    | scan | reset => cases haction

/-- Steps that register or resolve leave a record of what they got accepted. -/
theorem Records.run (h : r.Records taken) {steps : List RegistryStep}
    (hsteps : ∀ action ∈ steps, action.IsRegistering) :
    (r.run steps).Records (taken ++ r.accepted steps) := by
  induction steps generalizing r taken with
  | nil => simpa [accepted, Registry.run] using h
  | cons action rest ih =>
    rw [accepted, ← List.append_assoc]
    exact ih (h.step (hsteps action List.mem_cons_self)) fun later hlater =>
      hsteps later (List.mem_cons_of_mem _ hlater)

/-- A registry does not depend on its history. Steps that register and resolve, in whatever order and with
whatever is refused in between, come to the same registry and the same report when they have got the same
definitions accepted and the relations are resolved at the end. A definition that is refused leaves no trace,
and resolving twice is resolving once. -/
theorem resolved_eq_of_accepted (steps steps' : List RegistryStep)
    (hsteps : ∀ action ∈ steps, action.IsRegistering) (hsteps' : ∀ action ∈ steps', action.IsRegistering)
    (hsame : ∀ d, d ∈ empty.accepted steps ↔ d ∈ empty.accepted steps') :
    empty.run (steps ++ [.resolve]) = empty.run (steps' ++ [.resolve]) ∧
      (empty.run steps).resolveAll.value.1 = (empty.run steps').resolveAll.value.1 ∧
      (∀ (r : Registry) (action : RegistryStep) (d : Definition), action.offered? = some d →
        r.accepts d = false → r.step action = r) ∧
      ∀ r : Registry, r.resolveAll.value.2.resolveAll = r.resolveAll := by
  have hbare : (empty.run steps).bare = (empty.run steps').bare :=
    (Records.empty.run hsteps).bare_eq (Records.empty.run hsteps') (by simpa using hsame)
  have hresolved : (empty.run steps).resolveAll = (empty.run steps').resolveAll := by
    rw [← resolveAll_bare, hbare, resolveAll_bare]
  have hlast (steps : List RegistryStep) :
      empty.run (steps ++ [.resolve]) = (empty.run steps).resolveAll.value.2 := List.foldl_append
  refine ⟨?_, by rw [hresolved], fun r action d hoffered hrefused => ?_, resolveAll_resolveAll⟩
  · rw [hlast, hlast, hresolved]
  · rw [step_of_offered hoffered, addModel_of_refused hrefused]

/-- A definition that a step offers is among the accepted ones if it is accepted. -/
theorem accepted_cons {action : RegistryStep} {d : Definition} (h : action.offered? = some d)
    (r : Registry) (rest : List RegistryStep) : r.accepted (action :: rest) =
      if r.accepts d then d.underModelName :: (r.step action).accepted rest
      else (r.step action).accepted rest := by
  rw [accepted, h, Option.filter]
  split <;> rfl

/-- Authors, whose books come later and whose name is then asked for again, and books that come first, behind a
definition without a name: the relations lead both ways in the end. -/
theorem resolved_eq_of_accepted_books :
    let books : RelationDeclarations := .ofList [("books", ⟨"Book", "author_id"⟩)]
    let author : RegistryStep := .register " Author " (some .empty) (some books) none
    let again : RegistryStep := .register "Author" (some .empty) none (some .empty)
    let book := (Definition.named "Book").addBelongsTo "author" ⟨"Author", "author_id"⟩
    let steps := [author, .resolve, again, .addModel book]
    let steps' := [.addModel default, .addModel book, .resolve, author]
    (∀ d, d ∈ empty.accepted steps ↔ d ∈ empty.accepted steps') ∧
      empty.run (steps ++ [.resolve]) = empty.run (steps' ++ [.resolve]) ∧
      (empty.run steps').resolveAll.value.1.resolved = 2 := by
  intro books author again book steps steps'
  have hsame : ∀ d, d ∈ empty.accepted steps ↔ d ∈ empty.accepted steps' := by
    let taken : Definition := ⟨some " Author ", some ⟨some .empty, some books, none⟩⟩
    have hsteps : empty.accepted steps = [taken.underModelName, book.underModelName] := by
      rw [accepted_cons rfl, if_pos (by decide +kernel), accepted, accepted_cons rfl,
        if_neg (by decide +kernel), accepted_cons rfl, if_pos (by decide +kernel)]
      rfl
    have hsteps' : empty.accepted steps' = [book.underModelName, taken.underModelName] := by
      rw [accepted_cons rfl, if_neg (by decide +kernel), accepted_cons rfl, if_pos (by decide +kernel),
        accepted, accepted_cons rfl, if_pos (by decide +kernel)]
      rfl
    intro d
    rw [hsteps, hsteps', List.mem_pair, List.mem_pair, or_comm]
  refine ⟨hsame, (resolved_eq_of_accepted steps steps' ?_ ?_ hsame).1, by decide +kernel⟩
  · simp [steps, author, again, RegistryStep.IsRegistering]
  · simp [steps', author, RegistryStep.IsRegistering]

end Registry

end SchemaQuery
