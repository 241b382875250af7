import SchemaQuery.Diagnostics.Sink
import SchemaQuery.Proofs.Schema.FileTrees
import SchemaQuery.Proofs.Schema.History

/-!
# What a scan accounts for

A scan adds the definitions of its files one after the other and then resolves the relations; of each file it says
either the name of the model or the fault. The warnings that it gives are those faults, the properties of unknown
type of the models that it registered, and the relations that were not resolved, each once. A second scan of the
same directory is refused every definition and resolves what is resolved already, so it changes nothing.

What it accounts for are the files that are seen: a file whose path is longer than a path may be is neither
registered nor reported.
-/

namespace SchemaQuery

/-! ## Warnings -/

namespace Diagnostic

/-- The records of signals that are warnings. -/
def warnings (signals : List Signal) : List Diagnostic :=
  (ofSignals signals).filter fun d => d.severity = .warn

/-- Warnings come in the order of the signals. -/
theorem warnings_append (early late : List Signal) :
    warnings (early ++ late) = warnings early ++ warnings late := by
  simp only [warnings, ofSignals, List.filterMap_append, List.filter_append]

/-- The warnings among the signals of several things are those of each thing. -/
theorem warnings_flatMap {α : Type} (things : List α) (f : α → List Signal) :
    warnings (things.flatMap f) = things.flatMap fun thing => warnings (f thing) := by
  induction things with
  | nil => rfl
  | cons thing rest ih => rw [List.flatMap_cons, warnings_append, ih, List.flatMap_cons]

end Diagnostic

/-- The warning of a fault. -/
def SchemaError.warnings (e : SchemaError) : List Diagnostic :=
  e.event?.toList.map fun event => ⟨.warn, some event, event.describe e.details⟩

/-- A fault is reported by its warning and by nothing else. -/
theorem SchemaError.warnings_signals (e : SchemaError) : Diagnostic.warnings e.signals = e.warnings := by
  cases e <;> rfl

/-- The warnings of a model that is registered: one for each property of unknown type. -/
def Model.warnings (model : Model) : List Diagnostic :=
  model.unknownProperties.map fun entry =>
    ⟨.warn, some .unknownPropertyType, Event.describe .unknownPropertyType
      [("model", model.name), ("property", entry.1), ("type", entry.2.declaredType)]⟩

namespace Registry

/-- What is reported of an accepted model are its warnings and that it is registered. -/
theorem warnings_acceptedSignals (model : Model) :
    Diagnostic.warnings (acceptedSignals model) = model.warnings := by
  have hregistered (details : Details) : Diagnostic.warnings [.event .modelRegistered details] = [] := rfl
  rw [acceptedSignals, Diagnostic.warnings_append, hregistered, List.append_nil, Model.warnings]
  induction model.unknownProperties with
  | nil => rfl
  | cons entry rest ih => exact congrArg (List.cons _) ih

/-- Resolving warns of the relations that were not resolved. -/
theorem warnings_resolveAll (r : Registry) :
    Diagnostic.warnings r.resolveAll.signals =
      r.resolveAll.value.1.unresolved.flatMap SchemaError.warnings := by
  have hdone (details : Details) : Diagnostic.warnings [.event .relationsInitialized details] = [] := rfl
  simp only [resolveAll, reportOf, Diagnostic.warnings_append, hdone, List.append_nil,
    Diagnostic.warnings_flatMap]
  induction r.resolutions with
  | nil => rfl
  | cons x rest ih =>
    rw [List.flatMap_cons, ih, List.filterMap_cons, Resolution.signals]
    cases x.outcome with
    | ok relation => rfl
    | error fault => rw [fault.warnings_signals, List.flatMap_cons]

/-! ## Files one after the other -/

/-- The steps that add the definitions of files, as far as these can be read. -/
def additions (files : List (String × Option String)) : List RegistryStep :=
  files.filterMap fun file => (readDefinition file.1 file.2).toOption.map .addModel

/-- What becomes of a file when the definitions of others have been added: a fault of reading it, or what adding
its definition gives. -/
def outcomeAfter (r : Registry) (before : List (String × Option String)) (file : String × Option String) :
    Except SchemaError Model :=
  (readDefinition file.1 file.2).bind fun d => ((r.run (additions before)).addModel d).value.1

/-- What becomes of files, each added when those before it have been. -/
def outcomes (r : Registry) (files : List (String × Option String)) : List (Except SchemaError Model) :=
  files.mapIdx fun i file => r.outcomeAfter (files.take i) file

/-- What is reported of a file. -/
def outcomeSignals : Except SchemaError Model → List Signal
  | .error fault => fault.signals
  | .ok model => acceptedSignals model

/-- The warnings of a file. -/
def outcomeWarnings : Except SchemaError Model → List Diagnostic
  | .error fault => fault.warnings
  | .ok model => model.warnings

/-- The fault of a file that gave no model. -/
def fault? : Except SchemaError Model → Option SchemaError
  | .error fault => some fault
  | .ok _ => none

variable (r : Registry)

/-- A file is added by the step of its definition, if it can be read. -/
theorem addFile_eq (file : String × Option String) :
    (r.addFile file.1 file.2).value.2 = r.run (additions [file]) := by
  rw [addFile, additions, List.filterMap_cons]
  cases readDefinition file.1 file.2 <;> rfl

/-- What is reported of a file is told by what becomes of it. -/
theorem signals_addFile (file : String × Option String) :
    (r.addFile file.1 file.2).signals = outcomeSignals (r.addFile file.1 file.2).value.1 := by
  rw [addFile]
  cases readDefinition file.1 file.2 with
  | error fault => rfl
  | ok d =>
    simp only [addModel, register]
    cases r.accept (d.name.getD "") (d.body.getD default).properties <;> rfl

/-- Definitions are added file by file. -/
theorem run_additions_cons (file : String × Option String) (rest : List (String × Option String)) :
    r.run (additions (file :: rest)) = (r.addFile file.1 file.2).value.2.run (additions rest) := by
  have hsplit : additions (file :: rest) = additions [file] ++ additions rest :=
    @List.filterMap_append _ _ [file] rest _
  rw [addFile_eq, hsplit, run, List.foldl_append]
  rfl

/-- The first file is added to the registry as it is, the others to what that gives. -/
theorem outcomes_cons (file : String × Option String) (rest : List (String × Option String)) :
    r.outcomes (file :: rest) =
      (r.addFile file.1 file.2).value.1 :: (r.addFile file.1 file.2).value.2.outcomes rest := by
  have hfirst : r.outcomeAfter [] file = (r.addFile file.1 file.2).value.1 := by
    rw [outcomeAfter, addFile]
    cases readDefinition file.1 file.2 <;> rfl
  have hothers (i : Nat) (later : String × Option String) :
      r.outcomeAfter ((file :: rest).take (i + 1)) later =
        (r.addFile file.1 file.2).value.2.outcomeAfter (rest.take i) later := by
    rw [List.take_succ_cons, outcomeAfter, outcomeAfter, run_additions_cons]
  rw [outcomes, List.mapIdx_cons, List.take_zero, hfirst]
  simp only [hothers]
  rfl

/-- Adding files one after the other adds their definitions in order, and reports what becomes of each. -/
theorem addFiles_eq (files : List (String × Option String)) :
    r.addFiles files = ⟨(r.outcomes files, r.run (additions files)), (r.outcomes files).flatMap outcomeSignals⟩ := by
  induction files generalizing r with
  | nil => rfl
  | cons file rest ih =>
    rw [run_additions_cons, outcomes_cons, List.flatMap_cons, ← signals_addFile, addFiles]
    simp only [ih]

/-! ## Every fault is reported -/

/-- A file that cannot be read is reported. -/
theorem isSome_event?_of_readDefinition {path : String} {content : Option String} {fault : SchemaError}
    (h : readDefinition path content = .error fault) : fault.event?.isSome = true := by
  cases content with
  | none =>
    obtain rfl := Except.error.inj h
    rfl
  | some text =>
    simp only [readDefinition] at h
    split at h
    · obtain rfl := Except.error.inj h
      rfl
    · cases h

/-- A definition that is refused is reported. -/
theorem isSome_event?_of_addModel {d : Definition} {fault : SchemaError}
    (h : (r.addModel d).value.1 = .error fault) : fault.event?.isSome = true := by
  simp only [addModel, register] at h
  cases haccept : r.accept (d.name.getD "") (d.body.getD default).properties with
  | ok model => simp [haccept] at h
  | error other =>
    obtain rfl : other = fault := by simpa [haccept] using h
    simp only [accept] at haccept
    split at haccept
    · obtain rfl := Except.error.inj haccept
      rfl
    · split at haccept
      · obtain rfl := Except.error.inj haccept
        rfl
      · split at haccept
        · obtain rfl := Except.error.inj haccept
          rfl
        · cases haccept

/-- Every fault of a file is reported. -/
theorem isSome_event?_of_outcome {files : List (String × Option String)} {fault : SchemaError}
    (h : .error fault ∈ r.outcomes files) : fault.event?.isSome = true := by
  obtain ⟨i, hi, heq⟩ := List.mem_mapIdx.mp h
  rw [outcomeAfter] at heq
  generalize files[i] = file at heq
  generalize r.run _ = before at heq
  cases hread : readDefinition file.1 file.2 with
  | error other =>
    obtain rfl : other = fault := by simpa [hread, Except.bind] using heq
    exact isSome_event?_of_readDefinition hread
  | ok d => exact before.isSome_event?_of_addModel (by simpa [hread, Except.bind] using heq)

/-- Every declaration that was not resolved is reported. -/
theorem isSome_event?_of_unresolved {fault : SchemaError} (h : fault ∈ r.resolveAll.value.1.unresolved) :
    fault.event?.isSome = true := by
  obtain ⟨x, hx, houtcome⟩ := List.mem_filterMap.mp h
  obtain ⟨source, declaration, -, hresolve⟩ := exists_declaration hx
  cases hfault : x.outcome with
  | ok relation => simp [hfault] at houtcome
  | error other =>
    obtain rfl : other = fault := by simpa [hfault] using houtcome
    rw [hresolve, resolveOne] at hfault
    split at hfault
    · obtain rfl := Except.error.inj hfault
      rfl
    · split at hfault
      · obtain rfl := Except.error.inj hfault
        rfl
      · cases hfault

/-- Faults that are reported have one warning each. -/
theorem length_flatMap_warnings {faults : List SchemaError} (h : ∀ fault ∈ faults, fault.event?.isSome = true) :
    (faults.flatMap SchemaError.warnings).length = faults.length := by
  induction faults with
  | nil => rfl
  | cons fault rest ih =>
    obtain ⟨event, hevent⟩ := Option.isSome_iff_exists.mp (h fault List.mem_cons_self)
    rw [List.flatMap_cons, List.length_append, ih fun other hother => h other (List.mem_cons_of_mem _ hother),
      SchemaError.warnings, hevent, List.length_cons, Nat.add_comm]
    rfl

/-- The warnings of files are their faults and the properties of unknown type of their models. -/
theorem length_flatMap_outcomeWarnings {results : List (Except SchemaError Model)}
    (h : ∀ fault, .error fault ∈ results → fault.event?.isSome = true) :
    (results.flatMap outcomeWarnings).length = (results.filterMap fault?).length +
      ((results.filterMap Except.toOption).flatMap Model.unknownProperties).length := by
  induction results with
  | nil => rfl
  | cons result rest ih =>
    have hrest := ih fun fault hfault => h fault (List.mem_cons_of_mem _ hfault)
    rw [List.flatMap_cons, List.length_append, hrest, List.filterMap_cons, List.filterMap_cons]
    cases result with
    | error fault =>
      have hone : ([fault].flatMap SchemaError.warnings).length = 1 :=
        length_flatMap_warnings (by simpa using h fault List.mem_cons_self)
      rw [List.flatMap_singleton] at hone
      simp only [outcomeWarnings, hone, fault?, Except.toOption, List.length_cons]
      omega
    | ok model =>
      simp only [outcomeWarnings, Model.warnings, List.length_map, fault?, Except.toOption, List.flatMap_cons,
        List.length_append]
      omega

/-- A file is registered or skipped, and not both. -/
theorem length_registered_add_skipped (results : List (Except SchemaError Model)) :
    (results.filterMap fun result => result.toOption.map Model.name).length +
      (results.filterMap fault?).length = results.length := by
  induction results with
  | nil => rfl
  | cons result rest ih =>
    rw [List.filterMap_cons, List.filterMap_cons, List.length_cons, ← ih]
    cases result <;> simp only [fault?, Except.toOption, Option.map_none, Option.map_some, List.length_cons] <;> omega

/-! ## A second scan -/

/-- A definition is accepted when its name is not empty and is free and it has properties. -/
theorem accepts_iff {d : Definition} : r.accepts d = true ↔
    d.modelName ≠ "" ∧ (d.body.getD default).properties.isSome = true ∧ r.models.get? d.modelName = none := by
  have haccept : r.accepts d = (r.accept (d.name.getD "") (d.body.getD default).properties).isOk := by
    simp only [accepts, addModel, register]
    cases r.accept (d.name.getD "") (d.body.getD default).properties <;> rfl
  rw [haccept, Definition.modelName]
  simp only [accept]
  by_cases hname : Text.trimmed (d.name.getD "") = ""
  · simp [hname, Except.isOk, Except.toBool]
  · cases (d.body.getD default).properties with
    | none => simp [hname, Except.isOk, Except.toBool]
    | some properties =>
      cases hmodel : r.models.get? (Text.trimmed (d.name.getD "")) <;>
        simp [hname, Dictionary.contains, hmodel, Except.isOk, Except.toBool]

/-- A definition that has been added, or refused, is refused from then on. -/
theorem accepts_addModel (d : Definition) : (r.addModel d).value.2.accepts d = false := by
  obtain ⟨hrefused, heq⟩ | ⟨-, -, heq⟩ := r.addModel_cases d
  · rw [heq, hrefused]
  · refine Bool.eq_false_iff.mpr fun haccepts => ?_
    have hfree := ((accepts_iff _).mp haccepts).2.2
    rw [heq, taking, Dictionary.get?_insert, if_pos rfl] at hfree
    cases hfree

/-- A definition that is refused is refused when others have been added. -/
theorem accepts_addModel_of_refused {d : Definition} (h : r.accepts d = false) (other : Definition) :
    (r.addModel other).value.2.accepts d = false := by
  obtain ⟨-, heq⟩ | ⟨-, -, heq⟩ := r.addModel_cases other
  · rw [heq, h]
  · refine Bool.eq_false_iff.mpr fun haccepts => Bool.eq_false_iff.mp h ?_
    obtain ⟨hname, hproperties, hfree⟩ := (accepts_iff _).mp haccepts
    refine (accepts_iff r).mpr ⟨hname, hproperties, ?_⟩
    rw [heq, taking, Dictionary.get?_insert] at hfree
    split at hfree
    · cases hfree
    · exact hfree

/-- Resolving does not change which definitions are refused. -/
theorem accepts_resolveAll (d : Definition) : r.resolveAll.value.2.accepts d = r.accepts d := by
  have hget : r.resolveAll.value.2.models.get? d.modelName = none ↔ r.models.get? d.modelName = none := by
    simp only [resolveAll, Dictionary.get?_map, Option.map_eq_none_iff]
  refine Bool.eq_iff_iff.mpr ?_
  rw [accepts_iff, accepts_iff, hget]

/-- A definition that is refused is refused when files have been added. -/
theorem accepts_run_of_refused {d : Definition} (h : r.accepts d = false) (files : List (String × Option String)) :
    (r.run (additions files)).accepts d = false := by
  induction files generalizing r with
  | nil => exact h
  | cons file rest ih =>
    rw [run_additions_cons]
    refine ih _ ?_
    rw [addFile]
    cases readDefinition file.1 file.2 with
    | error fault => exact h
    | ok other => exact r.accepts_addModel_of_refused h other

/-- Whether a registry refuses every definition of files. -/
def Refuses (r : Registry) (files : List (String × Option String)) : Prop :=
  ∀ file ∈ files, ∀ d, readDefinition file.1 file.2 = .ok d → r.accepts d = false

/-- The definitions of files that have been added are refused from then on. -/
theorem refuses_run (files : List (String × Option String)) : (r.run (additions files)).Refuses files := by
  induction files generalizing r with
  | nil => exact nofun
  | cons file rest ih =>
    rw [run_additions_cons]
    intro other hother d hread
    rcases List.mem_cons.mp hother with rfl | hrest
    · refine accepts_run_of_refused _ ?_ rest
      rw [addFile, hread]
      exact r.accepts_addModel d
    · exact ih _ other hrest d hread

/-- A file whose definition is refused gives a fault and leaves no trace. -/
theorem addFile_of_refuses {file : String × Option String} (h : r.Refuses [file]) :
    (∃ fault, (r.addFile file.1 file.2).value.1 = .error fault) ∧ (r.addFile file.1 file.2).value.2 = r := by
  rw [addFile]
  cases hread : readDefinition file.1 file.2 with
  | error fault => exact ⟨⟨fault, rfl⟩, rfl⟩
  | ok d =>
    have hrefused := h file List.mem_cons_self d hread
    refine ⟨?_, addModel_of_refused hrefused⟩
    rw [accepts] at hrefused
    cases houtcome : (r.addModel d).value.1 with
    | error fault => exact ⟨fault, rfl⟩
    | ok model => simp [houtcome, Except.isOk, Except.toBool] at hrefused

/-- Files whose definitions are refused register nothing and leave no trace. -/
theorem outcomes_of_refuses {files : List (String × Option String)} (h : r.Refuses files) :
    (r.outcomes files).filterMap (fun result => result.toOption.map Model.name) = [] ∧
      r.run (additions files) = r := by
  induction files with
  | nil => exact ⟨rfl, rfl⟩
  | cons file rest ih =>
    have hfirst : r.Refuses [file] := fun other hother =>
      h other (List.mem_cons.mpr (Or.inl (List.mem_singleton.mp hother)))
    obtain ⟨⟨fault, hfault⟩, hkept⟩ := r.addFile_of_refuses hfirst
    obtain ⟨hnothing, hrun⟩ := ih fun other hother => h other (List.mem_cons_of_mem _ hother)
    rw [outcomes_cons, run_additions_cons, hkept, hfault]
    exact ⟨hnothing, hrun⟩

/-! ## Scans -/

/-- The definition files of a directory in the order of their names, with their paths and what they hold. -/
def jsonFiles (directory : String) (entries : Dictionary FileEntry) : List (String × Option String) :=
  entries.entries.filterMap fun (name, entry) =>
    match entry with
    | .file content =>
      if FileTree.hasExtension name definitionExtension then some (FileTree.joinPath directory name, content)
      else none
    | .directory => none

/-- Whether the path of a file is no longer than a path may be. -/
def IsSeen (file : String × Option String) : Prop :=
  file.1.utf8ByteSize ≤ FileTree.pathLimit

instance : DecidablePred IsSeen :=
  fun _ => Nat.decLe ..

/-- A scan sees the definition files whose paths are not too long. -/
theorem definitionFiles_eq (directory : String) (entries : Dictionary FileEntry) :
    definitionFiles directory entries = (jsonFiles directory entries).filter fun file => IsSeen file := by
  rw [definitionFiles, jsonFiles]
  induction entries.entries with
  | nil => rfl
  | cons entry rest ih =>
    obtain ⟨name, content | -⟩ := entry
    · simp only [List.filterMap_cons, ih]
      by_cases hextension : FileTree.hasExtension name definitionExtension = true
      · by_cases hseen : (FileTree.joinPath directory name).utf8ByteSize ≤ FileTree.pathLimit
        · simp [hextension, hseen, IsSeen]
        · simp [hextension, hseen, IsSeen]
      · simp [hextension]
    · exact ih

/-- What a scan that sees files comes to. -/
structure Accounts (r : Registry) (seen : List (String × Option String)) (report : ScanReport)
    (after : Registry) (signals : List Signal) : Prop where
  /-- The definitions that can be read are added in order, and then all relations are resolved. -/
  registry : after = r.run (additions seen ++ [.resolve])
  relations : report.relations = (r.run (additions seen)).resolveAll.value.1
  /-- The names of the models that were registered, in the order of the files. -/
  registered : report.registered = (r.outcomes seen).filterMap fun result => result.toOption.map Model.name
  /-- The faults of the other files, in the order of the files. -/
  skipped : report.skipped = (r.outcomes seen).filterMap fault?
  complete : report.registered.length + report.skipped.length = seen.length
  /-- The warnings are those of the files and those of the relations that were not resolved. -/
  warnings : Diagnostic.warnings signals =
    (r.outcomes seen).flatMap outcomeWarnings ++ report.relations.unresolved.flatMap SchemaError.warnings
  /-- They are as many as the files that were skipped, the relations that were not resolved, and the properties of
  unknown type of the models that were registered. -/
  counted : (Diagnostic.warnings signals).length =
    report.skipped.length + report.relations.unresolved.length +
      (((r.outcomes seen).filterMap Except.toOption).flatMap Model.unknownProperties).length

/-- Resolving comes after the steps before it. -/
theorem run_append_resolve (steps : List RegistryStep) :
    r.run (steps ++ [.resolve]) = (r.run steps).resolveAll.value.2 := by
  rw [run, List.foldl_append]
  rfl

/-- The report of a scan that sees files. -/
def reportOn (r : Registry) (seen : List (String × Option String)) : ScanReport where
  registered := (r.outcomes seen).filterMap fun result => result.toOption.map Model.name
  skipped := (r.outcomes seen).filterMap fault?
  relations := (r.run (additions seen)).resolveAll.value.1

/-- A scan reports on the files that it sees, and resolves the relations after adding their definitions. -/
theorem scanEntries_eq (directory : String) (entries : Dictionary FileEntry) :
    let seen := definitionFiles directory entries
    r.scanEntries directory (some entries) =
      ⟨(.ok (r.reportOn seen), r.run (additions seen ++ [.resolve])),
        (r.outcomes seen).flatMap outcomeSignals ++ (r.run (additions seen)).resolveAll.signals ++
          [.event .schemaScanned
            [("dir", directory), ("registered", toString (r.reportOn seen).registered.length),
              ("skipped", toString (r.reportOn seen).skipped.length)]]⟩ := by
  intro seen
  rw [run_append_resolve]
  simp only [scanEntries, addFiles_eq]
  -- Both sides are the same but for the function that finds the faults.
  refine congrArg (fun find : Except SchemaError Model → Option SchemaError =>
    Reported.mk
      (Except.ok (ScanReport.mk (r.reportOn seen).registered ((r.outcomes seen).filterMap find)
        (r.reportOn seen).relations), (r.run (additions seen)).resolveAll.value.2)
      ((r.outcomes seen).flatMap outcomeSignals ++ (r.run (additions seen)).resolveAll.signals ++
        [.event .schemaScanned
          [("dir", directory), ("registered", toString (r.reportOn seen).registered.length),
            ("skipped", toString ((r.outcomes seen).filterMap find).length)]]))
    (funext fun result => ?_ : _ = fault?)
  cases result <;> rfl

/-- The warnings of a scan are those of the files that it sees and of the relations that it does not resolve. -/
theorem warnings_scanEntries (directory : String) (entries : Dictionary FileEntry) :
    Diagnostic.warnings (r.scanEntries directory (some entries)).signals =
      (r.outcomes (definitionFiles directory entries)).flatMap outcomeWarnings ++
        (r.run (additions (definitionFiles directory entries))).resolveAll.value.1.unresolved.flatMap
          SchemaError.warnings := by
  have hscanned (details : Details) : Diagnostic.warnings [.event .schemaScanned details] = [] := rfl
  have hfile (result : Except SchemaError Model) :
      Diagnostic.warnings (outcomeSignals result) = outcomeWarnings result := by
    cases result with
    | error fault => exact fault.warnings_signals
    | ok model => exact warnings_acceptedSignals model
  simp only [scanEntries_eq, Diagnostic.warnings_append, Diagnostic.warnings_flatMap, hfile, hscanned,
    warnings_resolveAll, List.append_nil]

/-- A scan accounts for the files that it sees. -/
theorem accounts_scanEntries (directory : String) (entries : Dictionary FileEntry) :
    r.Accounts (definitionFiles directory entries) (r.reportOn (definitionFiles directory entries))
      (r.run (additions (definitionFiles directory entries) ++ [.resolve]))
      (r.scanEntries directory (some entries)).signals where
  registry := rfl
  relations := rfl
  registered := rfl
  skipped := rfl
  complete := (length_registered_add_skipped _).trans List.length_mapIdx
  warnings := r.warnings_scanEntries directory entries
  counted := by
    rw [warnings_scanEntries, List.length_append, Nat.add_right_comm,
      length_flatMap_outcomeWarnings fun _ => r.isSome_event?_of_outcome,
      length_flatMap_warnings fun _ => isSome_event?_of_unresolved _]
    rfl

/-- A second scan is refused every definition and finds the relations resolved. -/
theorem run_additions_twice (seen : List (String × Option String)) :
    let after := r.run (additions seen ++ [.resolve])
    (after.reportOn seen).registered = [] ∧ after.run (additions seen ++ [.resolve]) = after := by
  intro after
  have hafter : after = (r.run (additions seen)).resolveAll.value.2 := r.run_append_resolve _
  have hrefuses : after.Refuses seen := fun file hfile d hread => by
    rw [hafter, accepts_resolveAll]
    exact r.refuses_run seen file hfile d hread
  obtain ⟨hnothing, hrun⟩ := after.outcomes_of_refuses hrefuses
  refine ⟨hnothing, ?_⟩
  calc after.run (additions seen ++ [.resolve])
      = (after.run (additions seen)).resolveAll.value.2 := after.run_append_resolve _
    _ = after.resolveAll.value.2 := by rw [hrun]
    _ = after := by rw [hafter, resolveAll_resolveAll]

/-- A directory that cannot be listed gives a fault, and nothing else happens. Any other directory is accounted
for, as far as its files are seen, and a second scan of it registers nothing and changes nothing. -/
theorem scan_accounts (r : Registry) (files : FileTree) (directory : String) :
    match files.list? directory with
    | none => r.scan files directory = ⟨(.error (.malformedDefinition directory .unreadableDirectory), r), []⟩
    | some entries =>
      ∃ report after, (r.scan files directory).value = (.ok report, after) ∧
        r.Accounts ((jsonFiles directory entries).filter fun file => IsSeen file) report after
          (r.scan files directory).signals ∧
        ∃ again, (after.scan files directory).value = (.ok again, after) ∧ again.registered = [] := by
  simp only [scan]
  cases files.list? directory with
  | none => rfl
  | some entries =>
    dsimp only
    rw [← definitionFiles_eq]
    have hvalue (r : Registry) : (r.scanEntries directory (some entries)).value =
        (.ok (r.reportOn (definitionFiles directory entries)),
          r.run (additions (definitionFiles directory entries) ++ [.resolve])) :=
      congrArg Reported.value (r.scanEntries_eq directory entries)
    obtain ⟨hnothing, hkept⟩ := r.run_additions_twice (definitionFiles directory entries)
    have hagain := hvalue (r.run (additions (definitionFiles directory entries) ++ [.resolve]))
    rw [hkept] at hagain
    exact ⟨_, _, hvalue r, r.accounts_scanEntries directory entries, _, hagain, hnothing⟩

/-! ## A file that is not seen -/

/-- A directory with a definition in it, named by a path that leaves no room for the name of the file: the scan
neither registers the file nor reports it. -/
theorem scan_misses_long_path :
    let directory := FileTree.roundabout "models" 2044
    let book := "\x7b\"name\": \"Book\", \"schema\": \x7b\"properties\": \x7b\x7d\x7d\x7d"
    let files : FileTree := ⟨[(["models"], .directory), (["models", "Book.json"], .file (some book))]⟩
    ∃ entries report after, files.list? directory = some entries ∧
      jsonFiles directory entries = [(FileTree.joinPath directory "Book.json", some book)] ∧
      (readDefinition (FileTree.joinPath directory "Book.json") (some book)).isOk = true ∧
      (empty.scan files directory).value = (.ok report, after) ∧ report.registered = [] ∧ report.skipped = [] := by
  intro directory book files
  let entries : Dictionary FileEntry := .ofList [("Book.json", .file (some book))]
  have hdirectory : directory.utf8ByteSize = 4094 := FileTree.utf8ByteSize_roundabout "models" 2044
  have hlist : files.list? directory = some entries :=
    have hparts : FileTree.parts? "models" = some ["models"] := by decide +kernel
    files.list?_roundabout hparts (hdirectory.trans_le (by decide))
  clear_value directory
  have hextension : FileTree.hasExtension "Book.json" definitionExtension = true := by decide +kernel
  have hjson : jsonFiles directory entries = [(FileTree.joinPath directory "Book.json", some book)] := by
    change List.filterMap _ [("Book.json", FileEntry.file (some book))] = _
    simp [hextension]
  have hunseen : ¬IsSeen (FileTree.joinPath directory "Book.json", some book) := by
    have hplain : ("Book.json" : String).toList.head? ≠ some '/' := by decide +kernel
    have hsize := FileTree.le_utf8ByteSize_joinPath directory hplain
    rw [hdirectory] at hsize
    exact Nat.not_le.mpr (Nat.lt_of_lt_of_le (by decide +kernel) hsize)
  have hread : (readDefinition (FileTree.joinPath directory "Book.json") (some book)).isOk = true := by
    have hparsed : ((Document.ofText? book).bind Definition.ofDocument?).isSome = true := by decide +kernel
    obtain ⟨d, hd⟩ := Option.isSome_iff_exists.mp hparsed
    simp only [readDefinition, hd]
    rfl
  have hnothing : definitionFiles directory entries = [] := by
    rw [definitionFiles_eq, hjson, List.filter_cons_of_neg (by simpa using hunseen)]
    rfl
  refine ⟨entries, empty.reportOn [], empty.run (additions [] ++ [.resolve]), hlist, hjson, hread, ?_, rfl, rfl⟩
  rw [scan, hlist, scanEntries_eq, hnothing]

end Registry

end SchemaQuery
