import SchemaQuery.Proofs.Schema.Codec
import SchemaQuery.Proofs.Schema.FileTrees
import SchemaQuery.Schema.Scan

/-!
# Scanning what has been saved

A definition is saved into a file that bears its name. If the name is a file name and the directory holds no
other definition, scanning finds the file, reads the definition back and registers it, with the outcome that
registering the definition has. A name with slashes leads out of the directory or below it, where scanning does
not look.
-/

namespace SchemaQuery

/-! ## The file of a definition -/

namespace Definition

/-- The name of a definition without the blanks around it. -/
def fileStem (d : Definition) : String :=
  Text.trimmed (d.name.getD "")

/-- The name of the file of a definition. -/
def fileName (d : Definition) : String :=
  d.fileStem ++ "." ++ Registry.definitionExtension

/-- The characters of the name of a file. -/
theorem toList_fileName (d : Definition) :
    d.fileName.toList = d.fileStem.toList ++ ".json".toList := by
  rw [fileName, String.toList_append, String.toList_append, List.append_assoc]
  rfl

/-- The name of a file has slashes only where the name of the definition has them. -/
theorem slash_not_mem_fileName {d : Definition} (h : '/' ∉ d.fileStem.toList) :
    '/' ∉ d.fileName.toList := by
  rw [toList_fileName, List.mem_append, not_or]
  exact ⟨h, by decide⟩

/-- The name of a file is no name that leads to another directory. -/
theorem fileName_not_mem (d : Definition) : d.fileName ∉ ["", ".", ".."] := by
  have hlength : d.fileName.toList.length = d.fileStem.toList.length + 5 := by
    rw [toList_fileName, List.length_append]
    rfl
  intro hmem
  simp only [List.mem_cons, List.not_mem_nil, or_false] at hmem
  obtain h | h | h := hmem
  all_goals
    rw [h] at hlength
    simp at hlength

/-- The file of a definition is a definition file. -/
theorem hasExtension_fileName {d : Definition} (h : d.fileStem ≠ "") :
    FileTree.hasExtension d.fileName Registry.definitionExtension = true := by
  have hstem : 0 < d.fileStem.toList.length :=
    List.length_pos_iff.mpr fun hnil => h (String.toList_eq_nil_iff.mp hnil)
  have hlength : 5 < d.fileName.length := by
    rw [← String.length_toList, toList_fileName, List.length_append]
    exact Nat.lt_add_of_pos_left hstem
  have hending : ".json".toList.reverse.isPrefixOf d.fileName.toList.reverse = true := by
    rw [toList_fileName, List.reverse_append, List.isPrefixOf_iff_prefix]
    exact List.prefix_append ..
  change (".json".toList.reverse.isPrefixOf d.fileName.toList.reverse &&
    decide (5 < d.fileName.length)) = true
  rw [hending, decide_eq_true hlength]
  rfl

end Definition

/-- What is saved is the text of the definition, in a file of its name. -/
theorem FileTree.saveDefinition_eq_ok {files : FileTree} {directory : String} {d : Definition}
    {saved : SavedDefinition} (h : (files.saveDefinition directory d).1 = .ok saved) :
    d.fileStem ≠ "" ∧ saved.path = joinPath directory d.fileName ∧ saved.content = d.toJson.pretty ∧
      ∃ made : FileTree, made.writeFile? (joinPath directory d.fileName) (some d.toJson.pretty) =
        some (files.saveDefinition directory d).2 := by
  unfold saveDefinition at h ⊢
  rw [Definition.fileName, Definition.fileStem]
  by_cases hstem : Text.trimmed (d.name.getD "") = ""
  · simp [hstem] at h
  · simp only [hstem, if_false] at h ⊢
    generalize joinPath directory
      (Text.trimmed (d.name.getD "") ++ "." ++ Registry.definitionExtension) = path at h ⊢
    by_cases hfound : (files.lookup? path).isSome
    · simp [hfound] at h
    · simp only [hfound] at h ⊢
      cases hmade : files.makeDirectory directory with
      | mk done made =>
        cases done with
        | false => simp [hmade] at h
        | true =>
          cases hwritten : made.writeFile? path (some d.toJson.pretty) with
          | none => simp [hmade, hwritten] at h
          | some written =>
            simp only [hmade, hwritten] at h
            obtain rfl := Except.ok.inj h
            refine ⟨hstem, rfl, rfl, made, ?_⟩
            simp only [hwritten]
            rfl

/-! ## Finding the file -/

/-- Whether a directory holds no definition file apart from one. -/
def FileTree.HoldsOnly (files : FileTree) (directory path : String) : Prop :=
  ∀ entries, files.list? directory = some entries →
    ∀ file ∈ Registry.definitionFiles directory entries, file.1 = path

/-- What is kept of a dictionary in which no entry but one is kept. -/
theorem Dictionary.filterMap_eq_singleton {α β : Type} {d : Dictionary α} {name : String} {value : α}
    (hget : d.get? name = some value) {f : String × α → Option β} {b : β} (hf : f (name, value) = some b)
    (hothers : ∀ entry ∈ d.entries, (f entry).isSome → entry.1 = name) :
    d.entries.filterMap f = [b] := by
  obtain ⟨before, after, hsplit⟩ := List.append_of_mem (get?_eq_some_iff.mp hget)
  have hsorted := d.sorted
  rw [hsplit, List.pairwise_append, List.pairwise_cons] at hsorted
  obtain ⟨-, ⟨hafter, -⟩, hbefore⟩ := hsorted
  have hnone (entries : List (String × α)) (hsub : ∀ entry ∈ entries, entry ∈ d.entries)
      (hne : ∀ entry ∈ entries, entry.1 ≠ name) : entries.filterMap f = [] :=
    List.filterMap_eq_nil_iff.mpr fun entry hentry =>
      Option.not_isSome_iff_eq_none.mp fun hsome => hne entry hentry (hothers entry (hsub entry hentry) hsome)
  rw [hsplit, List.filterMap_append, List.filterMap_cons_some hf, hnone before, hnone after,
    List.nil_append]
  · exact fun entry hentry => hsplit ▸ List.mem_append_right _ (List.mem_cons_of_mem _ hentry)
  · exact fun entry hentry heq => String.lt_irrefl _ (heq ▸ hafter entry hentry)
  · exact fun entry hentry => hsplit ▸ List.mem_append_left _ hentry
  · exact fun entry hentry heq => String.lt_irrefl _ (heq ▸ hbefore entry hentry _ List.mem_cons_self)

/-- A directory with a definition file and no other one has that file. -/
theorem Registry.definitionFiles_eq_singleton {entries : Dictionary FileEntry} {directory name : String}
    {content : Option String} (hdirectory : directory ≠ "") (hname : name.toList.head? ≠ some '/')
    (hpath : (FileTree.joinPath directory name).toList.head? ≠ some '/')
    (hshort : (FileTree.joinPath directory name).utf8ByteSize ≤ FileTree.pathLimit)
    (hextension : FileTree.hasExtension name definitionExtension = true)
    (hget : entries.get? name = some (.file content))
    (hothers : ∀ file ∈ definitionFiles directory entries, file.1 = FileTree.joinPath directory name) :
    definitionFiles directory entries = [(FileTree.joinPath directory name, content)] := by
  refine Dictionary.filterMap_eq_singleton hget (by simp [hextension, hshort]) fun entry hentry hkept => ?_
  obtain ⟨file, hfile⟩ := Option.isSome_iff_exists.mp hkept
  have hsame : file.1 = FileTree.joinPath directory name :=
    hothers file (List.mem_filterMap.mpr ⟨entry, hentry, hfile⟩)
  have hpathOf : file.1 = FileTree.joinPath directory entry.1 := by
    obtain ⟨other, found⟩ := entry
    cases found with
    | directory => cases hfile
    | file found =>
      simp only [Option.ite_none_right_eq_some] at hfile
      rw [← Option.some.inj hfile.2]
  exact FileTree.joinPath_inj hdirectory hname hpath (hpathOf.symm.trans hsame)

/-- A definition that has been saved under a name without slashes is found in the directory, when no other
definition is there. -/
theorem FileTree.list?_of_saveDefinition {files : FileTree} {directory : String} {d : Definition}
    {saved : SavedDefinition} (h : (files.saveDefinition directory d).1 = .ok saved)
    (hdirectory : directory ≠ "") (hstem : '/' ∉ d.fileStem.toList)
    (halone : (files.saveDefinition directory d).2.HoldsOnly directory saved.path) :
    ∃ entries, (files.saveDefinition directory d).2.list? directory = some entries ∧
      Registry.definitionFiles directory entries = [(saved.path, some d.toJson.pretty)] := by
  obtain ⟨hne, hsaved, -, made, hwritten⟩ := saveDefinition_eq_ok h
  have hname : '/' ∉ d.fileName.toList := Definition.slash_not_mem_fileName hstem
  have hhead := head?_ne_of_not_mem hname
  have hext := Definition.hasExtension_fileName hne
  obtain ⟨entries, hlist, hget⟩ := list?_of_writeFile? hdirectory hname d.fileName_not_mem hwritten
  obtain ⟨parts, hparts⟩ := exists_parts?_of_writeFile? hwritten
  obtain ⟨-, hpath, -, hshort, -⟩ := parts?_eq_some hparts
  have hothers := halone entries hlist
  rw [hsaved] at hothers ⊢
  exact ⟨entries, hlist,
    Registry.definitionFiles_eq_singleton hdirectory hhead hpath hshort hext hget hothers⟩

/-! ## Saving, then scanning -/

namespace Registry

/-- Registering a definition and resolving all relations, told as the scan of a directory that holds just this
definition is told. -/
def registerAlone (r : Registry) (d : Definition) : ScanReport × Registry :=
  let direct := r.addModel d
  let resolved := direct.value.2.resolveAll
  match direct.value.1 with
  | .ok model => (⟨[model.name], [], resolved.value.1⟩, resolved.value.2)
  | .error fault => (⟨[], [fault], resolved.value.1⟩, resolved.value.2)

/-- Scanning a directory with one definition file that can be read registers its definition. -/
theorem scanEntries_singleton (r : Registry) {directory path text : String}
    {entries : Dictionary FileEntry} {d : Definition}
    (hfiles : definitionFiles directory entries = [(path, some text)])
    (hread : (Document.ofText? text).bind Definition.ofDocument? = some d) :
    (r.scanEntries directory (some entries)).value =
      (.ok (r.registerAlone d).1, (r.registerAlone d).2) := by
  have hfile : r.addFile path (some text) = r.addModel d := by
    simp only [addFile, readDefinition, hread]
  have hadded : (r.addFiles [(path, some text)]).value =
      ([(r.addModel d).value.1], (r.addModel d).value.2) := by
    simp only [addFiles, hfile, Reported.silent]
  simp only [scanEntries, hfiles, hadded, registerAlone]
  cases (r.addModel d).value.1 <;> rfl

/-- Saving a definition and scanning the directory registers the definition: the scan succeeds and comes to the
same report and the same registry, whether the definition is accepted or refused. The name of the definition is
to be a file name, and the text of the definition is to be read as what it was printed from. -/
theorem scan_saveDefinition (r : Registry) {files : FileTree} {directory : String} {d : Definition}
    {saved : SavedDefinition} (h : (files.saveDefinition directory d).1 = .ok saved)
    (hdirectory : directory ≠ "") (hstem : '/' ∉ d.fileStem.toList) (hreadable : d.Readable)
    (halone : (files.saveDefinition directory d).2.HoldsOnly directory saved.path)
    (htext : Document.ofText? d.toJson.pretty = some d.toJson.toDocument) :
    (r.scan (files.saveDefinition directory d).2 directory).value =
      (.ok (r.registerAlone d).1, (r.registerAlone d).2) := by
  obtain ⟨entries, hlist, hfiles⟩ := FileTree.list?_of_saveDefinition h hdirectory hstem halone
  rw [scan, hlist]
  exact r.scanEntries_singleton hfiles (by
    rw [htext, Option.bind_some, Definition.ofDocument?_toJson hreadable])

/-- A shelf with a label, saved into a directory that is made for it. -/
theorem scan_saveDefinition_shelf :
    let shelf := (Definition.named " Shelf").addProperty "label" ⟨none, true, some (.str "top")⟩
    let after := (FileTree.empty.saveDefinition "models" shelf).2
    ∃ saved, (FileTree.empty.saveDefinition "models" shelf).1 = .ok saved ∧ "models" ≠ "" ∧
      '/' ∉ shelf.fileStem.toList ∧ shelf.Readable ∧ after.HoldsOnly "models" saved.path ∧
      Document.ofText? shelf.toJson.pretty = some shelf.toJson.toDocument ∧
      (Registry.empty.scan after "models").value =
        (.ok (Registry.empty.registerAlone shelf).1, (Registry.empty.registerAlone shelf).2) := by
  intro shelf after
  have hok : (FileTree.empty.saveDefinition "models" shelf).1.isOk = true := by decide +kernel
  have hpaths : (after.list? "models").all fun entries =>
      (definitionFiles "models" entries).all (·.1 = FileTree.joinPath "models" shelf.fileName) := by
    decide +kernel
  have hstem : '/' ∉ shelf.fileStem.toList := by decide +kernel
  have hreadable : shelf.Readable := by
    intro body hbody properties hproperties entry hentry value hvalue
    obtain rfl := Option.some.inj hbody
    obtain rfl := Option.some.inj hproperties
    obtain rfl := List.mem_singleton.mp hentry
    obtain rfl := Option.some.inj hvalue
    exact ⟨rfl, trivial⟩
  have htext : Document.ofText? shelf.toJson.pretty = some shelf.toJson.toDocument := by
    decide +kernel
  cases hsaved : (FileTree.empty.saveDefinition "models" shelf).1 with
  | error fault =>
    rw [hsaved] at hok
    cases hok
  | ok saved =>
    have halone : after.HoldsOnly "models" saved.path := by
      intro entries hentries file hfile
      rw [hentries, Option.all_some, List.all_eq_true] at hpaths
      rw [(FileTree.saveDefinition_eq_ok hsaved).2.1]
      exact of_decide_eq_true (hpaths file hfile)
    exact ⟨saved, rfl, by decide, hstem, hreadable, halone, htext,
      scan_saveDefinition _ hsaved (by decide) hstem hreadable halone htext⟩

/-- Definitions that are saved and do not scan back: one with a name that leads out of the directory is not
found, and one with a default that is null is read back without the default. -/
theorem scan_misses_saved :
    let files : FileTree := ⟨[(["models"], .directory)]⟩
    let book (name : String) (title : PropertyDeclaration) : Definition :=
      (Definition.named name).addProperty "title" title
    let outside := book "../Book" ⟨none, false, none⟩
    let untitled := book "Book" ⟨none, false, some .null⟩
    let scanned (d : Definition) : Registry :=
      (Registry.empty.scan (files.saveDefinition "models" d).2 "models").value.2
    let direct (d : Definition) : Registry := (Registry.empty.registerAlone d).2
    let defaults (r : Registry) : List Bool :=
      r.models.values.flatMap fun model => model.properties.values.map (·.fallback.isSome)
    (files.saveDefinition "models" outside).1.isOk = true ∧
      (scanned outside).models.names = [] ∧ (direct outside).models.names = ["../Book"] ∧
      (files.saveDefinition "models" untitled).1.isOk = true ∧
      defaults (scanned untitled) = [false] ∧ defaults (direct untitled) = [true] := by
  decide +kernel

end Registry

end SchemaQuery
