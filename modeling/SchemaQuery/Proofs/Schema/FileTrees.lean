import SchemaQuery.Proofs.Basic
import SchemaQuery.Schema.FileTree

/-!
# Writing a file into a directory

A file whose path is a directory and a name without slashes is in that directory: the parts of its path are
those of the directory and the name. Writing it makes no directory and removes none, so every path leads where
it led before, and the directory lists the file.
-/

namespace SchemaQuery

namespace FileTree

/-! ## Paths -/

/-- Characters without slashes do not begin with one. -/
theorem head?_ne_of_not_mem {cs : List Char} (h : '/' ∉ cs) : cs.head? ≠ some '/' :=
  fun hhead => h (List.mem_of_head? hhead)

/-- A path behind another one and a slash has the parts of both. -/
theorem splitPath_append (left right part : List Char) :
    splitPath (left ++ '/' :: right) part = splitPath left part ++ splitPath right [] := by
  induction left generalizing part with
  | nil => rfl
  | cons c rest ih =>
    by_cases hc : c = '/'
    · subst hc
      exact congrArg _ (ih [])
    · rw [List.cons_append, splitPath, splitPath, ih]
      all_goals exact hc

/-- A path without slashes is one part. -/
theorem splitPath_of_no_slash {cs : List Char} (h : '/' ∉ cs) (part : List Char) :
    splitPath cs part = [String.ofList (part.reverse ++ cs)] := by
  induction cs generalizing part with
  | nil => rw [splitPath, List.append_nil]
  | cons c rest ih =>
    simp only [List.mem_cons, not_or] at h
    rw [splitPath, ih h.2, List.reverse_cons, List.append_assoc, List.singleton_append]
    exact Ne.symm h.1

/-- A name behind a directory, with a slash between them if the directory does not end in one. -/
theorem toList_joinPath {directory name : String} (hdirectory : directory ≠ "")
    (hname : name.toList.head? ≠ some '/') :
    (joinPath directory name).toList = directory.toList ++
      (if directory.toList.getLast? = some '/' then [] else ['/']) ++ name.toList := by
  by_cases hlast : directory.toList.getLast? = some '/'
  · rw [joinPath, if_neg hname, if_pos (.inr hlast), if_pos hlast, String.toList_append, List.append_nil]
  · rw [joinPath, if_neg hname, if_neg (not_or.mpr ⟨hdirectory, hlast⟩), if_neg hlast,
      String.toList_append, String.toList_append]
    rfl

/-- The parts of a directory end in an empty one or not; behind them a name is a part of its own. -/
theorem splitPath_joinPath {directory name : String} (hdirectory : directory ≠ "")
    (hname : '/' ∉ name.toList) :
    ∃ above last, splitPath directory.toList [] = above ++ last ∧ (last = [] ∨ last = [""]) ∧
      splitPath (joinPath directory name).toList [] = above ++ [name] := by
  have hhead := head?_ne_of_not_mem hname
  have hsingle : splitPath name.toList [] = [name] := by
    rw [splitPath_of_no_slash hname, List.reverse_nil, List.nil_append, String.ofList_toList]
  rw [toList_joinPath hdirectory hhead]
  by_cases hlast : directory.toList.getLast? = some '/'
  · obtain ⟨above, habove⟩ := List.getLast?_eq_some_iff.mp hlast
    refine ⟨splitPath above [], [""], ?_, .inr rfl, ?_⟩
    · rw [habove, splitPath_append]
      rfl
    · rw [if_pos hlast, habove, List.append_nil, List.append_assoc, List.singleton_append,
        splitPath_append, hsingle]
  · refine ⟨splitPath directory.toList [], [], (List.append_nil _).symm, .inl rfl, ?_⟩
    rw [if_neg hlast, List.append_assoc, List.singleton_append, splitPath_append, hsingle]

/-- Names behind one directory are told apart by their paths, if the paths do not begin at the root of the
system. -/
theorem joinPath_inj {directory name other : String} (hdirectory : directory ≠ "")
    (hname : name.toList.head? ≠ some '/') (hpath : (joinPath directory name).toList.head? ≠ some '/')
    (h : joinPath directory other = joinPath directory name) : other = name := by
  by_cases hother : other.toList.head? = some '/'
  · have hself : joinPath directory other = other := by rw [joinPath, if_pos hother]
    rw [← h, hself] at hpath
    exact absurd hother hpath
  · have hlists := congrArg String.toList h
    rw [toList_joinPath hdirectory hname, toList_joinPath hdirectory hother] at hlists
    exact String.toList_inj.mp (List.append_cancel_left hlists)

/-- A path that has parts does not begin at the root of the system and is not too long. -/
theorem parts?_eq_some {path : String} {parts : List String} (h : parts? path = some parts) :
    path ≠ "" ∧ path.toList.head? ≠ some '/' ∧ path.toList.contains '\x00' = false ∧
      path.utf8ByteSize ≤ pathLimit ∧ parts = splitPath path.toList [] := by
  unfold parts? at h
  split at h
  · cases h
  · rename_i hgood
    simp only [not_or, Bool.not_eq_true, Nat.not_lt] at hgood
    exact ⟨hgood.1, hgood.2.1, hgood.2.2.1, hgood.2.2.2, (Option.some.inj h).symm⟩

/-! ## Places -/

variable {t : FileTree}

/-- Parts one after another lead where the later ones lead from the place of the earlier ones. -/
theorem follow?_append (t : FileTree) (left right : List String) (place : Location) :
    t.follow? (left ++ right) place =
      (t.follow? left place).bind fun reached => t.follow? right reached.reverse := by
  induction left generalizing place with
  | nil => rw [List.nil_append, follow?, Option.bind_some, List.reverse_reverse]
  | cons part rest ih =>
    simp only [List.cons_append, follow?]
    split
    · rfl
    · split
      · exact ih place
      · split
        · cases place with
          | nil => rfl
          | cons _ above => exact ih above
        · exact ih (part :: place)

/-- Paths lead to the same places in trees with the same directories. -/
theorem follow?_congr {other : FileTree} (h : other.isDirectoryAt = t.isDirectoryAt)
    (parts : List String) (place : Location) : other.follow? parts place = t.follow? parts place := by
  induction parts generalizing place with
  | nil => rfl
  | cons part rest ih => simp only [follow?, h, ih]

/-- Entries at other places are found without those of a place. -/
theorem lookup_filter_ne {place other : Location} (hne : other ≠ place)
    (entries : List (Location × FileEntry)) :
    (entries.filter fun e => e.1 ≠ place).lookup other = entries.lookup other := by
  induction entries with
  | nil => rfl
  | cons first rest ih =>
    obtain ⟨here, found⟩ := first
    by_cases hhere : here = place
    · have hother : (other == here) = false := beq_false_of_ne (hhere ▸ hne)
      rw [List.filter_cons_of_neg (by simp [hhere]), ih]
      simp only [List.lookup_cons, hother]
    · rw [List.filter_cons_of_pos (by simp [hhere])]
      simp only [List.lookup_cons, ih]

/-- What is put at a place is there, and everything else stays. -/
theorem entryAt?_put {place : Location} (hplace : place ≠ []) (entry : FileEntry) (other : Location) :
    (t.put place entry).entryAt? other = if other = place then some entry else t.entryAt? other := by
  by_cases hother : other = place
  · subst hother
    simp [put, entryAt?, hplace]
  · have hbeq : (other == place) = false := beq_false_of_ne hother
    simp only [put, entryAt?, if_neg hother, List.lookup_cons, hbeq, lookup_filter_ne hother]

/-- A file put where no directory is makes no directory and removes none. -/
theorem isDirectoryAt_put_file {place : Location} (h : t.isDirectoryAt place = false)
    (content : Option String) : (t.put place (.file content)).isDirectoryAt = t.isDirectoryAt := by
  have hplace : place ≠ [] := by
    rintro rfl
    cases h
  funext other
  simp only [isDirectoryAt, entryAt?_put hplace]
  by_cases hother : other = place
  · subst hother
    simpa [isDirectoryAt] using h.symm
  · rw [if_neg hother]

/-! ## Listing -/

/-- The entry of a name that no later entry has. -/
theorem get?_ofList_cons {α : Type} {name : String} (value : α) {others : List (String × α)}
    (h : ∀ entry ∈ others, entry.1 ≠ name) :
    (Dictionary.ofList ((name, value) :: others)).get? name = some value := by
  have hfold (d : Dictionary α) :
      (others.foldl (fun d entry => d.insert entry.1 entry.2) d).get? name = d.get? name := by
    induction others generalizing d with
    | nil => rfl
    | cons entry rest ih =>
      rw [List.forall_mem_cons] at h
      rw [List.foldl_cons, ih h.2, Dictionary.get?_insert, if_neg h.1]
  rw [Dictionary.ofList, List.foldl_cons, hfold, Dictionary.get?_insert, if_pos rfl]

/-- The name of an entry that is in a directory is the last part of its place. -/
theorem eq_of_childName? {directory place : Location} {name : String}
    (h : childName? directory place = some name) : place = directory ++ [name] := by
  unfold childName? at h
  split at h
  · rename_i last above hreverse
    split at h
    · rename_i habove
      obtain rfl := Option.some.inj h
      rw [← List.reverse_reverse place, hreverse, List.reverse_cons, habove]
    · cases h
  · cases h

/-- The name of a place in a directory. -/
theorem childName?_append (directory : Location) (name : String) :
    childName? directory (directory ++ [name]) = some name := by
  simp [childName?]

/-- A directory lists what is put at a place in it under its name. -/
theorem get?_entries_put (t : FileTree) (directory : Location) (name : String) (entry : FileEntry) :
    (Dictionary.ofList ((t.put (directory ++ [name]) entry).entries.filterMap fun e =>
      (childName? directory e.1).map fun child => (child, e.2))).get? name = some entry := by
  simp only [put, List.filterMap_cons, childName?_append, Option.map_some]
  refine get?_ofList_cons entry fun other hother hname => ?_
  obtain ⟨e, he, hchild⟩ := List.mem_filterMap.mp hother
  obtain ⟨child, hplace, rfl⟩ := Option.map_eq_some_iff.mp hchild
  obtain rfl : child = name := hname
  have hkept := (List.mem_filter.mp he).2
  simp [eq_of_childName? hplace] at hkept

/-- The path of a name behind a directory begins with the directory. -/
theorem joinPath_eq_append (directory : String) {name : String} (hname : name.toList.head? ≠ some '/') :
    ∃ rest, joinPath directory name = directory ++ rest := by
  unfold joinPath
  rw [if_neg hname]
  split
  · exact ⟨name, rfl⟩
  · exact ⟨"/" ++ name, String.append_assoc ..⟩

/-- A directory has parts when the path of a name in it has. -/
theorem parts?_of_joinPath {directory name : String} (hdirectory : directory ≠ "")
    (hname : name.toList.head? ≠ some '/') {parts : List String}
    (h : parts? (joinPath directory name) = some parts) :
    parts? directory = some (splitPath directory.toList []) := by
  obtain ⟨-, hhead, hnul, hsize, -⟩ := parts?_eq_some h
  obtain ⟨rest, hrest⟩ := joinPath_eq_append directory hname
  rw [hrest, String.toList_append] at hhead hnul
  rw [hrest, String.utf8ByteSize_append] at hsize
  have hfirst : directory.toList.head? ≠ some '/' := by
    intro hslash
    exact hhead (by rw [List.head?_append, hslash, Option.some_or])
  have hclean : directory.toList.contains '\x00' = false := by
    simp only [List.contains_eq_mem, List.mem_append, decide_eq_false_iff_not, not_or] at hnul ⊢
    exact hnul.1
  have hshort : ¬pathLimit < directory.utf8ByteSize := by omega
  rw [parts?, if_neg (by simp only [hdirectory, hfirst, hclean, hshort, Bool.false_eq_true, or_false,
    not_false_eq_true])]

/-- Where the path of a name in a directory leads: below the directory. -/
theorem locate?_joinPath {directory name : String} (hdirectory : directory ≠ "")
    (hname : '/' ∉ name.toList) (hplain : name ∉ ["", ".", ".."]) {place : Location}
    (h : t.locate? (joinPath directory name) = some place) :
    ∃ reached, t.locate? directory = some reached ∧ t.isDirectoryAt reached = true ∧
      place = reached ++ [name] := by
  simp only [List.mem_cons, List.not_mem_nil, or_false, not_or] at hplain
  obtain ⟨parts, hparts, hfollow⟩ := Option.bind_eq_some_iff.mp h
  obtain ⟨above, last, hsplit, hlast, hjoined⟩ := splitPath_joinPath hdirectory hname
  have hhead := head?_ne_of_not_mem hname
  obtain ⟨-, -, -, -, rfl⟩ := parts?_eq_some hparts
  rw [hjoined, follow?_append] at hfollow
  obtain ⟨reached, hreached, hbelow⟩ := Option.bind_eq_some_iff.mp hfollow
  simp only [follow?, List.reverse_reverse, hplain, or_self, if_false] at hbelow
  split at hbelow
  · cases hbelow
  · rename_i hnot
    rw [Bool.not_eq_true, Bool.not_eq_false] at hnot
    refine ⟨reached, ?_, hnot, ?_⟩
    · rw [locate?, parts?_of_joinPath hdirectory hhead hparts, Option.bind_some, hsplit, follow?_append,
        hreached, Option.bind_some]
      -- A slash at the end of a directory leads to the directory itself.
      obtain rfl | rfl := hlast
      · rw [follow?, List.reverse_reverse]
      · simp [follow?, hnot]
    · rw [← Option.some.inj hbelow, List.reverse_cons, List.reverse_reverse]

/-- The path of a file that is written has parts. -/
theorem exists_parts?_of_writeFile? {written : FileTree} {path : String} {content : Option String}
    (h : t.writeFile? path content = some written) : ∃ parts, parts? path = some parts := by
  unfold writeFile? at h
  cases hplace : t.locate? path with
  | none => simp [hplace] at h
  | some place =>
    obtain ⟨parts, hparts, -⟩ := Option.bind_eq_some_iff.mp hplace
    exact ⟨parts, hparts⟩

/-- A file written into a directory under a name that is one is listed there. -/
theorem list?_of_writeFile? {written : FileTree} {directory name : String} {content : Option String}
    (hdirectory : directory ≠ "") (hname : '/' ∉ name.toList) (hplain : name ∉ ["", ".", ".."])
    (h : t.writeFile? (joinPath directory name) content = some written) :
    ∃ entries, written.list? directory = some entries ∧ entries.get? name = some (.file content) := by
  unfold writeFile? at h
  cases hplace : t.locate? (joinPath directory name) with
  | none => simp [hplace] at h
  | some place =>
    simp only [hplace] at h
    split at h
    · cases h
    · rename_i hfree
      obtain rfl := Option.some.inj h
      obtain ⟨reached, hreached, hdir, rfl⟩ := locate?_joinPath hdirectory hname hplain hplace
      have hsame : (t.put (reached ++ [name]) (.file content)).isDirectoryAt = t.isDirectoryAt :=
        isDirectoryAt_put_file (Bool.eq_false_iff.mpr (not_or.mp hfree).1) content
      have hlocate : (t.put (reached ++ [name]) (.file content)).locate? directory = some reached := by
        simpa only [locate?, follow?_congr hsame] using hreached
      refine ⟨_, ?_, get?_entries_put t reached name (.file content)⟩
      rw [list?, hlocate]
      simp only [hsame, hdir, if_true]

/-! ## Ways round by the top -/

/-- A path with `./` before it, several times. -/
def roundabout (path : String) : Nat → String
  | 0 => path
  | n + 1 => "./" ++ roundabout path n

/-- Each `./` takes two bytes. -/
theorem utf8ByteSize_roundabout (path : String) (n : Nat) :
    (roundabout path n).utf8ByteSize = 2 * n + path.utf8ByteSize := by
  induction n with
  | zero => simp [roundabout]
  | succ n ih =>
    have hdot : ("./" : String).utf8ByteSize = 2 := by decide
    rw [roundabout, String.utf8ByteSize_append, ih, hdot]
    omega

/-- With `./` before it a path has one part more, if it is not too long. -/
theorem parts?_dot {path : String} {parts : List String} (h : parts? path = some parts)
    (hsize : path.utf8ByteSize + 2 ≤ pathLimit) : parts? ("./" ++ path) = some ("." :: parts) := by
  obtain ⟨-, -, hnul, -, rfl⟩ := parts?_eq_some h
  have hlist : ("./" ++ path).toList = '.' :: '/' :: path.toList := by simp
  have hlength : ("./" ++ path).utf8ByteSize = path.utf8ByteSize + 2 := by
    rw [String.utf8ByteSize_append, Nat.add_comm]
    rfl
  have hne : "./" ++ path ≠ "" := fun heq => by simp [heq] at hlist
  rw [parts?, if_neg, hlist]
  · rfl
  · rw [hlist, hlength]
    simp_all

/-- A way round by the top of the tree leads to the same place. -/
theorem locate?_roundabout (t : FileTree) {path : String} {parts : List String} (h : parts? path = some parts)
    {n : Nat} (hsize : (roundabout path n).utf8ByteSize ≤ pathLimit) :
    t.locate? (roundabout path n) = t.locate? path := by
  suffices hparts : parts? (roundabout path n) = some (List.replicate n "." ++ parts) by
    rw [locate?, locate?, hparts, h]
    clear hparts hsize
    induction n with
    | zero => rfl
    | succ n ih => exact ih
  rw [utf8ByteSize_roundabout] at hsize
  induction n with
  | zero => exact h
  | succ n ih =>
    refine parts?_dot (ih (by omega)) ?_
    rw [utf8ByteSize_roundabout]
    omega

/-- A way round by the top of the tree lists the same directory. -/
theorem list?_roundabout (t : FileTree) {path : String} {parts : List String} (h : parts? path = some parts)
    {n : Nat} (hsize : (roundabout path n).utf8ByteSize ≤ pathLimit) :
    t.list? (roundabout path n) = t.list? path := by
  rw [list?, list?, t.locate?_roundabout h hsize]

/-- A name adds its bytes to those of the directory. -/
theorem le_utf8ByteSize_joinPath (directory : String) {name : String} (hname : name.toList.head? ≠ some '/') :
    directory.utf8ByteSize + name.utf8ByteSize ≤ (joinPath directory name).utf8ByteSize := by
  rw [joinPath, if_neg hname]
  split
  · exact Nat.le_of_eq String.utf8ByteSize_append.symm
  · rw [String.utf8ByteSize_append, String.utf8ByteSize_append]
    omega

end FileTree

end SchemaQuery
