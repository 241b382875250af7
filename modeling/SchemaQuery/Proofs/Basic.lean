import SchemaQuery.Dictionary
import SchemaQuery.Json.Value

/-!
# Steps that may fail, and looking names up

A computation that may fail and succeeds has succeeded at every step. Rows and dictionaries read back what
was put into them: giving a name a value changes the answer for that name alone, extending a row by names
it lacks is appending, and a dictionary that is changed value by value answers with the changed value.
-/

namespace SchemaQuery

section Outcomes

variable {ε α β : Type}

/-- Two steps succeed together when the first gives what the second succeeds on. -/
theorem bind_eq_ok_iff {x : Except ε α} {f : α → Except ε β} {b : β} :
    x >>= f = .ok b ↔ ∃ a, x = .ok a ∧ f a = .ok b := by
  cases x with
  | error fault => simp [bind, Except.bind]
  | ok a => simp [bind, Except.bind]

/-- Two steps fail together when the first fails, or the second on what the first gives. -/
theorem bind_eq_error_iff {x : Except ε α} {f : α → Except ε β} {fault : ε} :
    x >>= f = .error fault ↔ x = .error fault ∨ ∃ a, x = .ok a ∧ f a = .error fault := by
  cases x with
  | error other => simp [bind, Except.bind]
  | ok a => simp [bind, Except.bind]

/-- Changing a result keeps a failure as it is. -/
theorem map_eq_error_iff {x : Except ε α} {f : α → β} {fault : ε} :
    x.map f = .error fault ↔ x = .error fault := by
  cases x <;> simp [Except.map]

/-- A changed result comes from a result. -/
theorem map_eq_ok_iff {x : Except ε α} {f : α → β} {b : β} :
    x.map f = .ok b ↔ ∃ a, x = .ok a ∧ f a = b := by
  cases x with
  | error fault => simp [Except.map]
  | ok a => simp [Except.map]

/-- Whether a result is there and has a given value is decided where values can be told apart. -/
instance decidableEqOk [DecidableEq α] (a : α) : (x : Except ε α) → Decidable (x = .ok a)
  | .ok b => decidable_of_iff (b = a) (by simp)
  | .error _ => isFalse nofun

/-- A result passes a test. -/
theorem any_toOption_iff {x : Except ε α} {test : α → Bool} :
    x.toOption.any test = true ↔ ∃ a, x = .ok a ∧ test a = true := by
  cases x with
  | error fault => simp [Except.toOption]
  | ok a => simp [Except.toOption]

end Outcomes

namespace Members

/-- Giving a name a value changes the answer for that name alone. -/
theorem get?_insert (m : Members) (name : String) (value : Json) (wanted : String) :
    (m.insert name value).get? wanted = if name = wanted then some value else m.get? wanted := by
  induction m with
  | nil => rfl
  | cons entry rest ih =>
    obtain ⟨other, old⟩ := entry
    by_cases hname : other = name
    · subst hname
      by_cases hwanted : other = wanted <;> simp [insert, get?, hwanted]
    · rw [insert, if_neg hname, get?, get?]
      by_cases hwanted : other = wanted
      · have hne : name ≠ wanted := fun h => hname (hwanted.trans h.symm)
        rw [if_pos hwanted, if_pos hwanted, if_neg hne]
      · rw [if_neg hwanted, if_neg hwanted, ih]

/-- Extending a row leaves the names alone that the extension does not give. -/
theorem get?_extend_of_not_mem (m more : Members) {name : String} (h : name ∉ more.names) :
    (m.extend more).get? name = m.get? name := by
  induction more generalizing m with
  | nil => rfl
  | cons entry rest ih =>
    simp only [names, List.map_cons, List.mem_cons, not_or] at h
    change ((m.insert entry.1 entry.2).extend rest).get? name = _
    rw [ih _ h.2, get?_insert, if_neg (Ne.symm h.1)]

/-- A name that is not among the members has no value. -/
theorem get?_eq_none_of_not_mem {m : Members} {name : String} (h : name ∉ m.names) :
    m.get? name = none := by
  induction m with
  | nil => rfl
  | cons entry rest ih =>
    simp only [names, List.map_cons, List.mem_cons, not_or] at h
    simp only [get?, if_neg (Ne.symm h.1)]
    exact ih h.2

/-- Of a row extended by distinct names, the extension answers first. -/
theorem get?_extend (m : Members) {more : Members} (h : more.names.Nodup) (name : String) :
    (m.extend more).get? name = (more.get? name).or (m.get? name) := by
  induction more generalizing m with
  | nil => rfl
  | cons entry rest ih =>
    obtain ⟨other, value⟩ := entry
    simp only [names, List.map_cons, List.nodup_cons] at h
    change ((m.insert other value).extend rest).get? name = _
    rw [ih _ h.2, get?_insert, get?]
    by_cases hname : other = name
    · have hnone : get? rest name = none := get?_eq_none_of_not_mem (hname ▸ h.1)
      rw [if_pos hname, if_pos hname, hnone]
      rfl
    · rw [if_neg hname, if_neg hname]

/-- The value of a name that is there is one of the members. -/
theorem mem_of_get?_eq_some {m : Members} {name : String} {value : Json}
    (h : m.get? name = some value) : (name, value) ∈ m := by
  induction m with
  | nil => simp [get?] at h
  | cons entry rest ih =>
    obtain ⟨other, old⟩ := entry
    by_cases hname : other = name
    · simp only [get?, if_pos hname, Option.some.injEq] at h
      exact List.mem_cons.mpr (Or.inl (by rw [hname, h]))
    · simp only [get?, if_neg hname] at h
      exact List.mem_cons_of_mem _ (ih h)

/-- Every name among the members has a value. -/
theorem exists_get?_of_mem {m : Members} {name : String} (h : name ∈ m.names) :
    ∃ value, m.get? name = some value := by
  induction m with
  | nil => simp [names] at h
  | cons entry rest ih =>
    obtain ⟨other, old⟩ := entry
    by_cases hname : other = name
    · exact ⟨old, by simp [get?, hname]⟩
    · have hrest : name ∈ names rest := by
        simpa [names, Ne.symm hname] using h
      obtain ⟨value, hvalue⟩ := ih hrest
      exact ⟨value, by simp [get?, hname, hvalue]⟩

/-- The names are those that have a value. -/
theorem mem_names_iff {m : Members} {name : String} : name ∈ m.names ↔ ∃ value, m.get? name = some value :=
  ⟨exists_get?_of_mem, fun ⟨_, hvalue⟩ => List.mem_map.mpr ⟨_, mem_of_get?_eq_some hvalue, rfl⟩⟩

/-- Giving a name a value brings in that name. -/
theorem mem_names_insert {m : Members} {name wanted : String} {value : Json} :
    wanted ∈ (m.insert name value).names ↔ name = wanted ∨ wanted ∈ m.names := by
  simp only [mem_names_iff, get?_insert]
  by_cases h : name = wanted <;> simp [h]

/-- The names of an extended row are those of the row and of the extension. -/
theorem mem_names_extend {m more : Members} {name : String} :
    name ∈ (m.extend more).names ↔ name ∈ m.names ∨ name ∈ more.names := by
  induction more generalizing m with
  | nil => simp [extend, names]
  | cons entry rest ih =>
    change name ∈ ((m.insert entry.1 entry.2).extend rest).names ↔ _
    rw [ih, mem_names_insert]
    simp only [names, List.map_cons, List.mem_cons, eq_comm (a := name)]
    rw [or_assoc, or_left_comm]

/-- Giving a name a value keeps the names distinct. -/
theorem nodup_names_insert {m : Members} (h : m.names.Nodup) (name : String) (value : Json) :
    (m.insert name value).names.Nodup := by
  induction m with
  | nil => exact List.nodup_cons.mpr ⟨List.not_mem_nil, List.nodup_nil⟩
  | cons entry rest ih =>
    obtain ⟨other, old⟩ := entry
    obtain ⟨hother, hrest⟩ := List.nodup_cons.mp h
    by_cases hname : other = name
    · rw [insert, if_pos hname]
      exact h
    · rw [insert, if_neg hname]
      refine List.nodup_cons.mpr ⟨fun hmem => ?_, ih hrest⟩
      exact (mem_names_insert.mp hmem).elim (fun heq => hname heq.symm) hother

/-- Extending a row keeps the names distinct. -/
theorem nodup_names_extend {m : Members} (h : m.names.Nodup) (more : Members) :
    (m.extend more).names.Nodup := by
  induction more generalizing m with
  | nil => exact h
  | cons entry rest ih => exact ih (nodup_names_insert h entry.1 entry.2)

/-- A new name comes last. -/
theorem insert_of_not_mem {m : Members} {name : String} (value : Json) (h : name ∉ m.names) :
    m.insert name value = m ++ [(name, value)] := by
  induction m with
  | nil => rfl
  | cons entry rest ih =>
    simp only [names, List.map_cons, List.mem_cons, not_or] at h
    simp only [insert, if_neg (Ne.symm h.1), List.cons_append]
    rw [ih h.2]

/-- Giving a name a value brings in no other member. -/
theorem mem_insert {m : Members} {name : String} {value : Json} {entry : String × Json}
    (h : entry ∈ m.insert name value) : entry = (name, value) ∨ entry ∈ m := by
  induction m with
  | nil => exact Or.inl (List.mem_singleton.mp h)
  | cons first rest ih =>
    obtain ⟨other, old⟩ := first
    by_cases hname : other = name
    · rw [insert, if_pos hname, hname] at h
      exact (List.mem_cons.mp h).imp_right (List.mem_cons_of_mem _)
    · rw [insert, if_neg hname] at h
      rcases List.mem_cons.mp h with rfl | hrest
      · exact Or.inr List.mem_cons_self
      · exact (ih hrest).imp_right (List.mem_cons_of_mem _)

/-- The members of an extended row are those of the row and of the extension. -/
theorem mem_extend {m more : Members} {entry : String × Json} (h : entry ∈ m.extend more) :
    entry ∈ m ∨ entry ∈ more := by
  induction more generalizing m with
  | nil => exact Or.inl h
  | cons first rest ih =>
    obtain hmem | hmem := ih h
    · obtain rfl | hmem := mem_insert hmem
      · exact Or.inr List.mem_cons_self
      · exact Or.inl hmem
    · exact Or.inr (List.mem_cons_of_mem _ hmem)

/-- Of the members whose names pass a test, the names that pass it are answered as before. -/
theorem get?_filter (m : Members) (test : String → Bool) (name : String) :
    get? (m.filter fun entry => test entry.1) name = if test name then m.get? name else none := by
  induction m with
  | nil => simp [get?]
  | cons entry rest ih =>
    obtain ⟨other, value⟩ := entry
    by_cases hname : other = name
    · subst hname
      cases htest : test other <;> simp [get?, htest, ih]
    · cases htest : test other <;> simp [get?, htest, hname, ih]

/-- Members with distinct names that a row lacks are appended to it. -/
theorem extend_of_disjoint (m more : Members) (hmore : more.names.Nodup)
    (h : ∀ name ∈ more.names, name ∉ m.names) : m.extend more = m ++ more := by
  induction more generalizing m with
  | nil => simp [extend]
  | cons entry rest ih =>
    simp only [names, List.map_cons, List.nodup_cons] at hmore
    change (m.insert entry.1 entry.2).extend rest = _
    rw [insert_of_not_mem entry.2 (h entry.1 (by simp [names])), ih _ hmore.2]
    · simp
    · intro name hname
      have hm : name ∉ names m := h name (by simp [names] at hname ⊢; exact Or.inr hname)
      have hne : name ≠ entry.1 := fun heq => hmore.1 (heq ▸ hname)
      simpa [names] using ⟨by simpa [names] using hm, hne⟩

/-- An object with distinct names is read as it stands. -/
theorem ofEntries_of_nodup {entries : Members} (h : entries.names.Nodup) :
    ofEntries entries = entries :=
  extend_of_disjoint [] entries h fun _ _ hmem => List.not_mem_nil hmem

end Members

namespace Dictionary

variable {α β : Type}

/-- Inserting into sorted entries changes the search for that name alone. -/
theorem find?_insertEntry (name : String) (value : α) (entries : List (String × α)) (wanted : String) :
    ((insertEntry name value entries).find? fun entry => entry.1 = wanted).map Prod.snd =
      if name = wanted then some value
      else (entries.find? fun entry => entry.1 = wanted).map Prod.snd := by
  induction entries with
  | nil => by_cases h : name = wanted <;> simp [insertEntry, h]
  | cons entry rest ih =>
    obtain ⟨other, old⟩ := entry
    unfold insertEntry
    by_cases hlt : name < other
    · rw [if_pos hlt, List.find?_cons]
      by_cases h : name = wanted <;> simp [h]
    · rw [if_neg hlt]
      by_cases hname : name = other
      · subst hname
        by_cases h : name = wanted <;> simp [h]
      · rw [if_neg hname, List.find?_cons, List.find?_cons]
        by_cases hother : other = wanted
        · have hne : name ≠ wanted := fun h => hname (h.trans hother.symm)
          simp [hother, hne]
        · simpa [hother] using ih

/-- Giving a name a value changes the answer for that name alone. -/
theorem get?_insert (d : Dictionary α) (name : String) (value : α) (wanted : String) :
    (d.insert name value).get? wanted = if name = wanted then some value else d.get? wanted :=
  find?_insertEntry name value d.entries wanted

/-- What a dictionary answers is one of the entries that it was made of. -/
theorem mem_of_get?_ofList {entries : List (String × α)} {name : String} {value : α}
    (h : (ofList entries).get? name = some value) : (name, value) ∈ entries := by
  suffices hfold : ∀ d : Dictionary α,
      (entries.foldl (fun d entry => d.insert entry.1 entry.2) d).get? name = some value →
        (name, value) ∈ entries ∨ d.get? name = some value by
    exact (hfold .empty h).resolve_right nofun
  clear h
  induction entries with
  | nil => exact fun d hd => Or.inr hd
  | cons entry rest ih =>
    intro d hd
    rcases ih _ hd with hmem | hget
    · exact Or.inl (List.mem_cons_of_mem _ hmem)
    · rw [get?_insert] at hget
      split at hget
      · next hname =>
        obtain rfl := Option.some.inj hget
        exact Or.inl (hname ▸ List.mem_cons_self)
      · exact Or.inr hget

/-- Putting an entry where it is changes nothing. -/
theorem insertEntry_of_find? {name : String} {value : α} {entries : List (String × α)}
    (hsorted : entries.Pairwise (fun a b => a.1 < b.1))
    (h : (entries.find? fun entry => entry.1 = name).map Prod.snd = some value) :
    insertEntry name value entries = entries := by
  induction entries with
  | nil => cases h
  | cons entry rest ih =>
    obtain ⟨other, old⟩ := entry
    obtain ⟨hhead, hrest⟩ := List.pairwise_cons.mp hsorted
    by_cases hname : other = name
    · subst hname
      obtain rfl : old = value := by simpa using h
      rw [insertEntry, if_neg (String.lt_irrefl other), if_pos rfl]
    · rw [List.find?_cons_of_neg (by simpa using hname)] at h
      obtain ⟨found, hfound, -⟩ := Option.map_eq_some_iff.mp h
      have hlater : other < name := by
        have hmem := hhead found (List.mem_of_find?_eq_some hfound)
        rwa [show found.1 = name by simpa using List.find?_some hfound] at hmem
      rw [insertEntry, if_neg (String.lt_asymm hlater), if_neg (Ne.symm hname), ih hrest h]

/-- Giving a name the value it has changes nothing. -/
theorem insert_of_get?_eq_some {d : Dictionary α} {name : String} {value : α}
    (h : d.get? name = some value) : d.insert name value = d := by
  obtain ⟨entries, hsorted⟩ := d
  simp only [insert, insertEntry_of_find? hsorted h]

/-- Changing every value changes every answer likewise. -/
theorem get?_map (d : Dictionary α) (f : String → α → β) (wanted : String) :
    (d.map f).get? wanted = (d.get? wanted).map (f wanted) := by
  change ((d.entries.map fun entry => (entry.1, f entry.1 entry.2)).find? fun entry =>
    entry.1 = wanted).map Prod.snd = ((d.entries.find? fun entry => entry.1 = wanted).map Prod.snd).map _
  induction d.entries with
  | nil => rfl
  | cons entry rest ih =>
    by_cases h : entry.1 = wanted
    · simp [h]
    · simpa [h] using ih

/-- What a dictionary answers are its entries. -/
theorem get?_eq_some_iff {d : Dictionary α} {name : String} {value : α} :
    d.get? name = some value ↔ (name, value) ∈ d.entries := by
  obtain ⟨entries, hsorted⟩ := d
  change (entries.find? fun entry => entry.1 = name).map Prod.snd = some value ↔ _
  induction entries with
  | nil => simp
  | cons entry rest ih =>
    obtain ⟨other, old⟩ := entry
    obtain ⟨hhead, hrest⟩ := List.pairwise_cons.mp hsorted
    by_cases hname : other = name
    · subst hname
      -- A later entry has a greater name.
      have hlater : (other, value) ∉ rest := fun hmem => String.lt_irrefl other (hhead _ hmem)
      simp [hlater, eq_comm]
    · have hne : (name, value) ≠ (other, old) := fun h => hname (congrArg Prod.fst h).symm
      simpa [hname, hne] using ih hrest

/-- The names of a dictionary are distinct. -/
theorem nodup_names (d : Dictionary α) : d.names.Nodup :=
  List.pairwise_map.mpr (d.sorted.imp fun {a b} hlt (heq : a.1 = b.1) => String.lt_irrefl b.1 (heq ▸ hlt))

/-- The names are those that have a value. -/
theorem mem_names_iff {d : Dictionary α} {name : String} : name ∈ d.names ↔ (d.get? name).isSome = true := by
  rw [Option.isSome_iff_exists, names, List.mem_map]
  exact ⟨fun ⟨entry, hmem, hname⟩ => ⟨entry.2, get?_eq_some_iff.mpr (hname ▸ hmem)⟩,
    fun ⟨value, hvalue⟩ => ⟨(name, value), get?_eq_some_iff.mp hvalue, rfl⟩⟩

/-- Dictionaries with the same answers are the same. -/
theorem ext_get? {d other : Dictionary α} (h : ∀ name, d.get? name = other.get? name) : d = other := by
  have hnodup (d : Dictionary α) : d.entries.Nodup :=
    d.sorted.imp fun {a b} hlt (heq : a = b) => String.lt_irrefl b.1 (heq ▸ hlt)
  have hmem (entry : String × α) : entry ∈ d.entries ↔ entry ∈ other.entries := by
    rw [← get?_eq_some_iff, ← get?_eq_some_iff, h]
  -- Both lists rise, so that holding the same entries they hold them in one order.
  have hentries : d.entries = other.entries :=
    List.Perm.eq_of_pairwise (fun _ _ _ _ hab hba => absurd (String.lt_trans hab hba) (String.lt_irrefl _))
      d.sorted other.sorted ((List.perm_ext_iff_of_nodup (hnodup d) (hnodup other)).mpr hmem)
  cases d
  cases other
  cases hentries
  rfl

/-- A name with a value is known. -/
theorem contains_eq_true_iff (d : Dictionary α) (name : String) :
    d.contains name = true ↔ ∃ value, d.get? name = some value :=
  Option.isSome_iff_exists

end Dictionary

end SchemaQuery
